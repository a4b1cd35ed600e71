import Mathlib
import NodeGroups.Proofs.Traffic

/-!
# The counter of mutations

A group keeps a counter of the mutations that ended well, and nothing else of its past. A reload
reads the counter before it asks the cloud, and its view is installed only if the counter still
stands there. Against the record this means that no mutation ended well in between, as long as
there were not so many mutations in between that the counter came round.

The counter is raised at the moment when the change is brought into the state, and all views that
were on their way by then will be found too old.
-/

namespace NodeGroups.Group

variable {σ : Type}

/-! ## Mutations on record -/

def Event.isCompletion : Event σ → Bool
  | .completed .. => true
  | _ => false

def completions (record : List (Event σ)) : Nat := record.countP Event.isCompletion

theorem completions_append (since before : List (Event σ)) :
    completions (since ++ before) = completions since + completions before :=
  List.countP_append

theorem completions_cons_of_isCompletion {e : Event σ} (record : List (Event σ))
    (he : e.isCompletion = true) : completions (e :: record) = completions record + 1 :=
  List.countP_cons_of_pos he

theorem completions_cons_of_not_isCompletion {e : Event σ} (record : List (Event σ))
    (he : e.isCompletion = false) : completions (e :: record) = completions record :=
  List.countP_cons_of_neg (by rw [he]; nofun)

theorem completions_le_append (since before : List (Event σ)) :
    completions before ≤ completions (since ++ before) := by
  rw [completions_append]
  exact Nat.le_add_left _ _

theorem completions_eq_zero_iff {record : List (Event σ)} :
    completions record = 0 ↔ ∀ e ∈ record, e.isCompletion = false := by
  rw [completions, List.countP_eq_zero]
  exact forall₂_congr fun e _ ↦ Bool.not_eq_true e.isCompletion ▸ Iff.rfl

theorem Job.event?_ended {who : Nat} {s : State} {j : Job} (ending : Ending)
    (hidle : j.activity.isStoring = false) :
    (j.event? who s (.ended ending) : Option (Event σ)) = none := by
  obtain ⟨errand, activity⟩ := j
  cases activity with
  | started errand => cases errand <;> rfl
  | queued wish =>
    cases wish with
    | install generation cache => cases hidle
    | _ => rfl
  | accepted change => cases hidle
  | describing generation pending => cases generation <;> rfl
  | _ => rfl

/-! ## Where a reload read the counter -/

/-- What a reload read from the counter. -/
def Activity.generation? : Activity → Option UInt64
  | .describing generation _ => generation
  | .listing generation .. | .fetched generation _ | .queued (.install generation _) =>
    some generation
  | _ => none

theorem Activity.generation?_queued {errand : Errand} {wish : Wish}
    (hwish : errand.wish? = some wish) : (Activity.queued wish).generation? = none := by
  cases errand with
  | reload => cases hwish
  | _ => rw [← Option.some.inj hwish]; rfl

/-- The last time that somebody read the counter, it stood at `generation`, which is the number of
mutations up to then. -/
def CountedAt (who : Nat) (generation : UInt64) (record : List (Event σ)) : Prop :=
  ∃ since before, record = since ++ .counted who :: before ∧ .counted who ∉ since
    ∧ generation = .ofNat (completions before)

/-- No mutation ended well since somebody read the counter the last time. -/
def IsFresh (who : Nat) (record : List (Event σ)) : Prop :=
  ∃ since before, record = since ++ .counted who :: before ∧ .counted who ∉ since
    ∧ ∀ e ∈ since, e.isCompletion = false

/-- Between the moment at which a reload read the counter and the moment at which he installed his
view, there were not so many mutations that the counter came round. -/
def NeverCameRound (record : List (Event σ)) : Prop :=
  ∀ later who cache since before,
    record = later ++ .installed who cache :: (since ++ .counted who :: before) →
    .counted who ∉ since → completions since < 2 ^ 64

namespace CountedAt

variable {who : Nat} {generation : UInt64} {record : List (Event σ)}

theorem now (who : Nat) (record : List (Event σ)) :
    CountedAt who (.ofNat (completions record)) (.counted who :: record) :=
  ⟨[], record, rfl, List.not_mem_nil, rfl⟩

theorem keep (h : CountedAt who generation record) (event : Option (Event σ))
    (hevent : event ≠ some (.counted who)) :
    CountedAt who generation (event.toList ++ record) := by
  obtain ⟨since, before, rfl, hsince, hgeneration⟩ := h
  refine ⟨event.toList ++ since, before, (List.append_assoc _ _ _).symm, fun hmem ↦ ?_,
    hgeneration⟩
  rcases List.mem_append.mp hmem with hmem | hmem
  · exact hevent (Option.mem_toList.mp hmem)
  · exact hsince hmem

/-- If the counter still stands where somebody read it, and has not come round, no mutation ended
well since. -/
theorem isFresh (h : CountedAt who generation record) {cache : Cache}
    (hsame : UInt64.ofNat (completions record) = generation)
    (hround : NeverCameRound (.installed who cache :: record)) : IsFresh who record := by
  obtain ⟨since, before, rfl, hsince, rfl⟩ := h
  refine ⟨since, before, rfl, hsince, completions_eq_zero_iff.mp ?_⟩
  have hlt : completions since < 2 ^ 64 := hround [] who cache since before rfl hsince
  have hcons : completions (Event.counted who :: before) = completions before :=
    completions_cons_of_not_isCompletion before rfl
  -- Equal modulo `2 ^ 64`, and apart by less than that.
  rw [completions_append, hcons] at hsame
  have htoNat := congrArg UInt64.toNat hsame
  rw [UInt64.toNat_ofNat', UInt64.toNat_ofNat'] at htoNat
  omega

end CountedAt

namespace IsFresh

variable {who : Nat} {record : List (Event σ)}

theorem of_cons {e : Event σ} (h : IsFresh who (e :: record)) (he : e ≠ .counted who) :
    IsFresh who record ∧ e.isCompletion = false := by
  obtain ⟨since, before, hrecord, hsince, hnone⟩ := h
  cases since with
  | nil => exact absurd (List.cons.inj hrecord).1 he
  | cons e' since =>
    obtain ⟨rfl, rfl⟩ := List.cons.inj hrecord
    exact ⟨⟨since, before, rfl, fun hmem ↦ hsince (List.mem_cons_of_mem _ hmem),
      fun e'' hmem ↦ hnone e'' (List.mem_cons_of_mem _ hmem)⟩, hnone e List.mem_cons_self⟩

theorem of_append {event : Option (Event σ)} (h : IsFresh who (event.toList ++ record))
    (hevent : event ≠ some (.counted who)) : IsFresh who record := by
  cases event with
  | none => exact h
  | some e => exact (h.of_cons fun he ↦ hevent (congrArg some he)).1

end IsFresh

namespace NeverCameRound

variable {record : List (Event σ)}

theorem of_cons {e : Event σ} (h : NeverCameRound (e :: record)) : NeverCameRound record :=
  fun later who cache since before hrecord ↦
    h (e :: later) who cache since before (congrArg (e :: ·) hrecord)

theorem of_append {later : List (Event σ)} (h : NeverCameRound (later ++ record)) :
    NeverCameRound record := by
  induction later with
  | nil => exact h
  | cons e later ih => exact ih h.of_cons

/-- The counter does not come round with fewer mutations than it counts. -/
theorem of_completions_lt (hlt : completions record < 2 ^ 64) : NeverCameRound record := by
  rintro later who cache since before rfl -
  calc completions since
      ≤ completions (since ++ .counted who :: before) := by
        rw [completions_append]
        exact Nat.le_add_right _ _
    _ ≤ completions (.installed who cache :: (since ++ .counted who :: before)) :=
        completions_le_append [.installed who cache] _
    _ ≤ completions (later ++ .installed who cache :: (since ++ .counted who :: before)) :=
        completions_le_append _ _
    _ < 2 ^ 64 := hlt

end NeverCameRound

/-! ## The counter against the record -/

/-- The counter stands at the number of mutations on record, and each reload knows where it stood
when he read it. -/
structure Counted (record : List (Event σ)) (t : Traffic σ) : Prop where
  mutations : t.cell.state.mutations = .ofNat (completions record)
  countedAt : ∀ {who job generation}, t.jobs who = some job →
    job.activity.generation? = some generation → CountedAt who generation record

namespace Counted

variable {client : Client σ} {g : Group} {record : List (Event σ)} {t : Traffic σ}

theorem initial (cloud : σ) (clock : Clock) : Counted [] (Traffic.initial cloud clock) where
  mutations := rfl
  countedAt := nofun

theorem put (h : Counted record t) {who : Nat} {job : Job} (event : Option (Event σ))
    {cell : Cell} (cloud : σ)
    (hmutations : cell.state.mutations = .ofNat (completions (event.toList ++ record)))
    (hself : ∀ generation, job.activity.generation? = some generation →
      CountedAt who generation (event.toList ++ record))
    (hevent : ∀ other, other ≠ who → event ≠ some (.counted other)) :
    Counted (event.toList ++ record) { t.put who job with cell, cloud } where
  mutations := hmutations
  countedAt {other} {j} {generation} hj hgeneration := by
    refine Traffic.forall_put (p := fun other j ↦ ∀ generation,
      j.activity.generation? = some generation →
        CountedAt other generation (event.toList ++ record)) hself ?_ hj generation hgeneration
    intro other j hne hj generation hgeneration
    exact (h.countedAt hj hgeneration).keep event (hevent other hne)

theorem keep (h : Counted record t) {who : Nat} {job : Job} (event : Option (Event σ))
    {cell : Cell} (cloud : σ) (hmutations : cell.state.mutations = t.cell.state.mutations)
    (hnone : completions event.toList = 0)
    (hself : ∀ generation, job.activity.generation? = some generation →
      CountedAt who generation record)
    (hevent : ∀ other, event ≠ some (.counted other)) :
    Counted (event.toList ++ record) { t.put who job with cell, cloud } := by
  refine h.put event cloud ?_ (fun generation hgeneration ↦
    (hself generation hgeneration).keep event (hevent who)) fun other _ ↦ hevent other
  rw [hmutations, h.mutations, completions_append, hnone, Nat.zero_add]

theorem ended (h : Counted record t) {who : Nat} {job : Job} {cell : Cell} (cloud : σ)
    (ending : Ending) (hidle : job.activity.isStoring = false)
    (hmutations : cell.state.mutations = t.cell.state.mutations) :
    Counted ((job.event? who t.cell.state (.ended ending)).toList ++ record)
      { t.put who { job with activity := .ended ending } with cell, cloud } := by
  rw [Job.event?_ended ending hidle]
  exact h.keep none cloud hmutations rfl nofun nofun

theorem proceed (h : Counted record t) (horderly : Orderly g t) {who : Nat} {job : Job}
    {scene : Scene σ} (hjob : t.jobs who = some job)
    (hadvance : Advance client g who t.clock ⟨job.activity, t.cell, t.cloud⟩ scene) :
    Counted ((job.event? who t.cell.state scene.activity).toList ++ record)
      { t.put who { job with activity := scene.activity } with
        cell := scene.cell, cloud := scene.cloud } := by
  have hfits := horderly.fits hjob
  have hknown : ∀ generation, job.activity.generation? = some generation →
      CountedAt who generation record := fun _ ↦ h.countedAt hjob
  obtain ⟨errand, activity⟩ := job
  cases hadvance with
  | finish ending hout =>
    exact h.ended _ ending (Activity.isStoring_of_claim?_eq_none hout) rfl
  | leave ending hidle => exact h.ended _ ending hidle rfl
  | queue hwish =>
    rw [Job.event?_queued]
    refine h.keep _ _ rfl rfl (fun generation hgeneration ↦ ?_) nofun
    rw [Activity.generation?_queued hwish] at hgeneration
    cases hgeneration
  | count hcalls =>
    -- The only one who learns something new about the counter.
    refine h.put _ _ ?_ (fun generation hgeneration ↦ ?_) fun other hne heq ↦ ?_
    · rw [h.mutations]
      exact congrArg _ (completions_cons_of_not_isCompletion record rfl).symm
    · rw [← Option.some.inj hgeneration, h.mutations]
      exact .now who record
    · exact hne (Event.counted.inj (Option.some.inj heq)).symm
  | ask hcalls => exact h.keep _ _ rfl rfl nofun nofun
  | call hheld hplan hcalls => exact h.keep _ _ rfl rfl nofun nofun
  | accept hexecute => exact h.keep _ _ rfl rfl nofun nofun
  | @commit change =>
    -- The only step that raises the counter, and the only one that puts a completion on record.
    obtain ⟨m, hm, -⟩ := hfits
    obtain rfl : errand = .mutate m := hm
    refine h.put _ _ ?_ nofun nofun
    calc t.cell.state.mutations + 1
        = .ofNat (completions record + 1) := by rw [h.mutations, UInt64.ofNat_add]; rfl
      _ = .ofNat (completions (Event.completed who m change :: record)) :=
        congrArg _ (completions_cons_of_isCompletion record rfl).symm
  | describe hdescribe hcalls => exact h.keep _ _ rfl rfl hknown nofun
  | list hlist => exact h.keep _ _ rfl rfl hknown nofun
  | bring => exact h.keep _ _ rfl rfl hknown nofun
  | @install generation cache _ _ hheld =>
    refine h.keep _ _ ?_ ?_ nofun ?_
    · exact State.mutations_install _ _ _ _
    · rw [Job.event?_install]
      split <;> rfl
    · intro other heq
      have hsome := Option.some.inj heq
      split at hsome <;> cases hsome

theorem step (h : Counted record t) (horderly : Orderly g t) {event : Option (Event σ)}
    {t' : Traffic σ} (hstep : Step client g t event t') :
    Counted (event.toList ++ record) t' := by
  cases hstep with
  | arrive errand hidle =>
    exact h.keep none t.cloud rfl rfl (by cases errand <;> nofun) nofun
  | proceed order hjob hscene => exact h.proceed horderly hjob (advance_of_step hscene)
  | giveUp e hjob hreload => exact h.keep none t.cloud rfl rfl nofun nofun
  | elapse clock hnow => exact ⟨h.mutations, h.countedAt⟩
  | intervene cloud =>
    exact ⟨h.mutations.trans (congrArg _ (completions_cons_of_not_isCompletion record rfl).symm),
      fun hjob hgeneration ↦ (h.countedAt hjob hgeneration).keep
        (some (.intervened t.cloud cloud)) nofun⟩

end Counted

/-- Every run keeps the counter in line with the record. -/
theorem Run.counted {client : Client σ} {g : Group} {cloud : σ} {clock : Clock}
    {record : List (Event σ)} {t : Traffic σ}
    (hrun : Run client g (.initial cloud clock) record t) : Counted record t := by
  induction hrun with
  | refl => exact .initial cloud clock
  | tail hrun hstep ih => exact ih.step hrun.orderly hstep

end NodeGroups.Group
