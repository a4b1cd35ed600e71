import NodeGroups.Proofs.Balance
import NodeGroups.Proofs.Memory

/-!
# The order in which installed views were read

A view is as old as its description: it was read at the moment at which the reload got the
description from the cloud. Two reloads that are under way together may get their views in one order
and install them in the other. The counter does not keep them from it, since it counts mutations and
not installations, so an older view can replace a newer one.

It does so only if nothing of the group's own is lost by it. The reload that installs the older view
was under way before the newer one was read, and no mutation ended well since he read the counter.
In particular, views of reloads that do not overlap, and views on different sides of a mutation, are
installed in the order in which they were read.

## Moments

A moment of a run is given by how much was on record by then.
-/

namespace NodeGroups.Group

variable {σ : Type}

/-! ## Readings -/

/-- The moment at which somebody read the description the last time. -/
def readingMoment? (who : Nat) : List (Event σ) → Option Nat
  | [] => none
  | .described other :: record =>
    if other = who then some record.length else readingMoment? who record
  | _ :: record => readingMoment? who record

/-- The moments at which the views that were installed had been read, that of the last installed
first. -/
def installedReadings : List (Event σ) → List Nat
  | [] => []
  | .installed who _ :: record => (readingMoment? who record).toList ++ installedReadings record
  | _ :: record => installedReadings record

/-- The last thing on record of somebody's fetching is that he read the description. -/
def HasRead (who : Nat) (record : List (Event σ)) : Prop :=
  ∃ since before, record = since ++ .described who :: before ∧ .described who ∉ since
    ∧ .counted who ∉ since

/-- Since before a moment somebody has known where the counter stood, and it is where it stood: the
number of mutations since is none, or one that makes the counter come round. -/
def UndisturbedSince (who moment : Nat) (record : List (Event σ)) : Prop :=
  ∃ since before, record = since ++ .counted who :: before ∧ .counted who ∉ since
    ∧ before.length < moment ∧ 2 ^ 64 ∣ completions since

theorem length_lt_of_append_eq {α : Type} {a b : α} {front front' back back' : List α}
    (heq : front ++ a :: back = front' ++ b :: back') (hne : a ≠ b) (hfront : b ∉ front) :
    back'.length < back.length := by
  rcases List.append_eq_append_iff.mp heq with ⟨middle, -, hback⟩ | ⟨middle, hmiddle, hback⟩
  · cases middle with
    | nil => exact absurd (List.cons.inj hback).1 hne
    | cons e middle =>
      have hlength := congrArg List.length hback
      simp only [List.length_cons, List.length_append] at hlength
      omega
  · cases middle with
    | nil => exact absurd (List.cons.inj hback).1.symm hne
    | cons e middle =>
      obtain ⟨rfl, -⟩ := List.cons.inj hback
      rw [hmiddle] at hfront
      exact absurd (List.mem_append_right _ List.mem_cons_self) hfront

theorem readingMoment?_append {who : Nat} {since : List (Event σ)} (before : List (Event σ))
    (hsince : .described who ∉ since) :
    readingMoment? who (since ++ .described who :: before) = some before.length := by
  induction since with
  | nil => exact if_pos rfl
  | cons e since ih =>
    have hrest := ih fun hmem ↦ hsince (List.mem_cons_of_mem _ hmem)
    cases e with
    | described other =>
      have hne : other ≠ who := by
        rintro rfl
        exact hsince List.mem_cons_self
      exact (if_neg hne).trans hrest
    | _ => exact hrest

namespace HasRead

variable {who : Nat} {record : List (Event σ)}

theorem now (who : Nat) (record : List (Event σ)) : HasRead who (.described who :: record) :=
  ⟨[], record, rfl, List.not_mem_nil, List.not_mem_nil⟩

theorem keep (h : HasRead who record) (event : Option (Event σ))
    (hdescribed : event ≠ some (.described who)) (hcounted : event ≠ some (.counted who)) :
    HasRead who (event.toList ++ record) := by
  obtain ⟨since, before, rfl, hsince, hsince'⟩ := h
  refine ⟨event.toList ++ since, before, (List.append_assoc _ _ _).symm, ?_, ?_⟩
  · intro hmem
    rcases List.mem_append.mp hmem with hmem | hmem
    · exact hdescribed (Option.mem_toList.mp hmem)
    · exact hsince hmem
  · intro hmem
    rcases List.mem_append.mp hmem with hmem | hmem
    · exact hcounted (Option.mem_toList.mp hmem)
    · exact hsince' hmem

end HasRead

/-! ## Who has read -/

/-- Whether a reload has read the description and is not done with it. -/
def Activity.hasRead : Activity → Bool
  | .listing .. | .fetched .. | .queued (.install ..) => true
  | _ => false

theorem Activity.hasRead_queued {errand : Errand} {wish : Wish} (hwish : errand.wish? = some wish) :
    (Activity.queued wish).hasRead = false := by
  cases errand with
  | reload => cases hwish
  | _ => rw [← Option.some.inj hwish]; rfl

/-- Each reload that has read the description has it on record. -/
structure Reported (record : List (Event σ)) (t : Traffic σ) : Prop where
  hasRead : ∀ {who job}, t.jobs who = some job → job.activity.hasRead = true → HasRead who record

namespace Reported

variable {client : Client σ} {g : Group} {record : List (Event σ)} {t : Traffic σ}

theorem put (h : Reported record t) {who : Nat} {job : Job} (event : Option (Event σ))
    {cell : Cell} (cloud : σ)
    (hself : job.activity.hasRead = true → HasRead who (event.toList ++ record))
    (hdescribed : ∀ other, other ≠ who → event ≠ some (.described other))
    (hcounted : ∀ other, other ≠ who → event ≠ some (.counted other)) :
    Reported (event.toList ++ record) { t.put who job with cell, cloud } := by
  refine ⟨fun {other j} hj ↦ ?_⟩
  refine Traffic.forall_put (p := fun other j ↦ j.activity.hasRead = true →
    HasRead other (event.toList ++ record)) hself ?_ hj
  intro other j hne hj hread
  exact (h.hasRead hj hread).keep event (hdescribed other hne) (hcounted other hne)

theorem ended (h : Reported record t) {who : Nat} {job : Job} {cell : Cell} (cloud : σ)
    (ending : Ending) (hidle : job.activity.isStoring = false) :
    Reported ((job.event? who t.cell.state (.ended ending)).toList ++ record)
      { t.put who { job with activity := .ended ending } with cell, cloud } := by
  rw [Job.event?_ended ending hidle]
  exact h.put none cloud nofun nofun nofun

theorem proceed (h : Reported record t) {who : Nat} {job : Job} {scene : Scene σ}
    (hjob : t.jobs who = some job)
    (hadvance : Advance client g who t.clock ⟨job.activity, t.cell, t.cloud⟩ scene) :
    Reported ((job.event? who t.cell.state scene.activity).toList ++ record)
      { t.put who { job with activity := scene.activity } with
        cell := scene.cell, cloud := scene.cloud } := by
  have hknown := h.hasRead hjob
  obtain ⟨errand, activity⟩ := job
  cases hadvance with
  | finish ending hout => exact h.ended _ ending (Activity.isStoring_of_claim?_eq_none hout)
  | leave ending hidle => exact h.ended _ ending hidle
  | queue hwish =>
    rw [Job.event?_queued]
    refine h.put none _ (fun hread ↦ ?_) nofun nofun
    rw [Activity.hasRead_queued hwish] at hread
    cases hread
  | count hcalls =>
    refine h.put (some (.counted who)) _ nofun nofun fun other hne heq ↦ ?_
    exact hne (Event.counted.inj (Option.some.inj heq)).symm
  | ask hcalls => exact h.put none _ nofun nofun nofun
  | call hheld hplan hcalls => exact h.put none _ nofun nofun nofun
  | accept hexecute => exact h.put (some (.accepted who _)) _ nofun nofun nofun
  | commit => cases errand <;> exact h.put _ _ nofun nofun nofun
  | describe hdescribe hcalls =>
    -- The only one of whom something new is to be known.
    refine h.put (some (.described who)) _ (fun _ ↦ .now who record) (fun other hne heq ↦ ?_) nofun
    exact hne (Event.described.inj (Option.some.inj heq)).symm
  | list hlist => exact h.put none _ hknown nofun nofun
  | bring => exact h.put none _ hknown nofun nofun
  | install hheld =>
    rw [Job.event?_install]
    split <;> exact h.put (some _) _ nofun nofun nofun

theorem step (h : Reported record t) {event : Option (Event σ)} {t' : Traffic σ}
    (hstep : Step client g t event t') : Reported (event.toList ++ record) t' := by
  cases hstep with
  | arrive errand hidle => exact h.put none t.cloud nofun nofun nofun
  | proceed order hjob hscene => exact h.proceed hjob (advance_of_step hscene)
  | giveUp e hjob hreload => exact h.put none t.cloud nofun nofun nofun
  | elapse clock hnow => exact ⟨h.hasRead⟩
  | intervene cloud =>
    refine ⟨fun {who job} hjob hread ↦ ?_⟩
    exact (h.hasRead hjob hread).keep (some (.intervened t.cloud cloud)) nofun nofun

end Reported

theorem Run.reported {client : Client σ} {g : Group} {cloud : σ} {clock : Clock}
    {record : List (Event σ)} {t : Traffic σ}
    (hrun : Run client g (.initial cloud clock) record t) : Reported record t := by
  induction hrun with
  | refl => exact ⟨nofun⟩
  | tail hrun hstep ih => exact ih.step hstep

/-! ## Runs -/

variable {client : Client σ} {g : Group} {cloud : σ} {clock : Clock} {t : Traffic σ}

/-- Whoever installs a view read it, and has known where the counter stood since before that. -/
theorem Run.exists_reading_of_installed {later earlier : List (Event σ)} {who : Nat} {cache : Cache}
    (hrun : Run client g (.initial cloud clock) (later ++ .installed who cache :: earlier) t) :
    ∃ moment, readingMoment? who earlier = some moment ∧ UndisturbedSince who moment earlier := by
  obtain ⟨t₁, t₂, hrun₁, hstep⟩ := hrun.exists_step
  obtain ⟨job, hjob, hactivity⟩ := hstep.install_inv
  obtain ⟨since, before, hearlier, hsince, hsince'⟩ :=
    hrun₁.reported.hasRead hjob (by rw [hactivity, Activity.hasRead])
  obtain ⟨since', before', hearlier', hcounted, hgeneration⟩ :=
    hrun₁.counted.countedAt hjob (by rw [hactivity, Activity.generation?])
  refine ⟨before.length, ?_, since', before', hearlier', hcounted, ?_, ?_⟩
  · rw [hearlier]
    exact readingMoment?_append before hsince
  · -- He read the counter first, for it is not on record after the description.
    exact length_lt_of_append_eq (hearlier.symm.trans hearlier') (fun heq ↦ by cases heq) hsince'
  · -- The counter stands at two numbers of mutations, which are therefore equal modulo `2 ^ 64`.
    have hsame : UInt64.ofNat (completions earlier) = .ofNat (completions before') :=
      hrun₁.counted.mutations.symm.trans hgeneration
    have hsplit : completions earlier = completions since' + completions before' := by
      rw [hearlier', completions_append]
      exact congrArg _ (completions_cons_of_not_isCompletion before' rfl)
    have htoNat := congrArg UInt64.toNat hsame
    rw [hsplit, UInt64.toNat_ofNat', UInt64.toNat_ofNat'] at htoNat
    omega

/-- Views are installed in the order in which they were read, unless a reload that was under way
before the newer view was read comes last, and no mutation ended well since he read the counter. -/
theorem Run.reading_order {later between earlier : List (Event σ)} {who₁ who₂ : Nat}
    {cache₁ cache₂ : Cache}
    (hrun : Run client g (.initial cloud clock)
      (later ++ .installed who₂ cache₂ :: (between ++ .installed who₁ cache₁ :: earlier)) t) :
    ∃ moment₁ moment₂, readingMoment? who₁ earlier = some moment₁
      ∧ readingMoment? who₂ (between ++ .installed who₁ cache₁ :: earlier) = some moment₂
      ∧ (moment₁ ≤ moment₂ ∨ moment₂ < moment₁
        ∧ UndisturbedSince who₂ moment₂ (between ++ .installed who₁ cache₁ :: earlier)) := by
  have hfirst : Run client g (.initial cloud clock)
      ((later ++ .installed who₂ cache₂ :: between) ++ .installed who₁ cache₁ :: earlier) t := by
    rw [List.append_assoc, List.cons_append]
    exact hrun
  obtain ⟨moment₁, hmoment₁, -⟩ := hfirst.exists_reading_of_installed
  obtain ⟨moment₂, hmoment₂, hundisturbed⟩ := hrun.exists_reading_of_installed
  refine ⟨moment₁, moment₂, hmoment₁, hmoment₂, ?_⟩
  by_cases hle : moment₁ ≤ moment₂
  · exact .inl hle
  · exact .inr ⟨Nat.lt_of_not_le hle, hundisturbed⟩

/-! ## An older view that replaces a newer one -/

/-- A reload that reads its description before others make the scale set greater, and comes back
from its listing after another reload has seen that. -/
def overtakenReading : List (Move Memory) :=
  Move.request 1 .reload 2 ++ .intervene ((cloudOf 3).put "rg" (.bare "pool" 5))
    :: Move.reload 2 ++ List.replicate 3 (.proceed 1)

def Event.installer? : Event σ → Option Nat
  | .installed who _ => some who
  | _ => none

theorem Event.eq_installed {e : Event σ} {who : Nat} (he : e.installer? = some who) :
    ∃ cache, e = .installed who cache := by
  cases e with
  | installed other cache => exact ⟨cache, by rw [Option.some.inj he]⟩
  | _ => cases he

theorem played_overtakenReading : ∃ cache₁ cache₂ earlier,
    (played 3 overtakenReading).1 = .installed 1 cache₂ :: .installed 2 cache₁ :: earlier
    ∧ readingMoment? 2 earlier = some 4
    ∧ readingMoment? 1 (.installed 2 cache₁ :: earlier) = some 1 := by
  have hinstallers : (played 3 overtakenReading).1.map Event.installer?
      = some 1 :: some 2 :: List.replicate 5 none := by decide +kernel
  have hfirst : readingMoment? 2 ((played 3 overtakenReading).1.drop 2) = some 4 := by
    decide +kernel
  have hsecond : readingMoment? 1 ((played 3 overtakenReading).1.drop 1) = some 1 := by
    decide +kernel
  obtain ⟨e₂, rest, hrecord, he₂, hrest⟩ := List.map_eq_cons_iff.mp hinstallers
  obtain ⟨e₁, earlier, rfl, he₁, -⟩ := List.map_eq_cons_iff.mp hrest
  obtain ⟨cache₂, rfl⟩ := Event.eq_installed he₂
  obtain ⟨cache₁, rfl⟩ := Event.eq_installed he₁
  rw [hrecord] at hfirst hsecond
  exact ⟨cache₁, cache₂, earlier, hrecord, hfirst, hsecond⟩

/-- The view that was read first is installed last, by a reload that nothing disturbed. -/
theorem Run.reading_order_of_overtaken : ∃ t cache₁ cache₂ earlier,
    Run Memory.client pool (.initial (cloudOf 3) .start)
      (.installed 1 cache₂ :: .installed 2 cache₁ :: earlier) t
    ∧ readingMoment? 2 earlier = some 4
    ∧ readingMoment? 1 (.installed 2 cache₁ :: earlier) = some 1
    ∧ UndisturbedSince 1 1 (.installed 2 cache₁ :: earlier) := by
  obtain ⟨cache₁, cache₂, earlier, hrecord, hfirst, hsecond⟩ := played_overtakenReading
  have hrun := run_played 3 overtakenReading
  rw [hrecord] at hrun
  have hsplit : Run Memory.client pool (.initial (cloudOf 3) .start)
      ([] ++ .installed 1 cache₂ :: ([] ++ .installed 2 cache₁ :: earlier))
      (played 3 overtakenReading).2 := hrun
  obtain ⟨moment₁, moment₂, hmoment₁, hmoment₂, horder⟩ := hsplit.reading_order
  obtain rfl : moment₁ = 4 := Option.some.inj (hmoment₁.symm.trans hfirst)
  obtain rfl : moment₂ = 1 := Option.some.inj (hmoment₂.symm.trans hsecond)
  rcases horder with hle | ⟨-, hundisturbed⟩
  · omega
  · exact ⟨_, cache₁, cache₂, earlier, hrun, hfirst, hsecond, hundisturbed⟩

/-- An older view can replace a newer one, though there are no mutations, and then the group takes
the capacity for what it was some time ago. -/
theorem exists_older_view_installed : ∃ record t v,
    Run Memory.client pool (.initial (cloudOf 3) .start) record t
    ∧ completions record = 0 ∧ ¬ (installedReadings record).Pairwise (· ≥ ·)
    ∧ t.cell.state.view = some v ∧ v.target = 3
    ∧ (pool.holding? t.cloud).map (fun h ↦ h.scaleSet.capacity) = some 5 := by
  have hnone : completions (played 3 overtakenReading).1 = 0 := by decide +kernel
  have horder : ¬ (installedReadings (played 3 overtakenReading).1).Pairwise (· ≥ ·) := by
    decide +kernel
  have hcapacity : (pool.holding? (played 3 overtakenReading).2.cloud).map
      (fun h ↦ h.scaleSet.capacity) = some 5 := by decide +kernel
  obtain ⟨v, hview, htarget⟩ : ∃ v,
      (played 3 overtakenReading).2.cell.state.view = some v ∧ v.target = 3 :=
    Option.map_eq_some_iff.mp (by decide +kernel)
  exact ⟨_, _, v, run_played 3 overtakenReading, hnone, horder, hview, htarget, hcapacity⟩

end NodeGroups.Group
