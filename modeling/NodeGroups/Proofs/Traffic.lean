import NodeGroups.Proofs.Advance

/-!
# The traffic at a group

All requests to a group, under way together. In a step of the traffic a request comes in, one of
the activities goes on, a reload is given up, time passes, or others do something to the cloud.
Nothing is said about the order of steps, so what holds of every run holds of every order, and
whatever calls take and answer. Changes are not given up: a mutation that was begun goes on until
it ends.

## The record

A run keeps a record of what happened, the latest first. It tells how the views and the counter
came about, which the group itself forgets, and it notes what others do to the cloud. Whoever
knows something about those others says so as a property of the record.

## The order at the lock

`Orderly` is what every run keeps: an activity is in the lock if and as it needs to be, and holds
it while a change is under way. As a writer is alone in the lock, the state of the group stays the
same under a change from its plan on, until the change itself is brought into it.
-/

namespace NodeGroups.Group

variable {σ : Type}

/-! ## Requests under way -/

/-- A request to a group, and how far it is. -/
structure Job where
  errand : Errand
  activity : Activity

/-- Whether an activity is one that the errand leads to. A change under way is the one that the
mutation came down to in the state that the group is in. -/
def Job.Fits (g : Group) (s : State) (j : Job) : Prop :=
  match j.activity with
  | .started errand => j.errand = errand
  | .queued (.query q) => j.errand = .query q
  | .queued (.mutate m) => j.errand = .mutate m
  | .queued .describe | .describing none _ => j.errand = .describe
  | .describing (some _) _ | .listing .. | .fetched .. | .queued (.install ..) =>
    j.errand = .reload
  | .changing change _ | .accepted change =>
    ∃ m, j.errand = .mutate m ∧ m.plan g s = .ok (some change)
  | .ended _ => True

/-- What is put on record. -/
inductive Event (σ : Type)
  /-- A reload read the counter of mutations. -/
  | counted (who : Nat)
  /-- A reload read the description of the scale set. -/
  | described (who : Nat)
  /-- A reload installed its view. -/
  | installed (who : Nat) (cache : Cache)
  /-- A reload found its view too old, and dropped it. -/
  | discarded (who : Nat)
  /-- The cloud accepted a change. -/
  | accepted (who : Nat) (change : Change)
  /-- A mutation brought its change into the state and ended well. -/
  | completed (who : Nat) (m : Mutation) (change : Change)
  /-- Others left the cloud in another condition. -/
  | intervened (before after : σ)

/-- What is put on record when an activity goes on, if anything is. -/
def Job.event? (who : Nat) (s : State) (j : Job) (next : Activity) : Option (Event σ) :=
  match j.activity, next with
  | .started .reload, .describing .. => some (.counted who)
  | .describing (some _) _, .listing .. => some (.described who)
  | .queued (.install generation cache), _ =>
    some (if s.mutations = generation then .installed who cache else .discarded who)
  | .changing _ _, .accepted change => some (.accepted who change)
  | .accepted change, _ =>
    match j.errand with
    | .mutate m => some (.completed who m change)
    | _ => none
  | _, _ => none

theorem Job.event?_queued (who : Nat) (s : State) (errand started : Errand) (wish : Wish) :
    (Job.event? who s ⟨errand, .started started⟩ (.queued wish) : Option (Event σ)) = none := by
  cases started <;> rfl

theorem Job.event?_install (who : Nat) (s : State) (errand : Errand) (generation : UInt64)
    (cache : Cache) (next : Activity) :
    (Job.event? who s ⟨errand, .queued (.install generation cache)⟩ next : Option (Event σ))
      = some (if s.mutations = generation then .installed who cache else .discarded who) := rfl

/-- A group at work: what is behind its lock, the cloud, the clock, and the requests by the numbers
under which the lock knows them. -/
structure Traffic (σ : Type) where
  cell : Cell
  cloud : σ
  clock : Clock
  jobs : Nat → Option Job

namespace Traffic

/-- A new group, of which nobody wants anything yet. -/
def initial (cloud : σ) (clock : Clock) : Traffic σ := ⟨.initial, cloud, clock, fun _ ↦ none⟩

/-- A group in some state, of which nobody wants anything. -/
def resting (s : State) (cloud : σ) (clock : Clock) : Traffic σ :=
  ⟨⟨s, .free⟩, cloud, clock, fun _ ↦ none⟩

/-- A job comes in under a number, or goes on. -/
def put (who : Nat) (job : Job) (t : Traffic σ) : Traffic σ :=
  { t with jobs := Function.update t.jobs who (some job) }

/-- Whether a number is free for a new job. -/
def IsIdle (who : Nat) (t : Traffic σ) : Prop :=
  ∀ job, t.jobs who = some job → ∃ ending, job.activity = .ended ending

def claim? (t : Traffic σ) (who : Nat) : Option Access :=
  (t.jobs who).bind fun j ↦ j.activity.claim?

end Traffic

/-! ## Steps and runs -/

/-- A step, with what is put on record. -/
inductive Step (client : Client σ) (g : Group) :
    Traffic σ → Option (Event σ) → Traffic σ → Prop
  | arrive {t : Traffic σ} {who : Nat} (errand : Errand) (hidle : t.IsIdle who) :
      Step client g t none (t.put who ⟨errand, .started errand⟩)
  | proceed {t : Traffic σ} {who : Nat} {job : Job} {scene : Scene σ} (order : Nat)
      (hjob : t.jobs who = some job)
      (hstep : Scene.step client g who t.clock order ⟨job.activity, t.cell, t.cloud⟩
        = some scene) :
      Step client g t (job.event? who t.cell.state scene.activity)
        { t.put who { job with activity := scene.activity } with
          cell := scene.cell, cloud := scene.cloud }
  | giveUp {t : Traffic σ} {who : Nat} {job : Job} (e : GroupError)
      (hjob : t.jobs who = some job) (hreload : job.activity.isReload = true) :
      Step client g t none
        { t.put who { job with activity := .refuse e } with cell := t.cell.withdraw who }
  | elapse {t : Traffic σ} (clock : Clock) (hnow : t.clock.now ≤ clock.now) :
      Step client g t none { t with clock }
  | intervene {t : Traffic σ} (cloud : σ) :
      Step client g t (some (.intervened t.cloud cloud)) { t with cloud }

/-- A run from a beginning, with its record. -/
inductive Run (client : Client σ) (g : Group) (start : Traffic σ) :
    List (Event σ) → Traffic σ → Prop
  | refl : Run client g start [] start
  | tail {record : List (Event σ)} {event : Option (Event σ)} {t t' : Traffic σ}
      (hrun : Run client g start record t) (hstep : Step client g t event t') :
      Run client g start (event.toList ++ record) t'

/-! ## The order at the lock -/

/-- The lock has in it those who need it, and whoever has a change under way holds it. -/
structure Orderly (g : Group) (t : Traffic σ) : Prop where
  serves : t.cell.lock.Serves t.claim?
  held : ∀ {who job}, t.jobs who = some job → job.activity.isWriting = true →
    t.cell.lock.isHeldBy who = true
  fits : ∀ {who job}, t.jobs who = some job → job.Fits g t.cell.state

theorem Job.fits_queued {g : Group} {s : State} {errand : Errand} {wish : Wish}
    (hwish : errand.wish? = some wish) : Job.Fits g s ⟨errand, .queued wish⟩ := by
  cases errand with
  | reload => cases hwish
  | _ => rw [← Option.some.inj hwish]; rfl

theorem Job.Fits.of_not_isWriting {g : Group} {s s' : State} {j : Job} (h : j.Fits g s)
    (hidle : j.activity.isWriting = false) : j.Fits g s' := by
  obtain ⟨errand, activity⟩ := j
  cases activity with
  | changing change pending => cases hidle
  | accepted change => cases hidle
  | queued wish => cases wish <;> exact h
  | describing generation pending => cases generation <;> exact h
  | _ => exact h

theorem Job.Fits.errand_of_isReload {s : State} {j : Job} (h : j.Fits g s)
    (hreload : j.activity.isReload = true) : j.errand = .reload := by
  obtain ⟨errand, activity⟩ := j
  cases activity with
  | started started =>
    cases started with
    | reload => exact h
    | _ => cases hreload
  | queued wish =>
    cases wish with
    | install generation cache => exact h
    | _ => cases hreload
  | describing generation pending =>
    cases generation with
    | none => cases hreload
    | some generation => exact h
  | listing generation scaleSet pending => exact h
  | fetched generation cache => exact h
  | _ => cases hreload

namespace Traffic

theorem isIdle_resting (s : State) (cloud : σ) (clock : Clock) (who : Nat) :
    (resting s cloud clock).IsIdle who := by
  intro job hjob
  cases hjob

theorem isIdle_initial (cloud : σ) (clock : Clock) (who : Nat) :
    (initial cloud clock).IsIdle who := isIdle_resting .initial cloud clock who

theorem isIdle_put {who other : Nat} {t : Traffic σ} (job : Job) (hidle : t.IsIdle other)
    (hne : other ≠ who) : (t.put who job).IsIdle other := by
  intro j hj
  exact hidle j ((Function.update_of_ne hne _ _).symm.trans hj)

theorem claim?_put (who : Nat) (job : Job) (t : Traffic σ) :
    (t.put who job).claim? = Function.update t.claim? who job.activity.claim? := by
  funext other
  by_cases hother : other = who
  · subst hother
    simp [claim?, put]
  · simp [claim?, put, hother]

theorem claim?_eq {t : Traffic σ} {who : Nat} {job : Job} (hjob : t.jobs who = some job) :
    t.claim? who = job.activity.claim? := by
  rw [claim?, hjob]
  rfl

theorem forall_put {p : Nat → Job → Prop} {t : Traffic σ} {who : Nat} {job : Job}
    (hself : p who job)
    (hothers : ∀ other j, other ≠ who → t.jobs other = some j → p other j)
    {other : Nat} {j : Job} (hj : Function.update t.jobs who (some job) other = some j) :
    p other j := by
  by_cases heq : other = who
  · subst heq
    rw [Function.update_self] at hj
    rwa [← Option.some.inj hj]
  · rw [Function.update_of_ne heq] at hj
    exact hothers other j heq hj

end Traffic

namespace Orderly

variable {g : Group} {t : Traffic σ}

theorem resting (s : State) (cloud : σ) (clock : Clock) :
    Orderly g (Traffic.resting s cloud clock) where
  serves := Lock.Serves.initial
  held := nofun
  fits := nofun

theorem initial (cloud : σ) (clock : Clock) : Orderly g (Traffic.initial cloud clock) :=
  resting .initial cloud clock

theorem eq_of_isHeldBy (h : Orderly g t) {who other : Nat} {job : Job}
    (hjob : t.jobs who = some job) (hwriting : job.activity.isWriting = true)
    (hheld : t.cell.lock.isHeldBy other = true) : other = who := by
  have hclaim : t.claim? who = some .exclusive := by
    rw [Traffic.claim?_eq hjob, Activity.claim?_of_isWriting hwriting]
  exact h.serves.eq_of_isHeldBy hclaim (h.held hjob hwriting) hheld

theorem isWriting_eq_false (h : Orderly g t) {who other : Nat} {j : Job}
    (hheld : t.cell.lock.isHeldBy who = true) (hne : other ≠ who)
    (hj : t.jobs other = some j) : j.activity.isWriting = false := by
  by_contra hwriting
  rw [Bool.not_eq_false] at hwriting
  exact hne (h.eq_of_isHeldBy hj hwriting hheld).symm

/-- A job goes on. What it does to the lock is what its claims say, and nobody else notices: he
holds the lock if he held it, and the state under a change stays. -/
theorem put (h : Orderly g t) {who : Nat} {job : Job} {cell : Cell} (cloud : σ)
    (hserves : cell.lock.Serves (Function.update t.claim? who job.activity.claim?))
    (hheld : job.activity.isWriting = true → cell.lock.isHeldBy who = true)
    (hfits : job.Fits g cell.state)
    (hothers : ∀ other, other ≠ who → t.cell.lock.isHeldBy other = true →
      cell.lock.isHeldBy other = true)
    (hstate : ∀ other j, other ≠ who → t.jobs other = some j → j.activity.isWriting = true →
      cell.state = t.cell.state) :
    Orderly g { t.put who job with cell, cloud } where
  serves := by
    rw [← Traffic.claim?_put] at hserves
    exact hserves
  held := Traffic.forall_put (p := fun who j ↦ j.activity.isWriting = true →
      cell.lock.isHeldBy who = true) hheld fun other j hne hj hwriting ↦
    hothers other hne (h.held hj hwriting)
  fits := Traffic.forall_put (p := fun _ j ↦ j.Fits g cell.state) hfits fun other j hne hj ↦ by
    -- Only a change under way depends on the state, and for its sake the state stays the same.
    cases hwriting : j.activity.isWriting with
    | true =>
      rw [hstate other j hne hj hwriting]
      exact h.fits hj
    | false => exact (h.fits hj).of_not_isWriting hwriting

theorem proceed (h : Orderly g t) {client : Client σ} {who : Nat} {job : Job} {scene : Scene σ}
    (hjob : t.jobs who = some job)
    (hadvance : Advance client g who t.clock ⟨job.activity, t.cell, t.cloud⟩ scene) :
    Orderly g { t.put who { job with activity := scene.activity } with
      cell := scene.cell, cloud := scene.cloud } := by
  have hclaim := Traffic.claim?_eq hjob
  have hfits := h.fits hjob
  have hwrites := h.held hjob
  have hsame : ∀ other, other ≠ who → t.cell.lock.isHeldBy other = true →
      t.cell.lock.isHeldBy other = true := fun _ _ ↦ id
  have hleft : ∀ other, other ≠ who → t.cell.lock.isHeldBy other = true →
      (t.cell.lock.leave who).isHeldBy other = true :=
    fun _ hne ↦ Lock.isHeldBy_leave_of_ne hne
  obtain ⟨errand, activity⟩ := job
  cases hadvance with
  | finish ending hout =>
    exact h.put _ (h.serves.keep (hclaim.trans hout)) nofun trivial hsame fun _ _ _ _ _ ↦ rfl
  | leave ending hidle => exact h.put _ h.serves.leave nofun trivial hleft fun _ _ _ _ _ ↦ rfl
  | @queue started wish _ _ hwish =>
    obtain rfl : errand = started := hfits
    exact h.put _ (h.serves.request hclaim _) nofun (Job.fits_queued hwish)
      (fun _ _ ↦ Lock.isHeldBy_request _ _) fun _ _ _ _ _ ↦ rfl
  | count hcalls =>
    exact h.put _ (h.serves.keep hclaim) nofun hfits hsame fun _ _ _ _ _ ↦ rfl
  | ask hcalls => exact h.put _ h.serves.leave nofun hfits hleft fun _ _ _ _ _ ↦ rfl
  | call hheld hplan hcalls =>
    exact h.put _ (h.serves.keep hclaim) (fun _ ↦ hheld) ⟨_, hfits, hplan⟩ hsame
      fun _ _ _ _ _ ↦ rfl
  | accept hexecute =>
    exact h.put _ (h.serves.keep hclaim) hwrites hfits hsame fun _ _ _ _ _ ↦ rfl
  | commit =>
    -- The state changes, but nobody else has a change under way that was planned in it.
    refine h.put _ h.serves.leave nofun trivial hleft fun other j hne hj hwriting ↦ ?_
    exact absurd (h.eq_of_isHeldBy hjob rfl (h.held hj hwriting)) hne
  | describe hdescribe hcalls =>
    exact h.put _ (h.serves.keep hclaim) nofun hfits hsame fun _ _ _ _ _ ↦ rfl
  | list hlist => exact h.put _ (h.serves.keep hclaim) nofun hfits hsame fun _ _ _ _ _ ↦ rfl
  | bring =>
    exact h.put _ (h.serves.request hclaim _) nofun hfits
      (fun _ _ ↦ Lock.isHeldBy_request _ _) fun _ _ _ _ _ ↦ rfl
  | install hheld =>
    refine h.put _ h.serves.leave nofun trivial hleft fun other j hne hj hwriting ↦ ?_
    rw [h.isWriting_eq_false hheld hne hj] at hwriting
    cases hwriting

theorem arrive (h : Orderly g t) {who : Nat} (errand : Errand) (hidle : t.IsIdle who) :
    Orderly g (t.put who ⟨errand, .started errand⟩) := by
  have hclaim : t.claim? who = none := by
    rw [Traffic.claim?]
    cases hjob : t.jobs who with
    | none => rfl
    | some job =>
      obtain ⟨ending, hended⟩ := hidle job hjob
      rw [Option.bind_some, hended]
      rfl
  exact h.put t.cloud (h.serves.keep hclaim) nofun rfl (fun _ _ ↦ id) fun _ _ _ _ _ ↦ rfl

theorem giveUp (h : Orderly g t) (who : Nat) (job : Job) (e : GroupError) :
    Orderly g { t.put who { job with activity := .refuse e } with
      cell := t.cell.withdraw who } :=
  h.put t.cloud h.serves.leave nofun trivial (fun _ hne ↦ Lock.isHeldBy_leave_of_ne hne)
    fun _ _ _ _ _ ↦ rfl

theorem step (h : Orderly g t) {client : Client σ} {event : Option (Event σ)} {t' : Traffic σ}
    (hstep : Step client g t event t') : Orderly g t' := by
  cases hstep with
  | arrive errand hidle => exact h.arrive errand hidle
  | proceed order hjob hscene => exact h.proceed hjob (advance_of_step hscene)
  | giveUp e hjob hreload => exact h.giveUp _ _ e
  | elapse clock hnow => exact ⟨h.serves, h.held, h.fits⟩
  | intervene cloud => exact ⟨h.serves, h.held, h.fits⟩

end Orderly

/-- Whatever is on record happened in a step of the run, and what is on record before it was the
record then. -/
theorem Run.exists_step {client : Client σ} {g : Group} {start t : Traffic σ}
    {later earlier : List (Event σ)} {e : Event σ}
    (hrun : Run client g start (later ++ e :: earlier) t) :
    ∃ t₁ t₂, Run client g start earlier t₁ ∧ Step client g t₁ (some e) t₂ := by
  generalize hrecord : later ++ e :: earlier = record at hrun
  -- From the end backwards, until the record begins with what is looked for.
  induction hrun generalizing later with
  | refl => exact absurd hrecord (by simp)
  | @tail record event t t' hrun hstep ih =>
    cases event with
    | none => exact ih hrecord
    | some e' =>
      cases later with
      | nil =>
        obtain ⟨rfl, rfl⟩ := List.cons.inj hrecord
        exact ⟨t, t', hrun, hstep⟩
      | cons e'' later => exact ih (List.cons.inj hrecord).2

/-- Whoever has ended after a step had ended before, or has gone on in the step, or is a reload that
was given up. -/
theorem Step.ended_cases {client : Client σ} {g : Group} {t t' : Traffic σ}
    {event : Option (Event σ)} (hstep : Step client g t event t') {who : Nat} {errand : Errand}
    {ending : Ending} (hended : t'.jobs who = some ⟨errand, .ended ending⟩) :
    t.jobs who = some ⟨errand, .ended ending⟩
    ∨ ∃ a, t.jobs who = some ⟨errand, a⟩
      ∧ ((∃ order scene, Scene.step client g who t.clock order ⟨a, t.cell, t.cloud⟩ = some scene
          ∧ scene.activity = .ended ending ∧ t'.cell = scene.cell)
        ∨ a.isReload = true ∧ ∃ e, ending = .answered (.error e)) := by
  have hput : ∀ {other : Nat} {job : Job},
      (t.put other job).jobs who = some ⟨errand, .ended ending⟩ →
      other = who ∧ job = ⟨errand, .ended ending⟩
        ∨ t.jobs who = some ⟨errand, .ended ending⟩ := by
    intro other job hjob
    by_cases hsame : other = who
    · subst hsame
      have hself : (t.put other job).jobs other = some job := Function.update_self ..
      exact .inl ⟨rfl, Option.some.inj (hself.symm.trans hjob)⟩
    · have hstays : (t.put other job).jobs who = t.jobs who :=
        Function.update_of_ne (Ne.symm hsame) ..
      exact .inr (hstays.symm.trans hjob)
  cases hstep with
  | arrive other hidle =>
    rcases hput hended with ⟨-, hstarted⟩ | hbefore
    · cases hstarted
    · exact .inl hbefore
  | @proceed other job scene order hjob hscene =>
    rcases hput hended with ⟨rfl, hafter⟩ | hbefore
    · obtain ⟨started, a⟩ := job
      obtain ⟨rfl, hactivity⟩ := Job.mk.inj hafter
      exact .inr ⟨a, hjob, .inl ⟨order, scene, hscene, hactivity, rfl⟩⟩
    · exact .inl hbefore
  | @giveUp other job e hjob hreload =>
    rcases hput hended with ⟨rfl, hafter⟩ | hbefore
    · obtain ⟨started, a⟩ := job
      obtain ⟨rfl, hactivity⟩ := Job.mk.inj hafter
      exact .inr ⟨a, hjob, .inr ⟨hreload, e, (Activity.ended.inj hactivity).symm⟩⟩
    · exact .inl hbefore
  | elapse clock hnow => exact .inl hended
  | intervene cloud => exact .inl hended

/-- The order at the lock is kept by every run. -/
theorem Run.orderly_of {client : Client σ} {g : Group} {start t : Traffic σ}
    {record : List (Event σ)} (hrun : Run client g start record t) (hstart : Orderly g start) :
    Orderly g t := by
  induction hrun with
  | refl => exact hstart
  | tail hrun hstep ih => exact ih.step hstep

theorem Run.orderly {client : Client σ} {g : Group} {cloud : σ} {clock : Clock}
    {record : List (Event σ)} {t : Traffic σ}
    (hrun : Run client g (.initial cloud clock) record t) : Orderly g t :=
  hrun.orderly_of (.initial cloud clock)

end NodeGroups.Group
