import NodeGroups.Group.Activity
import NodeGroups.Proofs.Lock

/-!
# How an activity goes on

All that an activity can do in one step, one case each, with what it found when it did so. A proof
about every order of steps goes through these cases instead of opening the step itself. The many
ways in which an activity ends without having changed anything are two cases: it was in the lock
and leaves it, or it was not.
-/

namespace NodeGroups.Group

variable {σ : Type}

namespace Activity

/-- How an activity is in the lock, if it is. -/
def claim? : Activity → Option Access
  | .queued wish => some wish.access
  | .changing .. | .accepted _ => some .exclusive
  | _ => none

/-- Whether a change is under way, for which the activity must hold the lock. -/
def isWriting : Activity → Bool
  | .changing .. | .accepted _ => true
  | _ => false

/-- Whether the next step is to bring something into the state of the group. -/
def isStoring : Activity → Bool
  | .accepted _ | .queued (.install ..) => true
  | _ => false

/-- Whether the activity gets a new view and is not done with it. -/
def isReload : Activity → Bool
  | .started .reload | .describing (some _) _ | .listing .. | .fetched ..
  | .queued (.install ..) => true
  | _ => false

/-- Whether the activity waits for an answer of the cloud that never comes. -/
def isStranded : Activity → Bool
  | .changing _ p | .describing _ p | .listing _ _ p => p.wait = .forever
  | _ => false

theorem claim?_of_isWriting {a : Activity} (hwriting : a.isWriting = true) :
    a.claim? = some .exclusive := by
  cases a with
  | changing change pending => rfl
  | accepted change => rfl
  | _ => cases hwriting

theorem isStoring_of_claim?_eq_none {a : Activity} (hclaim : a.claim? = none) :
    a.isStoring = false := by
  cases a with
  | queued wish => cases hclaim
  | accepted change => cases hclaim
  | _ => rfl

end Activity

/-- How many steps an activity may take until it ends. -/
def Activity.stepsLeft : Activity → Nat
  | .started _ => 5
  | .describing (some _) _ => 4
  | .listing .. | .queued (.mutate _) => 3
  | .fetched .. | .changing .. | .queued .describe => 2
  | .queued _ | .accepted _ | .describing none _ => 1
  | .ended _ => 0

theorem Activity.stepsLeft_pos {a : Activity} (hended : ∀ ending, a ≠ .ended ending) :
    0 < a.stepsLeft := by
  cases a with
  | ended ending => exact absurd rfl (hended ending)
  | queued wish => cases wish <;> exact Nat.succ_pos _
  | describing generation pending => cases generation <;> exact Nat.succ_pos _
  | _ => exact Nat.succ_pos _

/-- What an errand needs the lock for when it starts, if it needs it then. -/
def Errand.wish? : Errand → Option Wish
  | .query q => some (.query q)
  | .mutate m => some (.mutate m)
  | .describe => some .describe
  | .reload => none

/-- The cloud took a call of the group's. -/
def Sent (client : Client σ) (g : Group) (call : Call) (cloud cloud' : σ) : Prop :=
  ∃ receipt, client.submit call g.resourceGroup g.name cloud = some (receipt, cloud')

/-- The cloud took a call of the group's, which is under way from then on. -/
def Calls (client : Client σ) (g : Group) (clock : Clock) (call : Call) (cloud : σ)
    (pending : Pending) (cloud' : σ) : Prop :=
  ∃ receipt order, client.submit call g.resourceGroup g.name cloud = some (receipt, cloud')
    ∧ pending = .ofReceipt receipt clock order

theorem Calls.sent {client : Client σ} {g : Group} {clock : Clock} {call : Call} {cloud cloud' : σ}
    {pending : Pending} (h : Calls client g clock call cloud pending cloud') :
    Sent client g call cloud cloud' := by
  obtain ⟨receipt, -, hsubmit, -⟩ := h
  exact ⟨receipt, hsubmit⟩

/-- Whatever call of the group's the cloud takes, the answer comes some time. -/
def Answers (client : Client σ) (g : Group) : Prop :=
  ∀ call cloud receipt cloud', client.submit call g.resourceGroup g.name cloud
    = some (receipt, cloud') → receipt.latency ≠ .never

/-- What an activity can do in one step, from the scene that it finds to the one that it leaves. -/
inductive Advance (client : Client σ) (g : Group) (who : Nat) (clock : Clock) :
    Scene σ → Scene σ → Prop
  /-- It ends, and had no part in the lock. -/
  | finish {activity cell cloud} (ending : Ending) (hout : activity.claim? = none) :
      Advance client g who clock ⟨activity, cell, cloud⟩ ⟨.ended ending, cell, cloud⟩
  /-- It ends and leaves the lock, having nothing to bring into the state. -/
  | leave {activity cell cloud} (ending : Ending) (hidle : activity.isStoring = false) :
      Advance client g who clock ⟨activity, cell, cloud⟩
        ⟨.ended ending, cell.withdraw who, cloud⟩
  | queue {errand wish cell cloud} (hwish : errand.wish? = some wish) :
      Advance client g who clock ⟨.started errand, cell, cloud⟩
        ⟨.queued wish, { cell with lock := cell.lock.request who wish.access }, cloud⟩
  /-- A reload reads the counter of mutations and asks for the description. -/
  | count {cell cloud cloud' pending}
      (hcalls : Calls client g clock .describe cloud pending cloud') :
      Advance client g who clock ⟨.started .reload, cell, cloud⟩
        ⟨.describing (some cell.state.mutations) pending, cell, cloud'⟩
  /-- Somebody else asks for the description. -/
  | ask {cell cloud cloud' pending} (hcalls : Calls client g clock .describe cloud pending cloud') :
      Advance client g who clock ⟨.queued .describe, cell, cloud⟩
        ⟨.describing none pending, cell.withdraw who, cloud'⟩
  | call {m change cell cloud cloud' pending} (hheld : cell.lock.isHeldBy who = true)
      (hplan : m.plan g cell.state = .ok (some change))
      (hcalls : Calls client g clock change.call cloud pending cloud') :
      Advance client g who clock ⟨.queued (.mutate m), cell, cloud⟩
        ⟨.changing change pending, cell, cloud'⟩
  | accept {change pending cell cloud cloud'}
      (hexecute : change.execute client g cloud = .ok cloud') :
      Advance client g who clock ⟨.changing change pending, cell, cloud⟩
        ⟨.accepted change, cell, cloud'⟩
  | commit {change cell cloud} :
      Advance client g who clock ⟨.accepted change, cell, cloud⟩
        ⟨.answer (.ok .nothing),
          { cell with state := change.commit cell.state }.withdraw who, cloud⟩
  /-- A reload reads the description and asks for the listing. -/
  | describe {generation pending pending' cell cloud cloud' d}
      (hdescribe : client.describe g.resourceGroup g.name cloud = .ok d)
      (hcalls : Calls client g clock .list cloud pending' cloud') :
      Advance client g who clock ⟨.describing (some generation) pending, cell, cloud⟩
        ⟨.listing generation d pending', cell, cloud'⟩
  | list {generation d pending cell cloud listing}
      (hlist : client.list g.resourceGroup g.name cloud = .ok listing) :
      Advance client g who clock ⟨.listing generation d pending, cell, cloud⟩
        ⟨.fetched generation (.build d listing), cell, cloud⟩
  | bring {generation cache cell cloud} :
      Advance client g who clock ⟨.fetched generation cache, cell, cloud⟩
        ⟨.queued (.install generation cache),
          { cell with lock := cell.lock.request who .exclusive }, cloud⟩
  | install {generation cache cell cloud} (hheld : cell.lock.isHeldBy who = true) :
      Advance client g who clock ⟨.queued (.install generation cache), cell, cloud⟩
        ⟨.answer (.ok .nothing),
          { cell with state := cell.state.install generation cache clock.now }.withdraw who, cloud⟩

/-- With every step an activity comes closer to its end. -/
theorem Advance.stepsLeft_lt {client : Client σ} {g : Group} {who : Nat} {clock : Clock}
    {s s' : Scene σ} (h : Advance client g who clock s s')
    (hended : ∀ ending, s.activity ≠ .ended ending) :
    s'.activity.stepsLeft < s.activity.stepsLeft := by
  cases h with
  | finish ending hout => exact Activity.stepsLeft_pos hended
  | leave ending hidle => exact Activity.stepsLeft_pos hended
  | @queue errand wish _ _ hwish =>
    cases errand with
    | reload => cases hwish
    | _ => rw [← Option.some.inj hwish]; simp [Activity.stepsLeft]
  | _ => simp [Activity.stepsLeft, Activity.answer]

theorem Advance.isStranded_eq_false {client : Client σ} {g : Group} {who : Nat} {clock : Clock}
    {s s' : Scene σ} (h : Advance client g who clock s s') (hanswers : Answers client g) :
    s'.activity.isStranded = false := by
  have hcomes : ∀ {call cloud pending cloud'}, Calls client g clock call cloud pending cloud' →
      decide (pending.wait = .forever) = false := by
    rintro call cloud pending cloud' ⟨receipt, order, hsubmit, rfl⟩
    refine decide_eq_false ?_
    rw [Pending.ofReceipt]
    cases hlatency : receipt.latency with
    | never => exact absurd hlatency (hanswers _ _ _ _ hsubmit)
    | _ => nofun
  cases h with
  | count hcalls => exact hcomes hcalls
  | ask hcalls => exact hcomes hcalls
  | call hheld hplan hcalls => exact hcomes hcalls
  | describe hdescribe hcalls => exact hcomes hcalls
  | _ => rfl

theorem Advance.lock_cases {client : Client σ} {g : Group} {who : Nat} {clock : Clock}
    {s s' : Scene σ} (h : Advance client g who clock s s') :
    (s'.cell.lock = s.cell.lock ∧ s'.activity.claim? = s.activity.claim?)
    ∨ (s'.cell.lock = s.cell.lock.leave who ∧ s'.activity.claim? = none)
    ∨ ∃ access, s.activity.claim? = none ∧ s'.cell.lock = s.cell.lock.request who access
      ∧ s'.activity.claim? = some access := by
  cases h with
  | finish ending hout => exact .inl ⟨rfl, hout.symm⟩
  | leave ending hidle => exact .inr (.inl ⟨rfl, rfl⟩)
  | queue hwish => exact .inr (.inr ⟨_, rfl, rfl, rfl⟩)
  | count hcalls => exact .inl ⟨rfl, rfl⟩
  | ask hcalls => exact .inr (.inl ⟨rfl, rfl⟩)
  | call hheld hplan hcalls => exact .inl ⟨rfl, rfl⟩
  | accept hexecute => exact .inl ⟨rfl, rfl⟩
  | commit => exact .inr (.inl ⟨rfl, rfl⟩)
  | describe hdescribe hcalls => exact .inl ⟨rfl, rfl⟩
  | list hlist => exact .inl ⟨rfl, rfl⟩
  | bring => exact .inr (.inr ⟨_, rfl, rfl, rfl⟩)
  | install hheld => exact .inr (.inl ⟨rfl, rfl⟩)

@[simp] theorem Cell.state_withdraw (who : Nat) (c : Cell) : (c.withdraw who).state = c.state :=
  rfl

theorem Cell.withdraw_withdraw (who : Nat) (c : Cell) :
    (c.withdraw who).withdraw who = c.withdraw who := by
  rw [Cell.withdraw, Cell.withdraw, Lock.leave_leave]

/-! ## One step -/

section

variable {client : Client σ} {g : Group} {who order : Nat} {clock : Clock}

theorem answer_of_outcome {α : Type} {p : Pending} {answer : Except CloudError α} {a : α}
    (houtcome : p.outcome answer = .ok a) : answer = .ok a := by
  rw [Pending.outcome] at houtcome
  split at houtcome
  · cases houtcome
  · exact houtcome

theorem send_cases (s : Scene σ) (call : Call) (next : Pending → Activity) :
    s.send client g who clock order call next = s.leaveFor who (.ended .broke)
    ∨ ∃ pending cloud', Calls client g clock call s.cloud pending cloud'
      ∧ s.send client g who clock order call next
        = ⟨next pending, s.cell, cloud'⟩ := by
  rw [Scene.send]
  split
  · exact .inl rfl
  · next receipt cloud' hsubmit =>
    exact .inr ⟨_, cloud', ⟨receipt, order, hsubmit, rfl⟩, rfl⟩

theorem advance_start (cell : Cell) (cloud : σ) (errand : Errand) :
    Advance client g who clock ⟨.started errand, cell, cloud⟩
      (Scene.start client g who clock order ⟨.started errand, cell, cloud⟩ errand) := by
  cases errand with
  | query q =>
    rw [Scene.start]
    split
    · exact .finish _ rfl
    · exact .queue rfl
  | mutate m =>
    rw [Scene.start]
    split
    · exact .finish _ rfl
    · exact .queue rfl
  | reload =>
    rw [Scene.start]
    rcases send_cases ⟨.started .reload, cell, cloud⟩ .describe _ with hbroke | ⟨p, c, hcalls, heq⟩
    · rw [hbroke]
      exact .leave _ rfl
    · rw [heq]
      exact .count hcalls
  | describe => exact .queue rfl

theorem advance_fulfil {cell : Cell} (cloud : σ) (wish : Wish)
    (hheld : cell.lock.isHeldBy who = true) :
    Advance client g who clock ⟨.queued wish, cell, cloud⟩
      (Scene.fulfil client g who clock order ⟨.queued wish, cell, cloud⟩ wish) := by
  cases wish with
  | query q => exact .leave _ rfl
  | mutate m =>
    rw [Scene.fulfil]
    split
    · exact .leave _ rfl
    · exact .leave _ rfl
    · next change hplan =>
      rcases send_cases ⟨.queued (.mutate m), cell, cloud⟩ change.call (.changing change)
        with hbroke | ⟨p, c, hcalls, heq⟩
      · rw [hbroke]
        exact .leave _ rfl
      · rw [heq]
        exact .call hheld hplan hcalls
  | describe =>
    rw [Scene.fulfil]
    split
    · exact .leave _ rfl
    · rcases send_cases ⟨.queued .describe, cell.withdraw who, cloud⟩ .describe (.describing none)
        with hbroke | ⟨p, c, hcalls, heq⟩
      · -- The lock was left before the call was sent, and is left again as the client breaks down.
        rw [Scene.leaveFor, hbroke, Scene.leaveFor, Cell.withdraw_withdraw]
        exact .leave _ rfl
      · rw [Scene.leaveFor, heq]
        exact .ask hcalls
  | install generation cache => exact .install hheld

theorem advance_finishChange (cell : Cell) (cloud : σ) (change : Change) (p : Pending) :
    Advance client g who clock ⟨.changing change p, cell, cloud⟩
      (Scene.finishChange client g who ⟨.changing change p, cell, cloud⟩ change p) := by
  rw [Scene.finishChange]
  split
  · exact .leave _ rfl
  · next cloud' houtcome => exact .accept (answer_of_outcome houtcome)

theorem advance_finishDescription (cell : Cell) (cloud : σ) (generation : Option UInt64)
    (p : Pending) :
    Advance client g who clock ⟨.describing generation p, cell, cloud⟩
      (Scene.finishDescription client g who clock order ⟨.describing generation p, cell, cloud⟩
        generation p) := by
  unfold Scene.finishDescription
  split
  · exact .finish _ rfl
  · exact .finish _ rfl
  · next d generation houtcome =>
    rcases send_cases ⟨.describing (some generation) p, cell, cloud⟩ .list (.listing generation d)
      with hbroke | ⟨p', c, hcalls, heq⟩
    · rw [hbroke]
      exact .leave _ rfl
    · rw [heq]
      exact .describe (answer_of_outcome houtcome) hcalls

theorem advance_finishListing (cell : Cell) (cloud : σ) (generation : UInt64) (d : ScaleSet)
    (p : Pending) :
    Advance client g who clock ⟨.listing generation d p, cell, cloud⟩
      (Scene.finishListing client g ⟨.listing generation d p, cell, cloud⟩ generation d p) := by
  rw [Scene.finishListing]
  split
  · exact .finish _ rfl
  · next listing houtcome => exact .list (answer_of_outcome houtcome)

/-- Every step of an activity is one of the cases. -/
theorem advance_of_step {s s' : Scene σ}
    (hstep : s.step client g who clock order = some s') : Advance client g who clock s s' := by
  obtain ⟨activity, cell, cloud⟩ := s
  cases activity with
  | started errand =>
    rw [← Option.some.inj hstep]
    exact advance_start cell cloud errand
  | queued wish =>
    obtain ⟨hheld, hnext⟩ := Option.ite_none_right_eq_some.mp hstep
    rw [← Option.some.inj hnext]
    exact advance_fulfil cloud wish hheld
  | changing change p =>
    obtain ⟨-, hnext⟩ := Option.ite_none_right_eq_some.mp hstep
    rw [← Option.some.inj hnext]
    exact advance_finishChange cell cloud change p
  | accepted change =>
    rw [← Option.some.inj hstep]
    exact .commit
  | describing generation p =>
    obtain ⟨-, hnext⟩ := Option.ite_none_right_eq_some.mp hstep
    rw [← Option.some.inj hnext]
    exact advance_finishDescription cell cloud generation p
  | listing generation d p =>
    obtain ⟨-, hnext⟩ := Option.ite_none_right_eq_some.mp hstep
    rw [← Option.some.inj hnext]
    exact advance_finishListing cell cloud generation d p
  | fetched generation cache =>
    rw [← Option.some.inj hstep]
    exact .bring
  | ended ending => cases hstep

/-- The clock when a call is over that is answered sooner or later. -/
def awaited (clock : Clock) (p : Pending) : Clock :=
  match p.wait with
  | .timer t => ⟨max clock.now t.due, max clock.now t.due⟩
  | _ => clock

theorem now_le_awaited (clock : Clock) (p : Pending) : clock.now ≤ (awaited clock p).now := by
  rw [awaited]
  split
  · exact Nat.le_max_left _ _
  · exact Nat.le_refl _

theorem isOver_awaited {p : Pending} (hanswered : p.wait ≠ .forever) (clock : Clock) :
    p.isOver (awaited clock p) = true := by
  rw [Pending.isOver, awaited]
  split
  · rfl
  · next t htimer =>
    rw [htimer]
    exact decide_eq_true (Nat.le_max_right clock.now t.due)
  · next hforever => exact absurd hforever hanswered

/-- An activity that has not ended goes on sooner or later, once it has the lock if it needs it,
unless it waits for an answer that never comes. -/
theorem exists_step (activity : Activity) (cell : Cell) (cloud : σ)
    (hlock : ∀ wish, activity = .queued wish → cell.lock.isHeldBy who = true)
    (hanswered : activity.isStranded = false) (hended : ∀ ending, activity ≠ .ended ending) :
    ∃ clock' scene, clock.now ≤ clock'.now
      ∧ Scene.step client g who clock' order ⟨activity, cell, cloud⟩ = some scene := by
  cases activity with
  | started errand => exact ⟨clock, _, Nat.le_refl _, rfl⟩
  | queued wish => exact ⟨clock, _, Nat.le_refl _, if_pos (hlock wish rfl)⟩
  | changing change p =>
    have hover := isOver_awaited (of_decide_eq_false hanswered) clock
    exact ⟨_, _, now_le_awaited clock p, if_pos hover⟩
  | accepted change => exact ⟨clock, _, Nat.le_refl _, rfl⟩
  | describing generation p =>
    have hover := isOver_awaited (of_decide_eq_false hanswered) clock
    exact ⟨_, _, now_le_awaited clock p, if_pos hover⟩
  | listing generation d p =>
    have hover := isOver_awaited (of_decide_eq_false hanswered) clock
    exact ⟨_, _, now_le_awaited clock p, if_pos hover⟩
  | fetched generation cache => exact ⟨clock, _, Nat.le_refl _, rfl⟩
  | ended ending => exact absurd rfl (hended ending)

end

end NodeGroups.Group
