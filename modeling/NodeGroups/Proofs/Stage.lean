import NodeGroups.Proofs.Advance
import NodeGroups.Simulation.World

/-!
# What tasks wait for

All that a task has to do with the locks and with refresh passes can be told from what it waits for.
A step is the business of one task, which goes on from where it waits; for one that visits a group,
this comes down to what the group's activity can do.
-/

namespace NodeGroups.Simulation

variable {σ : Type}

/-! ## What a stage tells -/

/-- How a task is in the lock of the registry while it visits a group. -/
def Next.gateClaim? : Next → Option Access
  | .select .. => some .shared
  | _ => none

namespace Stage

/-- Whether a task is in the middle of selecting the groups that need a refresh. -/
def isSelecting : Stage σ → Bool
  | .entering (.select ..) => true
  | .visiting _ _ _ (.select ..) => true
  | _ => false

/-- How a task is in the lock of the registry, if it is. -/
def gateClaim? : Stage σ → Option Access
  | .entering entry => some entry.access
  | .visiting _ _ _ next => next.gateClaim?
  | _ => none

/-- How a task is in the lock of the group at a place, if it is. -/
def claim? (place : Nat) : Stage σ → Option Access
  | .visiting h activity _ _ => if h.place = place then activity.claim? else none
  | _ => none

def isVisiting : Stage σ → Bool
  | .visiting .. => true
  | _ => false

/-- The group that a task is about to register. -/
def newcomer? : Stage σ → Option Handle
  | .entering (.register h) => some h
  | _ => none

/-- A task is in the lock of no group, and is not about to register one. -/
structure IsOutside (stage : Stage σ) : Prop where
  claim? : ∀ place, stage.claim? place = none
  newcomer? : stage.newcomer? = none

/-- A task is in no lock at all. -/
structure IsIdle (stage : Stage σ) : Prop extends stage.IsOutside where
  gateClaim? : stage.gateClaim? = none

theorem claim?_of_isVisiting {stage : Stage σ} (hout : stage.isVisiting = false) (place : Nat) :
    stage.claim? place = none := by
  cases stage with
  | visiting h activity deadline next => cases hout
  | _ => rfl

theorem IsOutside.visiting {activity : Group.Activity} (hclaim : activity.claim? = none)
    (h : Handle) (deadline : Option Deadline) (next : Next) :
    (Stage.visiting h activity deadline next : Stage σ).IsOutside where
  claim? place := by
    rw [Stage.claim?, hclaim, ite_self]
  newcomer? := rfl

theorem IsIdle.visiting {activity : Group.Activity} {next : Next}
    (hclaim : activity.claim? = none) (hnext : next.gateClaim? = none) (h : Handle)
    (deadline : Option Deadline) : (Stage.visiting h activity deadline next : Stage σ).IsIdle :=
  ⟨.visiting hclaim h deadline next, hnext⟩

/-- Whether a task neither waits for the registry nor visits a group. -/
def isElsewhere : Stage σ → Bool
  | .entering _ | .visiting .. => false
  | _ => true

theorem IsIdle.elsewhere {stage : Stage σ} (helsewhere : stage.isElsewhere = true) :
    stage.IsIdle := by
  cases stage with
  | entering entry => cases helsewhere
  | visiting h activity deadline next => cases helsewhere
  | _ => exact ⟨⟨fun _ ↦ rfl, rfl⟩, rfl⟩

theorem IsIdle.isSelecting {stage : Stage σ} (hidle : stage.IsIdle) :
    stage.isSelecting = false := by
  have hclaim := hidle.gateClaim?
  cases stage with
  | entering entry => cases hclaim
  | visiting h activity deadline next =>
    cases next with
    | select now stale rest after => cases hclaim
    | _ => rfl
  | _ => rfl

end Stage

namespace World

variable {w w' : World σ} {who : Nat}

def stage? (w : World σ) (who : Nat) : Option (Stage σ) := w.tasks[who]?.map Task.stage

theorem stage?_setStage (who other : Nat) (stage : Stage σ) (w : World σ) :
    (w.setStage who stage).stage? other
      = (w.stage? other).map fun s ↦ if who = other then stage else s := by
  simp only [stage?, setStage, List.getElem?_modify, Option.map_map, Option.map_eq_map]
  congr 1
  funext task
  by_cases heq : who = other
  · simp [heq]
  · simp [heq]

theorem stage?_setStage_of_ne {other : Nat} (hne : other ≠ who) (stage : Stage σ) (w : World σ) :
    (w.setStage who stage).stage? other = w.stage? other := by
  rw [stage?_setStage]
  simp [hne.symm]

theorem eq_of_stage?_setStage {stage s : Stage σ}
    (hstage : (w.setStage who stage).stage? who = some s) : s = stage := by
  rw [stage?_setStage] at hstage
  obtain ⟨_, -, heq⟩ := Option.map_eq_some_iff.mp hstage
  rw [← heq, if_pos rfl]

theorem stage?_setStage_self {s : Stage σ} (hstage : w.stage? who = some s) (stage : Stage σ) :
    (w.setStage who stage).stage? who = some stage := by
  rw [stage?_setStage, hstage, Option.map_some, if_pos rfl]

theorem stage?_finish_self {s : Stage σ} (hstage : w.stage? who = some s) (result : Result) :
    (w.finish who result).stage? who = some (.finished result w.clock.now) :=
  stage?_setStage_self hstage _

theorem stage?_enter_self {s : Stage σ} (hstage : w.stage? who = some s) (entry : Entry) :
    (w.enter who entry).stage? who = some (.entering entry) :=
  stage?_setStage_self hstage _

theorem stage?_append {stage : Stage σ} (hstage : w.stage? who = some stage)
    (tasks : List (Task σ)) :
    { w with tasks := w.tasks ++ tasks : World σ }.stage? who = some stage := by
  obtain ⟨task, htask, rfl⟩ := Option.map_eq_some_iff.mp hstage
  obtain ⟨hlt, -⟩ := List.getElem?_eq_some_iff.mp htask
  rw [stage?, List.getElem?_append_left hlt, htask]
  rfl

/-! ## Steps -/

theorem step_cases {client : Client σ} (hstep : w.step client who = some w') :
    ∃ stage next, w.stage? who = some stage ∧ w.stepTask client who stage = some next
      ∧ w' = { next with steps := next.steps + 1 } := by
  obtain ⟨-, hstep⟩ := Option.ite_none_left_eq_some.mp hstep
  obtain ⟨task, htask, hstep⟩ := Option.bind_eq_some_iff.mp hstep
  obtain ⟨next, hnext, heq⟩ := Option.bind_eq_some_iff.mp hstep
  have hstage : w.stage? who = some task.stage := by
    rw [stage?, htask]
    rfl
  exact ⟨task.stage, next, hstage, hnext, (Option.some.inj heq).symm⟩

/-- A task goes on from where it waits, unless it is put off until the clock rings. -/
theorem step_of_stepTask {client : Client σ} {stage : Stage σ} {next : World σ}
    (hstage : w.stage? who = some stage) (hnext : w.stepTask client who stage = some next)
    (hturn : who ∉ w.deferred) :
    w.step client who = some { next with steps := next.steps + 1 } := by
  obtain ⟨task, htask, rfl⟩ := Option.map_eq_some_iff.mp hstage
  rw [World.step, if_neg hturn, htask]
  exact congrArg (fun next ↦ next.bind fun next ↦ some { next with steps := next.steps + 1 }) hnext

/-! ## Activities of groups -/

def carryOn (who : Nat) (h : Handle) (scene : Group.Scene σ) (deadline : Option Deadline)
    (next : Next) (w : World σ) : World σ :=
  ({ w with cloud := scene.cloud }.setCell h.place scene.cell).setStage who
    (.visiting h scene.activity deadline next)

theorem stage?_carryOn_self {s : Stage σ} (hstage : w.stage? who = some s) (h : Handle)
    (scene : Group.Scene σ) (deadline : Option Deadline) (next : Next) :
    (w.carryOn who h scene deadline next).stage? who
      = some (.visiting h scene.activity deadline next) :=
  stage?_setStage_self hstage _

theorem stepActivity_eq {client : Client σ} {h : Handle} {activity : Group.Activity}
    (hactive : ∀ ending, activity ≠ .ended ending) (deadline : Option Deadline) (next : Next)
    (w : World σ) :
    w.stepActivity client who h activity deadline next = w.cells[h.place]?.bind fun cell ↦
      match Group.Scene.step client h.group who w.clock w.steps ⟨activity, cell, w.cloud⟩ with
      | some scene => some (w.carryOn who h scene deadline next)
      | none => deadline.bind fun d ↦ w.expire who h activity d next := by
  cases activity with
  | ended ending => exact absurd rfl (hactive ending)
  | _ => rfl

/-- An activity that has not ended goes on, or it waits and its time limit matters. -/
theorem stepActivity_cases {client : Client σ} {h : Handle} {activity : Group.Activity}
    {deadline : Option Deadline} {next : Next}
    (hstep : w.stepActivity client who h activity deadline next = some w')
    (hactive : ∀ ending, activity ≠ .ended ending) :
    ∃ cell, w.cells[h.place]? = some cell
      ∧ ((∃ scene, Group.Scene.step client h.group who w.clock w.steps ⟨activity, cell, w.cloud⟩
            = some scene ∧ w.carryOn who h scene deadline next = w')
        ∨ ∃ d, deadline = some d
          ∧ Group.Scene.step client h.group who w.clock w.steps ⟨activity, cell, w.cloud⟩ = none
          ∧ w.expire who h activity d next = some w') := by
  rw [stepActivity_eq hactive] at hstep
  obtain ⟨cell, hcell, hnext⟩ := Option.bind_eq_some_iff.mp hstep
  refine ⟨cell, hcell, ?_⟩
  split at hnext
  · next scene hscene => exact .inl ⟨scene, hscene, Option.some.inj hnext⟩
  · next hwaits =>
    obtain ⟨d, hdeadline, hexpire⟩ := Option.bind_eq_some_iff.mp hnext
    exact .inr ⟨d, hdeadline, hwaits, hexpire⟩

/-- An activity that waits is given its time limit, or given up when it is over. -/
theorem expire_cases {h : Handle} {activity : Group.Activity} {d : Deadline} {next : Next}
    {cell : Group.Cell} (hcell : w.cells[h.place]? = some cell)
    (hexpire : w.expire who h activity d next = some w') :
    (d.timer = none ∧ w.setStage who (.visiting h activity
        (some { d with timer := w.timer d.limit.ms }) next) = w')
    ∨ ∃ timer, d.timer = some timer ∧ w.clock.isPast timer = true
      ∧ (w.setCell h.place (cell.withdraw who)).proceed who h
          (.answered (.error (.timedOut h.group.name d.limit))) next = w' := by
  rw [expire] at hexpire
  split at hexpire
  · next hnone => exact .inl ⟨hnone, Option.some.inj hexpire⟩
  · next timer hsome =>
    obtain ⟨hpast, hgiven⟩ := Option.ite_none_right_eq_some.mp hexpire
    rw [hcell] at hgiven
    exact .inr ⟨timer, hsome, hpast, Option.some.inj hgiven⟩

end World

end NodeGroups.Simulation
