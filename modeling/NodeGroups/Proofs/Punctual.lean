import NodeGroups.Proofs.Calm
import NodeGroups.Proofs.Timely

/-!
# When no timer is late

What tasks do takes no time by itself, and nobody misses a timer: time passes only when none of the
tasks can go on, and then only up to the next timer, at which the clock rings. This is how a runtime
proceeds that has nothing to do besides. Requests come in at any time, and which task goes on first
is left open.

Each step of a task is kept as a turn that says where the task waited before it and where it waits
after it. From the turns of one task one can tell what it did and when.
-/

namespace NodeGroups.Simulation

variable {σ : Type}

/-- A step of a task: where it waited, where it waits now, and when that was. The groups that were
registered then are noted as well. -/
structure Turn (σ : Type) where
  who : Nat
  before : Option (Stage σ)
  after : Option (Stage σ)
  moment : Nat
  handles : List Handle

namespace World

def turn (who : Nat) (w w' : World σ) : Turn σ :=
  ⟨who, w.stage? who, w'.stage? who, w.clock.now, w.registry.handles⟩

/-- A task goes on without any time passing. -/
structure Turns (client : Client σ) (who : Nat) (w w' : World σ) : Prop where
  steps : w.Steps client who w'
  clock : w'.clock = w.clock

/-- Time may pass: none of the tasks can go on, and no timer is skipped. -/
def MayPass (client : Client σ) (ms : Nat) (w : World σ) : Prop :=
  0 < ms → w.AllWait client ∧ ∀ left ∈ w.nextTimer?, ms ≤ left

variable {client : Client σ} {w w' : World σ} {who ms : Nat}

theorem Stride.groupTimeout {note : Option Note} (h : Stride who w w' note) :
    w'.registry.groupTimeout = w.registry.groupTimeout := by
  cases h with
  | quiet h => rw [h.registry]
  | dropped hsoon h hsame => rw [h.registry]
  | passed hsoon hregistry hcalm hstage => rw [hregistry]
  | passedAll hregistry h => rw [hregistry]
  | registered hregister h => exact (Registry.times_of_register? hregister).2.2
  | installed hstage hcell hstage' hlast hothers h => rw [h.registry]
  | entered hstage hcalm hnext => rw [hcalm.registry]
  | asked hstage hcalm hstage' hanswer => rw [hcalm.registry]
  | told hstage hcalm hnext => rw [hcalm.registry]

namespace Turns

theorem beside (h : Turns client who w w') : Beside who w w' := h.steps.beside

theorem groupTimeout {start : World σ} {record : List Note} (h : Turns client who w w')
    (hrecorded : Recorded start record w) :
    w'.registry.groupTimeout = w.registry.groupTimeout :=
  (h.steps.stride fun hs ↦ (hrecorded.tasks hs).isSound).groupTimeout

end Turns

/-! ## Timers -/

/-- There is a next timer if somebody waits for one, and it is not later than his. -/
theorem exists_nextTimer {stage : Stage σ} {timer : Timer} (hstage : w.stage? who = some stage)
    (htimer : timer ∈ stage.timers) (hfuture : ¬ w.clock.isPast timer = true) :
    ∃ left, w.nextTimer? = some left ∧ left ≤ timer.due - w.clock.now := by
  obtain ⟨task, htask, rfl⟩ := Option.map_eq_some_iff.mp hstage
  let lefts := (w.tasks.flatMap fun t ↦ t.stage.timers).filterMap fun t ↦
    if w.clock.isPast t then none else some (t.due - w.clock.now)
  have hmem : timer.due - w.clock.now ∈ lefts := by
    refine List.mem_filterMap.mpr ⟨timer, ?_, if_neg hfuture⟩
    exact List.mem_flatMap.mpr ⟨task, List.mem_of_getElem? htask, htimer⟩
  cases hleft : lefts.min? with
  | none =>
    rw [List.min?_eq_none_iff.mp hleft] at hmem
    cases hmem
  | some left => exact ⟨left, hleft, (List.min?_eq_some_iff.mp hleft).2 _ hmem⟩

/-- Nobody misses a timer. -/
theorem MayPass.le_due (hpass : w.MayPass client ms) (hrung : w.clock.rung = w.clock.now)
    {stage : Stage σ} {timer : Timer} (hstage : w.stage? who = some stage)
    (htimer : timer ∈ stage.timers) (hfuture : ¬ w.clock.isPast timer = true) :
    w.clock.now + ms ≤ timer.due := by
  have hlater : w.clock.rung < timer.due := by simpa [Clock.isPast] using hfuture
  rcases Nat.eq_zero_or_pos ms with rfl | hms
  · omega
  · obtain ⟨left, hleft, hle⟩ := exists_nextTimer hstage htimer hfuture
    have hbound := (hpass hms).2 left hleft
    omega

end World

/-! ## Punctual courses -/

/-- A course in which only waiting takes time and no timer is late, with its turns, the latest
first. -/
inductive Punctual (client : Client σ) (start : World σ) : List (Turn σ) → World σ → Prop
  | refl : Punctual client start [] start
  | arrive {trail : List (Turn σ)} {w : World σ} (request : Request σ)
      (h : Punctual client start trail w) : Punctual client start trail
        { w with tasks := w.tasks ++ [⟨.launching none request, none⟩] }
  | turn {trail : List (Turn σ)} {w w' : World σ} {who : Nat} (h : Punctual client start trail w)
      (hturn : w.Turns client who w') : Punctual client start (w.turn who w' :: trail) w'
  | elapse {trail : List (Turn σ)} {w : World σ} {ms : Nat} (h : Punctual client start trail w)
      (hpass : w.MayPass client ms) : Punctual client start trail (w.pass ms).ring
  /-- It is settled who has his turn and who waits for the clock. -/
  | arrange {trail : List (Turn σ)} {w : World σ} (h : Punctual client start trail w)
      (woken deferred : List Nat) (turns taken : Nat) :
      Punctual client start trail { w with woken, deferred, turns, taken }

namespace Punctual

variable {client : Client σ} {start w : World σ} {trail : List (Turn σ)}

theorem rung_eq (h : Punctual client start trail w) (hrung : start.clock.rung = start.clock.now) :
    w.clock.rung = w.clock.now := by
  induction h with
  | refl => exact hrung
  | arrive request h ih => exact ih
  | turn h hturn ih => rwa [hturn.clock]
  | elapse h hpass ih => rfl
  | arrange h woken deferred turns taken ih => exact ih

theorem custody (h : Punctual client start trail w) (hfresh : start.IsFresh) :
    World.Custody w := by
  induction h with
  | refl => exact hfresh.custody
  | arrive request h ih => exact ih.arrive request
  | turn h hturn ih => exact ih.steps hturn.steps
  | elapse h hpass ih => exact ih.congr rfl rfl rfl rfl rfl
  | arrange h woken deferred turns taken ih => exact ih.congr rfl rfl rfl rfl rfl

theorem recorded (h : Punctual client start trail w) (hfresh : start.IsFresh) :
    ∃ record, Recorded start record w := by
  induction h with
  | refl => exact ⟨[], .initial hfresh.tasks⟩
  | arrive request h ih =>
    obtain ⟨record, hrecorded⟩ := ih
    exact ⟨record, hrecorded.arrive request⟩
  | turn h hturn ih =>
    obtain ⟨record, hrecorded⟩ := ih
    exact ⟨_, hrecorded.step hturn.steps⟩
  | elapse h hpass ih =>
    obtain ⟨record, hrecorded⟩ := ih
    exact ⟨record, hrecorded.of_tasks rfl rfl (Nat.le_add_right _ _) rfl⟩
  | arrange h woken deferred turns taken ih =>
    obtain ⟨record, hrecorded⟩ := ih
    exact ⟨record, hrecorded.of_tasks rfl rfl (Nat.le_refl _) rfl⟩

theorem groupTimeout (h : Punctual client start trail w) (hfresh : start.IsFresh) :
    w.registry.groupTimeout = start.registry.groupTimeout := by
  induction h with
  | refl => rfl
  | arrive request h ih => exact ih
  | turn h hturn ih =>
    obtain ⟨record, hrecorded⟩ := h.recorded hfresh
    exact (hturn.groupTimeout hrecorded).trans ih
  | elapse h hpass ih => exact ih
  | arrange h woken deferred turns taken ih => exact ih

end Punctual

end NodeGroups.Simulation
