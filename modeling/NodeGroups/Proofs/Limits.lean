import NodeGroups.Proofs.Pass
import NodeGroups.Proofs.Punctual

/-!
# Reloads and their time limits

A refresh pass hands its groups to tasks of their own, which reload them with the registry's time
limit. In a punctual course each of these is finished when the limit is over, whatever the cloud
and the other tasks do meanwhile: the limit is set when the reload first waits, no time passes
before that, and then time does not pass beyond the limit while the reload waits for it.
-/

namespace NodeGroups.Simulation.World

variable {σ : Type} {client : Client σ} {w w' : World σ} {who child moment ms : Nat}
  {limit : Duration}

def IsOver (who : Nat) (w : World σ) : Prop :=
  ∃ result moment, w.stage? who = some (.finished result moment)

/-- A reload that was handed over at a moment goes on within its time limit, or it is finished. -/
inductive InLimit (limit : Duration) (moment who : Nat) (w : World σ) : Prop
  | going {h : Handle} {activity : Group.Activity} {d : Deadline}
      (hstage : w.stage? who = some (.visiting h activity (some d) .reply))
      (hplace : h.place < w.cells.length) (hlimit : d.Counts limit moment w.clock.now)
  | ended (hover : w.IsOver who)

theorem isOver_finish {stage : Stage σ} (hstage : w.stage? who = some stage) (result : Result) :
    (w.finish who result).IsOver who :=
  ⟨result, w.clock.now, stage?_finish_self hstage result⟩

theorem Turns.not_isOver (hturn : w.Turns client who w') : ¬ w.IsOver who := by
  rintro ⟨result, moment, hstage⟩
  exact not_steps_of_finished hstage hturn.steps

theorem IsOver.turns (h : w.IsOver child) (hturn : w.Turns client who w') : w'.IsOver child := by
  have hne : child ≠ who := fun heq ↦ hturn.not_isOver (heq ▸ h)
  obtain ⟨result, moment, hstage⟩ := h
  exact ⟨result, moment, hturn.beside.stage hne hstage⟩

namespace InLimit

theorem stepActivity {h : Handle} {activity : Group.Activity} {d : Deadline}
    (hstage : w.stage? who = some (.visiting h activity (some d) .reply))
    (hplace : h.place < w.cells.length) (hlimit : d.Counts limit moment w.clock.now)
    (hnext : w.stepActivity client who h activity (some d) .reply = some w') :
    w'.InLimit limit moment who := by
  by_cases hended : ∃ ending, activity = .ended ending
  · obtain ⟨ending, rfl⟩ := hended
    obtain rfl := Option.some.inj hnext
    exact .ended (isOver_finish hstage _)
  · obtain ⟨cell, hcell, hcases⟩ := stepActivity_cases hnext fun ending heq ↦ hended ⟨ending, heq⟩
    rcases hcases with ⟨scene, -, rfl⟩ | ⟨d', hd, -, hexpire⟩
    · refine .going (stage?_carryOn_self hstage h scene (some d) .reply) ?_ hlimit
      exact Nat.lt_of_lt_of_le hplace (Beside.carryOn who h scene (some d) .reply w).cells
    · obtain rfl := Option.some.inj hd
      rcases expire_cases hcell hexpire with ⟨hunset, rfl⟩ | ⟨timer, -, -, rfl⟩
      · exact .going (stage?_setStage_self hstage _) hplace (hlimit.set hunset w.steps)
      · exact .ended (isOver_finish (w := w.setCell h.place (cell.withdraw who)) hstage _)

theorem step (h : w.InLimit limit moment who) (hstep : w.step client who = some w') :
    w'.InLimit limit moment who := by
  obtain ⟨stage, next, hstage, hnext, rfl⟩ := step_cases hstep
  have hafter : next.InLimit limit moment who := by
    cases h with
    | going hvisiting hplace hlimit =>
      obtain rfl := Option.some.inj (hvisiting.symm.trans hstage)
      exact stepActivity hstage hplace hlimit hnext
    | ended hover =>
      obtain ⟨result, moment, hfinished⟩ := hover
      exact absurd (.step hstep) (not_steps_of_finished hfinished)
  cases hafter with
  | going hstage hplace hlimit => exact .going hstage hplace hlimit
  | ended hover => exact .ended hover

/-- Whoever goes on, a reload stays within its limit. -/
theorem turns (h : w.InLimit limit moment child) (hturn : w.Turns client who w') :
    w'.InLimit limit moment child := by
  by_cases hown : child = who
  · subst hown
    cases h with
    | going hstage hplace hlimit =>
      exact step (.going hstage hplace hlimit) (hturn.steps.step_of_not_idling hstage nofun)
    | ended hover => exact absurd hover hturn.not_isOver
  · cases h with
    | going hstage hplace hlimit =>
      refine .going (hturn.beside.stage hown hstage) ?_ (hturn.clock ▸ hlimit)
      exact Nat.lt_of_lt_of_le hplace hturn.beside.cells
    | ended hover => exact .ended (hover.turns hturn)

/-- A reload that is not finished when nobody can go on waits for its limit, which is not over. -/
theorem exists_timer (h : w.InLimit limit moment who) (hopen : ¬ w.IsOver who)
    (hwaits : w.AllWait client) : ∃ handle activity d timer,
      w.stage? who = some (.visiting handle activity (some d) .reply)
      ∧ handle.place < w.cells.length ∧ d.Counts limit moment w.clock.now
      ∧ d.timer = some timer ∧ ¬ w.clock.isPast timer = true := by
  cases h with
  | ended hover => exact absurd hover hopen
  | @going handle activity d hstage hplace hlimit =>
    have hcell := List.getElem?_eq_getElem hplace
    obtain ⟨-, -, timer, htimer, hfuture⟩ := Reload.stepActivity_eq_none hcell (hwaits hstage)
    refine ⟨handle, activity, d, timer, hstage, hplace, hlimit, htimer, ?_⟩
    simpa [Clock.isPast] using hfuture

theorem mem_timers {h : Handle} {activity : Group.Activity} {d : Deadline} {timer : Timer}
    (htimer : d.timer = some timer) :
    timer ∈ (Stage.visiting h activity (some d) .reply : Stage σ).timers :=
  List.mem_append_right _ (Option.mem_toList.mpr htimer)

theorem elapse (h : w.InLimit limit moment who) (hpass : w.MayPass client ms)
    (hrung : w.clock.rung = w.clock.now) : (w.pass ms).ring.InLimit limit moment who := by
  by_cases hover : w.IsOver who
  · exact .ended hover
  · rcases Nat.eq_zero_or_pos ms with rfl | hms
    · cases h with
      | going hstage hplace hlimit => exact .going hstage hplace hlimit
      | ended hover' => exact .ended hover'
    · obtain ⟨handle, activity, d, timer, hstage, hplace, hlimit, htimer, hfuture⟩ :=
        h.exists_timer hover (hpass hms).1
      have hlate := hpass.le_due hrung hstage (mem_timers htimer) hfuture
      exact .going hstage hplace (hlimit.elapse htimer hlate)

theorem of_bounded {h : Handle} {v : World σ}
    (hstage : w.stage? who = some (v.boundedReload h .reply)) (hplace : h.place < w.cells.length) :
    w.InLimit v.registry.groupTimeout w.clock.now who :=
  .going hstage hplace ⟨rfl, fun _ ↦ rfl, nofun⟩

end InLimit

/-! ## What lasts -/

/-- What does not change for the worse, whatever happens. -/
structure Lasts (limit : Duration) (w w' : World σ) : Prop where
  clock : w.clock.now ≤ w'.clock.now
  ended : ∀ {who}, w.IsOver who → w'.IsOver who
  inLimit : ∀ {moment who}, w.InLimit limit moment who → w'.InLimit limit moment who

namespace Lasts

theorem turns (hturn : w.Turns client who w') : Lasts limit w w' where
  clock := Nat.le_of_eq (congrArg Clock.now hturn.clock).symm
  ended hover := hover.turns hturn
  inLimit h := h.turns hturn

theorem elapse (hpass : w.MayPass client ms) (hrung : w.clock.rung = w.clock.now) :
    Lasts limit w (w.pass ms).ring where
  clock := Nat.le_add_right _ _
  ended hover := hover
  inLimit h := h.elapse hpass hrung

theorem of_stages (hclock : w'.clock = w.clock) (hcells : w'.cells = w.cells)
    (hstage : ∀ {who stage}, w.stage? who = some stage → w'.stage? who = some stage) :
    Lasts limit w w' where
  clock := Nat.le_of_eq (congrArg Clock.now hclock).symm
  ended hover := by
    obtain ⟨result, moment, hfinished⟩ := hover
    exact ⟨result, moment, hstage hfinished⟩
  inLimit h := by
    cases h with
    | going hvisiting hplace hlimit =>
      exact .going (hstage hvisiting) (hcells ▸ hplace) (hclock ▸ hlimit)
    | ended hover =>
      obtain ⟨result, moment, hfinished⟩ := hover
      exact .ended ⟨result, moment, hstage hfinished⟩

end Lasts

end NodeGroups.Simulation.World
