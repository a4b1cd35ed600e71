import Mathlib.Logic.Relation
import NodeGroups.Proofs.Parts
import NodeGroups.Proofs.Reload

/-!
# Reloads that nobody disturbs

Some tasks are at work on some groups, and nobody else acts on these groups or on their scale sets.
The tasks take their steps in any order. Steps take no time: it passes while all of the tasks wait,
and then not beyond the next of their timers. Whatever else goes on in the world meanwhile is left
open.

A reload under these circumstances stays in its phases, and its steps leave the other groups alone.
So it ends as it was bound to end, whatever the order of the steps is.
-/

namespace NodeGroups.Simulation

variable {σ : Type} {client : Client σ}

namespace World

variable {w w' w'' : World σ} {whos : List Nat} {handles : List Handle}

/-! ## What is left alone -/

/-- Some tasks, the cells of some groups, and what these can learn from the cloud are left as they
are, and no time passes. -/
structure Spares (client : Client σ) (whos : List Nat) (handles : List Handle) (w w' : World σ) :
    Prop where
  clock : w'.clock = w.clock
  stage : ∀ who ∈ whos, w'.stage? who = w.stage? who
  cell : ∀ h ∈ handles, w'.cells[h.place]? = w.cells[h.place]?
  manner : ∀ h ∈ handles, client.manner h.group w'.cloud = client.manner h.group w.cloud

namespace Spares

theorem trans (h : Spares client whos handles w w') (h' : Spares client whos handles w' w'') :
    Spares client whos handles w w'' where
  clock := h'.clock.trans h.clock
  stage who hwho := (h'.stage who hwho).trans (h.stage who hwho)
  cell g hg := (h'.cell g hg).trans (h.cell g hg)
  manner g hg := (h'.manner g hg).trans (h.manner g hg)

theorem of_subset (h : Spares client whos handles w w') {whos' : List Nat} {handles' : List Handle}
    (hwhos : whos' ⊆ whos) (hhandles : handles' ⊆ handles) : Spares client whos' handles' w w' where
  clock := h.clock
  stage who hwho := h.stage who (hwhos hwho)
  cell g hg := h.cell g (hhandles hg)
  manner g hg := h.manner g (hhandles hg)

theorem setStage {who : Nat} (hwho : who ∉ whos) (stage : Stage σ) (w : World σ) :
    Spares client whos handles w (w.setStage who stage) where
  clock := rfl
  stage _ hother := stage?_setStage_of_ne (ne_of_mem_of_not_mem hother hwho) stage w
  cell _ _ := rfl
  manner _ _ := rfl

theorem finish {who : Nat} (hwho : who ∉ whos) (result : Result) (w : World σ) :
    Spares client whos handles w (w.finish who result) where
  clock := rfl
  stage _ hother := stage?_setStage_of_ne (ne_of_mem_of_not_mem hother hwho) _ w
  cell _ _ := rfl
  manner _ _ := rfl

theorem setCell {place : Nat} (hplace : ∀ h ∈ handles, h.place ≠ place) (cell : Group.Cell)
    (w : World σ) : Spares client whos handles w (w.setCell place cell) where
  clock := rfl
  stage _ _ := rfl
  cell h hh := List.getElem?_set_ne (hplace h hh).symm
  manner _ _ := rfl

theorem setCloud {cloud : σ}
    (hmanner : ∀ h ∈ handles, client.manner h.group cloud = client.manner h.group w.cloud) :
    Spares client whos handles w { w with cloud } :=
  ⟨rfl, fun _ _ ↦ rfl, fun _ _ ↦ rfl, hmanner⟩

theorem count (steps : Nat) (w : World σ) : Spares client whos handles w { w with steps } :=
  ⟨rfl, fun _ _ ↦ rfl, fun _ _ ↦ rfl, fun _ _ ↦ rfl⟩

end Spares

theorem getElem?_setCell {place : Nat} {before : Group.Cell} (hcell : w.cells[place]? = some before)
    (cell : Group.Cell) : (w.setCell place cell).cells[place]? = some cell := by
  obtain ⟨hlt, -⟩ := List.getElem?_eq_some_iff.mp hcell
  exact List.getElem?_set_self hlt

/-! ## What happens -/

/-- A task has nothing to do until a moment. -/
def Waits (client : Client σ) (who moment : Nat) (w : World σ) : Prop :=
  ∀ stage, w.stage? who = some stage →
    w.stepTask client who stage = none ∧ ∀ timer ∈ stage.timers, moment ≤ timer.due

/-- One thing that happens while some tasks are at work on some groups and nobody else acts on
these. -/
inductive Undisturbed (client : Client σ) (whos : List Nat) (handles : List Handle) :
    World σ → World σ → Prop
  | step {who : Nat} {w w' : World σ} (hwho : who ∈ whos) (hsteps : w.Steps client who w') :
      Undisturbed client whos handles w w'
  /-- Time passes while all of the tasks wait, and the timers go off that are due then. -/
  | elapse {ms : Nat} {w : World σ}
      (hwaits : 0 < ms → ∀ who ∈ whos, w.Waits client who (w.clock.now + ms)) :
      Undisturbed client whos handles w (w.pass ms).ring
  /-- Something happens elsewhere. -/
  | elsewhere {w w' : World σ} (hspares : Spares client whos handles w w') :
      Undisturbed client whos handles w w'

/-- How many steps a task that waits for a group may take until it is finished: those of the group's
activity, one to set the time limit, and one to finish. -/
def stepsLeft (who : Nat) (w : World σ) : Nat :=
  match w.stage? who with
  | some (.visiting _ activity d _) =>
    activity.stepsLeft + if (d.bind Deadline.timer).isSome then 1 else 2
  | _ => 0

theorem stepsLeft_of_visiting {who : Nat} {h : Handle} {activity : Group.Activity}
    {d : Option Deadline} {next : Next}
    (hstage : w.stage? who = some (.visiting h activity d next)) :
    w.stepsLeft who = activity.stepsLeft + if (d.bind Deadline.timer).isSome then 1 else 2 := by
  rw [stepsLeft, hstage]

theorem stepsLeft_of_finished {who : Nat} {result : Result} {moment : Nat}
    (hstage : w.stage? who = some (.finished result moment)) : w.stepsLeft who = 0 := by
  rw [stepsLeft, hstage]

end World

/-- A time limit is not over, and counts from a moment once it is set. -/
structure Deadline.Counts (d : Deadline) (limit : Duration) (moment now : Nat) : Prop where
  same : d.limit = limit
  unset : d.timer = none → now = moment
  due : ∀ timer, d.timer = some timer → timer.due = moment + limit.ms ∧ now ≤ timer.due

theorem Deadline.Counts.now_le {d : Deadline} {limit : Duration} {moment now : Nat}
    (h : d.Counts limit moment now) : now ≤ moment + limit.ms := by
  cases htimer : d.timer with
  | none =>
    rw [h.unset htimer]
    exact Nat.le_add_right _ _
  | some timer =>
    rw [← (h.due timer htimer).1]
    exact (h.due timer htimer).2

theorem Deadline.Counts.set {d : Deadline} {limit : Duration} {moment now : Nat}
    (h : d.Counts limit moment now) (hunset : d.timer = none) (order : Nat) :
    { d with timer := some ⟨now + d.limit.ms, order⟩ : Deadline }.Counts limit moment now where
  same := h.same
  unset := nofun
  due timer htimer := by
    obtain rfl := Option.some.inj htimer
    refine ⟨?_, Nat.le_add_right _ _⟩
    rw [← h.unset hunset, ← h.same]

theorem Deadline.Counts.elapse {d : Deadline} {limit : Duration} {moment now later : Nat}
    {timer : Timer} (h : d.Counts limit moment now) (htimer : d.timer = some timer)
    (hlate : later ≤ timer.due) : d.Counts limit moment later where
  same := h.same
  unset hunset := by cases hunset.symm.trans htimer
  due other hother := by
    obtain rfl := Option.some.inj (htimer.symm.trans hother)
    exact ⟨(h.due timer htimer).1, hlate⟩

open World

namespace Reload

variable {r : Reload} {w w' : World σ}

/-! ## Under way -/

/-- A reload is finished, as it was bound to. -/
def IsDone (r : Reload) (w : World σ) : Prop :=
  (∃ moment, w.stage? r.who = some (.finished r.result moment))
    ∧ w.cells[r.handle.place]? = some ⟨r.after, .free⟩

/-- A reload is in one of its phases, or done. -/
inductive Underway (client : Client σ) (r : Reload) (w : World σ) : Prop
  | visiting {activity d cell}
      (hstage : w.stage? r.who = some (.visiting r.handle activity (some d) .reply))
      (hcell : w.cells[r.handle.place]? = some cell)
      (hphase : r.Phase w.clock.now (client.manner r.handle.group w.cloud) activity cell)
      (hlimits : d.Counts r.limit r.moment w.clock.now)
  | done (hdone : r.IsDone w)

theorem IsDone.of_spares (h : r.IsDone w) (hspares : Spares client [r.who] [r.handle] w w') :
    r.IsDone w' := by
  obtain ⟨⟨moment, hstage⟩, hcell⟩ := h
  exact ⟨⟨moment, (hspares.stage _ (.head _)).trans hstage⟩,
    (hspares.cell _ (.head _)).trans hcell⟩

theorem spares_of_mem {whos : List Nat} {handles : List Handle}
    (hspares : Spares client whos handles w w') (hwho : r.who ∈ whos)
    (hhandle : r.handle ∈ handles) : Spares client [r.who] [r.handle] w w' :=
  hspares.of_subset (List.cons_subset.mpr ⟨hwho, List.nil_subset _⟩)
    (List.cons_subset.mpr ⟨hhandle, List.nil_subset _⟩)

/-- A reload that is left alone stays where it is. -/
theorem Underway.of_spares (h : r.Underway client w)
    (hspares : Spares client [r.who] [r.handle] w w') : r.Underway client w' := by
  cases h with
  | visiting hstage hcell hphase hlimits =>
    refine .visiting ((hspares.stage _ (.head _)).trans hstage)
      ((hspares.cell _ (.head _)).trans hcell) ?_ ?_
    · rw [hspares.clock, hspares.manner _ (.head _)]
      exact hphase
    · rw [hspares.clock]
      exact hlimits
  | done hdone => exact .done (hdone.of_spares hspares)

theorem Underway.exists_stage (h : r.Underway client w) :
    ∃ stage, w.stage? r.who = some stage ∧ ∀ l next, stage ≠ .idling l next := by
  cases h with
  | visiting hstage => exact ⟨_, hstage, nofun⟩
  | done hdone =>
    obtain ⟨⟨moment, hstage⟩, -⟩ := hdone
    exact ⟨_, hstage, nofun⟩

theorem Underway.isDone (h : r.Underway client w) {result : Result} {moment : Nat}
    (hstage : w.stage? r.who = some (.finished result moment)) : r.IsDone w := by
  cases h with
  | visiting hstage' => cases hstage.symm.trans hstage'
  | done hdone => exact hdone

/-! ## Steps -/

/-- A reload goes on to be under way, comes closer to its end, and leaves the other groups and
tasks alone. -/
structure GoesOn (client : Client σ) (groups : List Group) (r : Reload) (w w' : World σ) :
    Prop where
  underway : r.Underway client w'
  closer : w'.stepsLeft r.who < w.stepsLeft r.who
  spares : ∀ {whos handles}, r.who ∉ whos → (∀ h ∈ handles, h.group ∈ groups
    ∧ h.place ≠ r.handle.place ∧ h.group.name ≠ r.handle.group.name) →
    Spares client whos handles w w'

section

variable {groups : List Group} {activity : Group.Activity} {d : Deadline} {cell : Group.Cell}

theorem goesOn_of_finish
    (hstage : w.stage? r.who = some (.visiting r.handle activity (some d) .reply))
    {w₁ : World σ} {stage : Stage σ} (hstage₁ : w₁.stage? r.who = some stage)
    (hcell : w₁.cells[r.handle.place]? = some ⟨r.after, .free⟩)
    (hspares : ∀ {whos handles}, (∀ h ∈ handles, h.place ≠ r.handle.place) →
      Spares client whos handles w w₁) {result : Result} (hresult : result = r.result) :
    r.GoesOn client groups w (w₁.finish r.who result) := by
  subst hresult
  have hself := stage?_finish_self hstage₁ r.result
  refine ⟨.done ⟨⟨_, hself⟩, hcell⟩, ?_, fun hwho hhandles ↦ ?_⟩
  · rw [stepsLeft_of_finished hself, stepsLeft_of_visiting hstage]
    split <;> omega
  · exact (hspares fun h hh ↦ (hhandles h hh).2.1).trans (.finish hwho _ _)

/-- A reload takes a step in its activity. -/
theorem goesOn_of_scene (hdiscreet : client.Discreet groups) (hgroup : r.handle.group ∈ groups)
    (hrung : w.clock.rung ≤ w.clock.now)
    (hstage : w.stage? r.who = some (.visiting r.handle activity (some d) .reply))
    (hcell : w.cells[r.handle.place]? = some cell)
    (hphase : r.Phase w.clock.now (client.manner r.handle.group w.cloud) activity cell)
    (hlimits : d.Counts r.limit r.moment w.clock.now) (hactive : ∀ ending, activity ≠ .ended ending)
    {scene : Group.Scene σ} (hstep : Group.Scene.step client r.handle.group r.who w.clock w.steps
      ⟨activity, cell, w.cloud⟩ = some scene) :
    r.GoesOn client groups w (w.carryOn r.who r.handle scene (some d) .reply) := by
  obtain ⟨hphase', hasked⟩ := hphase.step hdiscreet hgroup hrung hlimits.now_le hstep
  have hself := stage?_carryOn_self hstage r.handle scene (some d) .reply
  refine ⟨.visiting hself (getElem?_setCell hcell scene.cell) hphase' hlimits, ?_,
    fun hwho hhandles ↦ ?_⟩
  · rw [stepsLeft_of_visiting hself, stepsLeft_of_visiting hstage]
    exact Nat.add_lt_add_right ((Group.advance_of_step hstep).stepsLeft_lt hactive) _
  · refine ((Spares.setCloud fun h hh ↦ ?_).trans
      (.setCell (fun h hh ↦ (hhandles h hh).2.1) _ _)).trans (.setStage hwho _ _)
    -- A call for one group does not change how the cloud behaves towards another.
    obtain ⟨hmem, -, hname⟩ := hhandles h hh
    rcases hasked with hsame | ⟨call, hcall, hsent⟩
    · rw [hsame]
    · exact hdiscreet.others hgroup hmem hname hcall hsent

theorem goesOn_of_limit
    (hstage : w.stage? r.who = some (.visiting r.handle activity (some d) .reply))
    (hcell : w.cells[r.handle.place]? = some cell)
    (hphase : r.Phase w.clock.now (client.manner r.handle.group w.cloud) activity cell)
    (hlimits : d.Counts r.limit r.moment w.clock.now) (hnone : d.timer = none) :
    r.GoesOn client groups w (w.setStage r.who (.visiting r.handle activity
      (some { d with timer := w.timer d.limit.ms }) .reply)) := by
  have hself := stage?_setStage_self hstage (.visiting r.handle activity
    (some { d with timer := w.timer d.limit.ms }) .reply)
  refine ⟨.visiting hself hcell hphase (hlimits.set hnone w.steps), ?_,
    fun hwho hhandles ↦ .setStage hwho _ _⟩
  rw [stepsLeft_of_visiting hself, stepsLeft_of_visiting hstage]
  simp [hnone]

theorem goesOn_of_timedOut
    (hstage : w.stage? r.who = some (.visiting r.handle activity (some d) .reply))
    (hcell : w.cells[r.handle.place]? = some cell)
    (hphase : r.Phase w.clock.now (client.manner r.handle.group w.cloud) activity cell)
    (hlimits : d.Counts r.limit r.moment w.clock.now) (hactive : ∀ ending, activity ≠ .ended ending)
    (hwaits : Group.Scene.step client r.handle.group r.who w.clock w.steps
      ⟨activity, cell, w.cloud⟩ = none)
    {timer : Timer} (htimer : d.timer = some timer) (hpast : w.clock.isPast timer = true) :
    r.GoesOn client groups w
      ((w.setCell r.handle.place (cell.withdraw r.who)).proceed r.who r.handle
        (.answered (.error (.timedOut r.handle.group.name d.limit))) .reply) := by
  -- Whoever waits has neither the lock nor a view, so the group is as it was.
  obtain ⟨rfl, -, hbound⟩ := hphase.waits hwaits hactive
  have houtcome := hbound ((hlimits.due timer htimer).1 ▸ of_decide_eq_true hpast)
  have hafter : (⟨r.before, .free⟩ : Group.Cell).withdraw r.who = ⟨r.after, .free⟩ := by
    rw [withdraw_free, after_of_error houtcome]
  have hstage' : (w.setCell r.handle.place ((⟨r.before, .free⟩ : Group.Cell).withdraw
      r.who)).stage? r.who = some (.visiting r.handle activity (some d) .reply) := hstage
  refine goesOn_of_finish hstage hstage' ?_ (fun hplaces ↦ .setCell hplaces _ _) ?_
  · rw [hafter]
    exact getElem?_setCell hcell _
  · rw [result_of_error houtcome, hlimits.same]
    rfl

/-- A step of a reload's task. -/
theorem Underway.step (h : r.Underway client w) (hdiscreet : client.Discreet groups)
    (hgroup : r.handle.group ∈ groups) (hrung : w.clock.rung ≤ w.clock.now)
    (hsteps : w.Steps client r.who w') : r.GoesOn client groups w w' := by
  obtain ⟨stage, hstage, hidling⟩ := h.exists_stage
  obtain ⟨_, next, hstage', hnext, rfl⟩ := step_cases (hsteps.step_of_not_idling hstage hidling)
  obtain rfl := Option.some.inj (hstage.symm.trans hstage')
  suffices hgoes : r.GoesOn client groups w next from
    ⟨hgoes.underway.of_spares (.count _ next), hgoes.closer,
      fun hwho hhandles ↦ (hgoes.spares hwho hhandles).trans (.count _ next)⟩
  cases h with
  | done hdone =>
    obtain ⟨⟨moment, hfinished⟩, -⟩ := hdone
    obtain rfl := Option.some.inj (hfinished.symm.trans hstage)
    cases hnext
  | @visiting activity d cell hstage' hcell hphase hlimits =>
    obtain rfl := Option.some.inj (hstage'.symm.trans hstage)
    by_cases hended : ∃ ending, activity = .ended ending
    · obtain ⟨ending, rfl⟩ := hended
      obtain rfl := Option.some.inj hnext
      generalize client.manner r.handle.group w.cloud = m at hphase
      cases hphase with
      | ended hresult => exact goesOn_of_finish hstage' hstage' hcell (fun _ ↦ .count _ w) hresult
    · have hactive : ∀ ending, activity ≠ .ended ending := fun ending heq ↦ hended ⟨ending, heq⟩
      obtain ⟨cell', hcell', hcases⟩ := stepActivity_cases hnext hactive
      obtain rfl := Option.some.inj (hcell.symm.trans hcell')
      rcases hcases with ⟨scene, hscene, rfl⟩ | ⟨d', hd, hwaits, hexpire⟩
      · exact goesOn_of_scene hdiscreet hgroup hrung hstage' hcell hphase hlimits hactive hscene
      · obtain rfl := Option.some.inj hd
        rcases expire_cases hcell hexpire with ⟨hnone, rfl⟩ | ⟨timer, htimer, hpast, rfl⟩
        · exact goesOn_of_limit hstage' hcell hphase hlimits hnone
        · exact goesOn_of_timedOut hstage' hcell hphase hlimits hactive hwaits htimer hpast

end

/-! ## Waiting -/

theorem stepActivity_eq_none {h : Handle} {activity : Group.Activity} {d : Deadline} {next : Next}
    {who : Nat} {cell : Group.Cell} (hcell : w.cells[h.place]? = some cell)
    (hnone : w.stepActivity client who h activity (some d) next = none) :
    (∀ ending, activity ≠ .ended ending)
      ∧ Group.Scene.step client h.group who w.clock w.steps ⟨activity, cell, w.cloud⟩ = none
      ∧ ∃ timer, d.timer = some timer ∧ w.clock.rung < timer.due := by
  have hactive : ∀ ending, activity ≠ .ended ending := by
    rintro ending rfl
    cases hnone
  rw [stepActivity_eq hactive, hcell, Option.bind_some] at hnone
  split at hnone
  · cases hnone
  · next hwaits =>
    refine ⟨hactive, hwaits, ?_⟩
    rw [Option.bind_some, World.expire] at hnone
    split at hnone
    · cases hnone
    · next timer htimer =>
      refine ⟨timer, htimer, Nat.lt_of_not_le fun hle ↦ ?_⟩
      have hpast : w.clock.isPast timer = true := decide_eq_true hle
      rw [if_pos hpast, hcell] at hnone
      cases hnone

/-- A reload that waits has timers, none of which has gone off. -/
theorem Underway.timers (h : r.Underway client w) {stage : Stage σ}
    (hstage : w.stage? r.who = some stage) (hnone : w.stepTask client r.who stage = none)
    (hopen : ¬ r.IsDone w) :
    stage.timers ≠ [] ∧ ∀ timer ∈ stage.timers, w.clock.rung < timer.due := by
  cases h with
  | done hdone => exact absurd hdone hopen
  | visiting hstage' hcell hphase hlimits =>
    obtain rfl := Option.some.inj (hstage'.symm.trans hstage)
    obtain ⟨hactive, hwaits, timer, htimer, hlt⟩ := stepActivity_eq_none hcell hnone
    obtain ⟨-, hcalls, -⟩ := hphase.waits hwaits hactive
    have hmem : timer ∈ (some timer).toList := Option.mem_toList.mpr rfl
    rw [Stage.timers, Option.bind_some, htimer]
    refine ⟨List.ne_nil_of_mem (List.mem_append_right _ hmem), fun other hother ↦ ?_⟩
    rcases List.mem_append.mp hother with hcall | hlimit
    · exact hcalls other (Option.mem_toList.mp hcall)
    · rw [List.mem_singleton.mp hlimit]
      exact hlt

/-- Time passes while a reload waits. -/
theorem Underway.elapse (h : r.Underway client w) {ms : Nat}
    (hwaits : 0 < ms → w.Waits client r.who (w.clock.now + ms)) :
    r.Underway client (w.pass ms).ring := by
  cases h with
  | done hdone => exact .done hdone
  | @visiting activity d cell hstage hcell hphase hlimits =>
    rcases Nat.eq_zero_or_pos ms with rfl | hpos
    · exact .visiting hstage hcell hphase hlimits
    · obtain ⟨hnone, htimers⟩ := hwaits hpos _ hstage
      obtain ⟨-, hidle, timer, htimer, -⟩ := stepActivity_eq_none hcell hnone
      have hdue : ∀ timer ∈ activity.timer?, w.clock.now + ms ≤ timer.due := fun timer hmem ↦
        htimers timer (List.mem_append_left _ (Option.mem_toList.mpr hmem))
      have hlimit : w.clock.now + ms ≤ timer.due :=
        htimers timer (List.mem_append_right _ (Option.mem_toList.mpr htimer))
      exact .visiting hstage hcell (hphase.pass hidle (Nat.le_add_right _ _) hdue)
        (hlimits.elapse htimer hlimit)

end Reload

end NodeGroups.Simulation
