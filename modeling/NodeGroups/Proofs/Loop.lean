import NodeGroups.Proofs.Limits

/-!
# Turns of a refresh loop

A refresh loop rests until its interval is over or it has to stop. In a pass it gets the registry,
asks one group after another, and hands over those that need a refresh to tasks of their own, for
which it waits before it rests again. Here it is said for each of these stages what a turn of the
loop's task can lead to.
-/

namespace NodeGroups.Simulation.World

variable {σ : Type} {client : Client σ} {start w w' : World σ} {who moment : Nat} {l : Loop}
  {limit : Duration} {stale rest : List Handle} {h : Handle}

/-! ## Stages -/

/-- A refresh loop rests since a moment. -/
def Rests (who : Nat) (l : Loop) (since : Nat) (w : World σ) : Prop :=
  ∃ next, w.stage? who = some (.idling l next)
    ∧ next.due = since + l.interval

/-- A pass of a loop waits for the registry. -/
def Enters (who : Nat) (l : Loop) (w : World σ) : Prop :=
  ∃ moment, w.stage? who = some (.entering (.select moment (.loop l)))

/-- A pass of a loop asks a group whether it needs a refresh. -/
def Asks (who : Nat) (l : Loop) (stale : List Handle) (h : Handle) (rest : List Handle)
    (w : World σ) : Prop :=
  ∃ activity d moment,
    w.stage? who = some (.visiting h activity d (.select moment stale rest (.loop l)))

/-- A pass of a loop has handed over groups at a moment, and waits for their reloads. -/
def Hands (who : Nat) (l : Loop) (stale : List Handle) (limit : Duration) (moment : Nat)
    (children : List Nat) (w : World σ) : Prop :=
  w.stage? who = some (.gathering children (.pass (stale.map fun h ↦ h.group.name) (.loop l)))
    ∧ children.length = stale.length ∧ ∀ child ∈ children, w.InLimit limit moment child

/-- A pass of a loop that has found some groups in need of a refresh goes on with the rest of the
groups. When there is none left it hands over those that it has found, if there are any. -/
inductive PicksUp (limit : Duration) (who : Nat) (l : Loop) (w : World σ) (stale : List Handle) :
    List Handle → Prop
  | asks {h : Handle} {rest : List Handle} (hasks : w.Asks who l stale h rest) :
      PicksUp limit who l w stale (h :: rest)
  | rests (hnone : stale = []) (hrests : w.Rests who l w.clock.now) : PicksUp limit who l w stale []
  | hands {children : List Nat} (hhands : w.Hands who l stale limit w.clock.now children) :
      PicksUp limit who l w stale []

/-! ## What the parts of a pass lead to -/

theorem rests_setStage {stage : Stage σ} (hstage : w.stage? who = some stage) (l : Loop) :
    (w.setStage who (.idling l (w.timer l.interval))).Rests who l w.clock.now :=
  ⟨w.timer l.interval, stage?_setStage_self hstage _, rfl⟩

theorem beginPass_cases {stage : Stage σ} (hstage : w.stage? who = some stage) (l : Loop) :
    (w.beginPass who (.loop l)).Rests who l w.clock.now
      ∨ (w.beginPass who (.loop l)).Enters who l := by
  rw [beginPass]
  split
  · exact .inl (rests_setStage hstage l)
  · exact .inr ⟨_, stage?_enter_self hstage _⟩

theorem picksUp_startReloads {stage : Stage σ} (hstage : w.stage? who = some stage) (l : Loop)
    (hplaces : ∀ h ∈ stale, h.place < w.cells.length) :
    PicksUp w.registry.groupTimeout who l (w.startReloads who stale (.loop l)) stale [] := by
  have hclock : (w.startReloads who stale (.loop l)).clock = w.clock := by
    rw [startReloads]
    split <;> rfl
  by_cases hnone : stale = []
  · refine .rests hnone ?_
    rw [hclock, hnone]
    exact rests_setStage hstage l
  · obtain ⟨task, htask, -⟩ := Option.map_eq_some_iff.mp hstage
    obtain ⟨hlt, -⟩ := List.getElem?_eq_some_iff.mp htask
    have hbeside : Beside who w (w.startReloads who stale (.loop l)) :=
      (does_startReloads (t := .other) stale (.loop l)).beside
    refine .hands ⟨stage?_startReloads_self hnone hlt _, List.length_range', fun child hchild ↦ ?_⟩
    obtain ⟨hle, hgt⟩ := List.mem_range'_1.mp hchild
    obtain ⟨i, rfl⟩ := Nat.exists_eq_add_of_le hle
    have hi := List.getElem?_eq_getElem (Nat.add_lt_add_iff_left.mp hgt)
    refine .of_bounded (stage?_startReloads hi hlt _) ?_
    exact Nat.lt_of_lt_of_le (hplaces _ (List.mem_of_getElem? hi)) hbeside.cells

theorem picksUp_selectNext {stage : Stage σ} (hstage : w.stage? who = some stage) (l : Loop)
    (moment : Nat) (hplaces : ∀ h ∈ stale, h.place < w.cells.length) (rest : List Handle) :
    PicksUp w.registry.groupTimeout who l (w.selectNext who moment stale (.loop l) rest) stale
      rest := by
  cases rest with
  | nil => exact picksUp_startReloads (w := w.leaveGate who) hstage l hplaces
  | cons h rest => exact .asks ⟨_, _, moment, stage?_setStage_self hstage _⟩

theorem PicksUp.count (h : PicksUp limit who l w stale rest) (steps : Nat) :
    PicksUp limit who l { w with steps } stale rest := by
  have hlasts : Lasts limit w { w with steps } := .of_stages rfl rfl id
  cases h with
  | asks hasks => exact .asks hasks
  | rests hnone hrests => exact .rests hnone hrests
  | hands hhands =>
    obtain ⟨hstage, hlength, hreloads⟩ := hhands
    exact .hands ⟨hstage, hlength, fun child hchild ↦ hlasts.inLimit (hreloads child hchild)⟩

/-! ## Turns -/

namespace Turns

/-- Whoever is not between two passes of a loop goes on in the only way there is. -/
theorem exists_next (hturn : w.Turns client who w') {stage : Stage σ}
    (hstage : w.stage? who = some stage) (hbusy : ∀ l next, stage ≠ .idling l next) :
    ∃ next steps, w.stepTask client who stage = some next ∧ w' = { next with steps } := by
  obtain ⟨stage', next, hstage', hnext, rfl⟩ :=
    step_cases (hturn.steps.step_of_not_idling hstage hbusy)
  obtain rfl := Option.some.inj (hstage.symm.trans hstage')
  exact ⟨next, _, hnext, rfl⟩

theorem of_rests (hturn : w.Turns client who w') {next : Timer}
    (hstage : w.stage? who = some (.idling l next)) :
    w.clock.isPast l.stop = true ∧ w'.IsOver who
      ∨ w.clock.isPast next = true ∧ (w'.Rests who l w.clock.now ∨ w'.Enters who l) := by
  cases hturn.steps with
  | step hstep =>
    obtain ⟨stage, next', hstage', hnext, rfl⟩ := step_cases hstep
    obtain rfl := Option.some.inj (hstage.symm.trans hstage')
    rw [stepTask] at hnext
    split at hnext
    · next hstop =>
      obtain rfl := Option.some.inj hnext
      exact .inl ⟨hstop, isOver_finish hstage _⟩
    · obtain ⟨hpast, hbegun⟩ := Option.ite_none_right_eq_some.mp hnext
      obtain rfl := Option.some.inj hbegun
      exact .inr ⟨hpast, beginPass_cases hstage l⟩
  | round hturn hidling hpast =>
    obtain ⟨rfl, rfl⟩ := Stage.idling.inj (Option.some.inj (hstage.symm.trans hidling))
    exact .inr ⟨hpast, beginPass_cases hstage l⟩

theorem of_enters (hturn : w.Turns client who w') (henters : w.Enters who l) :
    PicksUp w.registry.groupTimeout who l w' [] w.registry.handles := by
  obtain ⟨moment, hstage⟩ := henters
  obtain ⟨next, steps, hnext, rfl⟩ := hturn.exists_next hstage nofun
  obtain ⟨-, hfulfil⟩ := Option.ite_none_right_eq_some.mp hnext
  obtain rfl := Option.some.inj hfulfil
  exact (picksUp_selectNext hstage l moment (List.forall_mem_nil _) _).count steps

end Turns

theorem stale_subset_of_recorded {record : List Note} (hrecorded : Recorded start record w)
    {activity : Group.Activity} {d : Option Deadline} {after : AfterPass}
    (hstage : w.stage? who = some (.visiting h activity d (.select moment stale rest after))) :
    ∀ h' ∈ h :: stale, h' ∈ w.registry.handles := by
  obtain ⟨call, admitted, asked, -, -, huntil, hall, ⟨looks, rfl, rfl, -⟩, -, -, -⟩ :=
    hrecorded.tasks hstage
  intro h' hmem
  rw [hrecorded.handles]
  refine registered_subset huntil ?_
  rw [← hall]
  rcases List.mem_cons.mp hmem with rfl | hmem
  · exact List.mem_append_right _ List.mem_cons_self
  · obtain ⟨look, hlook, rfl⟩ := List.mem_map.mp hmem
    exact List.mem_append_left _ (List.mem_map_of_mem (List.mem_of_mem_filter hlook))

namespace Turns

/-- A pass that asks a group still does so after a turn, unless it had the answer. Then it goes on
with the groups after this one. -/
theorem of_asks {record : List Note} (hturn : w.Turns client who w') (hcustody : Custody w)
    (hrecorded : Recorded start record w) (hasks : w.Asks who l stale h rest) :
    ∃ activity moment,
      w.stage? who = some (.visiting h activity none (.select moment stale rest (.loop l)))
      ∧ ((∀ ending, activity ≠ .ended ending) ∧ w'.Asks who l stale h rest
        ∨ ∃ needed, activity = .answer (.ok (.flag needed))
          ∧ PicksUp w.registry.groupTimeout who l w' (if needed then stale ++ [h] else stale)
            rest) := by
  obtain ⟨activity, d, moment, hstage⟩ := hasks
  obtain ⟨next, steps, hnext, rfl⟩ := hturn.exists_next hstage nofun
  obtain ⟨-, rfl, hasking⟩ := asking_of_recorded hrecorded hstage
  have hplaces : ∀ h' ∈ h :: stale, h'.place < w.cells.length := fun h' hmem ↦
    hcustody.registered h' (stale_subset_of_recorded hrecorded hstage h' hmem)
  refine ⟨activity, moment, hstage, ?_⟩
  by_cases hended : ∃ ending, activity = .ended ending
  · obtain ⟨ending, rfl⟩ := hended
    -- The question whether a refresh is needed is never answered with an error.
    cases hasking with
    | answered needed =>
      obtain rfl := Option.some.inj hnext
      refine .inr ⟨needed, rfl, PicksUp.count ?_ steps⟩
      cases needed with
      | true =>
        refine picksUp_selectNext hstage l moment (fun h' hmem ↦ hplaces h' ?_) rest
        simpa [or_comm] using hmem
      | false =>
        exact picksUp_selectNext hstage l moment (fun h' hmem ↦ hplaces h' (.tail _ hmem)) rest
  · have hactive : ∀ ending, activity ≠ .ended ending := fun ending heq ↦ hended ⟨ending, heq⟩
    obtain ⟨cell, -, ⟨scene, -, rfl⟩ | ⟨d, hd, -⟩⟩ := stepActivity_cases hnext hactive
    · exact .inl ⟨hactive, _, _, moment, stage?_carryOn_self hstage h scene none _⟩
    · cases hd

theorem of_hands {children : List Nat} (hturn : w.Turns client who w')
    (hhands : w.Hands who l stale limit moment children) :
    (∀ child ∈ children, w.IsOver child) ∧ w'.Rests who l w.clock.now := by
  obtain ⟨hstage, -, -⟩ := hhands
  obtain ⟨next, steps, hnext, rfl⟩ := hturn.exists_next hstage nofun
  obtain ⟨results, hresults, rfl⟩ := Option.map_eq_some_iff.mp hnext
  exact ⟨fun child hchild ↦ finished_of_mapM hresults hchild, rests_setStage hstage l⟩

end Turns

/-! ## Waiting -/

theorem not_isPast_of_rests {next : Timer} (hstage : w.stage? who = some (.idling l next))
    (hwaits : w.AllWait client) : ¬ w.clock.isPast l.stop = true := by
  intro hpast
  cases (hwaits hstage).symm.trans (if_pos hpast)

theorem exists_open {children : List Nat}
    (hhands : w.Hands who l stale limit moment children) (hwaits : w.AllWait client) :
    ∃ child ∈ children, ¬ w.IsOver child := by
  obtain ⟨hstage, -, -⟩ := hhands
  by_contra hnone
  push Not at hnone
  obtain ⟨results, hresults⟩ : ∃ results,
      children.mapM (fun child ↦ w.tasks[child]?.bind Task.result?) = some results := by
    refine exists_mapM fun child hchild ↦ ?_
    obtain ⟨result, moment, hfinished⟩ := hnone child hchild
    exact ⟨_, result?_eq_some_iff.mpr hfinished⟩
  have hnext := congrArg (Option.map fun results ↦ w.gather who results
    (.pass (stale.map fun h ↦ h.group.name) (.loop l))) hresults
  cases (hwaits hstage).symm.trans hnext

end NodeGroups.Simulation.World
