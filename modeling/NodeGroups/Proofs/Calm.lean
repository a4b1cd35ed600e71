import NodeGroups.Proofs.Parts

/-!
# What a step leaves as it is

A step of the world is the business of one task. The others wait where they wait, except that there
may be new ones, and hardly any step touches the registry or installs a view. A world is calm for a
task if nothing has happened that has to do with refresh passes; it is beside the others if those
that were there wait where they waited, and a group that has a place keeps it. Of a calm step one
knows what was there before, of any step what is still there after it.
-/

namespace NodeGroups.Simulation.World

variable {σ : Type} {client : Client σ} {w w' w'' : World σ} {who : Nat} {t : Topic}
  {claim claim' : Option Access}

def lastRefresh? (w : World σ) (place : Nat) : Option Nat :=
  w.cells[place]?.bind fun cell ↦ cell.state.lastRefresh

/-! ## Calm -/

/-- A task left the registry and the moments of the views as they are, and no other task selects
groups that did not before. -/
structure Calm (who : Nat) (w w' : World σ) : Prop where
  registry : w'.registry = w.registry
  lastRefresh : ∀ place, w'.lastRefresh? place = w.lastRefresh? place
  clock : w.clock.now ≤ w'.clock.now
  others : ∀ {other stage}, other ≠ who → w'.stage? other = some stage →
    w.stage? other = some stage ∨ stage.isSelecting = false

namespace Calm

theorem trans (h : Calm who w w') (h' : Calm who w' w'') : Calm who w w'' where
  registry := h'.registry.trans h.registry
  lastRefresh place := (h'.lastRefresh place).trans (h.lastRefresh place)
  clock := Nat.le_trans h.clock h'.clock
  others hne hstage := by
    rcases h'.others hne hstage with hstage | hidle
    · exact h.others hne hstage
    · exact .inr hidle

theorem of_tasks (hregistry : w'.registry = w.registry)
    (hcells : ∀ place, w'.lastRefresh? place = w.lastRefresh? place)
    (hclock : w.clock.now ≤ w'.clock.now) (htasks : w'.tasks = w.tasks) : Calm who w w' where
  registry := hregistry
  lastRefresh := hcells
  clock := hclock
  others _ hstage := by
    rw [stage?, htasks] at hstage
    exact .inl hstage

theorem setStage (who : Nat) (stage : Stage σ) (w : World σ) :
    Calm who w (w.setStage who stage) where
  registry := rfl
  lastRefresh _ := rfl
  clock := Nat.le_refl _
  others hne hstage := by
    rw [stage?_setStage_of_ne hne] at hstage
    exact .inl hstage

theorem finish (who : Nat) (result : Result) (w : World σ) : Calm who w (w.finish who result) :=
  (setStage who _ w).trans (of_tasks rfl (fun _ ↦ rfl) (Nat.le_refl _) rfl)

theorem leaveGate (who : Nat) (w : World σ) : Calm who w (w.leaveGate who) :=
  of_tasks rfl (fun _ ↦ rfl) (Nat.le_refl _) rfl

theorem enter (who : Nat) (entry : Entry) (w : World σ) : Calm who w (w.enter who entry) :=
  (setStage who _ w).trans (of_tasks rfl (fun _ ↦ rfl) (Nat.le_refl _) rfl)

/-- The state of a group changes, but not when its view was installed. -/
theorem setCell {place : Nat} {cell : Group.Cell} {w : World σ}
    (hsame : ∀ before ∈ w.cells[place]?, cell.state.lastRefresh = before.state.lastRefresh) :
    Calm who w (w.setCell place cell) := by
  refine of_tasks rfl (fun other ↦ ?_) (Nat.le_refl _) rfl
  change (w.cells.set place cell)[other]?.bind _ = w.cells[other]?.bind _
  rw [List.getElem?_set]
  split
  · next heq =>
    subst heq
    split
    · next hlt =>
      rw [List.getElem?_eq_getElem hlt]
      exact hsame _ (List.getElem?_eq_getElem hlt)
    · next hge => rw [List.getElem?_eq_none (Nat.le_of_not_lt hge)]
  · rfl

theorem addGroup (group : Group) (w : World σ) : Calm who w (w.addGroup group).2 := by
  refine of_tasks rfl (fun place ↦ ?_) (Nat.le_refl _) rfl
  change (w.cells ++ [.initial])[place]?.bind _ = w.cells[place]?.bind _
  -- The new cell has no view.
  rcases Nat.lt_trichotomy place w.cells.length with hlt | rfl | hgt
  · rw [List.getElem?_append_left hlt]
  · rw [List.getElem?_concat_length, List.getElem?_eq_none (Nat.le_refl _)]
    rfl
  · rw [List.getElem?_eq_none (Nat.le_of_lt hgt), List.getElem?_eq_none]
    rw [List.length_append]
    exact hgt

theorem spawn {stages : List (Stage σ)} (gathering : Gathering) (w : World σ)
    (hidle : ∀ stage ∈ stages, stage.isSelecting = false) :
    Calm who w (w.spawn who stages gathering) where
  registry := rfl
  lastRefresh _ := rfl
  clock := Nat.le_refl _
  others {other stage} hne hstage := by
    have hstage' : ({ w with tasks := w.tasks ++ stages.map fun s ↦ Task.mk s (some who) } :
        World σ).stage? other = some stage := (stage?_setStage_of_ne hne _ _).symm.trans hstage
    obtain ⟨task, htask, rfl⟩ := Option.map_eq_some_iff.mp hstage'
    by_cases hlt : other < w.tasks.length
    · left
      rw [List.getElem?_append_left hlt] at htask
      rw [stage?, htask]
      rfl
    · right
      rw [List.getElem?_append_right (Nat.le_of_not_lt hlt)] at htask
      obtain ⟨s, hs, rfl⟩ := List.mem_map.mp (List.mem_of_getElem? htask)
      exact hidle s hs

theorem carryOn {h : Handle} {cell : Group.Cell} (hcell : w.cells[h.place]? = some cell)
    {scene : Group.Scene σ} (deadline : Option Deadline) (next : Next)
    (hsame : scene.cell.state.lastRefresh = cell.state.lastRefresh) :
    Calm who w (w.carryOn who h scene deadline next) := by
  have hcalm : Calm who { w with cloud := scene.cloud }
      (World.setCell h.place scene.cell { w with cloud := scene.cloud }) := by
    refine .setCell fun before hbefore ↦ ?_
    obtain rfl := Option.some.inj (hcell.symm.trans hbefore)
    exact hsame
  have hcloud : Calm who w { w with cloud := scene.cloud } :=
    of_tasks rfl (fun _ ↦ rfl) (Nat.le_refl _) rfl
  exact (hcloud.trans hcalm).trans (.setStage who _ _)

end Calm

theorem Effect.calm (h : Effect who t claim claim' w w') (htopic : t ≠ .passes) :
    Calm who w w' := by
  cases h with
  | cloud cloud => exact .of_tasks rfl (fun _ ↦ rfl) (Nat.le_refl _) rfl
  | elapse ms => exact .of_tasks rfl (fun _ ↦ rfl) (Nat.le_add_right _ _) rfl
  | hold key group =>
    exact (Calm.addGroup group w).trans (.of_tasks rfl (fun _ ↦ rfl) (Nat.le_refl _) rfl)
  | leaveGate => exact .leaveGate who w
  | note => exact absurd rfl htopic
  | register hstage hregister => exact absurd rfl htopic
  | count => exact .of_tasks rfl (fun _ ↦ rfl) (Nat.le_refl _) rfl

/-! ## Quiet steps -/

/-- A step has nothing to do with refresh passes but for a pass that is over or starts reloads. -/
structure Quiet (who : Nat) (w w' : World σ) : Prop extends Calm who w w' where
  idle : ∀ {stage}, w'.stage? who = some stage → stage.isSelecting = false

theorem Calm.quiet (h : Calm who w w') (h' : Quiet who w' w'') : Quiet who w w'' :=
  ⟨h.trans h'.toCalm, h'.idle⟩

namespace Quiet

theorem setStage {stage : Stage σ} (w : World σ) (hidle : stage.isSelecting = false) :
    Quiet who w (w.setStage who stage) where
  toCalm := .setStage who stage w
  idle hstage := by
    rw [eq_of_stage?_setStage hstage]
    exact hidle

theorem finish (who : Nat) (result : Result) (w : World σ) : Quiet who w (w.finish who result) where
  toCalm := .finish who result w
  idle hstage := by
    rw [eq_of_stage?_setStage hstage]
    rfl

theorem enter {entry : Entry} (w : World σ)
    (hidle : (Stage.entering entry : Stage σ).isSelecting = false) :
    Quiet who w (w.enter who entry) where
  toCalm := .enter who entry w
  idle hstage := by
    rw [eq_of_stage?_setStage hstage]
    exact hidle

theorem after {r : World σ} (h : Quiet who r w') (hregistry : r.registry = w.registry)
    (hcells : ∀ place, r.lastRefresh? place = w.lastRefresh? place)
    (hclock : w.clock.now ≤ r.clock.now) (htasks : r.tasks = w.tasks) :
    Quiet who w w' :=
  (Calm.of_tasks hregistry hcells hclock htasks).quiet h

end Quiet

theorem Settles.quiet (h : Settles who t claim w w') (htopic : t ≠ .passes) : Quiet who w w' := by
  cases h with
  | finish result => exact .finish who result w
  | rest hidle => exact .setStage w hidle.isSelecting
  | enter hnone hselects =>
    exact .enter w (eq_false_of_ne_true fun hselecting ↦ htopic (hselects hselecting))
  | enterNew group => exact (Calm.addGroup group w).quiet (.enter _ rfl)
  | enterHeld hheld => exact .after (.enter _ rfl) rfl (fun _ ↦ rfl) (Nat.le_refl _) rfl
  | spawn gathering hidle =>
    refine ⟨.spawn gathering w fun stage hmem ↦ (hidle stage hmem).isSelecting, fun hstage ↦ ?_⟩
    rw [eq_of_stage?_setStage hstage]
    rfl
  | ask => exact absurd rfl htopic

theorem Does.quiet (h : Does who t claim w w') (htopic : t ≠ .passes) : Quiet who w w' := by
  induction h with
  | settle h => exact h.quiet htopic
  | after heffect h ih => exact (heffect.calm htopic).quiet ih

/-! ## Beside the others -/

/-- A task went on beside the others. -/
structure Beside (who : Nat) (w w' : World σ) : Prop where
  stage : ∀ {other stage}, other ≠ who → w.stage? other = some stage →
    w'.stage? other = some stage
  cells : w.cells.length ≤ w'.cells.length

namespace Beside

theorem trans (h : Beside who w w') (h' : Beside who w' w'') : Beside who w w'' where
  stage hne hstage := h'.stage hne (h.stage hne hstage)
  cells := Nat.le_trans h.cells h'.cells

theorem of_tasks (htasks : w'.tasks = w.tasks) (hcells : w.cells.length ≤ w'.cells.length) :
    Beside who w w' where
  stage _ hstage := by rwa [stage?, htasks]
  cells := hcells

theorem setStage (who : Nat) (stage : Stage σ) (w : World σ) :
    Beside who w (w.setStage who stage) where
  stage hne hstage := by rwa [stage?_setStage_of_ne hne]
  cells := Nat.le_refl _

theorem enter (who : Nat) (entry : Entry) (w : World σ) : Beside who w (w.enter who entry) :=
  (setStage who _ w).trans (of_tasks rfl (Nat.le_refl _))

theorem setCell (place : Nat) (cell : Group.Cell) (w : World σ) :
    Beside who w (w.setCell place cell) :=
  of_tasks rfl (Nat.le_of_eq List.length_set.symm)

theorem addGroup (group : Group) (w : World σ) : Beside who w (w.addGroup group).2 :=
  of_tasks rfl (by simp [World.addGroup])

theorem spawn (who : Nat) (stages : List (Stage σ)) (gathering : Gathering) (w : World σ) :
    Beside who w (w.spawn who stages gathering) := by
  have happend : Beside who w
      { w with tasks := w.tasks ++ stages.map fun stage ↦ Task.mk stage (some who) } :=
    ⟨fun _ hstage ↦ stage?_append hstage _, Nat.le_refl _⟩
  exact (happend.trans (setStage who _ _)).trans (of_tasks rfl (Nat.le_refl _))

theorem carryOn (who : Nat) (h : Handle) (scene : Group.Scene σ) (deadline : Option Deadline)
    (next : Next) (w : World σ) : Beside who w (w.carryOn who h scene deadline next) := by
  have hcloud : Beside who w { w with cloud := scene.cloud } := of_tasks rfl (Nat.le_refl _)
  exact (hcloud.trans (setCell ..)).trans (setStage ..)

end Beside

theorem Effect.beside (h : Effect who t claim claim' w w') : Beside who w w' := by
  cases h with
  | hold key group => exact (Beside.addGroup group w).trans (.of_tasks rfl (Nat.le_refl _))
  | _ => exact .of_tasks rfl (Nat.le_refl _)

theorem Settles.beside (h : Settles who t claim w w') : Beside who w w' := by
  cases h with
  | finish result => exact (Beside.setStage who _ w).trans (.of_tasks rfl (Nat.le_refl _))
  | rest hidle => exact .setStage who _ w
  | enter hnone htopic => exact .enter who _ w
  | enterNew group => exact (Beside.addGroup group w).trans (.enter who _ _)
  | @enterHeld _ _ key h hheld =>
    have herased : Beside who w { w with held := w.held.erase key } :=
      .of_tasks rfl (Nat.le_refl _)
    exact herased.trans (.enter who (.register h) _)
  | spawn gathering hidle => exact .spawn who _ gathering w
  | ask => exact .setStage who _ w

theorem Does.beside (h : Does who t claim w w') : Beside who w w' := by
  induction h with
  | settle h => exact h.beside
  | after heffect h ih => exact heffect.beside.trans ih

theorem Goes.beside {stage : Stage σ} (h : Goes client who w stage w') : Beside who w w' := by
  cases h with
  | does hout h => exact h.beside
  | ends h ending d next => exact (does_proceed h ending next).beside
  | carries hcell hscene => exact .carryOn ..
  | limits hcell hwaits hunset => exact .setStage who _ w
  | givesUp hcell hwaits htimer hpast =>
    exact (Beside.setCell ..).trans (does_proceed _ _ _).beside

/-- Whoever goes on leaves the others where they wait, and the groups at their places. -/
theorem Steps.beside (h : w.Steps client who w') : Beside who w w' := by
  obtain ⟨stage, next, -, hgoes, rfl⟩ := h.goes
  exact hgoes.beside.trans (.of_tasks rfl (Nat.le_refl _))

end NodeGroups.Simulation.World
