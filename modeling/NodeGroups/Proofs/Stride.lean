import NodeGroups.Proofs.Calm

/-!
# What a step has to do with refreshes

All that a step of the world can have to do with refresh passes, one case each: a pass is accepted
or dropped, the groups that need a refresh are selected one by one and handed over, a group is
registered, a view is installed. Most steps do none of this. What was done is put on record as a
note, so that a record of a run tells all that refresh passes depend on.
-/

namespace NodeGroups.Simulation

variable {σ : Type}

/-- Which groups a refresh pass is for. -/
inductive Scope
  /-- Those that need a refresh. -/
  | stale
  | all
  deriving DecidableEq

/-- What is put on record. -/
inductive Note
  /-- A refresh pass was accepted. -/
  | passed (who moment : Nat) (scope : Scope)
  /-- A refresh pass came too soon and was dropped. -/
  | dropped (who moment : Nat)
  | registered (h : Handle)
  /-- A pass that was accepted at a moment handed over groups to be reloaded. -/
  | handed (who moment : Nat) (handles : List Handle)
  /-- A reload installed a view. -/
  | installed (who place moment : Nat)

namespace World

/-- The groups whose reloads were started between two moments. -/
def reloadsSince (w w' : World σ) : List Handle :=
  (w'.tasks.drop w.tasks.length).filterMap fun t ↦
    match t.stage with
    | .visiting h (.started .reload) _ _ => some h
    | _ => none

/-- What comes of it when a task is about to begin a refresh pass. -/
def passNote? (who : Nat) (w w' : World σ) : Option Note :=
  match w'.stage? who with
  | some (.entering _) => some (.passed who w.clock.now .stale)
  | some (.finished (.ok (.report _)) _) | some (.idling ..) => some (.dropped who w.clock.now)
  | _ => none

/-- What is put on record when a task makes its request. -/
def requestNote? (who : Nat) (w w' : World σ) : Request σ → Option Note
  | .refresh => w.passNote? who w'
  | .reloadAll => some (.passed who w.clock.now .all)
  | _ => none

/-- What is put on record when a task goes on with a selection. -/
def selectionNote? (who now : Nat) (w w' : World σ) : Option Note :=
  if (w'.stage? who).any Stage.isSelecting then none
  else some (.handed who now (w.reloadsSince w'))

/-- What is put on record when an activity goes on. It installs a view if that is what it has the
lock for, and the counter of mutations is what it was. -/
def activityNote? (who place : Nat) (w : World σ) : Group.Activity → Option Note
  | .queued (.install generation _) =>
    w.cells[place]?.bind fun cell ↦
      if cell.lock.isHeldBy who ∧ cell.state.mutations = generation then
        some (.installed who place w.clock.now)
      else none
  | _ => none

/-- What is put on record when a task goes on, if anything is. -/
def note? (who : Nat) (w w' : World σ) : Option Note :=
  match w.stage? who with
  | some (.launching none request) | some (.pausing _ request) => w.requestNote? who w' request
  | some (.idling ..) => w.passNote? who w'
  | some (.entering (.register h)) =>
    if w.registry.handles.length < w'.registry.handles.length then some (.registered h) else none
  | some (.entering (.select now _)) => w.selectionNote? who now w'
  | some (.visiting h a _ next) =>
    match next with
    | .select now .. => w.selectionNote? who now w'
    | _ => w.activityNote? who h.place a
  | _ => none

variable {w w' : World σ} {who : Nat}

/-! ## What a step can be -/

def needs (w : World σ) (h : Handle) (now : Nat) : Bool :=
  match w.lastRefresh? h.place with
  | none => true
  | some last => h.group.refreshPeriod.ms ≤ now - last

/-- Everything but the task itself is as it was. -/
structure Untouched (w w' : World σ) : Prop where
  cloud : w'.cloud = w.cloud
  cells : w'.cells = w.cells
  registry : w'.registry = w.registry
  gate : w'.gate = w.gate
  held : w'.held = w.held
  templates : w'.templates = w.templates
  clock : w'.clock = w.clock

/-- A group's activity finds out whether the group needs a refresh. -/
inductive Asking (now : Nat) : Group.Activity → Prop
  | started : Asking now (.started (.query (.needsRefresh now)))
  | queued : Asking now (.queued (.query (.needsRefresh now)))
  | answered (needed : Bool) : Asking now (.answer (.ok (.flag needed)))

/-- A task that selects does nothing at the groups but to ask them. -/
def IsSound : Stage σ → Prop
  | .visiting _ a d (.select now ..) => d = none ∧ Asking now a
  | _ => True

/-- A selection goes on: the next group is asked, or those that were selected are handed over. -/
inductive Selects (who now : Nat) (w' : World σ) (stale : List Handle) :
    List Handle → Option Note → Prop
  | next {h : Handle} {rest : List Handle} {after : AfterPass}
      (hstage : w'.stage? who = some (.visiting h (.started (.query (.needsRefresh now))) none
        (.select now stale rest after))) : Selects who now w' stale (h :: rest) none
  | done (hidle : ∀ {stage}, w'.stage? who = some stage → stage.isSelecting = false) :
      Selects who now w' stale [] (some (.handed who now stale))

/-- What a step can have to do with refreshes. -/
inductive Stride (who : Nat) (w w' : World σ) : Option Note → Prop
  | quiet (h : Quiet who w w') : Stride who w w' none
  | dropped (hsoon : w.registry.tooSoon w.clock.now = true) (h : Quiet who w w')
      (hsame : w.Untouched w') : Stride who w w' (some (.dropped who w.clock.now))
  | passed {after : AfterPass} (hsoon : w.registry.tooSoon w.clock.now = false)
      (hregistry : w'.registry = { w.registry with lastPass := some w.clock.now })
      (hcalm : Calm who { w with registry := w'.registry } w')
      (hstage : w'.stage? who = some (.entering (.select w.clock.now after))) :
      Stride who w w' (some (.passed who w.clock.now .stale))
  | passedAll (hregistry : w'.registry = { w.registry with lastPass := some w.clock.now })
      (h : Quiet who { w with registry := w'.registry } w') :
      Stride who w w' (some (.passed who w.clock.now .all))
  | registered {h : Handle} (hregister : w.registry.register? h = some w'.registry)
      (hquiet : Quiet who { w with registry := w'.registry } w') :
      Stride who w w' (some (.registered h))
  | installed {h : Handle} {cell : Group.Cell} {cache : Cache} {d : Option Deadline} {next : Next}
      (hstage : w.stage? who
        = some (.visiting h (.queued (.install cell.state.mutations cache)) d next))
      (hcell : w.cells[h.place]? = some cell)
      (hstage' : w'.stage? who = some (.visiting h (.answer (.ok .nothing)) d next))
      (hlast : w'.lastRefresh? h.place = some w.clock.now)
      (hothers : ∀ other, other ≠ h.place → w'.lastRefresh? other = w.lastRefresh? other)
      (hquiet : Quiet who { w with cells := w'.cells } w') :
      Stride who w w' (some (.installed who h.place w.clock.now))
  /-- A pass begins to select. -/
  | entered {now : Nat} {after : AfterPass} {note : Option Note}
      (hstage : w.stage? who = some (.entering (.select now after))) (hcalm : Calm who w w')
      (hnext : Selects who now w' [] w.registry.handles note) : Stride who w w' note
  /-- A group is asked whether it needs a refresh, and answers when its state can be seen. -/
  | asked {h : Handle} {now : Nat} {stale rest : List Handle} {after : AfterPass}
      {a a' : Group.Activity}
      (hstage : w.stage? who = some (.visiting h a none (.select now stale rest after)))
      (hcalm : Calm who w w')
      (hstage' : w'.stage? who = some (.visiting h a' none (.select now stale rest after)))
      (hanswer : a' = .queued (.query (.needsRefresh now))
        ∨ a' = .answer (.ok (.flag (w.needs h now)))) : Stride who w w' none
  /-- The group's answer is known, and the selection goes on. -/
  | told {h : Handle} {now : Nat} {stale rest : List Handle} {after : AfterPass} {needed : Bool}
      {note : Option Note}
      (hstage : w.stage? who = some (.visiting h (.answer (.ok (.flag needed))) none
        (.select now stale rest after))) (hcalm : Calm who w w')
      (hnext : Selects who now w' (if needed then stale ++ [h] else stale) rest note) :
      Stride who w w' note

theorem Stride.count {note : Option Note} (h : Stride who w w' note) (steps : Nat) :
    Stride who w { w' with steps } note := by
  have hcalm : ∀ {r : World σ}, Calm who r w' → Calm who r { w' with steps } :=
    fun h ↦ ⟨h.registry, h.lastRefresh, h.clock, h.others⟩
  have hquiet : ∀ {r : World σ}, Quiet who r w' → Quiet who r { w' with steps } :=
    fun h ↦ ⟨hcalm h.toCalm, h.idle⟩
  have hselects : ∀ {now : Nat} {stale rest : List Handle} {note : Option Note},
      Selects who now w' stale rest note → Selects who now { w' with steps } stale rest note := by
    intro now stale rest note h
    cases h with
    | next hstage => exact .next hstage
    | done hidle => exact .done hidle
  cases h with
  | quiet h => exact .quiet (hquiet h)
  | dropped hsoon h hsame => exact .dropped hsoon (hquiet h) ⟨hsame.cloud, hsame.cells,
      hsame.registry, hsame.gate, hsame.held, hsame.templates, hsame.clock⟩
  | passed hsoon hregistry h hstage => exact .passed hsoon hregistry (hcalm h) hstage
  | passedAll hregistry h => exact .passedAll hregistry (hquiet h)
  | registered hregister h => exact .registered hregister (hquiet h)
  | installed hstage hcell hstage' hlast hothers h =>
    exact .installed hstage hcell hstage' hlast hothers (hquiet h)
  | entered hstage h hnext => exact .entered hstage (hcalm h) (hselects hnext)
  | asked hstage h hstage' hanswer => exact .asked hstage (hcalm h) hstage' hanswer
  | told hstage h hnext => exact .told hstage (hcalm h) (hselects hnext)

/-! ## Views -/

theorem lastRefresh?_setCell_self {place : Nat} {before : Group.Cell}
    (hcell : w.cells[place]? = some before) (cell : Group.Cell) :
    (w.setCell place cell).lastRefresh? place = cell.state.lastRefresh := by
  obtain ⟨hlt, -⟩ := List.getElem?_eq_some_iff.mp hcell
  change (w.cells.set place cell)[place]?.bind _ = _
  rw [List.getElem?_set_self hlt]
  rfl

theorem lastRefresh?_setCell_of_ne {place other : Nat} (hne : other ≠ place) (cell : Group.Cell)
    (w : World σ) : (w.setCell place cell).lastRefresh? other = w.lastRefresh? other := by
  change (w.cells.set place cell)[other]?.bind _ = w.cells[other]?.bind _
  rw [List.getElem?_set_ne hne.symm]

theorem needs_eq {h : Handle} {cell : Group.Cell} (hcell : w.cells[h.place]? = some cell)
    (now : Nat) : w.needs h now = cell.state.needsRefresh h.group now := by
  rw [needs, lastRefresh?, hcell, Option.bind_some, Group.State.lastRefresh,
    Group.State.needsRefresh]
  cases cell.state.view <;> rfl

end World

end NodeGroups.Simulation

namespace NodeGroups.Group

variable {σ : Type} {client : Client σ} {g : Group} {who : Nat} {clock : Clock} {s s' : Scene σ}

theorem Change.lastRefresh_commit (change : Change) (s : State) :
    (change.commit s).lastRefresh = s.lastRefresh := by
  obtain ⟨view, mutations⟩ := s
  cases view with
  | none => rfl
  | some v => cases change <;> rfl

/-- The moment at which the view was installed stays, unless a view is installed. -/
theorem Advance.lastRefresh_eq (h : Advance client g who clock s s')
    (hinstall : ∀ generation cache, s.activity = .queued (.install generation cache) →
      s.cell.state.mutations ≠ generation) :
    s'.cell.state.lastRefresh = s.cell.state.lastRefresh := by
  cases h with
  | commit => exact Change.lastRefresh_commit _ _
  | install hheld =>
    have hne := hinstall _ _ rfl
    exact congrArg State.lastRefresh (State.install_of_ne hne _ _)
  | _ => rfl

theorem Advance.of_install (h : Advance client g who clock s s') {generation : UInt64}
    {cache : Cache} (hactivity : s.activity = .queued (.install generation cache))
    (hsame : s.cell.state.mutations = generation) :
    s'.cell.state.lastRefresh = some clock.now ∧ s'.activity = .answer (.ok .nothing) := by
  cases h with
  | finish ending hout =>
    obtain rfl : _ = Activity.queued _ := hactivity
    cases hout
  | leave ending hidle =>
    obtain rfl : _ = Activity.queued _ := hactivity
    cases hidle
  | install hheld =>
    obtain ⟨rfl, rfl⟩ := Wish.install.inj (Activity.queued.inj hactivity)
    exact ⟨congrArg State.lastRefresh (State.install_of_eq hsame _ _), rfl⟩
  | _ => cases hactivity

end NodeGroups.Group

namespace NodeGroups.Simulation.World

variable {σ : Type} {client : Client σ} {w w' : World σ} {who : Nat}

/-! ## What a step is -/

theorem reloadsSince_startReloads {stage : Stage σ} (hstage : w.stage? who = some stage)
    (handles : List Handle) (after : AfterPass) :
    w.reloadsSince ((w.leaveGate who).startReloads who handles after) = handles := by
  have hlt : who < w.tasks.length := by
    obtain ⟨task, htask, -⟩ := Option.map_eq_some_iff.mp hstage
    exact (List.getElem?_eq_some_iff.mp htask).1
  -- The new tasks come after the old ones, and of these only the task itself is changed.
  have hdrop : ∀ stages : List (Stage σ), ∀ f : Task σ → Task σ,
      ((w.tasks ++ stages.map fun s ↦ Task.mk s (some who)).modify who f).drop w.tasks.length
        = stages.map fun s ↦ Task.mk s (some who) := by
    intro stages f
    rw [List.drop_modify_of_lt f who _ _ hlt, List.drop_left]
  have hnone : ∀ f : Task σ → Task σ, (w.tasks.modify who f).drop w.tasks.length = [] := by
    intro f
    rw [List.drop_modify_of_lt f who _ _ hlt, List.drop_length]
  rw [startReloads]
  split
  · next hempty =>
    rw [List.isEmpty_iff.mp hempty]
    cases after with
    | reply => exact congrArg (List.filterMap _) (hnone _)
    | loop l => exact congrArg (List.filterMap _) (hnone _)
  · refine (congrArg (List.filterMap _) (hdrop _ _)).trans ?_
    rw [List.map_map, List.filterMap_map]
    exact List.filterMap_some

theorem stride_beginPass {stage : Stage σ} (hstage : w.stage? who = some stage)
    (after : AfterPass) :
    Stride who w (w.beginPass who after) (w.passNote? who (w.beginPass who after)) := by
  rw [beginPass]
  split
  · next hsoon =>
    cases after with
    | reply =>
      rw [endPass, passNote?, stage?_finish_self hstage]
      exact .dropped hsoon (.finish ..) ⟨rfl, rfl, rfl, rfl, rfl, rfl, rfl⟩
    | loop l =>
      have hnext := stage?_setStage_self hstage (.idling l (w.timer l.interval))
      rw [endPass, passNote?, hnext]
      exact .dropped hsoon (.setStage _ rfl) ⟨rfl, rfl, rfl, rfl, rfl, rfl, rfl⟩
  · next hsoon =>
    have hnext : (World.enter who (.select w.clock.now after)
        { w with registry := { w.registry with lastPass := some w.clock.now } }).stage? who
          = some (.entering (.select w.clock.now after)) := stage?_enter_self hstage _
    rw [passNote?, hnext]
    exact .passed (eq_false_of_ne_true hsoon) rfl (.enter who _ _) hnext

theorem stride_begin {stage : Stage σ} (hstage : w.stage? who = some stage)
    {request : Request σ} (htopic : request.topic = .passes) :
    Stride who w (w.begin client who request)
      (w.requestNote? who (w.begin client who request) request) := by
  cases request with
  | refresh => exact stride_beginPass hstage .reply
  | reloadAll => exact .passedAll rfl (.enter _ rfl)
  | _ => cases htopic

theorem selects_selectNext {stage : Stage σ} (hstage : w.stage? who = some stage) (now : Nat)
    (stale : List Handle) (after : AfterPass) (handles : List Handle) :
    Calm who w (w.selectNext who now stale after handles)
      ∧ Selects who now (w.selectNext who now stale after handles) stale handles
        (w.selectionNote? who now (w.selectNext who now stale after handles)) := by
  cases handles with
  | nil =>
    have hreloads : Does who .other none (w.leaveGate who) _ := does_startReloads stale after
    have hquiet := (Calm.leaveGate who w).quiet (hreloads.quiet nofun)
    have hidle : (((w.leaveGate who).startReloads who stale after).stage? who).any
        Stage.isSelecting = false := by
      cases hnext : ((w.leaveGate who).startReloads who stale after).stage? who with
      | none => rfl
      | some next => exact hquiet.idle hnext
    refine ⟨hquiet.toCalm, ?_⟩
    rw [selectNext, selectionNote?, if_neg (by rw [hidle]; nofun),
      reloadsSince_startReloads hstage]
    exact .done hquiet.idle
  | cons h rest =>
    have hnext := stage?_setStage_self hstage
      (.visiting h (.started (.query (.needsRefresh now))) none (.select now stale rest after))
    refine ⟨.setStage who _ w, ?_⟩
    rw [selectNext, selectionNote?, hnext]
    exact .next hnext

theorem stride_fulfil {entry : Entry} (hstage : w.stage? who = some (.entering entry))
    (htopic : entry.topic = .passes) :
    Stride who w (w.fulfil who entry) (w.note? who (w.fulfil who entry)) := by
  cases entry with
  | register h =>
    have hnote : ∀ r : World σ, w.note? who r
        = if w.registry.handles.length < r.registry.handles.length then some (.registered h)
          else none := by
      intro r
      rw [note?, hstage]
    rw [fulfil]
    split
    · next registry hregister =>
      have hlt : w.registry.handles.length < registry.handles.length := by
        rw [Registry.handles_of_register? hregister, List.length_append]
        exact Nat.lt_succ_self _
      rw [(hnote _).trans (if_pos hlt)]
      exact .registered hregister ((Calm.leaveGate who _).quiet (.finish ..))
    · have hnone : w.note? who ((w.leaveGate who).finish who (.ok (.flag false))) = none :=
        (hnote _).trans (if_neg (Nat.lt_irrefl w.registry.handles.length))
      rw [hnone]
      exact .quiet ((Calm.leaveGate who w).quiet (.finish ..))
  | select now after =>
    obtain ⟨hcalm, hnext⟩ := selects_selectNext hstage now [] after w.registry.handles
    rw [note?, hstage]
    exact .entered hstage hcalm hnext
  | _ => cases htopic

theorem stride_asked {h : Handle} {a : Group.Activity} {now : Nat} {stale rest : List Handle}
    {after : AfterPass}
    (hstage : w.stage? who = some (.visiting h a none (.select now stale rest after)))
    {cell : Group.Cell} (hcell : w.cells[h.place]? = some cell) {scene : Group.Scene σ}
    (hsame : scene.cell.state.lastRefresh = cell.state.lastRefresh)
    (hanswer : scene.activity = .queued (.query (.needsRefresh now))
      ∨ scene.activity = .answer (.ok (.flag (w.needs h now)))) :
    Stride who w (w.carryOn who h scene none (.select now stale rest after))
      (w.selectionNote? who now (w.carryOn who h scene none (.select now stale rest after))) := by
  have hstage' := stage?_carryOn_self hstage h scene none (.select now stale rest after)
  rw [selectionNote?, if_pos (by rw [hstage']; rfl)]
  exact .asked hstage (.carryOn hcell _ _ hsame) hstage' hanswer

theorem stride_asking {h : Handle} {a : Group.Activity} {now : Nat} {stale rest : List Handle}
    {after : AfterPass}
    (hstage : w.stage? who = some (.visiting h a none (.select now stale rest after)))
    (hasking : Asking now a)
    (hstep : w.stepActivity client who h a none (.select now stale rest after) = some w') :
    Stride who w w' (w.note? who w') := by
  have hnote : w.note? who w' = w.selectionNote? who now w' := by
    rw [note?, hstage]
  rw [hnote]
  cases hasking with
  | answered needed =>
    have hselects := selects_selectNext hstage now (if needed then stale ++ [h] else stale) after
      rest
    have heq : w.selectNext who now (if needed then stale ++ [h] else stale) after rest = w' := by
      rw [← Option.some.inj hstep]
      cases needed <;> rfl
    rw [heq] at hselects
    exact .told hstage hselects.1 hselects.2
  | started =>
    obtain ⟨cell, hcell, ⟨scene, hscene, rfl⟩ | ⟨d, hdeadline, -⟩⟩ :=
      stepActivity_cases hstep nofun
    · obtain rfl := Option.some.inj hscene
      exact stride_asked hstage hcell rfl (.inl rfl)
    · cases hdeadline
  | queued =>
    obtain ⟨cell, hcell, ⟨scene, hscene, rfl⟩ | ⟨d, hdeadline, -⟩⟩ :=
      stepActivity_cases hstep nofun
    · obtain ⟨-, hnext⟩ := Option.ite_none_right_eq_some.mp hscene
      obtain rfl := Option.some.inj hnext
      refine stride_asked hstage hcell rfl (.inr ?_)
      rw [needs_eq hcell]
      rfl
    · cases hdeadline

theorem activityNote?_eq_none {a : Group.Activity} {place : Nat} {cell : Group.Cell}
    (hcell : w.cells[place]? = some cell)
    (hidle : ∀ generation cache, a = .queued (.install generation cache) →
      cell.lock.isHeldBy who = true → cell.state.mutations ≠ generation) :
    w.activityNote? who place a = none := by
  cases a with
  | queued wish =>
    cases wish with
    | install generation cache =>
      have hcond : ¬ (cell.lock.isHeldBy who = true ∧ cell.state.mutations = generation) :=
        fun hcond ↦ hidle generation cache rfl hcond.1 hcond.2
      rw [activityNote?, hcell, Option.bind_some, if_neg hcond]
    | _ => rfl
  | _ => rfl

theorem isSelecting_visiting {next : Next} (hnext : next.topic ≠ .passes) (h : Handle)
    (a : Group.Activity) (d : Option Deadline) :
    (Stage.visiting h a d next : Stage σ).isSelecting = false := by
  cases next with
  | select now stale rest after => exact absurd rfl hnext
  | _ => rfl

section

variable {h : Handle} {a : Group.Activity} {d : Option Deadline} {next : Next} {cell : Group.Cell}

theorem stride_carryOn (hstage : w.stage? who = some (.visiting h a d next))
    (hnext : next.topic ≠ .passes) (hcell : w.cells[h.place]? = some cell)
    {scene : Group.Scene σ}
    (hscene : Group.Scene.step client h.group who w.clock w.steps ⟨a, cell, w.cloud⟩
      = some scene) :
    Stride who w (w.carryOn who h scene d next) (w.activityNote? who h.place a) := by
  have hadvance := Group.advance_of_step hscene
  have hstage' := stage?_carryOn_self hstage h scene d next
  have hidle := isSelecting_visiting (σ := σ) hnext h scene.activity d
  -- A view that came too late is dropped, and that is no installation.
  by_cases hinstall : ∃ generation cache, a = .queued (.install generation cache)
      ∧ cell.state.mutations = generation
  · obtain ⟨generation, cache, rfl, rfl⟩ := hinstall
    have hheld : cell.lock.isHeldBy who = true := (Option.ite_none_right_eq_some.mp hscene).1
    obtain ⟨hlast, hactivity⟩ := hadvance.of_install rfl rfl
    rw [activityNote?, hcell, Option.bind_some, if_pos ⟨hheld, rfl⟩]
    rw [hactivity] at hstage'
    refine .installed hstage hcell hstage' ?_ (fun other hne ↦ ?_) ?_
    · exact (lastRefresh?_setCell_self (w := { w with cloud := scene.cloud }) hcell _).trans hlast
    · exact lastRefresh?_setCell_of_ne hne scene.cell { w with cloud := scene.cloud }
    · exact .after (.setStage _ hidle) rfl (fun _ ↦ rfl) (Nat.le_refl _) rfl
  · have hkept : scene.cell.state.lastRefresh = cell.state.lastRefresh :=
      hadvance.lastRefresh_eq fun generation cache ha hsame ↦
        hinstall ⟨generation, cache, ha, hsame⟩
    rw [activityNote?_eq_none hcell fun generation cache ha _ hsame ↦
      hinstall ⟨generation, cache, ha, hsame⟩]
    refine .quiet ⟨.carryOn hcell _ _ hkept, fun hs ↦ ?_⟩
    rw [eq_of_stage?_setStage hs]
    exact hidle

theorem activityNote?_of_waits (hcell : w.cells[h.place]? = some cell)
    (hwaits : Group.Scene.step client h.group who w.clock w.steps ⟨a, cell, w.cloud⟩ = none) :
    w.activityNote? who h.place a = none := by
  refine activityNote?_eq_none hcell ?_
  rintro generation cache rfl hheld
  cases hwaits.symm.trans (if_pos hheld)

/-- A task that does not select goes on quietly after an activity, unless it installs a view. -/
theorem stride_visiting (hstage : w.stage? who = some (.visiting h a d next))
    (hnext : next.topic ≠ .passes) (hgoes : Goes client who w (.visiting h a d next) w') :
    Stride who w w' (w.note? who w') := by
  have hnote : w.note? who w' = w.activityNote? who h.place a := by
    rw [note?, hstage]
    cases next with
    | select now stale rest after => exact absurd rfl hnext
    | _ => rfl
  rw [hnote]
  cases hgoes with
  | does hout _ => cases hout
  | ends h ending d next => exact .quiet ((does_proceed h ending next).quiet hnext)
  | carries hcell hscene => exact stride_carryOn hstage hnext hcell hscene
  | limits hcell hwaits hunset =>
    rw [activityNote?_of_waits hcell hwaits]
    exact .quiet (.setStage w (isSelecting_visiting hnext h a _))
  | @givesUp _ _ _ _ cell _ hcell hwaits htimer hpast =>
    rw [activityNote?_of_waits hcell hwaits]
    have hgiven : Calm who w (w.setCell h.place (cell.withdraw who)) := by
      refine .setCell fun before hbefore ↦ ?_
      obtain rfl := Option.some.inj (hcell.symm.trans hbefore)
      rfl
    exact .quiet (hgiven.quiet ((does_proceed _ _ _).quiet hnext))

end

theorem Goes.stride {stage : Stage σ} (hgoes : Goes client who w stage w')
    (hstage : w.stage? who = some stage) (hout : stage.isVisiting = false)
    (htopic : stage.topic ≠ .passes) : Stride who w w' (w.note? who w') := by
  have hrequest : ∀ {request : Request σ}, request.topic ≠ .passes →
      w.requestNote? who w' request = none := by
    intro request hrequest
    cases request with
    | refresh => exact absurd rfl hrequest
    | reloadAll => exact absurd rfl hrequest
    | _ => rfl
  have hnone : w.note? who w' = none := by
    rw [note?, hstage]
    cases stage with
    | launching after request =>
      cases after with
      | none => exact hrequest htopic
      | some ms => rfl
    | pausing timer request => exact hrequest htopic
    | entering entry =>
      cases entry with
      | register h => exact absurd rfl htopic
      | select now after => exact absurd rfl htopic
      | _ => rfl
    | visiting h a d next => cases hout
    | idling l next => exact absurd rfl htopic
    | _ => rfl
  rw [hnone]
  cases hgoes with
  | does hout h => exact .quiet (h.quiet htopic)
  | _ => cases hout

/-- A task goes on that may have to do with passes. -/
theorem stride_of_passes {stage : Stage σ} (hstage : w.stage? who = some stage)
    (hout : stage.isVisiting = false) (htopic : stage.topic = .passes)
    (htaken : w.stepTask client who stage = some w') : Stride who w w' (w.note? who w') := by
  cases stage with
  | launching after request =>
    obtain rfl := Option.some.inj htaken
    rw [note?, hstage]
    cases after with
    | none => exact stride_begin hstage htopic
    | some ms => exact .quiet (.setStage w rfl)
  | pausing timer request =>
    obtain ⟨-, hbegun⟩ := Option.ite_none_right_eq_some.mp htaken
    obtain rfl := Option.some.inj hbegun
    rw [note?, hstage]
    exact stride_begin hstage htopic
  | entering entry =>
    obtain ⟨-, hheld⟩ := Option.ite_none_right_eq_some.mp htaken
    obtain rfl := Option.some.inj hheld
    exact stride_fulfil hstage htopic
  | visiting h a d next => cases hout
  | idling l timer =>
    rw [note?, hstage]
    rw [stepTask] at htaken
    split at htaken
    · obtain rfl := Option.some.inj htaken
      rw [passNote?, stage?_finish_self hstage]
      exact .quiet (.finish ..)
    · obtain ⟨-, hbegun⟩ := Option.ite_none_right_eq_some.mp htaken
      obtain rfl := Option.some.inj hbegun
      exact stride_beginPass hstage (.loop l)
  | _ => cases htopic

/-- Whatever a task that goes on has to do with refreshes is on record. -/
theorem Steps.stride (h : w.Steps client who w')
    (hsound : ∀ {stage}, w.stage? who = some stage → IsSound stage) :
    Stride who w w' (w.note? who w') := by
  cases h with
  | @round l _ hturn hstage hpast =>
    have hbegun := (stride_beginPass hstage (.loop l)).count ((w.beginPass who (.loop l)).steps + 1)
    rwa [note?, hstage]
  | step hstep =>
    obtain ⟨stage, next, hstage, htaken, rfl⟩ := step_cases hstep
    -- Every step is counted. That is the same in all cases, so it is put aside first.
    suffices h : Stride who w next (w.note? who next) from h.count _
    have hgoes := Goes.of_stepTask hstage htaken
    cases hout : stage.isVisiting with
    | false =>
      by_cases htopic : stage.topic = .passes
      · exact stride_of_passes hstage hout htopic htaken
      · exact hgoes.stride hstage hout htopic
    | true =>
      cases stage with
      | visiting h a d next =>
        cases next with
        | select now stale rest after =>
          obtain ⟨rfl, hasking⟩ := hsound hstage
          exact stride_asking hstage hasking htaken
        | _ => exact stride_visiting hstage nofun hgoes
      | _ => cases hout

end NodeGroups.Simulation.World
