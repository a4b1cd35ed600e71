import NodeGroups.Proofs.Index
import NodeGroups.Proofs.Rehearsal
import NodeGroups.Proofs.Search

/-!
# The group of a node

The request for the group of a node, from its start to its answer. The node's ID names one of the
registered groups at most, as no two of them have the same name. The request fails if the ID cannot
be read, and for no other reason; it finds no group if none is named, and otherwise a search at the
group that is named decides.

A search runs its course while nobody else acts on the group that it was given. Anything may happen
to the cloud and to the other groups meanwhile. Time passes while the search waits, and not beyond
the next of its timers.
-/

/-! ## The group that is named -/

namespace NodeGroups.Registry

variable {r : Registry} {id : ProviderId} {h h' : Handle}

theorem eq_of_sameName (hh : h ∈ r.handles) (hh' : h' ∈ r.handles)
    (hsame : Text.SameName h.group.name h'.group.name) : h = h' := by
  have hsymm : Std.Symm fun a b : Handle ↦ ¬ Text.SameName a.group.name b.group.name :=
    ⟨fun _ _ hne hsame ↦ hne hsame.symm⟩
  by_contra hne
  exact r.distinct.forall hh hh' hne hsame

/-- At most one group is named by an ID. -/
theorem eq_of_isIn (hh : h ∈ r.handles) (hh' : h' ∈ r.handles)
    (hin : id.IsIn h.group.resourceGroup h.group.name)
    (hin' : id.IsIn h'.group.resourceGroup h'.group.name) : h = h' :=
  eq_of_sameName hh hh' (hin.2.symm.trans hin'.2)

theorem isIn_of_named? (hnamed : r.named? id = some h) :
    h ∈ r.handles ∧ id.IsIn h.group.resourceGroup h.group.name := by
  have hin := List.find?_some hnamed
  exact ⟨List.mem_of_find?_eq_some hnamed, of_decide_eq_true hin⟩

theorem named?_eq_some_iff : r.named? id = some h ↔
    h ∈ r.handles ∧ id.IsIn h.group.resourceGroup h.group.name := by
  refine ⟨isIn_of_named?, fun ⟨hh, hin⟩ ↦ ?_⟩
  cases hnamed : r.named? id with
  | none => exact absurd (decide_eq_true hin) (List.find?_eq_none.mp hnamed h hh)
  | some other =>
    obtain ⟨hother, hin'⟩ := isIn_of_named? hnamed
    rw [eq_of_isIn hother hh hin' hin]

theorem named?_eq_none (hnone : ∀ h ∈ r.handles, ¬ id.IsIn h.group.resourceGroup h.group.name) :
    r.named? id = none :=
  List.find?_eq_none.mpr fun h hh hin ↦ hnone h hh (of_decide_eq_true hin)

end NodeGroups.Registry

namespace NodeGroups.Simulation

open World Relation

variable {σ : Type} {client : Client σ} {w w' start : World σ}

namespace Search

variable {s : Search} {trail : List Group.Signal} {stage : Stage σ} {cell : Group.Cell}

/-! ## Runs of a search -/

/-- A search is left alone and so is the group that it was given, the registry keeps its limits, and
no time passes. -/
structure Spared (s : Search) (w w' : World σ) : Prop where
  stage : w'.stage? s.who = w.stage? s.who
  cell : w'.cells[s.handle.place]? = w.cells[s.handle.place]?
  clock : w'.clock = w.clock
  groupTimeout : w'.registry.groupTimeout = w.registry.groupTimeout
  minInterval : w'.registry.minInterval = w.registry.minInterval

/-- A run of a search while nobody else acts on the group that it was given, with the trail of what
was sent and heard in it, the latest first. -/
inductive Run (client : Client σ) (s : Search) (start : World σ) :
    List Group.Signal → World σ → Prop
  | refl : Run client s start [] start
  /-- The search takes a step, on which the client does not break down. -/
  | step {trail : List Group.Signal} {w w' : World σ} (h : Run client s start trail w)
      (hsteady : client.IsSteady s.handle.group w.cloud) (hstep : w.step client s.who = some w') :
      Run client s start (w.signals client s.who w' ++ trail) w'
  /-- Time passes while the search waits, and the timers go off that are due then. -/
  | elapse {trail : List Group.Signal} {w : World σ} {ms : Nat} (h : Run client s start trail w)
      (hwaits : 0 < ms → w.Waits client s.who (w.clock.now + ms)) :
      Run client s start trail (w.pass ms).ring
  /-- Something happens elsewhere. -/
  | elsewhere {trail : List Group.Signal} {w w' : World σ} (h : Run client s start trail w)
      (hspared : s.Spared w w') : Run client s start trail w'

theorem Underway.of_spared (h : s.Underway trail w) (hspared : s.Spared w w') :
    s.Underway trail w' := by
  obtain ⟨stage, cell, hstage, hcell, hphase⟩ := h.phase
  refine ⟨hspared.groupTimeout.trans h.limit, hspared.minInterval.trans h.interval, ?_, stage, cell,
    hspared.stage.trans hstage, hspared.cell.trans hcell, ?_⟩
  · rw [hspared.clock]
    exact h.rung
  · rw [hspared.clock]
    exact hphase

theorem exists_next_of_asks {q : Group.Query} {state : Group.State} {a : Group.Activity}
    {routing : Routing} (hask : q.answerAtOnce? s.handle.group = none)
    (hasks : Group.Asks s.handle.group s.who q state a cell)
    (hcell : w.cells[s.handle.place]? = some cell) :
    w.stepTask client s.who (.visiting s.handle a none (.route s.node routing)) ≠ none := by
  by_cases hended : ∃ ending, a = .ended ending
  · obtain ⟨ending, rfl⟩ := hended
    exact Option.some_ne_none _
  · have hactive : ∀ ending, a ≠ .ended ending := fun ending heq ↦ hended ⟨ending, heq⟩
    obtain ⟨scene, hscene, -⟩ := hasks.exists_step hask hactive
    rw [stepTask, stepActivity_eq hactive, hcell, Option.bind_some, hscene]
    exact Option.some_ne_none _

/-- A search waits for nothing but its reload, which waits for a call and has its time limit set. No
timer of it has gone off, and how far it is does not depend on the moment. -/
theorem Phase.waits (h : s.Phase w.clock.now trail stage cell)
    (hcell : w.cells[s.handle.place]? = some cell)
    (hnone : w.stepTask client s.who stage = none) :
    (∃ result moment, stage = .finished result moment)
      ∨ ∃ a d timer, stage = .visiting s.handle a (some d) (.route s.node .reload)
        ∧ d.timer = some timer ∧ (∀ t ∈ stage.timers, w.clock.rung < t.due)
        ∧ ∀ now, s.Reloads now trail a cell := by
  have hbelongs := Group.answerAtOnce?_belongs s.parse s.named
  cases h with
  | member hnow hasks => exact absurd hnone (exists_next_of_asks hbelongs hasks hcell)
  | age hnow hmissing hasks => exact absurd hnone (exists_next_of_asks rfl hasks hcell)
  | @reload _ a d _ hopen hreloads hbegun hlimit =>
    obtain ⟨hactive, hwaits, timer, htimer, hlt⟩ := Reload.stepActivity_eq_none hcell hnone
    obtain ⟨-, hreloads', -, hlt', -⟩ := hreloads.waits hwaits hactive
    refine .inr ⟨a, d, timer, rfl, htimer, fun t ht ↦ ?_, hreloads'⟩
    rcases List.mem_append.mp ht with ht | ht
    · exact hlt' t (Option.mem_toList.mp ht)
    · obtain rfl := Option.some.inj (htimer.symm.trans (Option.mem_toList.mp ht))
      exact hlt
  | memberAgain hopen hreloaded hbegun hlimit hasks =>
    exact absurd hnone (exists_next_of_asks hbelongs hasks hcell)
  | finished hconcludes => exact .inl ⟨_, _, rfl⟩

theorem Underway.elapse {ms : Nat} (h : s.Underway trail w)
    (hwaits : 0 < ms → w.Waits client s.who (w.clock.now + ms)) :
    s.Underway trail (w.pass ms).ring := by
  obtain ⟨stage, cell, hstage, hcell, hphase⟩ := h.phase
  refine ⟨h.limit, h.interval, Nat.le_refl _, stage, cell, hstage, hcell, ?_⟩
  rcases Nat.eq_zero_or_pos ms with rfl | hpos
  · exact hphase
  obtain ⟨hnone, htimers⟩ := hwaits hpos stage hstage
  rcases hphase.waits hcell hnone with ⟨result, moment, rfl⟩ |
    ⟨a, d, timer, rfl, htimer, -, hreloads⟩
  · cases hphase with
    | finished hconcludes => exact .finished hconcludes
  · cases hphase with
    | reload hopen _ hbegun hlimit =>
      have hle : w.clock.now + ms ≤ timer.due :=
        htimers timer (List.mem_append_right _ (Option.mem_toList.mpr htimer))
      refine .reload hopen (hreloads _) (Nat.le_add_right_of_le hbegun)
        ⟨hlimit.same, fun hunset ↦ ?_, fun other hother ↦ ?_⟩
      · cases hunset.symm.trans htimer
      · obtain rfl := Option.some.inj (htimer.symm.trans hother)
        exact ⟨(hlimit.due timer htimer).1, hle⟩

theorem Underway.exists_first (h : s.Underway trail w) (hstage : w.stage? s.who = some stage)
    (hopen : ∀ result moment, stage ≠ .finished result moment)
    (hnone : w.stepTask client s.who stage = none) :
    ∃ first ∈ stage.timers, w.clock.rung < first.due ∧ ∀ t ∈ stage.timers, first.due ≤ t.due := by
  obtain ⟨stage', cell, hstage', hcell, hphase⟩ := h.phase
  obtain rfl := Option.some.inj (hstage.symm.trans hstage')
  rcases hphase.waits hcell hnone with ⟨result, moment, rfl⟩ | ⟨a, d, timer, heq, htimer, hlt, -⟩
  · exact absurd rfl (hopen result moment)
  have hmem : timer ∈ stage.timers := by
    rw [heq]
    exact List.mem_append_right _ (Option.mem_toList.mpr htimer)
  obtain ⟨first, hfirst⟩ := Option.ne_none_iff_exists'.mp fun hnone ↦
    List.ne_nil_of_mem hmem (List.argmin_eq_none.mp (hnone : stage.timers.argmin Timer.due = none))
  exact ⟨first, List.argmin_mem hfirst, hlt first (List.argmin_mem hfirst), fun t ht ↦
    List.le_of_mem_argmin ht hfirst⟩

theorem Underway.exists_awake (h : s.Underway trail w) (hstage : w.stage? s.who = some stage)
    (hopen : ∀ result moment, stage ≠ .finished result moment) :
    ∃ w', s.Run client w [] w' ∧ s.Underway trail w' ∧ w'.stage? s.who = some stage
      ∧ w'.stepTask client s.who stage ≠ none ∧ w'.deferred = [] ∧ w'.cloud = w.cloud := by
  -- The clock rings first, so that the search is not put off any longer.
  have hnow : 0 < 0 → w.Waits client s.who (w.clock.now + 0) := nofun
  have hrun₁ : s.Run client w [] (w.pass 0).ring := .elapse .refl hnow
  have h₁ : s.Underway trail (w.pass 0).ring := h.elapse hnow
  by_cases hnone : (w.pass 0).ring.stepTask client s.who stage = none
  · obtain ⟨first, hfirst, hlt, hmin⟩ := h₁.exists_first hstage hopen hnone
    obtain ⟨ms, hms⟩ := Nat.exists_eq_add_of_le (Nat.le_of_lt hlt)
    have hwaits : 0 < ms →
        (w.pass 0).ring.Waits client s.who ((w.pass 0).ring.clock.now + ms) := by
      intro _ other hother
      obtain rfl := Option.some.inj (hstage.symm.trans hother)
      exact ⟨hnone, fun t ht ↦ hms.symm.le.trans (hmin t ht)⟩
    have h₂ := h₁.elapse hwaits
    refine ⟨_, .elapse hrun₁ hwaits, h₂, hstage, fun hnone₂ ↦ ?_, rfl, rfl⟩
    -- The first timer has gone off, and whoever waits has no such timer.
    obtain ⟨stage₂, cell₂, hstage₂, hcell₂, hphase₂⟩ := h₂.phase
    obtain rfl := Option.some.inj (hstage.symm.trans hstage₂)
    rcases hphase₂.waits hcell₂ hnone₂ with ⟨result, moment, heq⟩ | ⟨_, _, _, _, _, hlt₂, -⟩
    · exact hopen result moment heq
    · exact absurd (hlt₂ first hfirst) (Nat.not_lt.mpr hms.le)
  · exact ⟨_, hrun₁, h₁, hstage, hnone, rfl, rfl⟩

theorem Run.trans {trail' : List Group.Signal} (h : s.Run client start trail w)
    (h' : s.Run client w trail' w') : s.Run client start (trail' ++ trail) w' := by
  induction h' with
  | refl => exact h
  | step _ hsteady hstep ih =>
    rw [List.append_assoc]
    exact .step ih hsteady hstep
  | elapse _ hwaits ih => exact .elapse ih hwaits
  | elsewhere _ hspared ih => exact .elsewhere ih hspared

/-- A search can be brought to its end. -/
theorem Underway.exists_end (h : s.Underway trail w)
    (hsteady : client.StaysSteady s.handle.group w.cloud) :
    ∃ trail' w' result moment, s.Run client w trail' w'
      ∧ w'.stage? s.who = some (.finished result moment) := by
  obtain ⟨stage, -, hstage, -⟩ := h.phase
  induction hleft : stage.left using Nat.strong_induction_on generalizing w trail stage with
  | _ left ih =>
    by_cases hover : ∃ result moment, stage = .finished result moment
    · obtain ⟨result, moment, rfl⟩ := hover
      exact ⟨[], w, result, moment, .refl, hstage⟩
    obtain ⟨w₁, hrun₁, h₁, hstage₁, hnext, hdeferred, hcloud⟩ :=
      h.exists_awake hstage fun result moment heq ↦ hover ⟨result, moment, heq⟩
    obtain ⟨next, hnext⟩ := Option.ne_none_iff_exists'.mp hnext
    obtain ⟨w₂, hstep⟩ := exists_step hstage₁ hnext hdeferred
    rw [← hcloud] at hsteady
    have hgoes := h₁.step (hsteady _ .refl) hstep
    obtain ⟨stage₂, -, hstage₂, -⟩ := hgoes.underway.phase
    obtain ⟨trail', w', result, moment, hrun', hfinished⟩ :=
      ih _ (hleft ▸ hgoes.closer hstage₁ hstage₂) hgoes.underway (hsteady.of_uses hgoes.uses)
        stage₂ hstage₂ rfl
    exact ⟨_, w', result, moment, (hrun₁.step (hsteady _ .refl) hstep).trans hrun', hfinished⟩

theorem Run.underway (h : s.Run client start trail w) (hstart : s.Underway [] start) :
    s.Underway trail w := by
  induction h with
  | refl => exact hstart
  | step _ hsteady hstep ih => exact (ih.step hsteady hstep).underway
  | elapse _ hwaits ih => exact ih.elapse hwaits
  | elsewhere _ hspared ih => exact ih.of_spared hspared

/-- A search that is over has its answer, and has concluded. -/
theorem Underway.of_finished {result : Result} {moment : Nat} (h : s.Underway trail w)
    (hstage : w.stage? s.who = some (.finished result moment)) :
    ∃ state, w.cells[s.handle.place]? = some ⟨state, .free⟩ ∧ result = s.answer state
      ∧ s.Concludes moment trail state := by
  obtain ⟨stage, cell, hstage', hcell, hphase⟩ := h.phase
  obtain rfl := Option.some.inj (hstage'.symm.trans hstage)
  cases hphase with
  | finished hconcludes => exact ⟨_, hcell, rfl, hconcludes⟩

/-! ## The beginning of a search -/

/-- A task that has the registry begins a search in a step: it is given the group that the ID of its
node names, at which nobody is at work. -/
structure Begins (client : Client σ) (s : Search) (w start : World σ) : Prop where
  stage : w.stage? s.who = some (.entering (.route s.node s.id))
  step : w.step client s.who = some start
  registered : s.handle ∈ w.registry.handles
  cell : w.cells[s.handle.place]? = some ⟨s.before, .free⟩
  moment : w.clock.now = s.moment
  /-- No timer has gone off that is due later. -/
  rung : w.clock.rung ≤ w.clock.now
  limit : w.registry.groupTimeout = s.limit
  interval : w.registry.minInterval = s.interval

theorem Begins.eq_count (h : s.Begins client w start) :
    ∃ steps, start = { (w.leaveGate s.who).setStage s.who (.visiting s.handle
      (.started (.query (.belongs s.node))) none (.route s.node .member)) with steps } := by
  obtain ⟨stage, next, hstage, hnext, rfl⟩ := step_cases h.step
  obtain rfl := Option.some.inj (h.stage.symm.trans hstage)
  obtain ⟨-, hfulfil⟩ := Option.ite_none_right_eq_some.mp hnext
  obtain rfl := Option.some.inj hfulfil
  have hnamed : w.registry.named? s.id = some s.handle :=
    Registry.named?_eq_some_iff.mpr ⟨h.registered, s.named⟩
  rw [fulfil, hnamed]
  exact ⟨_, rfl⟩

theorem Begins.underway (h : s.Begins client w start) :
    s.Underway [] start ∧ start.cloud = w.cloud := by
  obtain ⟨steps, rfl⟩ := h.eq_count
  exact ⟨⟨h.limit, h.interval, h.rung, _, _, stage?_setStage_self h.stage _, h.cell,
    .member h.moment .started⟩, rfl⟩

end Search

namespace World

variable {who : Nat} {node : Node}

/-! ## The request -/

/-- A task is about to make a request, at once or after a pause. -/
def IsAbout (who : Nat) (request : Request σ) (w : World σ) : Prop :=
  w.stage? who = some (.launching none request)
    ∨ ∃ timer, w.stage? who = some (.pausing timer request)

theorem IsAbout.exists_stage {request : Request σ} (habout : IsAbout who request w) :
    ∃ stage, w.stage? who = some stage := by
  rcases habout with hlaunching | ⟨timer, hpausing⟩
  · exact ⟨_, hlaunching⟩
  · exact ⟨_, hpausing⟩

theorem eq_of_isAbout {request : Request σ} (habout : IsAbout who request w)
    (hstep : w.step client who = some w') :
    ∃ steps, w' = { w.begin client who request with steps } := by
  obtain ⟨stage, next, hstage, hnext, rfl⟩ := step_cases hstep
  rcases habout with hlaunching | ⟨timer, hpausing⟩
  · obtain rfl := Option.some.inj (hlaunching.symm.trans hstage)
    obtain rfl := Option.some.inj hnext
    exact ⟨_, rfl⟩
  · obtain rfl := Option.some.inj (hpausing.symm.trans hstage)
    obtain ⟨-, hbegun⟩ := Option.ite_none_right_eq_some.mp hnext
    obtain rfl := Option.some.inj hbegun
    exact ⟨_, rfl⟩

theorem step_of_route (habout : IsAbout who (.route node) w) (hstep : w.step client who = some w') :
    w'.cloud = w.cloud ∧ w'.stage? who = some (match ProviderId.parse? node.providerId with
      | none => .finished (.error (.group (.malformedId node.providerId))) w.clock.now
      | some id => .entering (.route node id)) := by
  obtain ⟨steps, rfl⟩ := eq_of_isAbout habout hstep
  obtain ⟨stage, hstage⟩ := habout.exists_stage
  rw [begin, ProviderId.parse]
  cases ProviderId.parse? node.providerId with
  | none => exact ⟨rfl, stage?_finish_self hstage _⟩
  | some id => exact ⟨rfl, stage?_enter_self hstage _⟩

theorem step_of_unnamed {id : ProviderId}
    (hstage : w.stage? who = some (.entering (.route node id)))
    (hstep : w.step client who = some w')
    (hnone : ∀ h ∈ w.registry.handles, ¬ id.IsIn h.group.resourceGroup h.group.name) :
    w'.cloud = w.cloud ∧ w'.stage? who = some (.finished (.ok (.maybeName none)) w.clock.now) := by
  obtain ⟨stage, next, hstage', hnext, rfl⟩ := step_cases hstep
  obtain rfl := Option.some.inj (hstage.symm.trans hstage')
  obtain ⟨-, hfulfil⟩ := Option.ite_none_right_eq_some.mp hnext
  obtain rfl := Option.some.inj hfulfil
  rw [fulfil, Registry.named?_eq_none hnone]
  exact ⟨rfl, stage?_finish_self hstage _⟩

/-- **The group of a node.** No two registered groups have the same name, so an ID names one of them
at most. A request fails if and only if the ID of the node cannot be read, which is found at once;
otherwise the task gets the registry. If no group is named, there is none, and the cloud is not
asked. If there is one, at which nobody else is at work, the search there can be brought to its end
from wherever it is, and it ends with the group if and only if the group's view has a record of the
machine then. If the view that it found has the node, or is too new, no call was sent. Otherwise the
group was reloaded once, in time: with a description and a listing from the cloud it has the view
that is made of them, and with an error in place of one, or no more time, it is as it was. -/
theorem node_routing (client : Client σ) (w : World σ) (who : Nat) (node : Node) :
    (w.registry.handles.Pairwise fun h h' ↦ ¬ Text.SameName h.group.name h'.group.name)
    ∧ (∀ {id : ProviderId}, ∀ h ∈ w.registry.handles, ∀ h' ∈ w.registry.handles,
      id.IsIn h.group.resourceGroup h.group.name → id.IsIn h'.group.resourceGroup h'.group.name →
      h = h')
    ∧ (∀ {w'}, IsAbout who (.route node) w → w.step client who = some w' → w'.cloud = w.cloud
      ∧ w'.stage? who = some (match ProviderId.parse? node.providerId with
        | none => .finished (.error (.group (.malformedId node.providerId))) w.clock.now
        | some id => .entering (.route node id)))
    ∧ (∀ {id w'}, w.stage? who = some (.entering (.route node id)) → w.step client who = some w' →
      (∀ h ∈ w.registry.handles, ¬ id.IsIn h.group.resourceGroup h.group.name) →
      w'.cloud = w.cloud ∧ w'.stage? who = some (.finished (.ok (.maybeName none)) w.clock.now))
    ∧ ∀ {s : Search} {start}, s.Begins client w start → start.cloud = w.cloud
      ∧ ∀ {trail w'}, s.Run client start trail w' →
        (∀ {w''}, client.IsSteady s.handle.group w'.cloud → w'.step client s.who = some w'' →
          Group.Uses client s.handle.group w'.cloud w''.cloud (w'.sent? s.who w''))
        ∧ (∀ {result moment}, w'.stage? s.who = some (.finished result moment) →
          ∃ state, w'.cells[s.handle.place]? = some ⟨state, .free⟩ ∧ result = s.answer state
            ∧ s.Concludes moment trail state)
        ∧ (client.StaysSteady s.handle.group w'.cloud →
          ∃ trail' w'' result moment, s.Run client w' trail' w''
            ∧ w''.stage? s.who = some (.finished result moment)) := by
  refine ⟨w.registry.distinct, fun h hh h' hh' ↦ Registry.eq_of_isIn hh hh', step_of_route,
    step_of_unnamed, fun {s start} hbegins ↦ ?_⟩
  obtain ⟨hstart, hcloud⟩ := hbegins.underway
  refine ⟨hcloud, fun hrun ↦ ?_⟩
  have hunderway := hrun.underway hstart
  exact ⟨fun hsteady hstep ↦ (hunderway.step hsteady hstep).uses, hunderway.of_finished,
    hunderway.exists_end⟩

end World

/-! ## A node that is known and one that is not -/

namespace Search

variable {s : Search}

/-- What comes of it when a search takes some steps, if it can: the trail and the world. -/
def rehearse (client : Client σ) (s : Search) (steps : Nat) (start : World σ) :
    Option (List Group.Signal × World σ) :=
  (List.replicate steps ()).foldlM (fun now _ ↦
    (now.2.step client s.who).map fun w ↦ (now.2.signals client s.who w ++ now.1, w)) ([], start)

theorem Run.rehearse {trail : List Group.Signal} {steps : Nat} (hstart : s.Underway [] start)
    (hsteady : client.StaysSteady s.handle.group start.cloud)
    (hrehearse : s.rehearse client steps start = some (trail, w)) :
    s.Run client start trail w := by
  let p (now : List Group.Signal × World σ) : Prop := s.Run client start now.1 now.2
    ∧ s.Underway now.1 now.2 ∧ client.StaysSteady s.handle.group now.2.cloud
  suffices hlast : p (trail, w) from hlast.1
  have hbegun : p ([], start) := ⟨.refl, hstart, hsteady⟩
  refine of_foldlM (fun {now _ next} hnow hnext ↦ ?_) hbegun hrehearse
  obtain ⟨hrun, hunderway, hsteady⟩ := hnow
  obtain ⟨w', hstep, rfl⟩ := Option.map_eq_some_iff.mp hnext
  have hgoes := hunderway.step (hsteady _ .refl) hstep
  exact ⟨hrun.step (hsteady _ .refl) hstep, hgoes.underway, hsteady.of_uses hgoes.uses⟩

end Search

namespace World

/-- A view that has the machine of the group. -/
def knownView : Group.View := ⟨.build (.bare "pool" 1) [Group.poolMachine], 1, 0⟩

/-- A task is about to look for the group of the machine's node in a registry of two groups, of
which the first has some view. -/
def lookingUp (view : Option Group.View) : World Memory :=
  { World.initial cloudOfPair pair with
    cells := [⟨⟨view, 0⟩, .free⟩, .initial]
    gate := .heldBy 0 .shared
    tasks := [⟨.entering (.route ⟨"node", Group.poolMachine.providerId⟩
      (Memory.machine "rg" "pool" 0)), none⟩] }

def poolSearch (view : Option Group.View) : Search where
  who := 0
  handle := ⟨Group.pool, 0⟩
  node := ⟨"node", Group.poolMachine.providerId⟩
  id := Memory.machine "rg" "pool" 0
  moment := 0
  limit := .defaultGroupTimeout
  interval := .defaultMinInterval
  before := ⟨view, 0⟩
  parse := Group.parse?_poolMachine
  named := ⟨rfl, rfl⟩

theorem begins_poolSearch {view : Option Group.View} {start : World Memory}
    (hstep : (lookingUp view).step Memory.client 0 = some start) :
    (poolSearch view).Begins Memory.client (lookingUp view) start where
  stage := rfl
  step := hstep
  registered := .head _
  cell := rfl
  moment := rfl
  rung := Nat.le_refl _
  limit := rfl
  interval := rfl

theorem staysSteady_memory {g : Group} {m : Memory} (hbroken : m.broken = []) :
    Memory.client.StaysSteady g m := by
  intro m' hsent
  have hsound : m'.broken = [] := by
    induction hsent with
    | refl => exact hbroken
    | tail _ hlast ih =>
      obtain ⟨call, receipt, hsubmit⟩ := hlast
      obtain ⟨-, heq⟩ := Option.ite_none_left_eq_some.mp hsubmit
      obtain ⟨-, rfl⟩ := Prod.mk.inj (Option.some.inj heq)
      exact ih
  intro call hnone
  simp [Memory.client, Memory.submit, hsound] at hnone

def poolListing : List Instance :=
  [0, 1, 2].map fun index ↦ Memory.record "rg" "pool" index .succeeded

/-- The trail of a search that has reloaded the group. -/
def poolTrail : List Group.Signal :=
  [.listed (.ok poolListing), .sent .list, .described (.ok (.bare "pool" 3)), .sent .describe]

def poolView : Cache := .build (.bare "pool" 3) poolListing

def poolState : Group.State := ⟨some ⟨poolView, poolView.capacity, 0⟩, 0⟩

theorem isSome_poolState : (poolState.record? (poolSearch none).id).isSome = true := by
  rw [Group.State.record?_of_view (v := ⟨poolView, poolView.capacity, 0⟩) rfl, poolView,
    Cache.get?_build, Option.isSome_map, List.find?_isSome]
  exact ⟨Group.poolMachine, .tail _ (.tail _ (.head _)),
    decide_eq_true (Instance.key_eq Group.parse?_poolMachine)⟩

theorem isSome_knownState :
    ((poolSearch (some knownView)).before.record? (poolSearch (some knownView)).id).isSome
      = true := by
  have hrecord : knownView.cache.get? (poolSearch (some knownView)).id
      = some Group.poolMachine.normalized :=
    Cache.get?_build_concat _ [] (Instance.key_eq Group.parse?_poolMachine)
  rw [Group.State.record?_of_view (v := knownView) rfl, hrecord, Option.isSome_some]

theorem exists_rehearse_poolSearch : ∃ start w result,
    (lookingUp none).step Memory.client 0 = some start
    ∧ (poolSearch none).rehearse Memory.client 15 start = some (poolTrail, w)
    ∧ w.stage? 0 = some (.finished result 0) := by
  have hplayed : (((lookingUp none).step Memory.client 0).bind fun start ↦
      ((poolSearch none).rehearse Memory.client 15 start).map fun now ↦
        (now.1, (now.2.tasks[0]?.bind Task.result?).map Prod.snd))
      = some (poolTrail, some 0) := by decide +kernel
  obtain ⟨start, hstep, hplayed⟩ := Option.bind_eq_some_iff.mp hplayed
  obtain ⟨⟨trail, w⟩, hrehearse, hfacts⟩ := Option.map_eq_some_iff.mp hplayed
  obtain ⟨rfl, hended⟩ := Prod.mk.inj hfacts
  obtain ⟨⟨result, moment⟩, hresult, rfl⟩ := Option.map_eq_some_iff.mp hended
  exact ⟨start, w, result, hstep, hrehearse, result?_eq_some_iff.mp hresult⟩

/-- A node of which the view has a record is found without a call. For one of which it has none, as
there is no view yet, the group is reloaded, and then it is found. -/
theorem node_routing_of_pool :
    (∃ start w,
      (poolSearch (some knownView)).Begins Memory.client (lookingUp (some knownView)) start
      ∧ (poolSearch (some knownView)).Run Memory.client start [] w
      ∧ w.stage? 0 = some (.finished (.ok (.maybeName (some "pool"))) 0))
    ∧ ∃ start w, (poolSearch none).Begins Memory.client (lookingUp none) start
      ∧ (poolSearch none).Run Memory.client start poolTrail w
      ∧ w.stage? 0 = some (.finished (.ok (.maybeName (some "pool"))) 0)
      ∧ w.cells[0]? = some ⟨poolState, .free⟩ := by
  have hlooks : ∀ {view start}, (lookingUp view).step Memory.client 0 = some start →
      start.cloud = cloudOfPair ∧ ∀ {trail w}, (poolSearch view).Run Memory.client start trail w →
        (∀ {result moment}, w.stage? 0 = some (.finished result moment) →
          ∃ state, w.cells[0]? = some ⟨state, .free⟩ ∧ result = (poolSearch view).answer state
            ∧ (poolSearch view).Concludes moment trail state)
        ∧ (Memory.client.StaysSteady Group.pool w.cloud →
          ∃ trail' w' result moment, (poolSearch view).Run Memory.client w trail' w'
            ∧ w'.stage? 0 = some (.finished result moment)) := by
    intro view start hstep
    obtain ⟨-, -, -, -, hsearch⟩ := node_routing Memory.client (lookingUp view) 0
      ⟨"node", Group.poolMachine.providerId⟩
    obtain ⟨hcloud, hruns⟩ := hsearch (begins_poolSearch hstep)
    exact ⟨hcloud, fun hrun ↦ (hruns hrun).2⟩
  constructor
  · obtain ⟨start, hstep⟩ : ∃ start,
        (lookingUp (some knownView)).step Memory.client 0 = some start :=
      Option.isSome_iff_exists.mp (by decide +kernel)
    obtain ⟨hcloud, hruns⟩ := hlooks hstep
    obtain ⟨trail, w, result, moment, hrun, hfinished⟩ :=
      (hruns .refl).2 (staysSteady_memory (by rw [hcloud]; rfl))
    obtain ⟨state, -, rfl, hconcludes⟩ := (hruns hrun).1 hfinished
    cases hconcludes with
    | settled hsettled hmoment =>
      subst hmoment
      refine ⟨start, w, begins_poolSearch hstep, hrun, ?_⟩
      rw [hfinished, Search.answer_of_isSome isSome_knownState]
      rfl
    | reloaded hopen => exact absurd (.inl isSome_knownState) hopen
  · obtain ⟨start, w, result, hstep, hrehearse, hfinished⟩ := exists_rehearse_poolSearch
    obtain ⟨hcloud, hruns⟩ := hlooks hstep
    have hrun := Search.Run.rehearse (begins_poolSearch hstep).underway.1
      (staysSteady_memory (by rw [hcloud]; rfl)) hrehearse
    obtain ⟨state, hcell, rfl, hconcludes⟩ := (hruns hrun).1 hfinished
    cases hconcludes with
    | reloaded hopen hreloaded hbegun hlimit =>
      obtain rfl : state = poolState := Search.Reloaded.of_listed hreloaded
      refine ⟨start, w, begins_poolSearch hstep, hrun, ?_, hcell⟩
      rw [hfinished, Search.answer_of_isSome isSome_poolState]
      rfl

end World

end NodeGroups.Simulation
