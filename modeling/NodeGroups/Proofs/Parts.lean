import NodeGroups.Proofs.Stage

/-!
# What a step of the world is made of

On its way from one wait to the next a task does few things to the world: it puts the cloud into
another condition, it gives back the registry, it notes the moment of a pass. Then it comes to wait
for something else. All that there is of both is said here once, one case each, and every function
of the world that a step may call is put together from these. A proof about every step goes through
the cases instead of opening the functions.

While a task is on its way, it is in the lock of the registry as it was or has left it. It comes to
wait only for what goes with that. This is why the effects and what follows them keep track of how
the task is in the lock.

A refresh loop whose rest is over and whose shutdown has come may go on or stop. `World.step`
prefers to stop, as `World.Steps` does not.
-/

namespace NodeGroups.Simulation

variable {σ : Type}

/-! ## Topics -/

/-- What a step has to do with beside the task that takes it and the cloud. -/
inductive Topic
  /-- The registry and the passes through it. -/
  | passes
  /-- The counter of templates. -/
  | templates
  | other
  deriving DecidableEq

def Request.topic : Request σ → Topic
  | .refresh | .reloadAll => .passes
  | _ => .other

def Entry.topic : Entry → Topic
  | .register _ | .select .. => .passes
  | _ => .other

def Next.topic : Next → Topic
  | .select .. => .passes
  | .template => .templates
  | _ => .other

def Stage.topic : Stage σ → Topic
  | launching _ request | pausing _ request => request.topic
  | entering entry => entry.topic
  | visiting _ _ _ next => next.topic
  | idling .. => .passes
  | _ => .other

theorem Stage.topic_ne_templates {stage : Stage σ} (hout : stage.isVisiting = false) :
    stage.topic ≠ .templates := by
  have hrequest : ∀ request : Request σ, request.topic ≠ .templates := by
    intro request
    cases request <;> nofun
  cases stage with
  | launching after request => exact hrequest request
  | pausing timer request => exact hrequest request
  | entering entry => cases entry <;> nofun
  | visiting h activity deadline next => cases hout
  | _ => nofun

namespace World

/-! ## From one wait to the next -/

/-- One thing that a task does on its way. It is in the lock of the registry as the first claim
says before, and as the second says after that. -/
inductive Effect (who : Nat) : Topic → Option Access → Option Access → World σ → World σ → Prop
  | cloud {t claim w} (cloud : σ) : Effect who t claim claim w { w with cloud }
  | elapse {t claim w} (ms : Nat) : Effect who t claim claim w ((w.pass ms).defer who)
  /-- A new group is held under a key. -/
  | hold {t claim w} (key : String) (group : Group) :
      Effect who t claim claim w { (w.addGroup group).2 with
        held := (w.addGroup group).2.held.insert key (w.addGroup group).1 }
  | leaveGate {t claim w} : Effect who t claim none w (w.leaveGate who)
  /-- The moment of a pass is noted. -/
  | note {claim w} : Effect who .passes claim claim w
      { w with registry := { w.registry with lastPass := some w.clock.now } }
  | register {claim w h registry} (hstage : w.stage? who = some (.entering (.register h)))
      (hregister : w.registry.register? h = some registry) :
      Effect who .passes claim claim w { w with registry }
  | count {claim w} : Effect who .templates claim claim w { w with templates := w.templates + 1 }

/-- A task comes to wait for something else, and is in the lock of the registry as claimed. -/
inductive Settles (who : Nat) : Topic → Option Access → World σ → World σ → Prop
  | finish {t w} (result : Result) : Settles who t none w (w.finish who result)
  | rest {t w} {stage : Stage σ} (hidle : stage.IsIdle) :
      Settles who t none w (w.setStage who stage)
  | enter {t w} {entry : Entry} (hnone : (Stage.entering entry : Stage σ).newcomer? = none)
      (htopic : (Stage.entering entry : Stage σ).isSelecting = true → t = .passes) :
      Settles who t none w (w.enter who entry)
  /-- It is about to register a new group. -/
  | enterNew {t w} (group : Group) :
      Settles who t none w ((w.addGroup group).2.enter who (.register (w.addGroup group).1))
  /-- It is about to register a group that was held. -/
  | enterHeld {t w key h} (hheld : w.held.get? key = some h) :
      Settles who t none w ({ w with held := w.held.erase key }.enter who (.register h))
  | spawn {t w} {stages : List (Stage σ)} (gathering : Gathering)
      (hidle : ∀ stage ∈ stages, stage.IsIdle) :
      Settles who t none w (w.spawn who stages gathering)
  /-- It asks the next group whether it needs a refresh. -/
  | ask {w} (h : Handle) (now : Nat) (stale rest : List Handle) (after : AfterPass) :
      Settles who .passes (some .shared) w
        (w.setStage who (.visiting h (.started (.query (.needsRefresh now))) none
          (.select now stale rest after)))

/-- All that a task does from one wait to the next. -/
inductive Does (who : Nat) : Topic → Option Access → World σ → World σ → Prop
  | settle {t claim w w'} (h : Settles who t claim w w') : Does who t claim w w'
  | after {t claim claim' w r w'} (heffect : Effect who t claim claim' w r)
      (h : Does who t claim' r w') : Does who t claim w w'

section

variable {client : Client σ} {who : Nat} {t : Topic} {claim : Option Access} {w w' : World σ}

namespace Does

theorem finish (result : Result) : Does who t none w (w.finish who result) := .settle (.finish _)

theorem rest {stage : Stage σ} (hidle : stage.IsIdle) : Does who t none w (w.setStage who stage) :=
  .settle (.rest hidle)

theorem enter {entry : Entry} (hnone : (Stage.entering entry : Stage σ).newcomer? = none)
    (htopic : (Stage.entering entry : Stage σ).isSelecting = true → t = .passes) :
    Does who t none w (w.enter who entry) :=
  .settle (.enter hnone htopic)

theorem leaveGate (h : Does who t none (w.leaveGate who) w') : Does who t claim w w' :=
  .after .leaveGate h

theorem cloud {cloud : σ} (h : Does who t none { w with cloud } w') : Does who t none w w' :=
  .after (.cloud cloud) h

end Does

/-! ## What the functions of the world do -/

theorem does_visit (h : Handle) (v : Visit) : Does who t none w (w.visit who h v) := by
  cases v with
  | bounds => exact .finish _
  | details => exact .finish _
  | errand e => cases e <;> exact .rest (.visiting rfl rfl h none)
  | needsRefresh => exact .rest (.visiting rfl rfl h none)

theorem does_endPass (report : Report) (after : AfterPass) :
    Does who t none w (w.endPass who report after) := by
  cases after with
  | reply => exact .finish _
  | loop l => exact .rest (.elsewhere rfl)

theorem does_startReloads (handles : List Handle) (after : AfterPass) :
    Does who t none w (w.startReloads who handles after) := by
  rw [startReloads]
  split
  · exact does_endPass _ after
  · refine .settle (.spawn _ fun stage hmem ↦ ?_)
    obtain ⟨h, -, rfl⟩ := List.mem_map.mp hmem
    exact .visiting rfl rfl h _

theorem does_selectNext (now : Nat) (stale : List Handle) (after : AfterPass)
    (rest : List Handle) :
    Does who .passes (some .shared) w (w.selectNext who now stale after rest) := by
  cases rest with
  | nil => exact .leaveGate (does_startReloads stale after)
  | cons h rest => exact .settle (.ask h now stale rest after)

theorem does_beginPass (after : AfterPass) :
    Does who .passes none w (w.beginPass who after) := by
  rw [beginPass]
  split
  · exact does_endPass _ after
  · exact .after .note (.enter rfl fun _ ↦ rfl)

theorem does_gather (results : List (Result × Nat)) (gathering : Gathering) :
    Does who t none w (w.gather who results gathering) := by
  cases gathering with
  | pass names after => exact does_endPass _ after
  | together => exact .finish _

theorem does_routeOn (h : Handle) (node : Node) (routing : Routing) (ending : Group.Ending) :
    Does who t none w (w.routeOn who h node routing ending) := by
  have hask : ∀ (q : Group.Query) (routing : Routing), Does who t none w (w.setStage who
      (.visiting h (.started (.query q)) none (.route node routing))) :=
    fun q routing ↦ .rest (.visiting rfl rfl h none)
  have hreload : Does who t none w (w.setStage who (w.boundedReload h (.route node .reload))) :=
    .rest (.visiting rfl rfl h _)
  cases routing with
  | member =>
    simp only [routeOn]
    split
    · exact .finish _
    · exact .finish _
    · exact hask _ _
  | age =>
    simp only [routeOn]
    split
    · split
      · exact .finish _
      · exact hreload
    · exact hreload
  | reload => exact hask _ _
  | memberAgain =>
    simp only [routeOn]
    split
    · exact .finish _
    · exact .finish _

theorem does_proceed (h : Handle) (ending : Group.Ending) (next : Next) :
    Does who next.topic next.gateClaim? w (w.proceed who h ending next) := by
  cases next with
  | reply => exact .finish _
  | template =>
    simp only [proceed]
    split
    · exact .after .count (.finish _)
    · exact .finish _
  | select now stale rest after =>
    simp only [proceed]
    split
    · exact does_selectNext now _ after rest
    · exact does_selectNext now _ after rest
  | route node routing => exact does_routeOn h node routing ending

theorem does_fulfil {entry : Entry} (hstage : w.stage? who = some (.entering entry)) :
    Does who entry.topic (some entry.access) w (w.fulfil who entry) := by
  cases entry with
  | register h =>
    rw [fulfil]
    split
    · next hregister => exact .after (.register hstage hregister) (.leaveGate (.finish _))
    · exact .leaveGate (.finish _)
  | groups => exact .leaveGate (.finish _)
  | get name => exact .leaveGate (.finish _)
  | visit name v =>
    rw [fulfil]
    split
    · next h _ => exact .leaveGate (does_visit h v)
    · exact .leaveGate (.finish _)
  | reload name =>
    rw [fulfil]
    split
    · next h _ => exact .leaveGate (.rest (.visiting rfl rfl h _))
    · exact .leaveGate (.finish _)
  | route node id =>
    rw [fulfil]
    split
    · next h _ => exact .leaveGate (.rest (.visiting rfl rfl h none))
    · exact .leaveGate (.finish _)
  | select now after => exact does_selectNext now [] after _
  | selectAll after => exact .leaveGate (does_startReloads _ after)

theorem does_begin (request : Request σ) :
    Does who request.topic none w (w.begin client who request) := by
  cases request with
  | intervene f => exact .cloud (.finish _)
  | remote resourceGroup name call =>
    rw [begin]
    split
    · exact .finish _
    · exact .cloud (.rest (.elsewhere rfl))
  | advance ms => exact .after (.elapse ms) (.rest (.elsewhere rfl))
  | create key group =>
    cases group with
    | error e => exact .finish _
    | ok group => exact .after (.hold key group) (.finish _)
  | visit address v =>
    cases address with
    | held key =>
      rw [begin]
      split
      · next h _ => exact does_visit h v
      · exact .finish _
    | registered name => exact .enter rfl nofun
  | register group =>
    cases group with
    | error e => exact .finish _
    | ok group => exact .settle (.enterNew group)
  | registerHeld key =>
    rw [begin]
    split
    · next hheld => exact .settle (.enterHeld hheld)
    · exact .finish _
  | groups => exact .enter rfl nofun
  | get name => exact .enter rfl nofun
  | route node =>
    rw [begin]
    split
    · exact .enter rfl nofun
    · exact .finish _
  | refresh => exact does_beginPass .reply
  | reloadAll => exact .after .note (.enter rfl nofun)
  | reloadGroup name => exact .enter rfl nofun
  | loop interval duration => exact .rest (.elsewhere rfl)
  | together requests =>
    refine .settle (.spawn _ fun stage hmem ↦ ?_)
    obtain ⟨r, -, rfl⟩ := List.mem_map.mp hmem
    exact .elsewhere rfl

theorem does_finishRemote (resourceGroup name : String) (p : Pending) (call : RemoteCall) :
    Does who t none w (w.finishRemote client who resourceGroup name p call) := by
  have htell : ∀ {α : Type} (answer : Except CloudError α) (reply : α → Reply),
      Does who t none w (finishRemote.tell who w answer reply) := by
    intro α answer reply
    cases answer <;> exact .finish _
  have hchange : ∀ answer : Except CloudError σ,
      Does who t none w (finishRemote.change who w answer) := by
    intro answer
    cases answer with
    | error e => exact .finish _
    | ok cloud => exact .cloud (.finish _)
  cases call with
  | describe => exact htell _ _
  | list => exact htell _ _
  | setCapacity n => exact hchange _
  | delete ids => exact hchange _

end

/-! ## Steps -/

/-- How a task can go on from a stage. -/
inductive Goes (client : Client σ) (who : Nat) (w : World σ) : Stage σ → World σ → Prop
  | does {stage w'} (hout : stage.isVisiting = false)
      (h : Does who stage.topic stage.gateClaim? w w') : Goes client who w stage w'
  /-- The activity of a group has ended. -/
  | ends (h : Handle) (ending : Group.Ending) (d : Option Deadline) (next : Next) :
      Goes client who w (.visiting h (.ended ending) d next) (w.proceed who h ending next)
  /-- The activity of a group goes on. -/
  | carries {h a d next cell scene} (hcell : w.cells[h.place]? = some cell)
      (hscene : Group.Scene.step client h.group who w.clock w.steps ⟨a, cell, w.cloud⟩
        = some scene) :
      Goes client who w (.visiting h a d next) (w.carryOn who h scene d next)
  /-- The activity of a group waits, and its time limit is set. -/
  | limits {h a d next cell} (hcell : w.cells[h.place]? = some cell)
      (hwaits : Group.Scene.step client h.group who w.clock w.steps ⟨a, cell, w.cloud⟩ = none)
      (hunset : d.timer = none) :
      Goes client who w (.visiting h a (some d) next)
        (w.setStage who (.visiting h a (some { d with timer := w.timer d.limit.ms }) next))
  /-- The activity of a group waits, and is given up as its time limit is over. -/
  | givesUp {h a d next cell timer} (hcell : w.cells[h.place]? = some cell)
      (hwaits : Group.Scene.step client h.group who w.clock w.steps ⟨a, cell, w.cloud⟩ = none)
      (htimer : d.timer = some timer) (hpast : w.clock.isPast timer = true) :
      Goes client who w (.visiting h a (some d) next)
        ((w.setCell h.place (cell.withdraw who)).proceed who h
          (.answered (.error (.timedOut h.group.name d.limit))) next)

def beginRound (who : Nat) (l : Loop) (w : World σ) : World σ :=
  let next := w.beginPass who (.loop l)
  { next with steps := next.steps + 1 }

/-- A task goes on. -/
inductive Steps (client : Client σ) (who : Nat) (w : World σ) : World σ → Prop
  | step {w'} (hstep : w.step client who = some w') : Steps client who w w'
  /-- A refresh loop that has rested begins a pass, whether or not its shutdown has come. -/
  | round {l next} (hturn : who ∉ w.deferred) (hstage : w.stage? who = some (.idling l next))
      (hpast : w.clock.isPast next = true) : Steps client who w (w.beginRound who l)

variable {client : Client σ} {who : Nat} {w w' : World σ}

theorem Goes.of_stepActivity {h : Handle} {a : Group.Activity} {d : Option Deadline} {next : Next}
    (hstep : w.stepActivity client who h a d next = some w') :
    Goes client who w (.visiting h a d next) w' := by
  by_cases hended : ∃ ending, a = .ended ending
  · obtain ⟨ending, rfl⟩ := hended
    obtain rfl := Option.some.inj hstep
    exact .ends h ending d next
  obtain ⟨cell, hcell, ⟨scene, hscene, rfl⟩ | ⟨d, rfl, hwaits, hexpire⟩⟩ :=
    stepActivity_cases hstep fun ending heq ↦ hended ⟨ending, heq⟩
  · exact .carries hcell hscene
  · obtain ⟨hunset, rfl⟩ | ⟨timer, htimer, hpast, rfl⟩ := expire_cases hcell hexpire
    · exact .limits hcell hwaits hunset
    · exact .givesUp hcell hwaits htimer hpast

theorem Goes.of_stepTask {stage : Stage σ} (hstage : w.stage? who = some stage)
    (hstep : w.stepTask client who stage = some w') : Goes client who w stage w' := by
  cases stage with
  | launching after request =>
    obtain rfl := Option.some.inj hstep
    cases after with
    | none => exact .does rfl (does_begin request)
    | some ms => exact .does rfl (.rest (.elsewhere rfl))
  | pausing timer request =>
    obtain ⟨-, hstep⟩ := Option.ite_none_right_eq_some.mp hstep
    obtain rfl := Option.some.inj hstep
    exact .does rfl (does_begin request)
  | advancing =>
    obtain rfl := Option.some.inj hstep
    exact .does rfl (.finish _)
  | remote resourceGroup name call p =>
    obtain ⟨-, hstep⟩ := Option.ite_none_right_eq_some.mp hstep
    obtain rfl := Option.some.inj hstep
    exact .does rfl (does_finishRemote resourceGroup name p call)
  | entering entry =>
    obtain ⟨-, hstep⟩ := Option.ite_none_right_eq_some.mp hstep
    obtain rfl := Option.some.inj hstep
    exact .does rfl (does_fulfil hstage)
  | visiting h a d next => exact .of_stepActivity hstep
  | gathering children gathering =>
    obtain ⟨results, -, rfl⟩ := Option.map_eq_some_iff.mp hstep
    exact .does rfl (does_gather results gathering)
  | idling l next =>
    rw [stepTask] at hstep
    split at hstep
    · obtain rfl := Option.some.inj hstep
      exact .does rfl (.finish _)
    · obtain ⟨-, hstep⟩ := Option.ite_none_right_eq_some.mp hstep
      obtain rfl := Option.some.inj hstep
      exact .does rfl (does_beginPass (.loop l))
  | finished result moment => cases hstep

/-- Whoever goes on does so from where he waits. -/
theorem Steps.goes (h : w.Steps client who w') :
    ∃ stage next, w.stage? who = some stage ∧ Goes client who w stage next
      ∧ w' = { next with steps := next.steps + 1 } := by
  cases h with
  | step hstep =>
    obtain ⟨stage, next, hstage, hnext, rfl⟩ := step_cases hstep
    exact ⟨stage, next, hstage, .of_stepTask hstage hnext, rfl⟩
  | @round l next hturn hstage hpast =>
    exact ⟨_, _, hstage, .does rfl (does_beginPass (.loop l)), rfl⟩

/-- Only a refresh loop has a choice. -/
theorem Steps.step_of_not_idling {stage : Stage σ} (h : w.Steps client who w')
    (hstage : w.stage? who = some stage) (hidling : ∀ l next, stage ≠ .idling l next) :
    w.step client who = some w' := by
  cases h with
  | step hstep => exact hstep
  | round hturn hstage' hpast =>
    exact absurd (Option.some.inj (hstage.symm.trans hstage')) (hidling _ _)

end World

end NodeGroups.Simulation
