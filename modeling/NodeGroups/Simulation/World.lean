import NodeGroups.Simulation.Task
import NodeGroups.Template.Synthesis

/-!
# A simulated world of groups

A cloud, the groups with their states, the registry, a clock, and the tasks that are under way.
`World.step` lets one task go on until it has to wait again. Any order of steps is a run of the
world; `Simulation.Run` takes the tasks in the order in which they were woken. For its sake the
world notes who was woken: those that a lock admits, those whose timers went off, and those whose
children are finished. It also notes who waits for nothing but the ring of the clock, and how long
the turns have been.
-/

namespace NodeGroups.Simulation

/-- Everything there is at a moment. -/
structure World (σ : Type) where
  cloud : σ
  /-- The states of groups and their locks. -/
  cells : List Group.Cell
  registry : Registry
  /-- The lock of the registry. -/
  gate : Lock
  /-- Groups that are not registered. -/
  held : Dict Handle
  /-- The number of templates so far, modulo `2 ^ 64`. -/
  templates : UInt64
  clock : Clock
  /-- The number of steps so far, which numbers timers. -/
  steps : Nat
  tasks : List (Task σ)
  /-- Those who were woken and have not had their turn, in order. -/
  woken : List Nat
  /-- Those who go on when the clock has rung, the last to wait for it first. -/
  deferred : List Nat
  /-- How many turns there were since the clock rang. -/
  turns : Nat
  /-- How much the task whose turn it is has taken from its allowance. -/
  taken : Nat

namespace World

variable {σ : Type}

/-- A world at its beginning. The groups of the registry have their states at the first places. -/
def initial (cloud : σ) (registry : Registry) : World σ where
  cloud := cloud
  cells := registry.handles.map fun _ ↦ .initial
  registry := registry
  gate := .free
  held := .empty
  templates := 0
  clock := .start
  steps := 0
  tasks := []
  woken := []
  deferred := []
  turns := 0
  taken := 0

/-! ## Changes -/

/-- Wakes tasks that are not awake. -/
def wake (whos : List Nat) (w : World σ) : World σ :=
  { w with woken := whos.foldl (fun woken who ↦
      if who ∈ woken then woken else woken ++ [who]) w.woken }

/-- A task goes on to wait for something else. -/
def setStage (who : Nat) (stage : Stage σ) (w : World σ) : World σ :=
  { w with tasks := w.tasks.modify who fun t ↦ { t with stage } }

/-- A task is finished, and its parent is woken. -/
def finish (who : Nat) (result : Result) (w : World σ) : World σ :=
  let parent := w.tasks[who]?.bind Task.parent
  (w.setStage who (.finished result w.clock.now)).wake parent.toList

/-- The timer of a task that waits for a number of milliseconds. -/
def timer (ms : Nat) (w : World σ) : Timer := w.clock.timer ms w.steps

def setCell (place : Nat) (cell : Group.Cell) (w : World σ) : World σ :=
  let before := (w.cells[place]?.map Group.Cell.lock).getD .free
  { w with cells := w.cells.set place cell }.wake (before.admitted cell.lock)

def setGate (gate : Lock) (w : World σ) : World σ :=
  { w with gate }.wake (w.gate.admitted gate)

/-- A task gives back the lock of the registry. -/
def leaveGate (who : Nat) (w : World σ) : World σ := w.setGate (w.gate.leave who)

/-- A task joins the queue for the registry. -/
def enter (who : Nat) (entry : Entry) (w : World σ) : World σ :=
  (w.setStage who (.entering entry)).setGate (w.gate.request who entry.access)

/-- A task starts others and waits for them. -/
def spawn (who : Nat) (stages : List (Stage σ)) (gathering : Gathering) (w : World σ) :
    World σ :=
  let children := List.range' w.tasks.length stages.length
  ({ w with tasks := w.tasks ++ stages.map fun stage ↦ Task.mk stage (some who) }.setStage who
    (.gathering children gathering)).wake children

def addGroup (group : Group) (w : World σ) : Handle × World σ :=
  (⟨group, w.cells.length⟩, { w with cells := w.cells ++ [.initial] })

/-! ## Time -/

/-- Time passes, and no timer goes off yet. -/
def pass (ms : Nat) (w : World σ) : World σ := { w with clock := w.clock.pass ms }

/-- A task does not go on before the clock rings. -/
def defer (who : Nat) (w : World σ) : World σ := { w with deferred := who :: w.deferred }

/-- The clock rings. The tasks whose timers go off are woken in the order of the timers, and after
them those who waited for nothing else. -/
def ring (w : World σ) : World σ :=
  let timers := w.tasks.zipIdx.flatMap fun t ↦ t.1.stage.timers.map fun timer ↦ (timer, t.2)
  let due := (timers.filter fun t ↦ w.clock.isDue t.1).mergeSort fun a b ↦ a.1.notAfter b.1
  { w with clock := w.clock.ring, deferred := [], turns := 0 }.wake
    (due.map Prod.snd ++ w.deferred)

/-! ## Visits to groups -/

/-- A task asks something of a group. -/
def visit (who : Nat) (h : Handle) (v : Visit) (w : World σ) : World σ :=
  match v with
  | .bounds => w.finish who (.ok (.bounds h.group))
  | .details => w.finish who (.ok (.details h.group))
  | .errand .describe => w.setStage who (.visiting h (.started .describe) none .template)
  | .errand e => w.setStage who (.visiting h (.started e) none .reply)
  | .needsRefresh =>
    w.setStage who (.visiting h (.started (.query (.needsRefresh w.clock.now))) none .reply)

/-- A reload of a group with the registry's time limit. -/
def boundedReload (h : Handle) (next : Next) (w : World σ) : Stage σ :=
  .visiting h (.started .reload) (some ⟨w.registry.groupTimeout, none⟩) next

/-- The answer that a group's activity gives to a request. -/
def replyOf : Group.Finding → Reply
  | .nothing => .nothing
  | .size n => .size n
  | .flag b => .flag b
  | .members ms => .members ms
  | .instant t => .instant t
  | .text s => .text s
  | .scaleSet s => .scaleSet s

def resultOf : Group.Ending → Result
  | .answered (.ok finding) => .ok (replyOf finding)
  | .answered (.error e) => .error (.group e)
  | .broke => .error (.group .brokeDown)

/-! ## Refresh passes -/

/-- A task is done with a refresh pass. -/
def endPass (who : Nat) (report : Report) (w : World σ) : AfterPass → World σ
  | .reply => w.finish who (.ok (.report report))
  | .loop l => w.setStage who (.idling l (w.timer l.interval))

/-- A task starts the reloads of a pass. -/
def startReloads (who : Nat) (handles : List Handle) (after : AfterPass) (w : World σ) :
    World σ :=
  if handles.isEmpty then w.endPass who .empty after
  else
    w.spawn who (handles.map fun h ↦ w.boundedReload h .reply)
      (.pass (handles.map fun h ↦ h.group.name) after)

/-- A task asks the next group whether it needs a refresh. When there is none left, it gives back
the registry and starts the reloads. -/
def selectNext (who : Nat) (now : Nat) (stale : List Handle) (after : AfterPass)
    (w : World σ) : List Handle → World σ
  | [] => (w.leaveGate who).startReloads who stale after
  | h :: rest =>
    w.setStage who (.visiting h (.started (.query (.needsRefresh now))) none
      (.select now stale rest after))

/-- A task begins a refresh pass, unless it is too soon after the last one. -/
def beginPass (who : Nat) (after : AfterPass) (w : World σ) : World σ :=
  if w.registry.tooSoon w.clock.now then w.endPass who .dropped after
  else
    { w with registry := { w.registry with lastPass := some w.clock.now } }.enter who
      (.select w.clock.now after)

def reloadResult : Result → Except GroupError Unit
  | .ok _ => .ok ()
  | .error (.group e) => .error e
  | .error (.cloud e) => .error (.cloud e)
  | .error .noGroup => .error .brokeDown

/-- A task has the results of the tasks that it started. -/
def gather (who : Nat) (results : List (Result × Nat)) (w : World σ) : Gathering → World σ
  | .pass names after =>
    w.endPass who (.ofResults (names.zip (results.map fun r ↦ reloadResult r.1))) after
  | .together => w.finish who (.ok (.together results))

/-! ## The search for a node's group -/

/-- Whether the view of a group has a node; a group without a view has none. -/
def isMember : Group.Ending → Except GroupError Bool
  | .answered (.ok (.flag b)) => .ok b
  | .answered (.error e) => if e.kind = .stateNotReady then .ok false else .error e
  | _ => .ok false

/-- A task that searches for a node's group goes on after an activity of the group. -/
def routeOn (who : Nat) (h : Handle) (node : Node) (routing : Routing)
    (ending : Group.Ending) (w : World σ) : World σ :=
  let ask (q : Group.Query) (routing : Routing) : World σ :=
    w.setStage who (.visiting h (.started (.query q)) none (.route node routing))
  let found (b : Bool) : World σ :=
    w.finish who (.ok (.maybeName (if b then some h.group.name else none)))
  match routing with
  | .member =>
    match isMember ending with
    | .error e => w.finish who (.error (.group e))
    | .ok true => found true
    | .ok false => ask .lastRefresh .age
  | .age =>
    match ending with
    | .answered (.ok (.instant (some last))) =>
      if w.clock.now - last < w.registry.minInterval.ms then found false
      else w.setStage who (w.boundedReload h (.route node .reload))
    | _ => w.setStage who (w.boundedReload h (.route node .reload))
  | .reload => ask (.belongs node) .memberAgain
  | .memberAgain =>
    match isMember ending with
    | .error e => w.finish who (.error (.group e))
    | .ok b => found b

/-! ## Steps -/

/-- A task goes on after an activity of a group. -/
def proceed (who : Nat) (h : Handle) (ending : Group.Ending) (w : World σ) :
    Next → World σ
  | .reply => w.finish who (resultOf ending)
  | .template =>
    match ending with
    | .answered (.ok (.scaleSet s)) =>
      { w with templates := w.templates + 1 }.finish who
        (.ok (.template (Template.synthesize w.templates h.group.name s)))
    | ending => w.finish who (resultOf ending)
  | .select now stale rest after =>
    match ending with
    | .answered (.ok (.flag true)) => w.selectNext who now (stale ++ [h]) after rest
    | _ => w.selectNext who now stale after rest
  | .route node routing => w.routeOn who h node routing ending

/-- A task has the registry. -/
def fulfil (who : Nat) (w : World σ) : Entry → World σ
  | .register h =>
    match w.registry.register? h with
    | some registry => { w with registry }.leaveGate who |>.finish who (.ok (.flag true))
    | none => w.leaveGate who |>.finish who (.ok (.flag false))
  | .groups =>
    w.leaveGate who |>.finish who
      (.ok (.names (w.registry.handles.map fun h ↦ h.group.summary)))
  | .get name =>
    w.leaveGate who |>.finish who
      (.ok (.maybeName ((w.registry.find? name).map fun h ↦ h.group.name)))
  | .visit name v =>
    match w.registry.find? name with
    | some h => w.leaveGate who |>.visit who h v
    | none => w.leaveGate who |>.finish who (.error .noGroup)
  | .reload name =>
    match w.registry.find? name with
    | some h => w.leaveGate who |>.setStage who (w.boundedReload h .reply)
    | none => w.leaveGate who |>.finish who (.error (.group (.unregistered name)))
  | .route node id =>
    match w.registry.named? id with
    | some h =>
      w.leaveGate who |>.setStage who
        (.visiting h (.started (.query (.belongs node))) none (.route node .member))
    | none => w.leaveGate who |>.finish who (.ok (.maybeName none))
  | .select now after => w.selectNext who now [] after w.registry.handles
  | .selectAll after => w.leaveGate who |>.startReloads who w.registry.handles after

/-- A task makes its request. -/
def begin (client : Client σ) (who : Nat) (w : World σ) : Request σ → World σ
  | .intervene f =>
    let (reply, cloud) := f w.cloud
    { w with cloud }.finish who (.ok reply)
  | .remote resourceGroup name call =>
    match client.submit call.call resourceGroup name w.cloud with
    | none => w.finish who (.error (.group .brokeDown))
    | some (receipt, cloud) =>
      { w with cloud }.setStage who
        (.remote resourceGroup name call (.ofReceipt receipt w.clock w.steps))
  | .advance ms => ((w.pass ms).defer who).setStage who .advancing
  | .create _ (.error e) => w.finish who (.error (.group e))
  | .create key (.ok group) =>
    let (h, w) := w.addGroup group
    { w with held := w.held.insert key h }.finish who (.ok .nothing)
  | .visit (.held key) v =>
    match w.held.get? key with
    | some h => w.visit who h v
    | none => w.finish who (.error .noGroup)
  | .visit (.registered name) v => w.enter who (.visit name v)
  | .register (.error e) => w.finish who (.error (.group e))
  | .register (.ok group) =>
    let (h, w) := w.addGroup group
    w.enter who (.register h)
  | .registerHeld key =>
    match w.held.get? key with
    | some h => { w with held := w.held.erase key }.enter who (.register h)
    | none => w.finish who (.error .noGroup)
  | .groups => w.enter who .groups
  | .get name => w.enter who (.get name)
  | .route node =>
    match ProviderId.parse node.providerId with
    | .ok id => w.enter who (.route node id)
    | .error e => w.finish who (.error (.group e))
  | .refresh => w.beginPass who .reply
  | .reloadAll =>
    { w with registry := { w.registry with lastPass := some w.clock.now } }.enter who
      (.selectAll .reply)
  | .reloadGroup name => w.enter who (.reload name)
  | .loop interval duration =>
    w.setStage who (.idling ⟨interval, w.timer duration⟩ (w.timer interval))
  | .together requests =>
    w.spawn who (requests.map fun r ↦ .launching r.1 r.2) .together

/-- The direct call of a task is over. -/
def finishRemote (client : Client σ) (who : Nat) (resourceGroup name : String)
    (p : Pending) (w : World σ) : RemoteCall → World σ
  | .describe => tell (p.outcome (client.describe resourceGroup name w.cloud)) .scaleSet
  | .list => tell (p.outcome (client.list resourceGroup name w.cloud)) .machines
  | .setCapacity n => change (p.outcome (client.setCapacity resourceGroup name n w.cloud))
  | .delete ids => change (p.outcome (client.delete resourceGroup name ids w.cloud))
where
  /-- The task finishes with what the cloud told. -/
  tell {α : Type} (answer : Except CloudError α) (reply : α → Reply) : World σ :=
    match answer with
    | .ok a => w.finish who (.ok (reply a))
    | .error e => w.finish who (.error (.cloud e))
  /-- The task finishes after a change of the cloud. -/
  change (answer : Except CloudError σ) : World σ :=
    match answer with
    | .ok cloud => { w with cloud }.finish who (.ok .nothing)
    | .error e => w.finish who (.error (.cloud e))

/-- The activity of a task waits. A time limit that was not set is set now; one that is over ends
the activity. -/
def expire (who : Nat) (h : Handle) (activity : Group.Activity) (d : Deadline) (next : Next)
    (w : World σ) : Option (World σ) :=
  match d.timer with
  | none =>
    some (w.setStage who (.visiting h activity (some { d with timer := w.timer d.limit.ms }) next))
  | some timer =>
    if w.clock.isPast timer then
      w.cells[h.place]?.map fun cell ↦
        (w.setCell h.place (cell.withdraw who)).proceed who h
          (.answered (.error (.timedOut h.group.name d.limit))) next
    else none

/-- The activity of a task goes on, if it does not wait. -/
def stepActivity (client : Client σ) (who : Nat) (h : Handle) (activity : Group.Activity)
    (deadline : Option Deadline) (next : Next) (w : World σ) : Option (World σ) :=
  match activity with
  | .ended ending => some (w.proceed who h ending next)
  | activity =>
    w.cells[h.place]?.bind fun cell ↦
      match Group.Scene.step client h.group who w.clock w.steps ⟨activity, cell, w.cloud⟩ with
      | some scene =>
        some (({ w with cloud := scene.cloud }.setCell h.place scene.cell).setStage who
          (.visiting h scene.activity deadline next))
      | none => deadline.bind fun d ↦ w.expire who h activity d next

/-- A task goes on, if it does not wait. -/
def stepTask (client : Client σ) (who : Nat) (w : World σ) : Stage σ → Option (World σ)
  | .launching after request =>
    some (match after with
      | none => w.begin client who request
      | some ms => w.setStage who (.pausing (w.timer (min ms Clock.longestDelay)) request))
  | .pausing timer request =>
    if w.clock.isPast timer then some (w.begin client who request) else none
  | .advancing => some (w.finish who (.ok .nothing))
  | .remote resourceGroup name call p =>
    if p.isOver w.clock then some (w.finishRemote client who resourceGroup name p call) else none
  | .entering entry => if w.gate.isHeldBy who then some (w.fulfil who entry) else none
  | .visiting h activity deadline next => w.stepActivity client who h activity deadline next
  | .gathering children gathering =>
    (children.mapM fun child ↦ w.tasks[child]?.bind Task.result?).map fun results ↦
      w.gather who results gathering
  | .idling l next =>
    if w.clock.isPast l.stop then some (w.finish who (.ok (.instant (some w.clock.now))))
    else if w.clock.isPast next then some (w.beginPass who (.loop l))
    else none
  | .finished .. => none

/-- A step of the world: one task goes on. There is none if the task waits, be it only for the
clock to ring. -/
def step (client : Client σ) (who : Nat) (w : World σ) : Option (World σ) :=
  if who ∈ w.deferred then none
  else do
    let task ← w.tasks[who]?
    let w ← w.stepTask client who task.stage
    pure { w with steps := w.steps + 1 }

end World

end NodeGroups.Simulation
