import NodeGroups.Simulation.World

/-!
# Runs of the world

The fair order of steps: the task that was woken first has its turn and goes on until it waits.
When all tasks wait, the clock rings; before that it moves on to the next timer, unless a task
waits for nothing but the ring. A request is made to a world in which nothing is under way, and
its answer is there when nothing is under way again.

No task keeps the others from having their turns, or the timers from going off. A turn has an
allowance for locks and timers; when it is used up, the turn is over as soon as the task would ask
for the lock of a group, and the task goes on after the next ring. The clock also rings after a
number of turns, even if there are others to come. Neither takes any time.
-/

namespace NodeGroups.Simulation.World

variable {σ : Type}

/-- How many locks and timers a task may wait for in one turn. -/
def allowance : Nat := 128

/-- The greatest number of turns between two rings of the clock. -/
def turnsPerRing : Nat := 61

/-- How long it is until the next timer goes off. -/
def nextTimer? (w : World σ) : Option Nat :=
  let timers := w.tasks.flatMap fun t ↦ t.stage.timers
  (timers.filterMap fun t ↦
    if w.clock.isPast t then none else some (t.due - w.clock.now)).min?

/-- Whether the turn of a task in a stage is over although it could go on. -/
def isExhausted (stage : Stage σ) (w : World σ) : Bool := stage.asks && allowance ≤ w.taken

/-- The turn of a task is over. The turns of the first task do not count: it only starts the
others and waits for them. -/
def endTurn (who : Nat) (others : List Nat) (w : World σ) : World σ :=
  let turns := if who = 0 then w.turns else w.turns + 1
  let w := { w with woken := others, turns, taken := 0 }
  if turns < turnsPerRing then w else w.ring

/-- A move in the turn of a task: a step, or the end of the turn. -/
def moveTurn (client : Client σ) (who : Nat) (others : List Nat) (w : World σ) : World σ :=
  match w.tasks[who]?, w.step client who with
  | some task, some next =>
    if w.isExhausted task.stage then w.defer who
    else { next with taken := w.taken + task.stage.price }
  | _, _ => w.endTurn who others

/-- One move in the fair order, if there is anything left to do. -/
def move (client : Client σ) (w : World σ) : Option (World σ) :=
  match w.woken with
  | who :: others => some (w.moveTurn client who others)
  | [] =>
    if w.deferred.isEmpty then w.nextTimer?.map fun ms ↦ (w.pass ms).ring
    else some w.ring

/-- At most `limit` moves in the fair order. -/
def run (client : Client σ) : (limit : Nat) → World σ → World σ
  | 0, w => w
  | limit + 1, w =>
    match w.move client with
    | some w => run client limit w
    | none => w

/-- The greatest number of moves that one request may take. -/
def moveLimit : Nat := 1000000000

/-- Makes a request. There is no result if it takes too many moves, or if it waits for something
that does not come. -/
def perform (client : Client σ) (request : Request σ) (w : World σ) : Option Result × World σ :=
  let w := run client moveLimit
    { w with tasks := [⟨.launching none request, none⟩], woken := [0] }
  let result := (w.tasks[0]?.bind Task.result?).map Prod.fst
  (result, { w with tasks := [], woken := [], deferred := [], turns := 0, taken := 0 })

/-- The target sizes of all groups: those that are held, by key, and those that are registered, by
name and in order. -/
def sizes (w : World σ) : List (String × Option UInt32) :=
  let size (h : Handle) : Option UInt32 :=
    w.cells[h.place]?.bind fun cell ↦ cell.state.view.map Group.View.target
  (w.held.entries.map fun e ↦ (e.1, size e.2))
  ++ w.registry.handles.map fun h ↦ (h.group.name, size h)

end NodeGroups.Simulation.World
