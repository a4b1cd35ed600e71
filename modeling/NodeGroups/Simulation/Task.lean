import NodeGroups.Registry.Basic
import NodeGroups.Simulation.Request

/-!
# Tasks

A request on its way through the world. A task is what it waits for, together with what it does
next; for a task that waits for a group, what it does next is kept beside the group's activity.
-/

namespace NodeGroups.Simulation

/-- The time limit of a group's activity. Its timer is set when the activity first waits, so the
time until then does not count. -/
structure Deadline where
  limit : Duration
  timer : Option Timer

/-- A refresh loop: how long it waits between passes, and when it has to stop. -/
structure Loop where
  interval : Nat
  stop : Timer

/-- What happens after a refresh pass. -/
inductive AfterPass
  | reply
  | loop (l : Loop)

/-- How far the search for a node's group is, once the group that its ID names is known. -/
inductive Routing
  /-- Asking whether the view has the node. -/
  | member
  /-- It does not; asking how old the view is. -/
  | age
  /-- It is old enough to get a new one. -/
  | reload
  /-- Asking whether the new view has the node. -/
  | memberAgain

/-- What a task does after an activity of a group. -/
inductive Next
  | reply
  /-- Make a template from the description. -/
  | template
  /-- Go on to the next group in the selection of those that need a refresh at `now`. The registry
  stays locked meanwhile. -/
  | select (now : Nat) (stale rest : List Handle) (after : AfterPass)
  | route (node : Node) (routing : Routing)

/-- What a task needs the registry for. -/
inductive Entry
  | register (h : Handle)
  | groups
  | get (name : String)
  | visit (name : String) (v : Visit)
  | reload (name : String)
  | route (node : Node) (id : ProviderId)
  | select (now : Nat) (after : AfterPass)
  | selectAll (after : AfterPass)

/-- How the registry is locked. -/
def Entry.access : Entry → Access
  | register _ => .exclusive
  | _ => .shared

/-- What a task does with the results of the tasks that it started. -/
inductive Gathering
  /-- Report on the groups with these names. -/
  | pass (names : List String) (after : AfterPass)
  | together

/-- What a task waits for. -/
inductive Stage (σ : Type)
  /-- It has not started yet, and shall make its request at its start or some time from it. -/
  | launching (after : Option Nat) (request : Request σ)
  | pausing (timer : Timer) (request : Request σ)
  /-- It has let time pass, and waits for the clock to ring. -/
  | advancing
  | remote (resourceGroup name : String) (call : RemoteCall) (pending : Pending)
  /-- In the queue for the registry, or admitted just now. -/
  | entering (entry : Entry)
  | visiting (h : Handle) (activity : Group.Activity) (deadline : Option Deadline) (next : Next)
  | gathering (children : List Nat) (gathering : Gathering)
  /-- In a refresh loop, between passes. -/
  | idling (l : Loop) (next : Timer)
  | finished (result : Result) (moment : Nat)

/-- A request on its way. -/
structure Task (σ : Type) where
  stage : Stage σ
  /-- The task that waits for the result. -/
  parent : Option Nat

/-- The timers that a task waits for. -/
def Stage.timers {σ : Type} : Stage σ → List Timer
  | pausing t _ => [t]
  | remote _ _ _ p => p.timer?.toList
  | visiting _ a d _ => a.timer?.toList ++ (d.bind Deadline.timer).toList
  | idling l next => [next, l.stop]
  | _ => []

/-- Whether the next step of a task is to ask for the lock of a group. -/
def Stage.asks {σ : Type} : Stage σ → Bool
  | visiting _ (.started errand) _ _ =>
    match errand with
    | .query _ | .mutate _ | .describe => true
    | .reload => false
  | _ => false

/-- How much the next step of a task takes from the allowance of its turn: one if it ends a wait
for a lock or for a timer. A refresh pass pays for one lock more, that of the note about the last
pass. It is given back at once, so nobody ever waits for it and there is no stage for it. -/
def Stage.price {σ : Type} : Stage σ → Nat
  | pausing .. | idling .. => 1
  | remote _ _ _ p => p.timer?.toList.length
  | entering (.select ..) | entering (.selectAll _) => 2
  | entering _ => 1
  | visiting _ (.queued _) _ _ => 1
  | visiting _ a _ _ => a.timer?.toList.length
  | _ => 0

/-- The result of a task that is finished, and the moment at which it came. -/
def Task.result? {σ : Type} (t : Task σ) : Option (Result × Nat) :=
  match t.stage with
  | .finished result moment => some (result, moment)
  | _ => none

end NodeGroups.Simulation
