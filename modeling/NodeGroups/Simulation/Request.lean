import NodeGroups.Group.Activity
import NodeGroups.Registry.Report
import NodeGroups.Template.Basic

/-!
# Requests

What can be asked of a simulated world of groups, and the answers. The type `σ` is that of the
cloud's conditions: besides what groups and clients do to it, a request may change the cloud in any
way.
-/

namespace NodeGroups.Simulation

/-- Why a request fails. -/
inductive Failure
  | group (e : GroupError)
  | cloud (e : CloudError)
  /-- The request is for a group that does not exist. -/
  | noGroup

/-- The answer to a request. -/
inductive Reply
  | nothing
  | flag (value : Bool)
  | size (n : UInt32)
  | maybeSize (n : Option UInt32)
  | instant (value : Option Nat)
  | text (value : String)
  | maybeName (name : Option String)
  | names (names : List String)
  | bounds (g : Group)
  | details (g : Group)
  | members (members : List Member)
  | scaleSet (s : ScaleSet)
  | machine (i : Instance)
  | machines (instances : List Instance)
  | template (t : NodeTemplate)
  | report (r : Report)
  | deletions (requests : List (List String))
  /-- Results of requests that were made together, with the moments at which they came. -/
  | together (results : List (Except Failure Reply × Nat))
  deriving Inhabited

/-- An answer, or why there is none. -/
abbrev Result := Except Failure Reply

/-- How a group is addressed. -/
inductive Address
  /-- A group that is not registered, by the key under which it is held. -/
  | held (key : String)
  /-- A registered group, by its name. -/
  | registered (name : String)

/-- What can be asked of one group. -/
inductive Visit
  | bounds
  | details
  | errand (e : Group.Errand)
  /-- Whether the group needs a refresh now. -/
  | needsRefresh

/-- What can be asked of the cloud directly, for a scale set. -/
inductive RemoteCall
  | describe
  | list
  | setCapacity (n : UInt32)
  | delete (ids : List String)

def RemoteCall.call : RemoteCall → Call
  | describe => .describe
  | list => .list
  | setCapacity _ => .setCapacity
  | delete _ => .delete

/-- What can be asked. -/
inductive Request (σ : Type)
  /-- Look at the cloud or change it, as no client could. -/
  | intervene (f : σ → Reply × σ)
  | remote (resourceGroup name : String) (call : RemoteCall)
  /-- Let time pass. Whoever is about to go on does so before the timers go off. -/
  | advance (ms : Nat)
  /-- Hold a new group under a key. -/
  | create (key : String) (group : Except GroupError Group)
  | visit (address : Address) (v : Visit)
  | register (group : Except GroupError Group)
  /-- Register a group that is held, which is then held no more. -/
  | registerHeld (key : String)
  | groups
  | get (name : String)
  /-- Find the group that a node belongs to. -/
  | route (node : Node)
  /-- Get new views of the groups that need one. -/
  | refresh
  /-- Get new views of all groups. -/
  | reloadAll
  | reloadGroup (name : String)
  /-- Refresh at intervals, until a shutdown some time from now. -/
  | loop (interval duration : Nat)
  /-- Make requests together, at once or each after a delay. -/
  | together (requests : List (Option Nat × Request σ))

/-- Refresh at intervals, until a shutdown that is set with a delay. -/
def Request.run {σ : Type} (interval delay : Nat) : Request σ :=
  .loop interval (min delay Clock.longestDelay)

end NodeGroups.Simulation
