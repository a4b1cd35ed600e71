import NodeGroups.Cloud.Client
import NodeGroups.Clock

/-!
# Calls under way

Between the moment at which a call is sent and the moment at which it is answered, all that is
known of it is when it will be answered and whether it is bound to fail. A call that takes no time
can be answered at once; one that takes zero milliseconds has a timer like any other. Whoever waits
for a call that is never answered has no timer to wait for.
-/

namespace NodeGroups

/-- What the answer to a call waits for. -/
inductive Wait
  | nothing
  | timer (t : Timer)
  | forever
  deriving DecidableEq

/-- A call to the cloud that is under way. -/
structure Pending where
  wait : Wait
  /-- Why the call will fail, if it will fail whatever it asks. -/
  failure : Option CloudError
  deriving DecidableEq

namespace Pending

/-- A call that the cloud takes now. -/
def ofReceipt (r : Receipt) (clock : Clock) (order : Nat) : Pending where
  wait :=
    match r.latency with
    | .immediate => .nothing
    | .after ms => .timer (clock.timer ms order)
    | .never => .forever
  failure := r.failure

/-- The timer that the answer waits for. -/
def timer? (p : Pending) : Option Timer :=
  match p.wait with
  | .timer t => some t
  | _ => none

def isOver (p : Pending) (clock : Clock) : Bool :=
  match p.wait with
  | .nothing => true
  | .timer t => clock.isPast t
  | .forever => false

/-- What a call gives when its time is over: the failure it was bound to, or else what the cloud
answers then. -/
def outcome {α : Type} (p : Pending) (answer : Except CloudError α) : Except CloudError α :=
  match p.failure with
  | some e => .error e
  | none => answer

end Pending

end NodeGroups
