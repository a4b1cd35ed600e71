import NodeGroups.Cloud.Error
import NodeGroups.Instance.Basic

/-!
# The cloud as seen by its clients

Node groups ask four things of a cloud: to describe a scale set, to list its instances, to set
its capacity, and to delete instances. A call has two moments. When it is sent, the cloud takes
note of it, and decides how long it will take and whether it will fail for a reason that has
nothing to do with what is asked. When its time is over, the cloud looks at its scale sets as they
are then, answers, and changes what the call asks to change. A call may also never be answered;
then it changes nothing.

A cloud is given by the type `σ` of its conditions and by what it does at these two moments;
nothing else is assumed of it.
-/

namespace NodeGroups

/-- The kinds of calls to a cloud. -/
inductive Call
  | describe
  | list
  | setCapacity
  | delete
  deriving DecidableEq, Repr

/-- How long a call takes. -/
inductive Latency
  | immediate
  | after (ms : Nat)
  | never
  deriving DecidableEq, Repr

/-- The milliseconds after which a call is answered, if it is answered at all. -/
def Latency.ms? : Latency → Option Nat
  | immediate => some 0
  | after ms => some ms
  | never => none

/-- What a cloud decides about a call when it is sent. -/
structure Receipt where
  latency : Latency
  /-- Why the call will fail, if it will fail whatever it asks. -/
  failure : Option CloudError
  deriving DecidableEq, Repr

/-- What a cloud does. Scale sets are addressed by resource group and name. -/
structure Client (σ : Type) where
  /-- Takes a call; without a receipt, the client breaks down. -/
  submit : Call → (resourceGroup name : String) → σ → Option (Receipt × σ)
  /-- The description of a scale set. -/
  describe : (resourceGroup name : String) → σ → Except CloudError ScaleSet
  /-- The instances of a scale set. -/
  list : (resourceGroup name : String) → σ → Except CloudError (List Instance)
  /-- Asks for a number of instances. -/
  setCapacity : (resourceGroup name : String) → UInt32 → σ → Except CloudError σ
  /-- Asks for the deletion of instances. -/
  delete : (resourceGroup name : String) → List String → σ → Except CloudError σ

end NodeGroups
