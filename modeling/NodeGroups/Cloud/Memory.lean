import NodeGroups.Clock
import NodeGroups.Cloud.Client
import NodeGroups.ProviderId

/-!
# A cloud in memory

A cloud for trying things out. It keeps its scale sets as they are told to it and takes resizes
and deletions at once: a deletion marks the instances and lowers the capacity. Deletions are all
or nothing, and an instance that is on its way out cannot be deleted again. Calls are recorded,
and can be made to take time, to fail, or to break down.
-/

namespace NodeGroups

/-- A scale set in memory. -/
structure Holding where
  scaleSet : ScaleSet
  instances : List Instance
  deriving DecidableEq

/-- The condition of a cloud in memory. -/
structure Memory where
  /-- The scale sets by resource group and name, both in small letters. -/
  holdings : List ((String × String) × Holding)
  /-- The calls so far, the last one first. -/
  log : List Call
  /-- The errors that calls fail with, by the name of the scale set in small letters. -/
  failures : List ((Call × String) × CloudError)
  /-- The milliseconds that calls take, by the name of the scale set in small letters. -/
  delays : List ((Call × String) × Nat)
  /-- The names, in exact spelling, whose description breaks the client down. -/
  broken : List String
  /-- The instance numbers of the accepted deletions, in order. -/
  deletions : List (List String)
  deriving DecidableEq

namespace Memory

def empty : Memory := ⟨[], [], [], [], [], []⟩

/-- The key under which a scale set is kept. -/
def key (resourceGroup name : String) : String × String :=
  (Text.foldCase resourceGroup, Text.foldCase name)

/-- The list of entries with the value of a key set. -/
def assign {κ β : Type} [DecidableEq κ] (k : κ) (v : β) (es : List (κ × β)) : List (κ × β) :=
  match es with
  | [] => [(k, v)]
  | e :: es => if e.1 = k then (k, v) :: es else e :: assign k v es

def holding? (m : Memory) (resourceGroup name : String) : Option Holding :=
  m.holdings.lookup (key resourceGroup name)

def modify (m : Memory) (resourceGroup name : String) (f : Holding → Holding) : Memory :=
  { m with
    holdings := m.holdings.map fun e ↦
      if e.1 = key resourceGroup name then (e.1, f e.2) else e }

def setHolding (m : Memory) (resourceGroup name : String) (h : Holding) : Memory :=
  { m with holdings := assign (key resourceGroup name) h m.holdings }

/-! ## Machines -/

/-- The subscription that all machines are in. -/
def subscription : String := "test-subscription-id"

/-- The provider ID of a machine. -/
def machine (resourceGroup name : String) (index : UInt32) : ProviderId :=
  ⟨subscription, resourceGroup, name, toString index⟩

/-- A number with zeros in front, so that there are at least twelve digits. -/
def twelveDigits (n : Nat) : String :=
  let ds := Text.digits n
  String.ofList (List.replicate (12 - ds.length) '0' ++ ds)

/-- The record of a machine. -/
def record (resourceGroup name : String) (index : UInt32) (state : ProvisioningState) :
    Instance where
  instanceId := toString index
  providerId := (machine resourceGroup name index).path
  vmId := "00000000-0000-0000-0000-" ++ twelveDigits index.toNat
  state := state

/-! ## Interventions -/

/-- Sets the description of a scale set. If the scale set exists, it keeps its instances. -/
def put (m : Memory) (resourceGroup : String) (s : ScaleSet) : Memory :=
  let instances := ((m.holding? resourceGroup s.name).map Holding.instances).getD []
  m.setHolding resourceGroup s.name ⟨s, instances⟩

/-- Adds a machine to a scale set, which is created if there is none. -/
def add (m : Memory) (resourceGroup name : String) (i : Instance) : Memory :=
  let h := (m.holding? resourceGroup name).getD ⟨.bare name 0, []⟩
  m.setHolding resourceGroup name { h with instances := h.instances ++ [i] }

def setState (m : Memory) (resourceGroup name : String) (state : Option ProvisioningState) :
    Memory :=
  m.modify resourceGroup name fun h ↦ { h with scaleSet := { h.scaleSet with state } }

def setInstanceState (m : Memory) (resourceGroup name instanceId : String)
    (state : ProvisioningState) : Memory :=
  m.modify resourceGroup name fun h ↦
    { h with
      instances := h.instances.map fun i ↦
        if i.instanceId = instanceId then { i with state } else i }

/-- Removes the instances with a number, as when a deletion is completed. -/
def removeInstance (m : Memory) (resourceGroup name instanceId : String) : Memory :=
  m.modify resourceGroup name fun h ↦
    { h with instances := h.instances.filter (·.instanceId ≠ instanceId) }

/-- Makes calls for a scale set fail. -/
def fail (m : Memory) (call : Call) (name : String) (error : CloudError) : Memory :=
  { m with failures := assign (call, Text.foldCase name) error m.failures }

/-- Lets no more calls fail. -/
def clearFailures (m : Memory) : Memory := { m with failures := [] }

/-- Makes calls for a scale set take time. -/
def delay (m : Memory) (call : Call) (name : String) (ms : Nat) : Memory :=
  { m with delays := assign (call, Text.foldCase name) ms m.delays }

/-- Makes the client break down when it is to describe a scale set. -/
def breakDown (m : Memory) (name : String) : Memory := { m with broken := name :: m.broken }

def capacity? (m : Memory) (resourceGroup name : String) : Option UInt32 :=
  (m.holding? resourceGroup name).map fun h ↦ h.scaleSet.capacity

/-- How many calls of a kind there were. -/
def count (m : Memory) (call : Call) : Nat := m.log.count call

/-! ## Calls -/

def missing (resourceGroup name : String) : CloudError :=
  .notFound ("scale set " ++ resourceGroup ++ "/" ++ name)

def latency (delay : Option Nat) : Latency :=
  match delay with
  | some ms => .after (min ms Clock.longestDelay)
  | none => .immediate

def submit (call : Call) (_resourceGroup name : String) (m : Memory) :
    Option (Receipt × Memory) :=
  if call = .describe ∧ name ∈ m.broken then none
  else
    let k := (call, Text.foldCase name)
    some (⟨latency (m.delays.lookup k), m.failures.lookup k⟩, { m with log := call :: m.log })

/-- A scale set and its instances, or the error that there is none. -/
def find (m : Memory) (resourceGroup name : String) : Except CloudError Holding :=
  match m.holding? resourceGroup name with
  | some h => .ok h
  | none => .error (missing resourceGroup name)

/-- What is wrong with deleting an instance. Of instances with one number, the first counts. -/
def deletionFault? (instances : List Instance) (name instanceId : String) : Option CloudError :=
  match instances.find? (·.instanceId = instanceId) with
  | none => some (.notFound ("instance " ++ instanceId ++ " of " ++ name))
  | some i =>
    if i.state.isDeleting then
      some (.conflict ("instance " ++ instanceId ++ " of " ++ name ++ " is already being deleted"))
    else none

/-- A scale set after the deletion of instances: they are marked, and the capacity falls by the
length of the list, though not below zero. The length is cut to 32 bits. -/
def afterDeletion (ids : List String) (h : Holding) : Holding where
  scaleSet :=
    { h.scaleSet with
      capacity := UInt32.ofNat (h.scaleSet.capacity.toNat - ids.length % UInt32.size) }
  instances := markDeleting ids h.instances

def setCapacity (resourceGroup name : String) (capacity : UInt32) (m : Memory) :
    Except CloudError Memory :=
  (m.find resourceGroup name).map fun h ↦
    m.setHolding resourceGroup name { h with scaleSet := { h.scaleSet with capacity } }

/-- Asks for the deletion of instances. The first number in the list with a fault decides about
the error. -/
def delete (resourceGroup name : String) (ids : List String) (m : Memory) :
    Except CloudError Memory :=
  (m.find resourceGroup name).bind fun h ↦
    match ids.findSome? (deletionFault? h.instances name) with
    | some e => .error e
    | none =>
      .ok { m.setHolding resourceGroup name (afterDeletion ids h) with
        deletions := m.deletions ++ [ids] }

/-- The cloud in memory as its clients see it. -/
def client : Client Memory where
  submit := submit
  describe resourceGroup name m := (m.find resourceGroup name).map Holding.scaleSet
  list resourceGroup name m := (m.find resourceGroup name).map Holding.instances
  setCapacity := setCapacity
  delete := delete

end Memory

end NodeGroups
