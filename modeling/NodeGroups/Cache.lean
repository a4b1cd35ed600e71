import NodeGroups.Instance.Basic
import NodeGroups.ProviderId

/-!
# The instance cache

A group's view of its scale set: the description and the listing of the instances, taken from
the cloud in one piece. The instances stay in the order of the listing, with their provider IDs
in written form, and an index from keys to positions answers lookups. An instance whose
identifier is not a provider ID stays in the listing as it is, under its identifier in small
letters.
-/

namespace NodeGroups

/-- The instance with its identifier in written form, if it is a provider ID. -/
def Instance.normalized (i : Instance) : Instance :=
  match ProviderId.parse? i.providerId with
  | some id => { i with providerId := id.print }
  | none => i

@[simp] theorem Instance.instanceId_normalized (i : Instance) :
    i.normalized.instanceId = i.instanceId := by
  rw [normalized]
  split <;> rfl

@[simp] theorem Instance.vmId_normalized (i : Instance) : i.normalized.vmId = i.vmId := by
  rw [normalized]
  split <;> rfl

@[simp] theorem Instance.state_normalized (i : Instance) : i.normalized.state = i.state := by
  rw [normalized]
  split <;> rfl

theorem Instance.normalized_withState (i : Instance) (state : ProvisioningState) :
    { i with state }.normalized = { i.normalized with state } := by
  rw [normalized, normalized]
  dsimp only
  split <;> rfl

/-- The key under which an instance is found. -/
def Instance.key (i : Instance) : String :=
  match ProviderId.parse? i.providerId with
  | some id => id.key
  | none => Text.foldCase i.providerId

/-- A group's view of its scale set. -/
structure Cache where
  scaleSet : ScaleSet
  /-- The instances in the order of the cloud's listing. -/
  instances : List Instance
  /-- The position of each key in the list; of equal keys, of the last. -/
  index : Dict Nat
  deriving DecidableEq

namespace Cache

/-- The view that a description and a listing give. -/
def build (scaleSet : ScaleSet) (listing : List Instance) : Cache where
  scaleSet := scaleSet
  instances := listing.map Instance.normalized
  index := Dict.ofList (listing.map Instance.key).zipIdx

/-- The instance with a provider ID. -/
def get? (c : Cache) (id : ProviderId) : Option Instance :=
  (c.index.get? id.key).bind fun position ↦ c.instances[position]?

/-- The instance with a provider ID that names the given scale set. -/
def find? (c : Cache) (id : ProviderId) (resourceGroup name : String) : Option Instance :=
  if id.IsIn resourceGroup name then c.get? id else none

def capacity (c : Cache) : UInt32 := c.scaleSet.capacity

def size (c : Cache) : Nat := c.instances.length

/-- The number of instances that are not on their way out. -/
def liveCount (c : Cache) : Nat := c.instances.countP fun i ↦ !i.state.isDeleting

/-- The view after a deletion of the instances with the given numbers was accepted. -/
def markDeleting (c : Cache) (ids : List String) : Cache :=
  { c with instances := NodeGroups.markDeleting ids c.instances }

@[simp] theorem length_instances_markDeleting (c : Cache) (ids : List String) :
    (c.markDeleting ids).instances.length = c.instances.length := by
  simp [markDeleting, NodeGroups.markDeleting]

@[simp] theorem capacity_build (s : ScaleSet) (listing : List Instance) :
    (build s listing).capacity = s.capacity := rfl

@[simp] theorem instances_build (s : ScaleSet) (listing : List Instance) :
    (build s listing).instances = listing.map Instance.normalized := rfl

@[simp] theorem length_instances_build (s : ScaleSet) (listing : List Instance) :
    (build s listing).instances.length = listing.length := by simp [build]

end Cache

end NodeGroups
