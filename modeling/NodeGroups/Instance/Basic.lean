import NodeGroups.Dict
import NodeGroups.Text.Case

/-!
# Scale sets and their instances

What the cloud says of a scale set and of the machines in it, and what the autoscaler sees of
them: nodes of the cluster and members of a group.
-/

namespace NodeGroups

/-! ## The cloud's side -/

/-- How far the cloud is with setting up a scale set or one of its instances. -/
inductive ProvisioningState
  | creating
  | updating
  | deleting
  | succeeded
  | failed
  | canceled
  /-- A state that this library does not know, as the cloud wrote it. -/
  | other (text : String)
  deriving DecidableEq, Repr

namespace ProvisioningState

/-- The state that a word of the cloud stands for. Letter case does not matter, and `canceled`
has two spellings. -/
def parse (word : String) : ProvisioningState :=
  match Text.foldCase word with
  | "creating" => .creating
  | "updating" => .updating
  | "deleting" => .deleting
  | "succeeded" => .succeeded
  | "failed" => .failed
  | "canceled" => .canceled
  | "cancelled" => .canceled
  | _ => .other word

def print : ProvisioningState → String
  | creating => "Creating"
  | updating => "Updating"
  | deleting => "Deleting"
  | succeeded => "Succeeded"
  | failed => "Failed"
  | canceled => "Canceled"
  | other text => text

/-- Whether an instance in this state is on its way out. A state that is only spelled like
`deleting` by the cloud, but kept as unknown, does not count. -/
def isDeleting (s : ProvisioningState) : Bool := s == .deleting

@[simp] theorem isDeleting_iff {s : ProvisioningState} : s.isDeleting = true ↔ s = .deleting := by
  simp [isDeleting]

end ProvisioningState

/-- A machine of a scale set, as the cloud lists it. -/
structure Instance where
  /-- The number of the machine within its scale set. -/
  instanceId : String
  /-- The full resource identifier. -/
  providerId : String
  /-- The cloud's own identifier of the machine. -/
  vmId : String
  state : ProvisioningState
  deriving DecidableEq, Repr

/-- The instances of a listing with those of the given numbers on their way out. -/
def markDeleting (ids : List String) (instances : List Instance) : List Instance :=
  instances.map fun i ↦ if i.instanceId ∈ ids then { i with state := .deleting } else i

@[simp] theorem markDeleting_nil (instances : List Instance) :
    markDeleting [] instances = instances := by
  simp [markDeleting]

@[simp] theorem length_markDeleting (ids : List String) (instances : List Instance) :
    (markDeleting ids instances).length = instances.length :=
  List.length_map _

@[simp] theorem map_instanceId_markDeleting (ids : List String) (instances : List Instance) :
    (markDeleting ids instances).map Instance.instanceId = instances.map Instance.instanceId := by
  rw [markDeleting, List.map_map]
  refine List.map_congr_left fun i _ ↦ ?_
  rw [Function.comp_apply]
  split <;> rfl

/-- An instance is on its way out afterwards if it was before, or if its number is one of those
given. -/
theorem exists_of_mem_markDeleting {ids : List String} {instances : List Instance} {i : Instance}
    (hmem : i ∈ markDeleting ids instances) :
    ∃ j ∈ instances, i.instanceId = j.instanceId
      ∧ (i.state.isDeleting = true ↔ j.instanceId ∈ ids ∨ j.state.isDeleting = true) := by
  obtain ⟨j, hj, rfl⟩ := List.mem_map.mp hmem
  refine ⟨j, hj, ?_⟩
  split
  · next hid => simp [hid]
  · next hid => simp [hid]

/-- The machine size of a scale set. -/
structure Sku where
  /-- The name of the size, such as `Standard_D2s_v3`. -/
  name : String
  tier : Option String
  deriving DecidableEq, Repr

/-- The cloud's description of a scale set. -/
structure ScaleSet where
  name : String
  /-- The number of instances that the cloud is asked for. -/
  capacity : UInt32
  state : Option ProvisioningState
  sku : Option Sku
  /-- The region. -/
  location : Option String
  tags : Dict String
  deriving DecidableEq

/-- A description that says nothing beyond the name and the capacity. -/
def ScaleSet.bare (name : String) (capacity : UInt32) : ScaleSet :=
  { name, capacity, state := none, sku := none, location := none, tags := Dict.empty }

/-- Whether the cloud is changing the scale set. -/
def ScaleSet.isUpdating (s : ScaleSet) : Bool := s.state == some .updating

/-! ## The autoscaler's side -/

/-- A node of the cluster. -/
structure Node where
  name : String
  /-- The identifier of the machine under the node. -/
  providerId : String
  deriving DecidableEq, Repr

/-- How a member of a group is doing. -/
inductive MemberStatus
  | creating
  | running
  | deleting
  | failed
  deriving DecidableEq, Repr

/-- The status of a member by the provisioning state of its machine. -/
def ProvisioningState.memberStatus : ProvisioningState → MemberStatus
  | creating => .creating
  | deleting => .deleting
  | failed => .failed
  | _ => .running

/-- A member of a group. -/
structure Member where
  /-- The provider ID of the machine. -/
  id : String
  status : Option MemberStatus
  deriving DecidableEq, Repr

/-- The member of a group that an instance is. -/
def Instance.toMember (i : Instance) : Member := ⟨i.providerId, some i.state.memberStatus⟩

end NodeGroups
