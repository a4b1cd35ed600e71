import NodeGroups.Cloud.Client
import NodeGroups.Group.Query

/-!
# Mutations

The requests that change how many instances a group has, or which. A mutation is planned from the
group's state: either it is refused, or there is nothing to do, or it comes down to one call to the
cloud. If the cloud accepts the call, the state is brought up to date; otherwise it stays as it is.

The order of the checks is part of the contract: a request with several faults is refused for the
first.
-/

namespace NodeGroups.Group

/-- A request to change a group. -/
inductive Mutation
  /-- Ask for more instances. -/
  | increase (delta : UInt32)
  /-- Ask for fewer instances, without touching those that exist. -/
  | decrease (delta : UInt32)
  /-- Delete the instances under some nodes. -/
  | delete (nodes : List Node)

/-- The one call to the cloud that a mutation comes down to. -/
inductive Change
  /-- Set the capacity, which will be the target size. -/
  | resize (target : UInt32)
  /-- Delete the instances with the given numbers, after which the target size will be `target`. -/
  | delete (ids : List String) (target : UInt32)
  deriving DecidableEq

/-- A number of instances as a size; what does not fit becomes the greatest size. -/
def clampSize (n : Nat) : UInt32 := UInt32.ofNat (min n (UInt32.size - 1))

/-! ## Planning -/

def Mutation.fault? : Mutation → Option GroupError
  | .increase delta => if delta = 0 then some .increaseNotPositive else none
  | .decrease delta => if delta = 0 then some .decreaseNotPositive else none
  | .delete nodes =>
    (nodes.find? fun n ↦ (ProviderId.parse? n.providerId).isNone).map fun n ↦
      .malformedId n.providerId

def planIncrease (g : Group) (v : View) (delta : UInt32) : Except GroupError Change :=
  let desired := v.target.toNat + delta.toNat
  if desired ≤ g.maxSize.toNat then .ok (.resize (UInt32.ofNat desired))
  else .error (.increaseTooLarge desired g.maxSize)

def planDecrease (g : Group) (v : View) (delta : UInt32) : Except GroupError Change :=
  let live := (clampSize v.cache.liveCount).toNat
  if v.target < delta then .error (.decreaseTooLarge v.target delta)
  else
    let desired := v.target.toNat - delta.toNat
    if desired < live then .error (.belowLive desired live)
    else if desired < g.minSize.toNat then .error (.belowMinSize desired g.minSize)
    else .ok (.resize (UInt32.ofNat desired))

/-- The instance under a node, or the error that it is not the group's. -/
def resolve (g : Group) (c : Cache) (node : Node) : Except GroupError Instance :=
  match g.instanceOf? c node with
  | some i => .ok i
  | none => .error (.unknownNode node.name g.name)

/-- The numbers of the instances that are to be deleted: each number once, and not if the first
instance with it is on its way out. The numbers in `seen` have had their turn. -/
def deletable (seen : List String) : List Instance → List String
  | [] => []
  | i :: is =>
    if i.instanceId ∈ seen then deletable seen is
    else if i.state.isDeleting then deletable (i.instanceId :: seen) is
    else i.instanceId :: deletable (i.instanceId :: seen) is

/-- Plans a deletion. There is nothing to do if all the instances are on their way out. -/
def planDelete (g : Group) (v : View) (nodes : List Node) : Except GroupError (Option Change) := do
  let instances ← nodes.mapM (g.resolve v.cache)
  let ids := deletable [] instances
  if ids = [] then .ok none
  else
    let count := (clampSize ids.length).toNat
    if v.target.toNat < count + g.minSize.toNat then
      .error (.deletionBelowMinSize count g.name g.minSize v.target)
    else .ok (some (.delete ids (UInt32.ofNat (v.target.toNat - count))))

/-- Plans a mutation: the call that it needs, if it needs one. -/
def Mutation.plan (g : Group) (s : State) (m : Mutation) : Except GroupError (Option Change) :=
  match m.fault? with
  | some e => .error e
  | none => do
    let v ← s.requireView g
    match m with
    | .increase delta => (g.planIncrease v delta).map some
    | .decrease delta => (g.planDecrease v delta).map some
    | .delete nodes => g.planDelete v nodes

/-! ## Carrying out -/

namespace Change

def call : Change → Call
  | .resize _ => .setCapacity
  | .delete .. => .delete

/-- What the call does in the cloud. -/
def execute {σ : Type} (client : Client σ) (g : Group) (cloud : σ) :
    Change → Except CloudError σ
  | .resize target => client.setCapacity g.resourceGroup g.name target cloud
  | .delete ids _ => client.delete g.resourceGroup g.name ids cloud

/-- The view after the cloud accepted the call. -/
def updateView : Change → View → View
  | .resize target, v => { v with target }
  | .delete ids target, v => { v with cache := v.cache.markDeleting ids, target }

/-- The state after the cloud accepted the call. -/
def commit (change : Change) (s : State) : State :=
  { view := s.view.map change.updateView, mutations := s.mutations + 1 }

end Change

end NodeGroups.Group
