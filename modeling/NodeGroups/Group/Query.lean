import NodeGroups.Datum.Json
import NodeGroups.Group.State
import NodeGroups.Instance.Codec

/-!
# Questions to a group

What can be asked of a group without the cloud's help. Answers come from the view, all of one
answer from the same view.
-/

namespace NodeGroups.Group

/-- A question that a group's state answers. -/
inductive Query
  | targetSize
  | members
  | belongs (node : Node)
  | lastRefresh
  | needsRefresh (now : Nat)
  /-- The state as a text. -/
  | snapshot

/-- What an activity of a group finds out. -/
inductive Finding
  | nothing
  | size (n : UInt32)
  | flag (value : Bool)
  | members (members : List Member)
  | instant (value : Option Nat)
  | text (value : String)
  | scaleSet (value : ScaleSet)

/-- The state as a tree of data. -/
def snapshotDatum (g : Group) (s : State) : Datum :=
  .record [("name", .text g.name), ("resource_group", .text g.resourceGroup),
    ("min_size", .ofSize g.minSize), ("max_size", .ofSize g.maxSize),
    ("target_size", .ofOption (fun v ↦ .ofSize v.target) s.view),
    ("provisioning_state",
      .ofOption ProvisioningState.toDatum (s.view.bind fun v ↦ v.cache.scaleSet.state)),
    ("instances",
      .ofList Instance.toDatum ((s.view.map fun v ↦ v.cache.instances).getD []))]

/-- The state as a JSON text. -/
def snapshot (g : Group) (s : State) : String := (snapshotDatum g s).pretty

/-- The instance of the group that is under a node. -/
def instanceOf? (g : Group) (c : Cache) (node : Node) : Option Instance :=
  (ProviderId.parse? node.providerId).bind fun id ↦ c.find? id g.resourceGroup g.name

/-- The answer to a question that does not need the state: a provider ID that cannot be read, or
that names another scale set. -/
def Query.answerAtOnce? (g : Group) : Query → Option (Except GroupError Finding)
  | .belongs node =>
    match ProviderId.parse node.providerId with
    | .error e => some (.error e)
    | .ok id => if id.IsIn g.resourceGroup g.name then none else some (.ok (.flag false))
  | _ => none

/-- The answer to a question from the state. -/
def Query.answer (g : Group) (s : State) : Query → Except GroupError Finding
  | .targetSize => (s.requireView g).map fun v ↦ .size v.target
  | .members => (s.requireView g).map fun v ↦ .members (v.cache.instances.map Instance.toMember)
  | .belongs node => (s.requireView g).map fun v ↦ .flag (g.instanceOf? v.cache node).isSome
  | .lastRefresh => .ok (.instant s.lastRefresh)
  | .needsRefresh now => .ok (.flag (s.needsRefresh g now))
  | .snapshot => .ok (.text (g.snapshot s))

end NodeGroups.Group
