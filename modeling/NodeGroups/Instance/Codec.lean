import NodeGroups.Datum.Basic
import NodeGroups.Instance.Basic

/-!
# Data form of scale sets and instances

How the types of the cloud's and of the autoscaler's side are written as trees of data, and read
from them. Each type has a writer and a reader beside each other.
-/

namespace NodeGroups

open Datum (Surplus)

namespace ProvisioningState

def names : List (String × ProvisioningState) :=
  [("creating", .creating), ("updating", .updating), ("deleting", .deleting),
    ("succeeded", .succeeded), ("failed", .failed), ("canceled", .canceled)]

/-- The data form: the state's name, or a record with the unknown state's text. -/
def toDatum : ProvisioningState → Datum
  | creating => .text "creating"
  | updating => .text "updating"
  | deleting => .text "deleting"
  | succeeded => .text "succeeded"
  | failed => .text "failed"
  | canceled => .text "canceled"
  | other s => .record [("other", .text s)]

def ofDatum? : Datum → Option ProvisioningState
  | .record [("other", .text s)] => some (.other s)
  | d => d.alternative? names

end ProvisioningState

namespace Instance

def toDatum (i : Instance) : Datum :=
  .record [("instance_id", .text i.instanceId), ("provider_id", .text i.providerId),
    ("vm_id", .text i.vmId), ("provisioning_state", i.state.toDatum)]

def ofDatum? (d : Datum) : Option Instance := do
  let fs ← d.fields? .refused 4
  let instanceId ← fs.required? 0 "instance_id" Datum.text?
  let providerId ← fs.required? 1 "provider_id" Datum.text?
  let vmId ← fs.required? 2 "vm_id" Datum.text?
  let state ← fs.required? 3 "provisioning_state" ProvisioningState.ofDatum?
  pure { instanceId, providerId, vmId, state }

end Instance

namespace Sku

def toDatum (s : Sku) : Datum :=
  .record [("name", .text s.name), ("tier", .ofOption .text s.tier)]

def ofDatum? (d : Datum) : Option Sku := do
  let fs ← d.fields? .refused 2
  let name ← fs.required? 0 "name" Datum.text?
  let tier ← fs.optional? 1 "tier" Datum.text?
  pure { name, tier }

end Sku

namespace ScaleSet

def toDatum (s : ScaleSet) : Datum :=
  .record [("name", .text s.name), ("capacity", .ofSize s.capacity),
    ("provisioning_state", .ofOption ProvisioningState.toDatum s.state),
    ("sku", .ofOption Sku.toDatum s.sku), ("location", .ofOption .text s.location),
    ("tags", .ofDict .text s.tags)]

def ofDatum? (d : Datum) : Option ScaleSet := do
  let fs ← d.fields? .refused 6
  let name ← fs.required? 0 "name" Datum.text?
  let capacity ← fs.required? 1 "capacity" Datum.size?
  let state ← fs.optional? 2 "provisioning_state" ProvisioningState.ofDatum?
  let sku ← fs.optional? 3 "sku" Sku.ofDatum?
  let location ← fs.optional? 4 "location" Datum.text?
  let tags ← fs.required? 5 "tags" (Datum.dict? Datum.text?)
  pure { name, capacity, state, sku, location, tags }

end ScaleSet

namespace Node

def toDatum (n : Node) : Datum :=
  .record [("name", .text n.name), ("provider_id", .text n.providerId)]

def ofDatum? (d : Datum) : Option Node := do
  let fs ← d.fields? .refused 2
  let name ← fs.required? 0 "name" Datum.text?
  let providerId ← fs.required? 1 "provider_id" Datum.text?
  pure { name, providerId }

end Node

namespace MemberStatus

def names : List (String × MemberStatus) :=
  [("creating", .creating), ("running", .running), ("deleting", .deleting), ("failed", .failed)]

/-- The data form: the status's name. -/
def toDatum : MemberStatus → Datum
  | creating => .text "creating"
  | running => .text "running"
  | deleting => .text "deleting"
  | failed => .text "failed"

def ofDatum? (d : Datum) : Option MemberStatus := d.alternative? names

end MemberStatus

namespace Member

def toDatum (m : Member) : Datum :=
  .record [("id", .text m.id), ("status", .ofOption MemberStatus.toDatum m.status)]

def ofDatum? (d : Datum) : Option Member := do
  let fs ← d.fields? .refused 2
  let id ← fs.required? 0 "id" Datum.text?
  let status ← fs.optional? 1 "status" MemberStatus.ofDatum?
  pure { id, status }

end Member

end NodeGroups
