import NodeGroups.Datum.Basic
import NodeGroups.Quantity.Printer
import NodeGroups.Template.Basic

/-!
# Data form of quantities and templates

A quantity is written as its text and read from it; a template and its parts are records.
-/

namespace NodeGroups

namespace Quantity

/-- The data form: the written quantity. -/
def toDatum (q : Quantity) : Datum := .text q.print

def ofDatum? (d : Datum) : Option Quantity := d.text?.bind parse?

def Format.names : List (String × Format) :=
  [("DecimalSI", .decimalSI), ("BinarySI", .binarySI), ("DecimalExponent", .decimalExponent)]

def Format.toDatum : Format → Datum
  | decimalSI => .text "DecimalSI"
  | binarySI => .text "BinarySI"
  | decimalExponent => .text "DecimalExponent"

def Format.ofDatum? (d : Datum) : Option Format := d.alternative? Format.names

end Quantity

namespace TaintEffect

/-- The data form: the effect's name. -/
def toDatum (e : TaintEffect) : Datum := .text e.print

def ofDatum? (d : Datum) : Option TaintEffect := d.alternative? names

end TaintEffect

namespace Taint

def toDatum (t : Taint) : Datum :=
  .record [("key", .text t.key), ("value", .text t.value), ("effect", t.effect.toDatum)]

def ofDatum? (d : Datum) : Option Taint := do
  let fs ← d.fields? .refused 3
  let key ← fs.required? 0 "key" Datum.text?
  let value ← fs.required? 1 "value" Datum.text?
  let effect ← fs.required? 2 "effect" TaintEffect.ofDatum?
  pure { key, value, effect }

end Taint

namespace Pod

def toDatum (p : Pod) : Datum :=
  .record [("name", .text p.name), ("namespace", .text p.space),
    ("requests", .ofDict Quantity.toDatum p.requests)]

def ofDatum? (d : Datum) : Option Pod := do
  let fs ← d.fields? .refused 3
  let name ← fs.required? 0 "name" Datum.text?
  let space ← fs.required? 1 "namespace" Datum.text?
  let requests ← fs.required? 2 "requests" (Datum.dict? Quantity.ofDatum?)
  pure { name, space, requests }

end Pod

namespace NodeTemplate

def toDatum (t : NodeTemplate) : Datum :=
  .record [("name", .text t.name), ("labels", .ofDict .text t.labels),
    ("taints", .ofList Taint.toDatum t.taints),
    ("capacity", .ofDict Quantity.toDatum t.capacity),
    ("allocatable", .ofDict Quantity.toDatum t.allocatable),
    ("pods", .ofList Pod.toDatum t.pods)]

def ofDatum? (d : Datum) : Option NodeTemplate := do
  let fs ← d.fields? .refused 6
  let name ← fs.required? 0 "name" Datum.text?
  let labels ← fs.required? 1 "labels" (Datum.dict? Datum.text?)
  let taints ← fs.required? 2 "taints" (Datum.list? Taint.ofDatum?)
  let capacity ← fs.required? 3 "capacity" (Datum.dict? Quantity.ofDatum?)
  let allocatable ← fs.required? 4 "allocatable" (Datum.dict? Quantity.ofDatum?)
  let pods ← fs.required? 5 "pods" (Datum.list? Pod.ofDatum?)
  pure { name, labels, taints, capacity, allocatable, pods }

end NodeTemplate

end NodeGroups
