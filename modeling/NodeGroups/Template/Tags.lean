import NodeGroups.Quantity.Parser
import NodeGroups.Template.Basic
import NodeGroups.Text.Split

/-!
# Tags for node templates

Tags of a scale set may say what its nodes will carry: resources, labels and taints. The tag's
key opens with a fixed text for each of the three, and the rest of the key is the name of the
resource, the label or the taint. Tags come in no particular order, so what they say is put into
the order of the names. A tag whose value cannot be read is passed over.
-/

namespace NodeGroups.Template

/-- What the key of a resource tag opens with. -/
def resourceOpening : String := "k8s.io_cluster-autoscaler_node-template_resources_"

/-- What the key of a label tag opens with. -/
def labelOpening : String := "k8s.io_cluster-autoscaler_node-template_label_"

/-- What the key of a taint tag opens with. -/
def taintOpening : String := "k8s.io_cluster-autoscaler_node-template_taint_"

/-- The rest of a tag's key after an opening. -/
def nameAfter? (opening key : String) : Option String :=
  (Text.afterOpening? opening.toList key.toList).map String.ofList

/-- The resource that a tag declares. A resource has a name. -/
def resourceOf? (tag : String × String) : Option (String × Quantity) := do
  let name ← nameAfter? resourceOpening tag.1
  let amount ← Quantity.parse? tag.2
  if name = "" then none else some (name, amount)

/-- The label that a tag declares. A label has a name. -/
def labelOf? (tag : String × String) : Option (String × String) := do
  let name ← nameAfter? labelOpening tag.1
  if name = "" then none else some (name, tag.2)

/-- The taint that a tag declares. The value and the effect stand before and after the last
colon. -/
def taintOf? (tag : String × String) : Option Taint := do
  let key ← nameAfter? taintOpening tag.1
  let (value, word) ← Text.cutLast? ':' tag.2.toList
  let effect ← TaintEffect.parse? (String.ofList word)
  pure { key, value := String.ofList value, effect }

def resources (tags : List (String × String)) : Dict Quantity :=
  Dict.ofList (tags.filterMap resourceOf?)

def labels (tags : List (String × String)) : Dict String :=
  Dict.ofList (tags.filterMap labelOf?)

/-- The taints that tags declare, by key. -/
def taints (tags : List (String × String)) : List Taint :=
  (tags.filterMap taintOf?).mergeSort fun a b ↦ ¬ b.key < a.key

end NodeGroups.Template
