import NodeGroups.Instance.Basic
import NodeGroups.Template.Size
import NodeGroups.Template.Tags

/-!
# Putting a template together

A template starts from what every node has and from what the machine size offers; the tags of
the scale set go on top. What neither the size nor a tag declares is left out and not set to
zero. Templates are numbered, so that no two have one name.
-/

namespace NodeGroups.Template

def graphicsResource : String := "nvidia.com/gpu"

/-- The pods that a node has room for with the usual network. -/
def podRoom : Quantity := .ofValue 110 .decimalSI

/-- The resources that a machine size offers. -/
def sizeResources (size : MachineSize) : List (String × Quantity) :=
  [("cpu", .ofValue size.processors .decimalSI),
    ("memory", .ofValue (size.memoryMiB * 1024 * 1024) .binarySI)]
  ++ if 0 < size.graphics then [(graphicsResource, .ofValue size.graphics .decimalSI)] else []

/-- The resources of a node before tags are taken into account. -/
def builtinResources (sku : Option Sku) : List (String × Quantity) :=
  [("pods", podRoom)]
  ++ ((sku.bind fun s ↦ MachineSize.find? s.name).map sizeResources).getD []

/-- The labels of a node before tags are taken into account. -/
def builtinLabels (name : String) (s : ScaleSet) : List (String × String) :=
  [("kubernetes.io/os", "linux"), ("kubernetes.io/arch", "amd64"),
    ("kubernetes.io/hostname", name)]
  ++ (s.sku.map fun sku ↦ ("node.kubernetes.io/instance-type", sku.name)).toList
  ++ (s.location.map fun region ↦ ("topology.kubernetes.io/region", region)).toList

/-- The name of the template with a number. -/
def templateName (group : String) (number : UInt64) : String :=
  group ++ "-template-" ++ toString number

/-- The pod that runs on every node. -/
def proxyPod (name : String) : Pod where
  name := "kube-proxy-" ++ name
  space := "kube-system"
  requests := Dict.ofList [("cpu", .ofMilli 100 .decimalSI)]

/-- The template with a number for a group and its scale set, the tags of which are gone through in
some order. -/
def assemble (number : UInt64) (group : String) (s : ScaleSet) (tags : List (String × String)) :
    NodeTemplate :=
  let name := templateName group number
  let capacity := (Dict.ofList (builtinResources s.sku)).union (resources tags)
  { name
    labels := (Dict.ofList (builtinLabels name s)).union (labels tags)
    taints := taints tags
    capacity
    allocatable := capacity
    pods := [proxyPod name] }

/-- The template with a number for a group and its scale set. -/
def synthesize (number : UInt64) (group : String) (s : ScaleSet) : NodeTemplate :=
  assemble number group s s.tags.entries

end NodeGroups.Template
