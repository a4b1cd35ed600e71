import NodeGroups.Dict
import NodeGroups.Quantity.Basic
import NodeGroups.Text.Quoted

/-!
# Node templates

A template stands for the nodes that a group would add, so that the scheduler can be simulated
against a group without nodes. It says what a node of the group would carry: labels, taints and
resources, and the pods that run on every node.
-/

namespace NodeGroups

/-- What a taint does to pods that do not tolerate it. -/
inductive TaintEffect
  | noSchedule
  | preferNoSchedule
  | noExecute
  deriving DecidableEq, Repr

namespace TaintEffect

def names : List (String × TaintEffect) :=
  [("NoSchedule", .noSchedule), ("PreferNoSchedule", .preferNoSchedule),
    ("NoExecute", .noExecute)]

def parse? (word : String) : Option TaintEffect := names.lookup word

def print : TaintEffect → String
  | noSchedule => "NoSchedule"
  | preferNoSchedule => "PreferNoSchedule"
  | noExecute => "NoExecute"

/-- The message for a word that names no effect. -/
def unknownMessage (word : String) : String := "unknown taint effect " ++ Text.quoted word

end TaintEffect

/-- A mark on a node that keeps pods away. -/
structure Taint where
  key : String
  value : String
  effect : TaintEffect
  deriving DecidableEq, Repr

/-- A pod that takes up room on a node. -/
structure Pod where
  name : String
  space : String
  /-- The resources that it takes. -/
  requests : Dict Quantity
  deriving DecidableEq

/-- A node that a group would add. -/
structure NodeTemplate where
  name : String
  labels : Dict String
  taints : List Taint
  capacity : Dict Quantity
  /-- The part of the capacity that is left for pods. -/
  allocatable : Dict Quantity
  pods : List Pod
  deriving DecidableEq

end NodeGroups
