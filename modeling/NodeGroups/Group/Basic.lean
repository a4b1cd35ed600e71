import NodeGroups.Config.Spec
import NodeGroups.Group.Error
import NodeGroups.Text.Quoted

/-!
# Node groups

A node group is a scale set with bounds on its size. What changes over time, the group's view of
the cloud, is kept apart from it in `NodeGroups.Group.State`.
-/

namespace NodeGroups

/-- A scale set under the autoscaler's control. -/
structure Group where
  /-- The name of the scale set. -/
  name : String
  resourceGroup : String
  minSize : UInt32
  maxSize : UInt32
  /-- How long a view of the group is good. -/
  refreshPeriod : Duration
  named : ¬ Text.IsBlank name
  min_le_max : minSize ≤ maxSize

namespace Group

/-- The group with a name and bounds, if they make sense. The name is checked first. -/
def create (name resourceGroup : String) (minSize maxSize : UInt32)
    (refreshPeriod : Duration) : Except GroupError Group :=
  if hname : Text.IsBlank name then .error .emptyName
  else if hsize : maxSize < minSize then .error (.invertedBounds name minSize maxSize)
  else .ok ⟨name, resourceGroup, minSize, maxSize, refreshPeriod, hname, UInt32.not_lt.mp hsize⟩

/-- The group that a provider's configuration sets up. -/
def ofConfig (c : ProviderConfig) (g : GroupConfig) : Except GroupError Group := do
  let period ← (c.readPeriod g).mapError .badConfig
  create g.name c.resourceGroup g.minSize g.maxSize period

/-- The group that a compact description sets up. -/
def ofSpec (spec resourceGroup : String) : Except GroupError Group := do
  let g ← (GroupConfig.ofSpec spec).mapError .badConfig
  create g.name resourceGroup g.minSize g.maxSize .defaultRefreshPeriod

/-- The group in one word, with its bounds. -/
def summary (g : Group) : String := s!"{g.name} ({g.minSize}:{g.maxSize})"

/-- The group in full. -/
def print (g : Group) : String :=
  "ScaleSet \x7b name: " ++ Text.quoted g.name ++ ", resource_group: "
    ++ Text.quoted g.resourceGroup ++ s!", min_size: {g.minSize}, max_size: {g.maxSize}"
    ++ ", refresh_period: " ++ g.refreshPeriod.print ++ ", .. \x7d"

end Group

end NodeGroups
