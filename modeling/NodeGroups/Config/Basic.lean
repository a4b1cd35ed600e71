import NodeGroups.Config.Error
import NodeGroups.Duration
import NodeGroups.Text.Blank
import NodeGroups.Text.Case

/-!
# The provider configuration

Which node groups there are and how often they are refreshed. Durations are kept as they were
written and read when they are needed; `validate` finds out beforehand whether all of them can
be read, and whether sizes and names make sense.
-/

namespace NodeGroups

/-- The configuration of one node group. -/
structure GroupConfig where
  /-- The name of the scale set. -/
  name : String
  minSize : UInt32
  maxSize : UInt32
  /-- How long a view of the group is good, if it has its own period. -/
  refreshPeriod : Option String
  deriving DecidableEq, Repr

/-- The configuration of refreshes. -/
structure RefreshConfig where
  /-- The period of groups without their own. -/
  defaultPeriod : Option String
  /-- How long the refresh of one group may take. -/
  groupTimeout : Option String
  /-- The least time between refresh passes. -/
  minInterval : Option String
  deriving DecidableEq, Repr

/-- Refreshes with nothing configured. -/
def RefreshConfig.unset : RefreshConfig := ⟨none, none, none⟩

/-- The configuration of the provider. -/
structure ProviderConfig where
  subscriptionId : String
  /-- The resource group of all scale sets. -/
  resourceGroup : String
  refresh : RefreshConfig
  nodeGroups : List GroupConfig
  deriving DecidableEq, Repr

/-! ## Durations -/

def readDuration (text : String) : Except ConfigError Duration :=
  match Duration.parse? text with
  | some d => .ok d
  | none => .error (.badDuration (Text.trimmed text))

/-- Reads a configured duration that has a value for when it is not set. -/
def readDurationOr (default : Duration) : Option String → Except ConfigError Duration
  | none => .ok default
  | some text => readDuration text

namespace RefreshConfig

/-- The period of groups without their own. -/
def readDefaultPeriod (r : RefreshConfig) : Except ConfigError Duration :=
  readDurationOr .defaultRefreshPeriod r.defaultPeriod

/-- How long the refresh of one group may take. -/
def readGroupTimeout (r : RefreshConfig) : Except ConfigError Duration :=
  readDurationOr .defaultGroupTimeout r.groupTimeout

/-- The least time between refresh passes. -/
def readMinInterval (r : RefreshConfig) : Except ConfigError Duration :=
  readDurationOr .defaultMinInterval r.minInterval

end RefreshConfig

def ProviderConfig.readPeriod (c : ProviderConfig) (g : GroupConfig) :
    Except ConfigError Duration :=
  match g.refreshPeriod with
  | some text => readDuration text
  | none => c.refresh.readDefaultPeriod

/-! ## Validation -/

/-- What is wrong with the name and the sizes of a group. -/
def GroupConfig.fault? (g : GroupConfig) : Option GroupFault :=
  if Text.IsBlank g.name then some .emptyName
  else if g.maxSize < g.minSize then some (.invertedBounds g.name g.minSize g.maxSize)
  else none

def GroupConfig.validate (g : GroupConfig) : Except ConfigError Unit :=
  match g.fault?, g.refreshPeriod with
  | some fault, _ => .error (.badGroup fault)
  | none, none => .ok ()
  | none, some text => (readDuration text).map fun _ ↦ ()

/-- Checks groups one after another, `seen` being the names before them in small letters. A
group is checked by itself before its name is compared. -/
def validateGroups (seen : List String) : List GroupConfig → Except ConfigError Unit
  | [] => .ok ()
  | g :: gs => do
    g.validate
    if Text.foldCase g.name ∈ seen then .error (.duplicateGroup g.name)
    else validateGroups (Text.foldCase g.name :: seen) gs

/-- Checks a configuration; the error is that of the first thing found wrong. -/
def ProviderConfig.validate (c : ProviderConfig) : Except ConfigError Unit := do
  if Text.IsBlank c.resourceGroup then
    .error .emptyResourceGroup
  else
    let _ ← c.refresh.readDefaultPeriod
    let _ ← c.refresh.readGroupTimeout
    let _ ← c.refresh.readMinInterval
    validateGroups [] c.nodeGroups

end NodeGroups
