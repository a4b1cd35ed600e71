import NodeGroups.Text.Quoted

/-!
# Errors of the configuration

The ways in which a provider configuration, one of its node groups or one of its texts can be
wrong, and the message for each.
-/

namespace NodeGroups

/-- What is wrong with a configured node group. -/
inductive GroupFault
  | emptyName
  | invertedBounds (name : String) (minSize maxSize : UInt32)
  deriving DecidableEq, Repr

/-- What is wrong with a compact group description `min:max:name`. -/
inductive SpecFault
  | missingParts
  | badMinSize
  | badMaxSize
  | badGroup (fault : GroupFault)
  deriving DecidableEq, Repr

/-- Why a configuration cannot be used. -/
inductive ConfigError
  /-- The file could not be read; `reason` says why. -/
  | unreadable (reason : String)
  /-- The text is not TOML, or its tables do not have the shape of a configuration. -/
  | malformed
  | badSpec (spec : String) (fault : SpecFault)
  /-- The text, without the white space around it, is not a duration. -/
  | badDuration (text : String)
  | emptyResourceGroup
  | badGroup (fault : GroupFault)
  /-- Two groups have this name up to letter case; the spelling is that of the later one. -/
  | duplicateGroup (name : String)
  deriving DecidableEq, Repr

def GroupFault.detail : GroupFault → String
  | emptyName => "node group name must not be empty"
  | invertedBounds name minSize maxSize =>
    "node group " ++ Text.quoted name ++ s!": min size {minSize} exceeds max size {maxSize}"

/-- The message for a configuration with the described fault. -/
def ConfigError.invalidMessage (detail : String) : String := "invalid config: " ++ detail

def SpecFault.reason : SpecFault → String
  | missingParts => "expected min:max:name"
  | badMinSize => "min size is not a non-negative integer"
  | badMaxSize => "max size is not a non-negative integer"
  | badGroup fault => ConfigError.invalidMessage fault.detail

def ConfigError.message : ConfigError → String
  | unreadable reason => "failed to read config: " ++ reason
  | malformed => "failed to parse config"
  | badSpec spec fault => "invalid node group spec " ++ Text.quoted spec ++ ": " ++ fault.reason
  | badDuration text => "invalid duration " ++ Text.quoted text
  | emptyResourceGroup => invalidMessage "resource_group must not be empty"
  | badGroup fault => invalidMessage fault.detail
  | duplicateGroup name =>
    invalidMessage ("node group " ++ Text.quoted name ++ " is configured twice")

end NodeGroups
