import NodeGroups.Config.Basic
import NodeGroups.Text.Numeral
import NodeGroups.Text.Split

/-!
# Compact group descriptions

A node group in one short text, `min:max:name`, as on a command line. White space around the
three parts is ignored, and the name may contain colons.
-/

namespace NodeGroups.GroupConfig

/-- The three parts of a compact description. -/
def splitSpec? (s : List Char) : Option (List Char × List Char × List Char) :=
  (Text.cutFirst? ':' s).bind fun p ↦
    (Text.cutFirst? ':' p.2).map fun q ↦ (p.1, q.1, q.2)

def readSpec (s : List Char) : Except SpecFault GroupConfig :=
  match splitSpec? s with
  | none => .error .missingParts
  | some (minPart, maxPart, namePart) =>
    match Text.readSize? (Text.trim minPart) with
    | none => .error .badMinSize
    | some minSize =>
      match Text.readSize? (Text.trim maxPart) with
      | none => .error .badMaxSize
      | some maxSize =>
        let name := String.ofList (Text.trim namePart)
        let group : GroupConfig := { name, minSize, maxSize, refreshPeriod := none }
        match group.fault? with
        | some fault => .error (.badGroup fault)
        | none => .ok group

/-- Reads a compact description. -/
def ofSpec (spec : String) : Except ConfigError GroupConfig :=
  match readSpec spec.toList with
  | .ok group => .ok group
  | .error fault => .error (.badSpec spec fault)

end NodeGroups.GroupConfig
