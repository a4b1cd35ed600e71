import NodeGroups.Group.Error
import NodeGroups.Text.Blank
import NodeGroups.Text.Case
import NodeGroups.Text.Split

/-!
# Provider IDs

The cluster identifies a machine of a scale set by a path with four names in it:

```text
azure:///subscriptions/S/resourceGroups/R/providers/Microsoft.Compute/
  virtualMachineScaleSets/N/virtualMachines/I
```

(in one line). The cloud lists the same machine without `azure://`. Both forms are read, the fixed
words of the path in any letter case; the written form always has the scheme, and the fixed words
in the spelling above. Cloud names do not depend on letter case, so machines are compared by a key
in which ASCII capitals are small.
-/

namespace NodeGroups

/-- The names that identify a machine of a scale set. -/
structure ProviderId where
  subscription : String
  resourceGroup : String
  scaleSet : String
  instanceId : String
  deriving DecidableEq, Repr

namespace ProviderId

/-- What marks the cluster's form of the path. -/
def scheme : List Char := ['a', 'z', 'u', 'r', 'e', ':', '/', '/']

/-- The small letter that a letter equals without regard to case. Beside the capitals, two
characters outside ASCII fold to an ASCII letter: the long `s` and the Kelvin sign. -/
def foldLetter (c : Char) : Char :=
  if c = '\u017f' then 's' else if c = '\u212a' then 'k' else c.toLower

/-- Whether a part of the path is a fixed word of it, in any letter case. -/
def isWord (word : String) (part : List Char) : Bool :=
  part.map foldLetter == word.toList.map foldLetter

/-- The names in a path, without the scheme. -/
def ofPath? (path : List Char) : Option ProviderId :=
  match Text.splitAll '/' path with
  | [start, w₁, s, w₂, r, w₃, w₄, w₅, n, w₆, i] =>
    if start.isEmpty && isWord "subscriptions" w₁ && isWord "resourceGroups" w₂
        && isWord "providers" w₃ && isWord "Microsoft.Compute" w₄
        && isWord "virtualMachineScaleSets" w₅ && isWord "virtualMachines" w₆
        && !s.isEmpty && !r.isEmpty && !n.isEmpty && !i.isEmpty then
      some ⟨.ofList s, .ofList r, .ofList n, .ofList i⟩
    else none
  | _ => none

def parse? (raw : String) : Option ProviderId :=
  let text := Text.trim raw.toList
  ofPath? ((Text.afterOpening? scheme text).getD text)

/-- Reads a provider ID, with the error for a text that is none. -/
def parse (raw : String) : Except GroupError ProviderId :=
  match parse? raw with
  | some id => .ok id
  | none => .error (.malformedId raw)

theorem parse_eq_ok_iff_parse? {raw : String} {id : ProviderId} :
    parse raw = .ok id ↔ parse? raw = some id := by
  rw [parse]
  cases parse? raw with
  | none => simp
  | some other => simp

def path (id : ProviderId) : String :=
  "/subscriptions/" ++ id.subscription ++ "/resourceGroups/" ++ id.resourceGroup
    ++ "/providers/Microsoft.Compute/virtualMachineScaleSets/" ++ id.scaleSet
    ++ "/virtualMachines/" ++ id.instanceId

def print (id : ProviderId) : String := String.ofList scheme ++ id.path

/-- The key by which machines are compared. -/
def key (id : ProviderId) : String := Text.foldCase id.print

/-- Whether the machine belongs to a scale set. -/
def IsIn (id : ProviderId) (resourceGroup name : String) : Prop :=
  Text.SameName id.resourceGroup resourceGroup ∧ Text.SameName id.scaleSet name

instance (id : ProviderId) (resourceGroup name : String) :
    Decidable (id.IsIn resourceGroup name) := inferInstanceAs (Decidable (_ ∧ _))

end ProviderId

end NodeGroups
