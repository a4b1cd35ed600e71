import NodeGroups.Group.Basic
import NodeGroups.ProviderId

/-!
# The registry of groups

The groups that the autoscaler works with, in the order in which they were registered, and how
often they are refreshed. No two of them have names that differ only in letter case, so a name
stands for one group at most, and a provider ID is of one group at most.
-/

namespace NodeGroups

/-- A group and the place where its state is kept. -/
structure Handle where
  group : Group
  place : Nat

/-- The registered groups. -/
structure Registry where
  handles : List Handle
  /-- How long the refresh of one group may take. -/
  groupTimeout : Duration
  /-- The least time between refresh passes. -/
  minInterval : Duration
  /-- When the last refresh pass started. -/
  lastPass : Option Nat
  distinct : handles.Pairwise fun a b ↦ ¬ Text.SameName a.group.name b.group.name

namespace Registry

def empty (groupTimeout minInterval : Duration) : Registry :=
  ⟨[], groupTimeout, minInterval, none, List.Pairwise.nil⟩

/-! ## Looking up -/

def find? (r : Registry) (name : String) : Option Handle :=
  r.handles.find? fun h ↦ Text.SameName h.group.name name

/-- The group whose scale set a provider ID names. -/
def named? (r : Registry) (id : ProviderId) : Option Handle :=
  r.handles.find? fun h ↦ id.IsIn h.group.resourceGroup h.group.name

/-- Whether a refresh pass would come too soon after the last one. -/
def tooSoon (r : Registry) (now : Nat) : Bool :=
  match r.lastPass with
  | some last => now - last < r.minInterval.ms
  | none => false

/-! ## Registering -/

theorem find?_eq_none {r : Registry} {name : String} (hnone : r.find? name = none) :
    ∀ h ∈ r.handles, ¬ Text.SameName h.group.name name := by
  simpa [find?] using hnone

/-- The registry with one more group, unless there is a group with the name already. -/
def register? (r : Registry) (h : Handle) : Option Registry :=
  match hfind : r.find? h.group.name with
  | some _ => none
  | none =>
    some { r with
      handles := r.handles ++ [h]
      distinct := List.pairwise_append.mpr
        ⟨r.distinct, List.pairwise_singleton _ _, fun a ha b hb ↦ by
          rw [List.mem_singleton.mp hb]; exact find?_eq_none hfind a ha⟩ }

theorem exists_register? {r : Registry} {h : Handle} (hnone : r.find? h.group.name = none) :
    ∃ r', r.register? h = some r' := by
  rw [register?]
  split
  · next hsome =>
    rw [hnone] at hsome
    cases hsome
  · exact ⟨_, rfl⟩

/-- A group that is registered comes after the others. -/
theorem handles_of_register? {r r' : Registry} {h : Handle} (hregister : r.register? h = some r') :
    r'.handles = r.handles ++ [h] := by
  rw [register?] at hregister
  split at hregister
  · cases hregister
  · rw [← Option.some.inj hregister]

theorem times_of_register? {r r' : Registry} {h : Handle} (hregister : r.register? h = some r') :
    r'.lastPass = r.lastPass ∧ r'.minInterval = r.minInterval
      ∧ r'.groupTimeout = r.groupTimeout := by
  rw [register?] at hregister
  split at hregister
  · cases hregister
  · rw [← Option.some.inj hregister]
    exact ⟨rfl, rfl, rfl⟩

/-- Registers the groups that a configuration sets up. The place of each is its position. -/
def addConfigured (c : ProviderConfig) (r : Registry) :
    List GroupConfig → Except GroupError Registry
  | [] => .ok r
  | g :: gs => do
    let group ← Group.ofConfig c g
    addConfigured c ((r.register? ⟨group, r.handles.length⟩).getD r) gs

/-- The registry that a configuration sets up. The configuration is validated first. -/
def ofConfig (c : ProviderConfig) : Except GroupError Registry := do
  c.validate.mapError .badConfig
  let groupTimeout ← c.refresh.readGroupTimeout.mapError .badConfig
  let minInterval ← c.refresh.readMinInterval.mapError .badConfig
  addConfigured c (empty groupTimeout minInterval) c.nodeGroups

end Registry

end NodeGroups
