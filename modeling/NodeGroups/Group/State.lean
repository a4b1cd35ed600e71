import NodeGroups.Cache
import NodeGroups.Group.Basic

/-!
# The state of a group

A group has no view of the cloud until its first reload succeeds; from then on it has one. The
target size is the capacity as of the view, corrected by the group's own resizes and deletions
since. Those are counted, so that a reload can tell whether its view is older than one of them.
-/

namespace NodeGroups.Group

/-- What a group knows of its scale set. -/
structure View where
  cache : Cache
  /-- The number of instances that the group wants. -/
  target : UInt32
  /-- When the view was installed. -/
  refreshedAt : Nat
  deriving DecidableEq

/-- What changes about a group over time. -/
structure State where
  /-- The view of the scale set, once there is one. -/
  view : Option View
  /-- The number of resizes and deletions so far, modulo `2 ^ 64`. -/
  mutations : UInt64
  deriving DecidableEq

namespace State

def initial : State := ⟨none, 0⟩

def requireView (g : Group) (s : State) : Except GroupError View :=
  match s.view with
  | some v => .ok v
  | none => .error (.notPopulated g.name)

def lastRefresh (s : State) : Option Nat := s.view.map View.refreshedAt

/-- Whether there is no view, or the one there is has been installed a refresh period ago. -/
def needsRefresh (g : Group) (now : Nat) (s : State) : Bool :=
  match s.view with
  | none => true
  | some v => g.refreshPeriod.ms ≤ now - v.refreshedAt

/-- Installs a view, unless there was a mutation since the counter stood at `generation`. -/
def install (generation : UInt64) (cache : Cache) (now : Nat) (s : State) : State :=
  if s.mutations = generation then { s with view := some ⟨cache, cache.capacity, now⟩ } else s

@[simp] theorem mutations_install (generation : UInt64) (cache : Cache) (now : Nat) (s : State) :
    (s.install generation cache now).mutations = s.mutations := by
  rw [install]
  split <;> rfl

theorem install_of_eq {generation : UInt64} {s : State} (hsame : s.mutations = generation)
    (cache : Cache) (now : Nat) :
    s.install generation cache now = { s with view := some ⟨cache, cache.capacity, now⟩ } :=
  if_pos hsame

theorem install_of_ne {generation : UInt64} {s : State} (hne : s.mutations ≠ generation)
    (cache : Cache) (now : Nat) : s.install generation cache now = s :=
  if_neg hne

end State

end NodeGroups.Group
