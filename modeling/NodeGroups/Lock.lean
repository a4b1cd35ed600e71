/-!
# Fair locks

A lock that many may hold to read, or one to write. It is first come, first served: whoever cannot
be admitted at once waits in a queue, and nobody overtakes. So a reader waits behind a writer that
waits, though the lock is held by readers only.
-/

namespace NodeGroups

/-- What a lock is held for. -/
inductive Access
  | shared
  | exclusive
  deriving DecidableEq, Repr

/-- A lock. Those who hold it or wait for it are known by numbers. -/
structure Lock where
  holders : List (Nat × Access)
  /-- Those who wait, the first to come first. -/
  waiting : List (Nat × Access)
  deriving DecidableEq

namespace Lock

def free : Lock := ⟨[], []⟩

/-- Whether somebody may join the holders. -/
def admits (holders : List (Nat × Access)) (access : Access) : Bool :=
  holders.isEmpty || (access == .shared && holders.all (·.2 == .shared))

/-- Admits from the front of the queue whoever may join the holders. -/
def settle (holders : List (Nat × Access)) : List (Nat × Access) → Lock
  | [] => ⟨holders, []⟩
  | w :: ws =>
    if admits holders w.2 then settle (holders ++ [w]) ws else ⟨holders, w :: ws⟩

/-- The lock after somebody asked for it. -/
def request (who : Nat) (access : Access) (l : Lock) : Lock :=
  settle l.holders (l.waiting ++ [(who, access)])

/-- The lock after somebody gave it back, or gave up waiting for it. -/
def leave (who : Nat) (l : Lock) : Lock :=
  settle (l.holders.filter (·.1 ≠ who)) (l.waiting.filter (·.1 ≠ who))

def isHeldBy (who : Nat) (l : Lock) : Bool := l.holders.any (·.1 == who)

/-- Those who hold the lock now and did not before. -/
def admitted (before after : Lock) : List Nat :=
  (after.holders.filter fun h ↦ !before.isHeldBy h.1).map Prod.fst

/-! ## Mutual exclusion -/

/-- Whoever holds the lock to write is its only holder. -/
def IsExclusive (l : Lock) : Prop :=
  ∀ h ∈ l.holders, h.2 = .exclusive → l.holders = [h]

theorem isExclusive_free : free.IsExclusive := by
  intro h hmem
  simp [free] at hmem

theorem admits_iff {holders : List (Nat × Access)} {access : Access} :
    admits holders access = true ↔
      holders = [] ∨ access = .shared ∧ ∀ h ∈ holders, h.2 = .shared := by
  simp [admits]

/-- Admitting from the queue keeps writers alone. -/
theorem isExclusive_settle {holders : List (Nat × Access)} (queue : List (Nat × Access))
    (hexcl : IsExclusive ⟨holders, []⟩) : (settle holders queue).IsExclusive := by
  induction queue generalizing holders with
  | nil => exact hexcl
  | cons w ws ih =>
    rw [settle]
    split
    · next hadmits =>
      refine ih fun h hmem hwriter ↦ ?_
      rcases admits_iff.mp hadmits with hnil | ⟨hshared, hall⟩
      · subst hnil
        simpa [eq_comm] using hmem
      · rcases List.mem_append.mp hmem with hold | hnew
        · simp [hall h hold] at hwriter
        · simp [List.mem_singleton.mp hnew, hshared] at hwriter
    · exact hexcl

theorem isExclusive_request {l : Lock} (who : Nat) (access : Access) (hexcl : l.IsExclusive) :
    (l.request who access).IsExclusive :=
  isExclusive_settle _ hexcl

theorem isExclusive_leave {l : Lock} (who : Nat) (hexcl : l.IsExclusive) :
    (l.leave who).IsExclusive := by
  refine isExclusive_settle _ fun h hmem hwriter ↦ ?_
  obtain ⟨hold, hother⟩ := List.mem_filter.mp hmem
  simpa [hexcl h hold hwriter] using hother

end Lock

end NodeGroups
