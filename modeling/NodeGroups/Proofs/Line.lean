import NodeGroups.Proofs.Lock

/-!
# Locks of writers

If all who ask for a lock want to write, the lock is a line: the first in it holds the lock and the
others wait in their order. Whoever asks joins at the end, and when the first one leaves the next
one is admitted.
-/

namespace NodeGroups.Lock

/-- Somebody who wants to write, as the lock knows him. -/
def writer (who : Nat) : Nat × Access := (who, .exclusive)

/-- The lock that some have asked for to write, in this order. -/
def line (whos : List Nat) : Lock := ⟨(whos.take 1).map writer, (whos.drop 1).map writer⟩

theorem line_nil : line [] = free := rfl

theorem line_cons (who : Nat) (whos : List Nat) :
    line (who :: whos) = ⟨[writer who], whos.map writer⟩ := by
  simp [line]

/-- A writer is not admitted beside another. -/
theorem settle_writer (who : Nat) (whos : List Nat) :
    settle [writer who] (whos.map writer) = line (who :: whos) := by
  rw [line_cons]
  cases whos with
  | nil => rfl
  | cons other whos => rfl

theorem settle_nil_writers (whos : List Nat) : settle [] (whos.map writer) = line whos := by
  cases whos with
  | nil => rfl
  | cons who whos =>
    rw [List.map_cons, settle, if_pos (by rfl)]
    exact settle_writer who whos

theorem request_line (who : Nat) (whos : List Nat) :
    (line whos).request who .exclusive = line (whos ++ [who]) := by
  cases whos with
  | nil => rfl
  | cons first whos =>
    have hqueue : whos.map writer ++ [(who, .exclusive)] = (whos ++ [who]).map writer := by
      rw [List.map_append]
      rfl
    rw [line_cons, request, hqueue]
    exact settle_writer first (whos ++ [who])

theorem leave_line {who : Nat} {whos : List Nat} (hnew : who ∉ whos) :
    (line (who :: whos)).leave who = line whos := by
  have hself : [writer who].filter (·.1 ≠ who) = [] := by simp [writer]
  have hothers : (whos.map writer).filter (·.1 ≠ who) = whos.map writer := by
    rw [List.filter_eq_self]
    intro h hmem
    obtain ⟨other, hother, rfl⟩ := List.mem_map.mp hmem
    exact decide_eq_true fun heq ↦ hnew (heq ▸ hother)
  rw [line_cons, leave, hself, hothers]
  exact settle_nil_writers whos

theorem isHeldBy_line {who : Nat} {whos : List Nat} :
    (line whos).isHeldBy who = true ↔ whos.head? = some who := by
  cases whos with
  | nil => simp [line_nil, free, isHeldBy]
  | cons first whos => simp [line_cons, isHeldBy, writer]

theorem admitted_self (l : Lock) : l.admitted l = [] := by
  rw [admitted, List.map_eq_nil_iff, List.filter_eq_nil_iff]
  intro h hmem
  rw [isHeldBy_iff.mpr ⟨h.2, hmem⟩]
  nofun

theorem admitted_line_concat (who : Nat) (whos : List Nat) :
    (line whos).admitted (line (whos ++ [who])) = if whos = [] then [who] else [] := by
  cases whos with
  | nil => rfl
  | cons first whos =>
    rw [List.cons_append, line_cons, line_cons, if_neg (List.cons_ne_nil _ _)]
    simp [admitted, isHeldBy, writer]

/-- The next one is admitted when the first one leaves. -/
theorem admitted_line_tail {who : Nat} {whos : List Nat} (hnew : who ∉ whos) :
    (line (who :: whos)).admitted (line whos) = whos.take 1 := by
  cases whos with
  | nil => rfl
  | cons next whos =>
    have hne : who ≠ next := fun heq ↦ hnew (heq ▸ List.mem_cons_self)
    rw [line_cons, line_cons]
    simp [admitted, isHeldBy, writer, hne]

end NodeGroups.Lock
