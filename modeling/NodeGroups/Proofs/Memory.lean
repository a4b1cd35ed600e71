import NodeGroups.Cloud.Memory
import NodeGroups.Proofs.Advance
import NodeGroups.Proofs.Planning

/-!
# What a cloud in memory answers

For one group, all that matters of a cloud in memory is the holding of its scale set. The questions
are answered from it, an accepted change makes one holding of another, and taking a call leaves it
as it is.
-/

namespace NodeGroups

namespace Memory

variable {m m' : Memory} {resourceGroup name : String}

theorem lookup_assign {κ β : Type} [DecidableEq κ] [BEq κ] [LawfulBEq κ] (k : κ) (v : β)
    (es : List (κ × β)) : (assign k v es).lookup k = some v := by
  induction es with
  | nil => rw [assign, List.lookup_cons_self]
  | cons e es ih =>
    rw [assign]
    split
    · exact List.lookup_cons_self
    · next hne => rw [List.lookup_cons, beq_false_of_ne (Ne.symm hne), ih]

theorem lookup_assign_of_ne {κ β : Type} [DecidableEq κ] [BEq κ] [LawfulBEq κ] {k k' : κ}
    (hne : k' ≠ k) (v : β) (es : List (κ × β)) : (assign k v es).lookup k' = es.lookup k' := by
  induction es with
  | nil => rw [assign, List.lookup_cons, beq_false_of_ne hne]
  | cons e es ih =>
    rw [assign]
    split
    · next heq =>
      have hkey : (k' == e.1) = false := beq_false_of_ne (heq ▸ hne)
      rw [List.lookup_cons, List.lookup_cons, beq_false_of_ne hne, hkey]
    · rw [List.lookup_cons, List.lookup_cons, ih]

theorem key_eq_key_iff {resourceGroup' name' : String} :
    key resourceGroup' name' = key resourceGroup name
      ↔ Text.SameName resourceGroup' resourceGroup ∧ Text.SameName name' name :=
  Prod.mk.injEq .. ▸ Iff.rfl

@[simp] theorem holding?_setHolding (m : Memory) (resourceGroup name : String) (h : Holding) :
    (m.setHolding resourceGroup name h).holding? resourceGroup name = some h := by
  rw [holding?]
  exact lookup_assign (key resourceGroup name) h m.holdings

theorem holding?_setHolding_of_ne {resourceGroup' name' : String} (h : Holding)
    (hne : ¬ (Text.SameName resourceGroup' resourceGroup ∧ Text.SameName name' name)) :
    (m.setHolding resourceGroup name h).holding? resourceGroup' name'
      = m.holding? resourceGroup' name' := by
  rw [← key_eq_key_iff] at hne
  exact lookup_assign_of_ne hne h m.holdings

theorem find_eq_ok_iff {h : Holding} : m.find resourceGroup name = .ok h ↔
    m.holding? resourceGroup name = some h := by
  rw [find]
  split
  · next h' hsome => rw [hsome, Except.ok.injEq, Option.some.injEq]
  · next hnone =>
    rw [hnone]
    exact ⟨nofun, nofun⟩

theorem describe_eq_ok_iff {d : ScaleSet} : client.describe resourceGroup name m = .ok d ↔
    ∃ h, m.holding? resourceGroup name = some h ∧ h.scaleSet = d := by
  rw [client, map_eq_ok_iff]
  simp only [find_eq_ok_iff]

theorem list_eq_ok_iff {listing : List Instance} :
    client.list resourceGroup name m = .ok listing ↔
      ∃ h, m.holding? resourceGroup name = some h ∧ h.instances = listing := by
  rw [client, map_eq_ok_iff]
  simp only [find_eq_ok_iff]

theorem setCapacity_eq_ok_iff {capacity : UInt32} :
    setCapacity resourceGroup name capacity m = .ok m' ↔
      ∃ h, m.holding? resourceGroup name = some h ∧ m.setHolding resourceGroup name
        { h with scaleSet := { h.scaleSet with capacity } } = m' := by
  rw [setCapacity, map_eq_ok_iff]
  simp only [find_eq_ok_iff]

/-- A deletion is accepted if nothing is wrong with any of the instances. -/
theorem delete_eq_ok_iff {ids : List String} :
    delete resourceGroup name ids m = .ok m' ↔
      ∃ h, m.holding? resourceGroup name = some h
        ∧ (∀ id ∈ ids, deletionFault? h.instances name id = none)
        ∧ { m.setHolding resourceGroup name (afterDeletion ids h) with
            deletions := m.deletions ++ [ids] } = m' := by
  refine bind_eq_ok_iff.trans (exists_congr fun h ↦ ?_)
  rw [find_eq_ok_iff, ← List.findSome?_eq_none_iff]
  refine and_congr_right fun _ ↦ ?_
  cases ids.findSome? (deletionFault? h.instances name) with
  | none => simp
  | some e => simp

theorem find_ne_conflict (detail : String) :
    m.find resourceGroup name ≠ .error (.conflict detail) := by
  rw [find]
  split <;> nofun

/-- Only an instance that is on its way out makes for a conflict. -/
theorem isDeleting_of_deletionFault? {instances : List Instance} {id detail : String}
    (hfault : deletionFault? instances name id = some (.conflict detail)) :
    ∃ i ∈ instances, i.instanceId = id ∧ i.state.isDeleting = true := by
  rw [deletionFault?] at hfault
  split at hfault
  · cases hfault
  · next i hfind =>
    split at hfault
    · next hdeleting =>
      have hid : i.instanceId = id := by simpa using List.find?_some hfind
      exact ⟨i, List.mem_of_find?_eq_some hfind, hid, hdeleting⟩
    · cases hfault

theorem setCapacity_ne_conflict (capacity : UInt32) (detail : String) :
    setCapacity resourceGroup name capacity m ≠ .error (.conflict detail) := by
  intro hconflict
  rw [setCapacity] at hconflict
  cases hfind : m.find resourceGroup name with
  | ok h =>
    rw [hfind] at hconflict
    cases hconflict
  | error e =>
    rw [hfind] at hconflict
    rw [Except.error.inj hconflict] at hfind
    exact find_ne_conflict detail hfind

theorem exists_isDeleting_of_delete {ids : List String} {detail : String}
    (hconflict : delete resourceGroup name ids m = .error (.conflict detail)) :
    ∃ h, m.holding? resourceGroup name = some h
      ∧ ∃ i ∈ h.instances, i.instanceId ∈ ids ∧ i.state.isDeleting = true := by
  rw [delete] at hconflict
  cases hfind : m.find resourceGroup name with
  | error e =>
    rw [hfind] at hconflict
    rw [Except.error.inj hconflict] at hfind
    exact absurd hfind (find_ne_conflict detail)
  | ok h =>
    refine ⟨h, find_eq_ok_iff.mp hfind, ?_⟩
    rw [hfind, Except.bind] at hconflict
    cases hfault : ids.findSome? (deletionFault? h.instances name) with
    | none =>
      rw [hfault] at hconflict
      cases hconflict
    | some e =>
      rw [hfault] at hconflict
      obtain rfl : e = .conflict detail := Except.error.inj hconflict
      obtain ⟨id, hid, hfault⟩ := List.exists_of_findSome?_eq_some hfault
      obtain ⟨i, hi, rfl, hdeleting⟩ := isDeleting_of_deletionFault? hfault
      exact ⟨i, hi, hid, hdeleting⟩

end Memory

/-! ## The holding of a group -/

namespace Group

/-- What a change makes of a holding. -/
def Change.apply : Change → Holding → Holding
  | .resize target, h => { h with scaleSet := { h.scaleSet with capacity := target } }
  | .delete ids _, h => Memory.afterDeletion ids h

/-- A change does nothing to the instances but to mark those that are submitted. -/
theorem Change.instances_apply (change : Change) (h : Holding) :
    (change.apply h).instances = markDeleting change.submitted h.instances := by
  cases change with
  | resize target => exact (markDeleting_nil _).symm
  | delete ids target => rfl

def holding? (g : Group) (m : Memory) : Option Holding := m.holding? g.resourceGroup g.name

variable {g : Group} {m m' : Memory}

theorem answers_memory (g : Group) : Answers Memory.client g := by
  intro call m receipt m' hsubmit
  obtain ⟨-, hreceipt⟩ := Option.ite_none_left_eq_some.mp hsubmit
  obtain ⟨rfl, -⟩ := Prod.mk.inj (Option.some.inj hreceipt)
  cases m.delays.lookup (call, Text.foldCase g.name) <;> nofun

theorem holding?_of_sent {call : Call} (hsent : Sent Memory.client g call m m') :
    g.holding? m' = g.holding? m := by
  obtain ⟨receipt, hsubmit⟩ := hsent
  change Memory.submit call g.resourceGroup g.name m = _ at hsubmit
  rw [Memory.submit] at hsubmit
  split at hsubmit
  · cases hsubmit
  · cases hsubmit
    rfl

theorem holding?_of_execute {change : Change}
    (hexecute : change.execute Memory.client g m = .ok m') :
    ∃ h, g.holding? m = some h ∧ g.holding? m' = some (change.apply h) := by
  cases change with
  | resize target =>
    obtain ⟨h, hholding, rfl⟩ := Memory.setCapacity_eq_ok_iff.mp hexecute
    exact ⟨h, hholding, Memory.holding?_setHolding _ _ _ _⟩
  | delete ids target =>
    obtain ⟨h, hholding, -, rfl⟩ := Memory.delete_eq_ok_iff.mp hexecute
    exact ⟨h, hholding, Memory.holding?_setHolding _ _ _ _⟩

end Group

end NodeGroups
