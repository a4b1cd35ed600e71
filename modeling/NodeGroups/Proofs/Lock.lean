import Mathlib.Logic.Function.Basic
import NodeGroups.Lock

/-!
# Everybody in a lock

Whoever asked for a lock and has not left it is in it, as a holder or in the queue. Admitting
somebody only moves the line between the two, so that a request adds one at the end and leaving
takes one out, whatever the lock makes of it.
-/

namespace NodeGroups.Lock

/-- Those who hold the lock, followed by those who wait for it. -/
def members (l : Lock) : List (Nat × Access) := l.holders ++ l.waiting

@[simp] theorem members_free : free.members = [] := rfl

theorem mem_members_of_mem_holders {l : Lock} {h : Nat × Access} (hmem : h ∈ l.holders) :
    h ∈ l.members := List.mem_append_left _ hmem

@[simp] theorem members_settle (holders queue : List (Nat × Access)) :
    (settle holders queue).members = holders ++ queue := by
  induction queue generalizing holders with
  | nil => rfl
  | cons w ws ih =>
    rw [settle]
    split
    · rw [ih, List.append_assoc, List.singleton_append]
    · rfl

@[simp] theorem members_request (who : Nat) (access : Access) (l : Lock) :
    (l.request who access).members = l.members ++ [(who, access)] := by
  rw [request, members_settle, members, List.append_assoc]

@[simp] theorem members_leave (who : Nat) (l : Lock) :
    (l.leave who).members = l.members.filter (·.1 ≠ who) := by
  rw [leave, members_settle, members, List.filter_append]

/-! ## Holders -/

theorem isHeldBy_iff {who : Nat} {l : Lock} :
    l.isHeldBy who = true ↔ ∃ access, (who, access) ∈ l.holders := by
  rw [isHeldBy, List.any_eq_true]
  constructor
  · rintro ⟨⟨n, access⟩, hmem, heq⟩
    exact ⟨access, by rwa [← eq_of_beq heq]⟩
  · rintro ⟨access, hmem⟩
    exact ⟨(who, access), hmem, beq_self_eq_true who⟩

theorem mem_holders_settle_of_mem {holders queue : List (Nat × Access)} {h : Nat × Access}
    (hmem : h ∈ holders) : h ∈ (settle holders queue).holders := by
  induction queue generalizing holders with
  | nil => exact hmem
  | cons w ws ih =>
    rw [settle]
    split
    · exact ih (List.mem_append_left _ hmem)
    · exact hmem

theorem isHeldBy_request {who : Nat} {l : Lock} (other : Nat) (access : Access)
    (hheld : l.isHeldBy who = true) : (l.request other access).isHeldBy who = true := by
  obtain ⟨a, hmem⟩ := isHeldBy_iff.mp hheld
  exact isHeldBy_iff.mpr ⟨a, mem_holders_settle_of_mem hmem⟩

theorem isHeldBy_leave_of_ne {who other : Nat} {l : Lock} (hne : who ≠ other)
    (hheld : l.isHeldBy who = true) : (l.leave other).isHeldBy who = true := by
  obtain ⟨a, hmem⟩ := isHeldBy_iff.mp hheld
  refine isHeldBy_iff.mpr ⟨a, mem_holders_settle_of_mem (List.mem_filter.mpr ⟨hmem, ?_⟩)⟩
  simpa using hne

/-! ## The lock of one -/

/-- The lock when somebody is alone in it. -/
def heldBy (who : Nat) (access : Access) : Lock := ⟨[(who, access)], []⟩

@[simp] theorem request_free (who : Nat) (access : Access) :
    free.request who access = heldBy who access := rfl

@[simp] theorem isHeldBy_heldBy (who : Nat) (access : Access) :
    (heldBy who access).isHeldBy who = true := by
  simp [heldBy, isHeldBy]

@[simp] theorem leave_heldBy (who : Nat) (access : Access) :
    (heldBy who access).leave who = free := by
  simp [heldBy, leave, settle, free]

/-! ## Claims -/

/-- The lock has in it exactly those who have a claim on it, each as claimed. -/
structure Serves (l : Lock) (claims : Nat → Option Access) : Prop where
  exclusive : l.IsExclusive
  mem_iff : ∀ {who access}, (who, access) ∈ l.members ↔ claims who = some access

namespace Serves

variable {l : Lock} {claims : Nat → Option Access} {who : Nat}

theorem initial : free.Serves fun _ ↦ none :=
  ⟨isExclusive_free, by simp⟩

theorem keep (h : l.Serves claims) {claim : Option Access} (hclaim : claims who = claim) :
    l.Serves (Function.update claims who claim) := by
  rwa [Function.update_eq_self_iff.mpr hclaim.symm]

theorem request (h : l.Serves claims) (hnone : claims who = none) (access : Access) :
    (l.request who access).Serves (Function.update claims who (some access)) := by
  refine ⟨isExclusive_request who access h.exclusive, fun {other a} ↦ ?_⟩
  rw [members_request, List.mem_append, List.mem_singleton, h.mem_iff, Prod.mk.injEq]
  by_cases hother : other = who
  · subst hother
    rw [Function.update_self, hnone, Option.some.injEq]
    simp [eq_comm]
  · rw [Function.update_of_ne hother]
    simp [hother]

theorem leave (h : l.Serves claims) :
    (l.leave who).Serves (Function.update claims who none) := by
  refine ⟨isExclusive_leave who h.exclusive, fun {other a} ↦ ?_⟩
  rw [members_leave, List.mem_filter, h.mem_iff]
  by_cases hother : other = who
  · subst hother
    rw [Function.update_self]
    simp
  · rw [Function.update_of_ne hother]
    simp [hother]

/-- Beside one who holds the lock to write nobody holds it. -/
theorem eq_of_isHeldBy (h : l.Serves claims) (hclaim : claims who = some .exclusive)
    (hwho : l.isHeldBy who = true) {other : Nat} (hother : l.isHeldBy other = true) :
    other = who := by
  obtain ⟨access, hmem⟩ := isHeldBy_iff.mp hwho
  -- He cannot hold it otherwise than he claims it, so nobody else is among the holders.
  have haccess : access = .exclusive := by
    have hclaim' := h.mem_iff.mp (mem_members_of_mem_holders hmem)
    rw [hclaim] at hclaim'
    exact (Option.some.inj hclaim').symm
  obtain ⟨access', hmem'⟩ := isHeldBy_iff.mp hother
  rw [haccess] at hmem
  rw [h.exclusive _ hmem rfl, List.mem_singleton] at hmem'
  exact congrArg Prod.fst hmem'

end Serves

/-! ## Waiting -/

/-- Somebody waits only if somebody holds the lock. -/
def IsSettled (l : Lock) : Prop := l.waiting ≠ [] → l.holders ≠ []

theorem isSettled_settle (holders queue : List (Nat × Access)) :
    (settle holders queue).IsSettled := by
  induction queue generalizing holders with
  | nil => exact fun hwaiting ↦ absurd rfl hwaiting
  | cons w ws ih =>
    rw [settle]
    split
    · exact ih _
    · next hrefused =>
      rintro - rfl
      exact hrefused rfl

/-- The lock has in it exactly those who have a claim on it, and they do not wait for nothing. -/
structure Tended (l : Lock) (claims : Nat → Option Access) : Prop extends Serves l claims where
  settled : l.IsSettled

namespace Tended

variable {l : Lock} {claims : Nat → Option Access} {who : Nat}

theorem initial : free.Tended fun _ ↦ none := ⟨.initial, fun hwaiting ↦ absurd rfl hwaiting⟩

theorem keep (h : l.Tended claims) {claim : Option Access} (hclaim : claims who = claim) :
    l.Tended (Function.update claims who claim) :=
  ⟨h.toServes.keep hclaim, h.settled⟩

theorem request (h : l.Tended claims) (hnone : claims who = none) (access : Access) :
    (l.request who access).Tended (Function.update claims who (some access)) :=
  ⟨h.toServes.request hnone access, isSettled_settle _ _⟩

theorem leave (h : l.Tended claims) :
    (l.leave who).Tended (Function.update claims who none) :=
  ⟨h.toServes.leave, isSettled_settle _ _⟩

/-- Whoever has to wait for the lock waits for somebody who has a claim and holds it. -/
theorem exists_holder (h : l.Tended claims) {access : Access} (hclaim : claims who = some access)
    (hwaits : ¬ l.isHeldBy who = true) :
    ∃ other access', claims other = some access' ∧ l.isHeldBy other = true := by
  have hmem : (who, access) ∈ l.holders ++ l.waiting := h.mem_iff.mpr hclaim
  have hwaiting : (who, access) ∈ l.waiting :=
    (List.mem_append.mp hmem).resolve_left fun hheld ↦ hwaits (isHeldBy_iff.mpr ⟨access, hheld⟩)
  obtain ⟨⟨other, access'⟩, hholder⟩ :=
    List.exists_mem_of_ne_nil _ (h.settled (List.ne_nil_of_mem hwaiting))
  exact ⟨other, access', h.mem_iff.mp (mem_members_of_mem_holders hholder),
    isHeldBy_iff.mpr ⟨access', hholder⟩⟩

end Tended

/-! ## Leaving twice -/

theorem settle_settle (holders queue : List (Nat × Access)) :
    settle (settle holders queue).holders (settle holders queue).waiting
      = settle holders queue := by
  induction queue generalizing holders with
  | nil => rfl
  | cons w ws ih =>
    by_cases hadmits : admits holders w.2 = true
    · rw [settle, if_pos hadmits]
      exact ih _
    · rw [settle, if_neg hadmits, settle, if_neg hadmits]

theorem leave_leave (who : Nat) (l : Lock) : (l.leave who).leave who = l.leave who := by
  -- There is nothing left to filter out, which leaves a lock that is settled again.
  have hgone : ∀ h ∈ (l.leave who).members, decide (h.1 ≠ who) = true := by
    intro h hmem
    rw [members_leave] at hmem
    exact (List.mem_filter.mp hmem).2
  have hholders : (l.leave who).holders.filter (·.1 ≠ who) = (l.leave who).holders :=
    List.filter_eq_self.mpr fun h hmem ↦ hgone h (List.mem_append_left _ hmem)
  have hwaiting : (l.leave who).waiting.filter (·.1 ≠ who) = (l.leave who).waiting :=
    List.filter_eq_self.mpr fun h hmem ↦ hgone h (List.mem_append_right _ hmem)
  rw [leave, hholders, hwaiting]
  exact settle_settle _ _

end NodeGroups.Lock
