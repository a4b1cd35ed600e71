import Mathlib.Data.List.Nodup
import NodeGroups.Registry.Report

/-!
# What a report tells

A report has each group of a pass once, either among those that were refreshed or among those that
were not, and the groups of both kinds in the order of their names. Since no two groups have the
same name, the order leaves nothing open.
-/

namespace NodeGroups

/-- There is only one list of some members that is sorted by distinct keys. -/
theorem eq_of_pairwise_key {α : Type} (key : α → String) {l l' : List α}
    (hsorted : l.Pairwise fun a b ↦ key a < key b) (hsorted' : l'.Pairwise fun a b ↦ key a < key b)
    (hmem : ∀ a, a ∈ l ↔ a ∈ l') : l = l' := by
  have hnodup {l : List α} (hsorted : l.Pairwise fun a b ↦ key a < key b) : l.Nodup := by
    refine List.Pairwise.imp ?_ hsorted
    rintro a _ hlt rfl
    exact String.lt_irrefl _ hlt
  refine List.Perm.eq_of_pairwise (fun a b _ _ hlt hgt ↦ absurd hgt (String.lt_asymm hlt)) hsorted
    hsorted' ((List.perm_ext_iff_of_nodup (hnodup hsorted) (hnodup hsorted')).mpr hmem)

namespace Report

variable {results : List (String × Except GroupError Unit)} {name : String}

theorem ofResults_nil : ofResults [] = .empty := by
  simp [ofResults, refreshedOf, failedOf, empty]

theorem pairwise_mergeSort_of_nodup {α : Type} (key : α → String) {l : List α}
    (hnodup : (l.map key).Nodup) :
    ((l.mergeSort fun a b ↦ ¬ key b < key a).map key).Pairwise (· < ·) := by
  have hsorted : (l.mergeSort fun a b ↦ ¬ key b < key a).Pairwise
      fun a b ↦ decide (¬ key b < key a) = true := by
    refine List.pairwise_mergeSort (fun a b c hab hbc ↦ ?_) (fun a b ↦ ?_) l
    · simp only [decide_eq_true_eq, String.not_lt] at hab hbc ⊢
      exact String.le_trans hab hbc
    · simp only [Bool.or_eq_true, decide_eq_true_eq, String.not_lt]
      exact String.le_total _ _
  have hdistinct : ((l.mergeSort fun a b ↦ ¬ key b < key a).map key).Nodup :=
    ((List.mergeSort_perm l _).map key).nodup_iff.mpr hnodup
  refine List.pairwise_map.mpr
    (hsorted.imp₂ (fun a b hle hne ↦ ?_) (List.pairwise_map.mp hdistinct))
  rw [← String.not_le]
  exact fun hge ↦ hne (String.le_antisymm (String.not_lt.mp (of_decide_eq_true hle)) hge)

theorem perm_refreshedOf_append_failedOf (results : List (String × Except GroupError Unit)) :
    (refreshedOf results ++ (failedOf results).map Prod.fst).Perm (results.map Prod.fst) := by
  induction results with
  | nil => exact .nil
  | cons r results ih =>
    obtain ⟨name, _ | _⟩ := r
    · exact List.perm_middle.trans (ih.cons name)
    · exact ih.cons name

theorem perm_names (results : List (String × Except GroupError Unit)) :
    ((ofResults results).refreshed ++ (ofResults results).failed.map Prod.fst).Perm
      (results.map Prod.fst) :=
  ((List.mergeSort_perm _ _).append ((List.mergeSort_perm _ _).map _)).trans
    (perm_refreshedOf_append_failedOf results)

theorem mem_refreshed : name ∈ (ofResults results).refreshed ↔ (name, .ok ()) ∈ results := by
  refine List.mem_mergeSort.trans ?_
  rw [refreshedOf, List.mem_filterMap]
  constructor
  · rintro ⟨⟨other, _ | _⟩, hmem, heq⟩
    · cases heq
    · obtain rfl := Option.some.inj heq
      exact hmem
  · exact fun hmem ↦ ⟨_, hmem, rfl⟩

theorem mem_failed {e : GroupError} :
    (name, e) ∈ (ofResults results).failed ↔ (name, .error e) ∈ results := by
  refine List.mem_mergeSort.trans ?_
  rw [failedOf, List.mem_filterMap]
  constructor
  · rintro ⟨⟨other, _ | _⟩, hmem, heq⟩
    · obtain ⟨rfl, rfl⟩ := Prod.mk.inj (Option.some.inj heq)
      exact hmem
    · cases heq
  · exact fun hmem ↦ ⟨_, hmem, rfl⟩

section

variable (hnodup : (results.map Prod.fst).Nodup)

include hnodup

theorem nodup_names :
    ((ofResults results).refreshed ++ (ofResults results).failed.map Prod.fst).Nodup :=
  (perm_names results).nodup_iff.mpr hnodup

theorem pairwise_refreshed : (ofResults results).refreshed.Pairwise (· < ·) := by
  have hnames := (perm_refreshedOf_append_failedOf results).nodup_iff.mpr hnodup
  have hdistinct : ((refreshedOf results).map id).Nodup := by
    rw [List.map_id]
    exact (List.nodup_append.mp hnames).1
  have hsorted := pairwise_mergeSort_of_nodup id hdistinct
  rwa [List.map_id] at hsorted

theorem pairwise_failed : ((ofResults results).failed.map Prod.fst).Pairwise (· < ·) := by
  have hnames := (perm_refreshedOf_append_failedOf results).nodup_iff.mpr hnodup
  exact pairwise_mergeSort_of_nodup Prod.fst (List.nodup_append.mp hnames).2.1

/-- It does not matter in which order the results come in. -/
theorem ofResults_perm {results' : List (String × Except GroupError Unit)}
    (hperm : results.Perm results') : ofResults results = ofResults results' := by
  have hnodup' : (results'.map Prod.fst).Nodup := (hperm.map Prod.fst).nodup_iff.mp hnodup
  have hrefreshed : (ofResults results).refreshed = (ofResults results').refreshed :=
    eq_of_pairwise_key id (pairwise_refreshed hnodup) (pairwise_refreshed hnodup') fun name ↦ by
      rw [mem_refreshed, mem_refreshed, hperm.mem_iff]
  have hfailed : (ofResults results).failed = (ofResults results').failed :=
    eq_of_pairwise_key Prod.fst (List.pairwise_map.mp (pairwise_failed hnodup))
      (List.pairwise_map.mp (pairwise_failed hnodup')) fun ⟨name, e⟩ ↦ by
        rw [mem_failed, mem_failed, hperm.mem_iff]
  exact congrArg₂ (fun refreshed failed ↦ (⟨refreshed, failed, false⟩ : Report)) hrefreshed hfailed

end

end Report

end NodeGroups
