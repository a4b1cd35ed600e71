import Mathlib
import NodeGroups.Proofs.RoundTrip

/-!
# Quantities written again

What becomes of the text of a quantity that is written, read and written again. The notation is only
read off the suffix, and some amounts are written without one, or with the one for thousandths. The
text stays as it is if the notation that is read writes the amount in the same way. The one
exception are whole binary amounts that no binary unit divides and a decimal one does: `1000` units
in binary notation are written without a suffix, so they are read as a decimal amount, and that is
written `1k`.

After one reading nothing changes any more. The same holds of templates, which are reloaded quantity
by quantity.
-/

namespace NodeGroups

namespace Quantity

variable {q : Quantity} {format : Format} {value : Int}

/-! ## Units that divide -/

/-- The exponent of the smallest unit of a notation. -/
def Format.least : Format → Nat
  | .binarySI => 10
  | _ => 3

theorem Format.unit?_eq_none_iff :
    format.unit? value = none ↔ ¬ ((format.base ^ format.least : Nat) : Int) ∣ value := by
  have hleast : ∀ u ∈ format.units, format.least ≤ u.2 := by cases format <;> decide
  have hmem : ∃ u ∈ format.units, u.2 = format.least := by cases format <;> decide
  rw [unit?, List.find?_eq_none]
  constructor
  · intro hnone hdvd
    obtain ⟨u, hu, hexponent⟩ := hmem
    apply hnone u hu
    rw [hexponent, beq_iff_eq]
    exact Int.emod_eq_zero_of_dvd hdvd
  · intro hnot u hu hdivides
    have hpower : ((format.base ^ format.least : Nat) : Int) ∣ (format.base ^ u.2 : Nat) :=
      Int.natCast_dvd_natCast.mpr (Nat.pow_dvd_pow _ (hleast u hu))
    exact hnot (hpower.trans (Int.dvd_of_emod_eq_zero (eq_of_beq hdivides)))

/-! ## Texts -/

/-- A binary amount that only decimal units divide. -/
def LosesNotation (q : Quantity) : Prop :=
  q.format = .binarySI ∧ q.milli ≠ 0 ∧ (1000 * 1000 : Int) ∣ q.milli
    ∧ ¬ (1024 * 1000 : Int) ∣ q.milli

theorem LosesNotation.whole (h : q.LosesNotation) : q.milli % 1000 = 0 := by
  have hdvd : (1000 * 1000 : Int) ∣ q.milli := h.2.2.1
  omega

theorem print_eq_print_iff {q q' : Quantity} : q.print = q'.print ↔ q.chars = q'.chars := by
  rw [← String.toList_inj, toList_print, toList_print]

theorem milliSuffix_ofThousandths (format : Format) :
    format.ofThousandths.milliSuffix = format.milliSuffix := by
  cases format <;> rfl

theorem isDigit_getLast_signedDigits (n : Int) :
    ∀ c ∈ (signedDigits n).getLast?, c.isDigit = true := by
  intro c hc
  have hdigits : c ∈ (Text.digits n.natAbs).getLast? := by
    rw [signedDigits] at hc
    split at hc
    · rwa [List.getLast?_cons_of_ne_nil (Text.digits_ne_nil _)] at hc
    · exact hc
  exact Text.isDigit_of_mem_digits (List.mem_of_getLast? hdigits)

theorem signedDigits_ne_append {suffix : List Char} {e : Nat}
    (hunit : Format.unit? .decimalSI value = some (suffix, e)) (n n' : Int) :
    signedDigits n ≠ signedDigits n' ++ suffix := by
  have hletters : ∀ u ∈ decimalUnits, u.1.getLast?.any (fun c ↦ !c.isDigit) = true := by decide
  obtain ⟨c, hc, hletter⟩ := (Option.any_eq_true _ _).mp
    (hletters _ (List.mem_of_find?_eq_some hunit))
  intro heq
  have hlast : c ∈ (signedDigits n).getLast? := by
    rw [heq, List.getLast?_append, hc]
    rfl
  rw [isDigit_getLast_signedDigits n c hlast] at hletter
  exact Bool.noConfusion hletter

theorem printWhole_decimalSI_eq_iff (hunit : format.unit? value = none) :
    printWhole .decimalSI value = printWhole format value
      ↔ Format.unit? .decimalSI value = none := by
  rw [printWhole_of_unit?_eq_none hunit]
  cases hdecimal : Format.unit? .decimalSI value with
  | none => exact iff_of_true (printWhole_of_unit?_eq_none hdecimal) rfl
  | some u =>
    obtain ⟨suffix, e⟩ := u
    rw [printWhole_of_unit? hdecimal]
    exact iff_of_false (signedDigits_ne_append hdecimal _ _).symm (Option.some_ne_none _)

/-- The binary notation alone has no unit for some of the numbers that a decimal one divides. -/
theorem Format.eq_binarySI (hunit : format.unit? value = none)
    (hdecimal : Format.unit? .decimalSI value ≠ none) : format = .binarySI := by
  cases format with
  | binarySI => rfl
  | decimalSI => exact absurd hunit hdecimal
  | decimalExponent =>
    have hnot : ¬ (1000 : Int) ∣ value := unit?_eq_none_iff.mp hunit
    exact absurd (unit?_eq_none_iff.mpr hnot) hdecimal

theorem mul_dvd_milli_iff (hwhole : q.milli % 1000 = 0) (k : Int) :
    k * 1000 ∣ q.milli ↔ k ∣ q.milli / 1000 := by
  obtain ⟨value, hvalue⟩ := Int.dvd_of_emod_eq_zero hwhole
  rw [hvalue, Int.mul_comm k, Int.mul_ediv_cancel_left _ (by decide)]
  exact Int.mul_dvd_mul_iff_left (by decide)

theorem losesNotation_iff (hne : q.milli ≠ 0) (hwhole : q.milli % 1000 = 0) :
    q.LosesNotation ↔ q.format = .binarySI ∧ Format.unit? .binarySI (q.milli / 1000) = none
      ∧ Format.unit? .decimalSI (q.milli / 1000) ≠ none := by
  have hbinary : Format.unit? .binarySI (q.milli / 1000) = none ↔ ¬ (1024 : Int) ∣ q.milli / 1000 :=
    Format.unit?_eq_none_iff
  have hdecimal : Format.unit? .decimalSI (q.milli / 1000) ≠ none ↔ (1000 : Int) ∣ q.milli / 1000 :=
    Format.unit?_eq_none_iff.not.trans not_not
  rw [LosesNotation, mul_dvd_milli_iff hwhole, mul_dvd_milli_iff hwhole, hbinary, hdecimal]
  constructor
  · exact fun ⟨hformat, _, hthousand, hkibi⟩ ↦ ⟨hformat, hkibi, hthousand⟩
  · exact fun ⟨hformat, hkibi, hthousand⟩ ↦ ⟨hformat, hne, hthousand, hkibi⟩

/-- A quantity that is written, read and written again has the same text, if it is not a binary
amount that only decimal units divide. -/
theorem print_reloaded_eq_iff (q : Quantity) : q.reloaded.print = q.print ↔ ¬ q.LosesNotation := by
  rw [print_eq_print_iff]
  by_cases hpart : q.milli % 1000 ≠ 0
  · have hkept : ¬ q.LosesNotation := fun hloses ↦ hpart hloses.whole
    rw [chars_of_part hpart, chars_of_part (q := q.reloaded) hpart, format_reloaded,
      shownFormat_of_part hpart, milliSuffix_ofThousandths]
    exact iff_of_true rfl hkept
  have hwhole : q.milli % 1000 = 0 := not_not.mp hpart
  by_cases hzero : q.milli = 0
  · have hchars : q.reloaded.chars = q.chars := by
      rw [chars, chars, milli_reloaded, if_pos hzero, if_pos hzero]
    exact iff_of_true hchars fun hloses ↦ hloses.2.1 hzero
  rw [losesNotation_iff hzero hwhole, chars_of_whole hzero hwhole,
    chars_of_whole (q := q.reloaded) hzero hwhole, format_reloaded, milli_reloaded,
    shownFormat_of_whole hzero hwhole]
  cases hunit : q.format.unit? (q.milli / 1000) with
  | some u =>
    refine iff_of_true rfl fun hloses ↦ ?_
    obtain ⟨hformat, hnone, -⟩ := hloses
    rw [hformat, hnone] at hunit
    cases hunit
  | none =>
    have hshown : (if (none : Option (List Char × Nat)).isSome then q.format else .decimalSI)
        = Format.decimalSI := rfl
    rw [hshown, printWhole_decimalSI_eq_iff hunit]
    constructor
    · exact fun hdecimal hloses ↦ hloses.2.2 hdecimal
    · intro hkept
      by_contra hdecimal
      have hformat := Format.eq_binarySI hunit hdecimal
      rw [hformat] at hunit
      exact hkept ⟨hformat, hunit, hdecimal⟩

/-- What was read from a written form keeps its text from then on. -/
theorem not_losesNotation_reloaded (q : Quantity) : ¬ q.reloaded.LosesNotation := by
  intro hloses
  have hne : q.milli ≠ 0 := hloses.2.1
  have hwhole : q.milli % 1000 = 0 := hloses.whole
  obtain ⟨hformat, hnone, -⟩ := (losesNotation_iff (q := q.reloaded) hne hwhole).mp hloses
  rw [format_reloaded, shownFormat_of_whole hne hwhole] at hformat
  rw [milli_reloaded] at hnone
  split at hformat
  · next hsome =>
    rw [hformat, hnone] at hsome
    cases hsome
  · cases hformat

theorem reloaded_of_losesNotation (h : q.LosesNotation) :
    q.reloaded = { q with format := .decimalSI } := by
  obtain ⟨hformat, hnone, -⟩ := (losesNotation_iff h.2.1 h.whole).mp h
  have hshown := shownFormat_of_whole h.2.1 h.whole
  rw [hformat, hnone] at hshown
  rw [reloaded, hshown]
  rfl

theorem print_reloaded_reloaded (q : Quantity) : q.reloaded.reloaded.print = q.reloaded.print :=
  q.reloaded.print_reloaded_eq_iff.mpr q.not_losesNotation_reloaded

theorem toDatum_eq_toDatum_iff {q q' : Quantity} : q.toDatum = q'.toDatum ↔ q.print = q'.print := by
  rw [toDatum, toDatum, Datum.text.injEq]

end Quantity

/-! ## Templates -/

namespace Datum

variable {α : Type} {write : α → Datum} {f : α → α}

theorem ofList_map_eq_iff {as : List α} :
    ofList write (as.map f) = ofList write as ↔ ∀ a ∈ as, write (f a) = write a := by
  rw [ofList, ofList, list.injEq, List.map_map, List.map_inj_left]
  rfl

theorem ofDict_map_eq_iff {d : Dict α} : ofDict write (d.map f) = ofDict write d
    ↔ ∀ e ∈ d.entries, write (f e.2) = write e.2 := by
  rw [ofDict, ofDict, record.injEq, Dict.map, List.map_map, List.map_inj_left]
  simp only [Function.comp_apply, Prod.mk.injEq, true_and]

end Datum

open Datum

def Pod.quantities (p : Pod) : List Quantity := p.requests.entries.map Prod.snd

theorem Pod.toDatum_reloaded_eq_iff (p : Pod) : p.reloaded.toDatum = p.toDatum
    ↔ ∀ q ∈ p.quantities, ¬ q.LosesNotation := by
  simp only [toDatum, reloaded, quantities, record.injEq, List.cons.injEq, Prod.mk.injEq, true_and,
    and_true, ofDict_map_eq_iff, Quantity.toDatum_eq_toDatum_iff, Quantity.print_reloaded_eq_iff,
    List.forall_mem_map]

def NodeTemplate.quantities (t : NodeTemplate) : List Quantity :=
  t.capacity.entries.map Prod.snd ++ t.allocatable.entries.map Prod.snd
    ++ t.pods.flatMap Pod.quantities

theorem NodeTemplate.toDatum_reloaded_eq_iff (t : NodeTemplate) : t.reloaded.toDatum = t.toDatum
    ↔ ∀ q ∈ t.quantities, ¬ q.LosesNotation := by
  simp only [toDatum, reloaded, quantities, record.injEq, List.cons.injEq, Prod.mk.injEq, true_and,
    and_true, ofDict_map_eq_iff, ofList_map_eq_iff, Pod.toDatum_reloaded_eq_iff,
    Quantity.toDatum_eq_toDatum_iff, Quantity.print_reloaded_eq_iff, List.forall_mem_append,
    List.forall_mem_map, List.forall_mem_flatMap, and_assoc]

theorem NodeTemplate.exists_of_mem_quantities_reloaded {t : NodeTemplate} {q : Quantity}
    (hq : q ∈ t.reloaded.quantities) : ∃ q' : Quantity, q'.reloaded = q := by
  have hquantities : t.reloaded.quantities = t.quantities.map Quantity.reloaded := by
    simp only [quantities, reloaded, Pod.quantities, Pod.reloaded, Dict.map, List.map_map,
      List.map_append, List.map_flatMap, List.flatMap_map]
    rfl
  rw [hquantities] at hq
  obtain ⟨q', -, hq'⟩ := List.mem_map.mp hq
  exact ⟨q', hq'⟩

theorem NodeTemplate.toDatum_reloaded_reloaded (t : NodeTemplate) :
    t.reloaded.reloaded.toDatum = t.reloaded.toDatum := by
  rw [toDatum_reloaded_eq_iff]
  intro q hq
  obtain ⟨q', rfl⟩ := exists_of_mem_quantities_reloaded hq
  exact q'.not_losesNotation_reloaded

/-- The text of a quantity survives its being read, and the data form of a template too, if no
binary amount is in it that only decimal units divide. Such an amount comes back in decimal notation
and is written with a unit from then on; and what has been read once is the same in every later
writing. -/
theorem Quantity.reload_text :
    (∀ q : Quantity, ∃ q', parse q.print = .ok q' ∧ (q'.print = q.print ↔ ¬ q.LosesNotation)
      ∧ (q.LosesNotation → q' = { q with format := .decimalSI })
      ∧ ∃ q'', parse q'.print = .ok q'' ∧ q''.print = q'.print)
    ∧ ∀ t : NodeTemplate, ∃ t', NodeTemplate.ofDatum? t.toDatum = some t'
      ∧ (t'.toDatum = t.toDatum ↔ ∀ q ∈ t.quantities, ¬ q.LosesNotation)
      ∧ ∃ t'', NodeTemplate.ofDatum? t'.toDatum = some t'' ∧ t''.toDatum = t'.toDatum := by
  constructor
  · intro q
    exact ⟨q.reloaded, q.parse_print, q.print_reloaded_eq_iff, reloaded_of_losesNotation,
      q.reloaded.reloaded, q.reloaded.parse_print, q.print_reloaded_reloaded⟩
  · intro t
    exact ⟨t.reloaded, t.ofDatum?_toDatum, t.toDatum_reloaded_eq_iff, t.reloaded.reloaded,
      t.reloaded.ofDatum?_toDatum, t.toDatum_reloaded_reloaded⟩

/-- A thousand units in binary notation are written without a unit, and with a decimal one after
they have been read. -/
theorem Quantity.exists_respelled : ∃ q q' : Quantity, parse "0.9765625Ki" = .ok q
    ∧ q.print = "1000" ∧ parse q.print = .ok q' ∧ q'.print = "1k" :=
  ⟨⟨1000000, .binarySI, by decide⟩, ⟨1000000, .decimalSI, by decide⟩, by decide, by decide,
    by decide,
    by decide⟩

end NodeGroups
