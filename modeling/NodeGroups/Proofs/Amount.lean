import Mathlib
import NodeGroups.Proofs.Thousandths
import NodeGroups.Quantity.Printer

/-!
# Amounts read back

The written form of a quantity is read as the amount that was written. Whatever the amount and its
notation, what is written is a whole number in front of a suffix, which is a text of the grammar,
and the number times what the suffix stands for is the amount. No step of the scaling is too large,
since the number is no larger than the amount that comes out.

Only the amount comes back. A whole amount that no unit of its notation divides is written without
a suffix, which says nothing about the notation, and thousandths of a binary amount are written like
those of a decimal one.
-/

namespace NodeGroups.Quantity

/-! ## Suffixes -/

def Format.scale : Format → Nat → Scale
  | .binarySI, e => .two e
  | _, e => .ten e

variable {n value : Int} {e m k : Nat} {suffix : List Char} {scale : Scale} {format : Format}

theorem Format.factor_scale (format : Format) (e : Nat) :
    (format.scale e).factor = (format.base ^ e : Nat) := by
  cases format with
  | decimalSI => simp [scale, Scale.factor, base]
  | binarySI => simp [scale, Scale.factor, base]
  | decimalExponent => simp [scale, Scale.factor, base]

theorem isScale_of_mem_units {u : List Char × Nat} (hmem : u ∈ format.units) :
    IsScale u.1 (format.scale u.2) format := by
  have hall : ∀ u ∈ format.units, readSuffix? u.1 = some (format.scale u.2, format) := by
    cases format <;> decide
  exact readSuffix?_eq_some_iff.mp (hall u hmem)

/-- The notation that is read from an amount in thousandths. -/
def Format.ofThousandths : Format → Format
  | .decimalExponent => .decimalExponent
  | _ => .decimalSI

theorem isScale_milliSuffix (format : Format) :
    IsScale format.milliSuffix (.ten (-3)) format.ofThousandths := by
  rw [← readSuffix?_eq_some_iff]
  cases format <;> decide

/-! ## Units -/

/-- The largest unit of a notation that divides a number. -/
def Format.unit? (format : Format) (value : Int) : Option (List Char × Nat) :=
  format.units.find? fun u ↦ value % (format.base.pow u.2 : Nat) == 0

theorem printWhole_of_unit? (hunit : format.unit? value = some (suffix, e)) :
    printWhole format value = signedDigits (value / (format.base ^ e : Nat)) ++ suffix := by
  rw [Format.unit?] at hunit
  rw [printWhole, hunit]
  rfl

theorem printWhole_of_unit?_eq_none (hunit : format.unit? value = none) :
    printWhole format value = signedDigits value := by
  rw [Format.unit?] at hunit
  rw [printWhole, hunit]

theorem Format.isScale_of_unit? (hunit : format.unit? value = some (suffix, e)) :
    IsScale suffix (format.scale e) format :=
  isScale_of_mem_units (List.mem_of_find?_eq_some hunit)

theorem Format.le_of_unit? (hunit : format.unit? value = some (suffix, e)) : e ≤ 60 := by
  have hall : ∀ u ∈ format.units, u.2 ≤ 60 := by cases format <;> decide
  exact hall _ (List.mem_of_find?_eq_some hunit)

theorem Format.dvd_of_unit? (hunit : format.unit? value = some (suffix, e)) :
    ((format.base ^ e : Nat) : Int) ∣ value := by
  have hdivides := List.find?_some hunit
  exact Int.dvd_of_emod_eq_zero (eq_of_beq hdivides)

/-- The notation that the written form of a quantity shows. -/
def shownFormat (q : Quantity) : Format :=
  if q.milli = 0 then .decimalSI
  else if q.milli % 1000 ≠ 0 then q.format.ofThousandths
  else if (q.format.unit? (q.milli / 1000)).isSome then q.format
  else .decimalSI

/-- The quantity in the notation that its written form shows. -/
def reloaded (q : Quantity) : Quantity := { q with format := q.shownFormat }

@[simp] theorem milli_reloaded (q : Quantity) : q.reloaded.milli = q.milli := rfl

@[simp] theorem format_reloaded (q : Quantity) : q.reloaded.format = q.shownFormat := rfl

/-! ## Numbers -/

theorem spells_signedDigits (n : Int) (suffix : List Char) :
    Written.Spells { negative := n < 0, whole := Text.digits n.natAbs, fraction := [], suffix }
      (signedDigits n ++ suffix) := by
  have hsign : ∃ sign, IsSign sign (n < 0) ∧ signedDigits n = sign ++ Text.digits n.natAbs := by
    by_cases hn : n < 0
    · rw [signedDigits, if_pos hn, decide_eq_true hn]
      exact ⟨_, .minus, rfl⟩
    · rw [signedDigits, if_neg hn, decide_eq_false hn]
      exact ⟨_, .none, rfl⟩
  obtain ⟨sign, hsign, hdigits⟩ := hsign
  refine ⟨fun c hc ↦ Text.isDigit_of_mem_digits hc, nofun, .inl (Text.digits_ne_nil _), sign, _,
    hsign, .whole rfl, ?_⟩
  rw [hdigits, List.append_assoc]

theorem signed_natAbs_mul (n : Int) (k : Nat) : signed (n < 0) (n.natAbs * k) = n * k := by
  by_cases hn : n < 0
  · have habs : (n.natAbs : Int) = -n := by omega
    rw [signed, if_pos (decide_eq_true hn), Int.natCast_mul, habs, Int.neg_mul, Int.neg_neg]
  · have habs : (n.natAbs : Int) = n := by omega
    rw [signed, if_neg (by simpa using hn), Int.natCast_mul, habs]

/-- A number in front of a suffix is read as that number of what the suffix stands for, if no step
is too large. -/
theorem parse_signedDigits {q : Quantity} (hscale : IsScale suffix scale q.format)
    (hfactor : scale.factor * 1000 = k) (hmilli : n * k = q.milli)
    (hpasses : scale.Passes n.natAbs 0) :
    parse (.ofList (signedDigits n ++ suffix)) = .ok q := by
  have hspells := spells_signedDigits n suffix
  have hmantissa : Written.mantissa
      { negative := n < 0, whole := Text.digits n.natAbs, fraction := [], suffix } = n.natAbs := by
    rw [Written.mantissa, Written.mantissaDigits, List.append_nil, Text.ofDigits_digits]
  have hmagnitude : Written.magnitude
      { negative := n < 0, whole := Text.digits n.natAbs, fraction := [], suffix } scale * 1000
      = (n.natAbs * k : Nat) := by
    rw [Written.magnitude_eq, hmantissa, List.length_nil, pow_zero, div_one, mul_assoc, hfactor,
      Nat.cast_mul]
  have hn : n.natAbs < limit := by
    have hpos : 0 < k := by
      have hfactor' := scale.factor_pos
      exact_mod_cast (hfactor ▸ by positivity : (0 : ℚ) < k)
    have hbounded := q.bounded
    rw [← hmilli, Int.natAbs_mul, Int.natAbs_natCast] at hbounded
    exact (Nat.le_mul_of_pos_right _ hpos).trans_lt hbounded
  rw [parse_eq_ok_iff, String.toList_ofList, hspells.trim_eq hscale]
  refine ⟨_, scale, hspells, hscale, ?_, ?_, ?_⟩
  · rwa [hmantissa]
  · rwa [hmantissa]
  · rw [hmagnitude, Nat.ceil_natCast, signed_natAbs_mul, hmilli]

theorem Format.passes_scale (hm : 0 < m) (he : e ≤ 60)
    (hfits : m * (format.base ^ e * 1000) < limit) : (format.scale e).Passes m 0 := by
  have hten : (Scale.ten e).Passes m 0 := ⟨by omega, by omega, fun hzero ↦ by omega⟩
  cases format with
  | decimalSI => exact hten
  | decimalExponent => exact hten
  | binarySI =>
    rw [← Nat.mul_assoc] at hfits
    exact ⟨hfits, Nat.zero_le _⟩

theorem parse_units {q : Quantity} (hscale : IsScale suffix (q.format.scale e) q.format)
    (he : e ≤ 60) (hne : n ≠ 0) (hmilli : n * (q.format.base ^ e * 1000 : Nat) = q.milli) :
    parse (.ofList (signedDigits n ++ suffix)) = .ok q := by
  have hbounded := q.bounded
  rw [← hmilli, Int.natAbs_mul, Int.natAbs_natCast] at hbounded
  refine parse_signedDigits hscale ?_ hmilli
    (Format.passes_scale (Int.natAbs_pos.mpr hne) he hbounded)
  rw [Format.factor_scale]
  push_cast
  ring

/-! ## Written quantities -/

section Printed

variable {q : Quantity}

theorem chars_of_part (hpart : q.milli % 1000 ≠ 0) :
    q.chars = signedDigits q.milli ++ q.format.milliSuffix := by
  have hne : q.milli ≠ 0 := by omega
  rw [chars, if_neg hne, if_pos hpart]

theorem shownFormat_of_part (hpart : q.milli % 1000 ≠ 0) :
    q.shownFormat = q.format.ofThousandths := by
  have hne : q.milli ≠ 0 := by omega
  rw [shownFormat, if_neg hne, if_pos hpart]

theorem chars_of_whole (hne : q.milli ≠ 0) (hwhole : q.milli % 1000 = 0) :
    q.chars = printWhole q.format (q.milli / 1000) := by
  rw [chars, if_neg hne, if_neg (not_not_intro hwhole)]

theorem shownFormat_of_whole (hne : q.milli ≠ 0) (hwhole : q.milli % 1000 = 0) : q.shownFormat
    = if (q.format.unit? (q.milli / 1000)).isSome then q.format else .decimalSI := by
  rw [shownFormat, if_neg hne, if_neg (not_not_intro hwhole)]

theorem parse_print_of_part (hpart : q.milli % 1000 ≠ 0) : parse q.print = .ok q.reloaded := by
  have hscale : IsScale q.format.milliSuffix (.ten (-3)) q.reloaded.format := by
    rw [format_reloaded, shownFormat_of_part hpart]
    exact isScale_milliSuffix q.format
  have hfactor : (Scale.ten (-3)).factor * 1000 = (1 : Nat) := by
    rw [Scale.factor]
    norm_num
  rw [print, chars_of_part hpart]
  exact parse_signedDigits hscale hfactor (Int.mul_one _) ⟨by omega, by omega, fun _ ↦ by omega⟩

theorem parse_print_of_zero (hzero : q.milli = 0) : parse q.print = .ok q.reloaded := by
  have hshown : q.shownFormat = .decimalSI := if_pos hzero
  have hscale : IsScale [] (.ten 0) q.reloaded.format := by
    rw [format_reloaded, hshown]
    exact .one
  have hfactor : (Scale.ten 0).factor * 1000 = (1000 : Nat) := by
    rw [Scale.factor]
    norm_num
  have hchars : q.chars = signedDigits 0 ++ [] := if_pos hzero
  rw [print, hchars]
  exact parse_signedDigits hscale hfactor ((Int.zero_mul _).trans hzero.symm)
    ⟨by omega, by omega, fun _ ↦ by omega⟩

theorem parse_print_of_unit? (hne : q.milli ≠ 0) (hwhole : q.milli % 1000 = 0)
    (hunit : q.format.unit? (q.milli / 1000) = some (suffix, e)) :
    parse q.print = .ok q.reloaded := by
  have hvalue : q.milli / 1000 * 1000 = q.milli := by omega
  have hformat : q.reloaded.format = q.format := by
    rw [format_reloaded, shownFormat_of_whole hne hwhole, hunit]
    rfl
  obtain ⟨units, hunits⟩ := Format.dvd_of_unit? hunit
  have hbase : ((q.format.base ^ e : Nat) : Int) ≠ 0 := by
    intro hbase
    rw [hbase, Int.zero_mul] at hunits
    omega
  have hsome : units ≠ 0 := by
    rintro rfl
    rw [Int.mul_zero] at hunits
    omega
  rw [print, chars_of_whole hne hwhole, printWhole_of_unit? hunit, hunits,
    Int.mul_ediv_cancel_left _ hbase]
  refine parse_units ?_ (Format.le_of_unit? hunit) hsome ?_
  · rw [hformat]
    exact Format.isScale_of_unit? hunit
  · rw [hformat, milli_reloaded, ← hvalue, hunits]
    push_cast
    ring

theorem parse_print_of_unit?_eq_none (hne : q.milli ≠ 0) (hwhole : q.milli % 1000 = 0)
    (hunit : q.format.unit? (q.milli / 1000) = none) : parse q.print = .ok q.reloaded := by
  have hvalue : q.milli / 1000 * 1000 = q.milli := by omega
  have hformat : q.reloaded.format = .decimalSI := by
    rw [format_reloaded, shownFormat_of_whole hne hwhole, hunit]
    rfl
  rw [print, chars_of_whole hne hwhole, printWhole_of_unit?_eq_none hunit,
    ← List.append_nil (signedDigits _)]
  refine parse_units (e := 0) ?_ (Nat.zero_le _) (by omega) ?_
  · rw [hformat]
    exact .one
  · rw [hformat]
    exact hvalue

/-- A written quantity is read as the same amount, in the notation that the written form shows. -/
theorem parse_print (q : Quantity) : parse q.print = .ok q.reloaded := by
  by_cases hpart : q.milli % 1000 ≠ 0
  · exact parse_print_of_part hpart
  by_cases hzero : q.milli = 0
  · exact parse_print_of_zero hzero
  have hwhole : q.milli % 1000 = 0 := not_not.mp hpart
  cases hunit : q.format.unit? (q.milli / 1000) with
  | some u => exact parse_print_of_unit? hzero hwhole hunit
  | none => exact parse_print_of_unit?_eq_none hzero hwhole hunit

end Printed

/-- Every quantity is read back from its written form as a quantity of the same amount, whatever its
notation, its magnitude and its sign: the two are equal, neither comes before the other in the
order, and they have the same hash. -/
theorem print_round_trip (q : Quantity) : ∃ q', parse q.print = .ok q' ∧ q'.milli = q.milli
    ∧ q.SameAmount q' ∧ compare q q' = .eq ∧ hash q = hash q' := by
  have hsame : q.SameAmount q.reloaded := rfl
  have hcompare : compare q.milli q.reloaded.milli = .eq := compare_eq_iff_eq.mpr hsame
  have hhash : hash q.milli = hash q.reloaded.milli := congrArg hash hsame
  exact ⟨q.reloaded, q.parse_print, hsame.symm, hsame, hcompare, hhash⟩

end NodeGroups.Quantity
