import Mathlib
import NodeGroups.Proofs.Words

/-!
# What is read, and what is refused

A text is read as the number that it denotes, rounded away from zero to thousandths, and only if it
is in the grammar of quantities; and in words of fixed width the same is read without a step that
wraps. What a text denotes is determined, since it can be taken apart in one way only.

Not every number that could be kept is read. The reader looks for what is too large in the numbers
that come up on the way, and they can be too large where the amount itself is not: the digits taken
as one number without the point, the product with a power of two before the digits after the point
are divided off, and the power of ten that zero is multiplied by.
-/

namespace NodeGroups.Quantity

variable {input : String} {text : List Char} {w w' : Written} {scale scale' : Scale}
  {format format' : Format} {x : ℚ}

/-! ## What a text denotes -/

theorem Written.Spells.unique (h : w.Spells text) (h' : w'.Spells text)
    (hscale : IsScale w.suffix scale format) (hscale' : IsScale w'.suffix scale' format') :
    w = w' ∧ scale = scale' ∧ format = format' := by
  obtain rfl : w = w' := (h.split_eq hscale).symm.trans (h'.split_eq hscale')
  have hread := readSuffix?_eq_some_iff.mpr hscale
  rw [readSuffix?_eq_some_iff.mpr hscale'] at hread
  obtain ⟨rfl, rfl⟩ := Prod.mk.inj (Option.some.inj hread)
  exact ⟨rfl, rfl, rfl⟩

theorem denotes_iff (hspells : w.Spells text) (hscale : IsScale w.suffix scale format) :
    Denotes text x format' ↔ x = w.number scale ∧ format' = format := by
  constructor
  · rintro ⟨w', scale', hspells', hscale', rfl⟩
    obtain ⟨rfl, rfl, rfl⟩ := hspells.unique hspells' hscale hscale'
    exact ⟨rfl, rfl⟩
  · rintro ⟨rfl, rfl⟩
    exact ⟨w, scale, hspells, hscale, rfl⟩

theorem Written.abs_number (w : Written) (scale : Scale) :
    |w.number scale| = w.magnitude scale := by
  have hnonneg := w.magnitude_nonneg scale
  rw [number]
  split
  · rw [abs_neg, abs_of_nonneg hnonneg]
  · exact abs_of_nonneg hnonneg

/-- The magnitude rounded up, with the sign that was written, is the number rounded away from zero.
-/
theorem Written.signed_ceil (w : Written) (scale : Scale) :
    signed w.negative ⌈w.magnitude scale * 1000⌉₊
      = SignType.sign (w.number scale) * ⌈|w.number scale| * 1000⌉ := by
  rw [w.abs_number, ← w.natCast_ceil]
  rcases (w.magnitude_nonneg scale).eq_or_lt with hzero | hpos
  · rw [← hzero, zero_mul, Nat.ceil_zero, signed]
    simp
  · rw [signed, number]
    split
    · rw [Left.sign_neg, sign_pos hpos]
      simp
    · rw [sign_pos hpos]
      simp

/-- What is read is the number that the text denotes, rounded away from zero to thousandths, in the
notation of its suffix; nothing is read from a text outside the grammar; and no step wraps. -/
theorem parse_exact {input : String} (hlength : input.utf8ByteSize < 2 ^ 31) :
    (∀ q, parse input = .ok q → ∃ x : ℚ,
      (∀ y format, Denotes (Text.trim input.toList) y format ↔ y = x ∧ format = q.format)
      ∧ q.milli = SignType.sign x * ⌈|x| * 1000⌉ ∧ |q.milli| ≤ 2 ^ 127 - 1)
    ∧ ((∀ x format, ¬ Denotes (Text.trim input.toList) x format) → ∃ e, parse input = .error e)
    ∧ parseInWords input = match parse input with
      | .ok q => .ok (q.milli, q.format)
      | .error e => .error (.refused e.fault) := by
  refine ⟨fun q hread ↦ ?_, fun hnot ↦ ?_, parseInWords_eq hlength⟩
  · obtain ⟨w, scale, hspells, hscale, -, -, hmilli⟩ := parse_eq_ok_iff.mp hread
    refine ⟨w.number scale, fun y format ↦ denotes_iff hspells hscale, ?_, ?_⟩
    · rw [hmilli, w.signed_ceil]
    · have hbounded := q.bounded
      have hlimit : (limit : Int) = 2 ^ 127 := by decide
      rw [Int.abs_eq_natAbs]
      omega
  · cases hread : parse input with
    | ok q =>
      obtain ⟨w, scale, hspells, hscale, -⟩ := parse_eq_ok_iff.mp hread
      exact absurd ⟨w, scale, hspells, hscale, rfl⟩ (hnot (w.number scale) q.format)
    | error e => exact ⟨e, rfl⟩

/-- Far less than a thousandth is rounded away from zero, at the least exponent and with as many
digits after the point as a scale of 32 bits has room for. -/
theorem parse_exact_of_tiny : "-1.555e-2147483648".utf8ByteSize < 2 ^ 31
    ∧ parse "-1.555e-2147483648" = .ok ⟨-1, .decimalExponent, by decide⟩
    ∧ parseInWords "-1.555e-2147483648" = .ok (-1, .decimalExponent)
    ∧ ∀ y format, Denotes (Text.trim "-1.555e-2147483648".toList) y format
      ↔ y = -(1555 / 1000 * 10 ^ (-2147483648 : ℤ)) ∧ format = .decimalExponent := by
  have hlength : "-1.555e-2147483648".utf8ByteSize < 2 ^ 31 := by decide
  have hread : parse "-1.555e-2147483648" = .ok ⟨-1, .decimalExponent, by decide⟩ := by decide
  let w := Written.split (Text.trim "-1.555e-2147483648".toList)
  have hspells : w.Spells (Text.trim "-1.555e-2147483648".toList) :=
    Written.spells_split (by decide) (by decide)
  have hscale : IsScale w.suffix (.ten (-2147483648)) .decimalExponent :=
    readSuffix?_eq_some_iff.mp (by decide)
  have hnumber : w.number (.ten (-2147483648)) = -(1555 / 1000 * 10 ^ (-2147483648 : ℤ)) := by
    have hnegative : w.negative = true := rfl
    have hmantissa : w.mantissa = 1555 := by decide
    have hplaces : w.fraction.length = 3 := by decide
    rw [Written.number, if_pos hnegative, w.magnitude_eq, hmantissa, hplaces, Scale.factor]
    norm_num only [Nat.cast_ofNat]
  obtain ⟨hexact, -, hwords⟩ := parse_exact hlength
  obtain ⟨x, hdenotes, -⟩ := hexact _ hread
  have hx := (hdenotes _ _).mp ⟨w, _, hspells, hscale, hnumber.symm⟩
  rw [hx.1]
  exact ⟨hlength, hread, by rw [hwords, hread], hdenotes⟩

/-! ## What is refused -/

theorem Written.exists_toQuantity_iff (hspells : w.Spells text)
    (hscale : IsScale w.suffix scale format) (hfits : ⌈w.magnitude scale * 1000⌉₊ < limit) :
    (∃ q, w.toQuantity = .ok q)
      ↔ w.mantissa < limit ∧ scale.Passes w.mantissa w.fraction.length := by
  constructor
  · rintro ⟨q, hq⟩
    obtain ⟨hm, hpasses, -⟩ := (toQuantity_eq_ok_iff hspells hscale).mp hq
    exact ⟨hm, hpasses⟩
  · rintro ⟨hm, hpasses⟩
    let q : Quantity := ⟨signed w.negative ⌈w.magnitude scale * 1000⌉₊, format,
      by rwa [natAbs_signed]⟩
    exact ⟨q, (toQuantity_eq_ok_iff hspells hscale).mpr ⟨hm, hpasses, rfl, rfl⟩⟩

theorem Written.toQuantity_of_forall_ne (hspells : w.Spells text)
    (hscale : IsScale w.suffix scale format) (hm : w.mantissa < limit)
    (hnone : ∀ q, w.toQuantity ≠ .ok q) : w.toQuantity = .error .valueTooLarge := by
  have hread := toQuantity_of_lt hspells hscale hm
  split at hread
  · exact hread
  · next q _ => exact absurd hread (hnone q)

/-- A text of the grammar whose amount could be kept is read if its digits, taken as one number, fit
into 128 bits and no step of the scaling is too large; otherwise it is refused for the one or the
other. -/
theorem parse_accepts_iff (hspells : w.Spells (Text.trim input.toList))
    (hscale : IsScale w.suffix scale format) (hfits : ⌈w.magnitude scale * 1000⌉ ≤ 2 ^ 127 - 1) :
    ((∃ q, parse input = .ok q)
      ↔ w.mantissa ≤ 2 ^ 127 - 1 ∧ scale.Passes w.mantissa w.fraction.length)
    ∧ (2 ^ 127 - 1 < w.mantissa → parse input = .error ⟨input, .mantissaTooLarge⟩)
    ∧ (w.mantissa ≤ 2 ^ 127 - 1 → ¬ scale.Passes w.mantissa w.fraction.length →
      parse input = .error ⟨input, .valueTooLarge⟩) := by
  have hlimit : limit = 2 ^ 127 := rfl
  have hle : w.mantissa ≤ 2 ^ 127 - 1 ↔ w.mantissa < limit := by omega
  have hsplit := hspells.split_eq hscale
  have hkept : ⌈w.magnitude scale * 1000⌉₊ < limit := by
    rw [← w.natCast_ceil] at hfits
    omega
  have hiff := Written.exists_toQuantity_iff hspells hscale hkept
  refine ⟨?_, fun hm ↦ ?_, fun hm hnot ↦ ?_⟩
  · rw [hle, ← hiff]
    exact exists_congr fun q ↦ parse_eq_ok_iff_of_split hsplit
  · rw [parse_of_split hsplit, Written.toQuantity_of_le hspells hscale (by omega)]
    rfl
  · have hnone : ∀ q, w.toQuantity ≠ .ok q := fun q hq ↦ hnot (hiff.mp ⟨q, hq⟩).2
    rw [parse_of_split hsplit,
      Written.toQuantity_of_forall_ne hspells hscale (hle.mp hm) hnone]
    rfl

/-- The largest amount is read, with as many digits as it has. -/
theorem parse_accepts_iff_of_largest : ∃ w : Written,
    w.Spells (Text.trim "170141183460469231731687303715884105.727".toList)
    ∧ IsScale w.suffix (.ten 0) .decimalSI ∧ ⌈w.magnitude (.ten 0) * 1000⌉ ≤ 2 ^ 127 - 1
    ∧ ∃ q, parse "170141183460469231731687303715884105.727" = .ok q := by
  let w := Written.split (Text.trim "170141183460469231731687303715884105.727".toList)
  have hspells : w.Spells (Text.trim "170141183460469231731687303715884105.727".toList) :=
    Written.spells_split (by decide) (by decide)
  have hscale : IsScale w.suffix (.ten 0) .decimalSI := .one
  have hmantissa : w.mantissa = 2 ^ 127 - 1 := by decide
  have hplaces : w.fraction.length = 3 := by decide
  have hfits : ⌈w.magnitude (.ten 0) * 1000⌉ ≤ 2 ^ 127 - 1 := by
    rw [w.magnitude_eq, hmantissa, hplaces, Scale.factor]
    norm_num
  have hpasses : (Scale.ten 0).Passes w.mantissa w.fraction.length := by
    rw [hmantissa, hplaces, Scale.Passes]
    decide
  exact ⟨w, hspells, hscale, hfits,
    (parse_accepts_iff hspells hscale hfits).1.mpr ⟨hmantissa.le, hpasses⟩⟩

/-- A text of the grammar, neither long nor with a large exponent, is refused although its amount
could be kept. -/
def IsRefusedThoughKept (input : String) : Prop :=
  input.utf8ByteSize < 2 ^ 31 ∧ ∃ (w : Written) (scale : Scale) (format : Format),
    w.Spells (Text.trim input.toList) ∧ IsScale w.suffix scale format
    ∧ (∀ e, scale = .ten e → |e| < 10 ^ 9) ∧ ⌈w.magnitude scale * 1000⌉ ≤ 2 ^ 127 - 1
    ∧ ∃ fault, parse input = .error ⟨input, fault⟩

/-- What denotes an amount that could be kept is refused: a tiny part of a binary unit, one with
zeros after the point, and zero with an exponent. -/
theorem exists_refused_for_spelling :
    IsRefusedThoughKept "0.000000000000000000000000000000000000001Ki"
    ∧ IsRefusedThoughKept "1.000000000000000000000000000000000000000"
    ∧ IsRefusedThoughKept "0e99" := by
  refine ⟨?tiny, ?zeros, ?zero⟩
  case tiny =>
    let w := Written.split (Text.trim "0.000000000000000000000000000000000000001Ki".toList)
    have hmantissa : w.mantissa = 1 := by decide
    have hplaces : w.fraction.length = 39 := by decide
    refine ⟨by decide, w, .two 10, .binarySI, Written.spells_split (by decide) (by decide),
      .binary 0, nofun, ?_,
      .valueTooLarge, by decide⟩
    rw [w.magnitude_eq, hmantissa, hplaces, Scale.factor]
    norm_num
  case zeros =>
    let w := Written.split (Text.trim "1.000000000000000000000000000000000000000".toList)
    have hmantissa : w.mantissa = 10 ^ 39 := by decide
    have hplaces : w.fraction.length = 39 := by decide
    refine ⟨by decide, w, .ten 0, .decimalSI, Written.spells_split (by decide) (by decide), .one,
      ?_, ?_,
      .mantissaTooLarge, by decide⟩
    · rintro e ⟨⟩
      decide
    · rw [w.magnitude_eq, hmantissa, hplaces, Scale.factor]
      norm_num
  case zero =>
    let w := Written.split (Text.trim "0e99".toList)
    have hmantissa : w.mantissa = 0 := by decide
    refine ⟨by decide, w, .ten 99, .decimalExponent, Written.spells_split (by decide) (by decide),
      readSuffix?_eq_some_iff.mp (by decide), ?_, ?_, .valueTooLarge, by decide⟩
    · rintro e ⟨⟩
      decide
    · rw [w.magnitude_eq, hmantissa, Nat.cast_zero, zero_div, zero_mul, zero_mul, Int.ceil_zero]
      decide

end NodeGroups.Quantity
