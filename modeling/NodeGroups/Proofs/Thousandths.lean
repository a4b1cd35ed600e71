import Mathlib
import NodeGroups.Proofs.Notation

/-!
# Quantities are read exactly

The amount that is read from a text is the rational number that the text denotes, in thousandths and
rounded away from zero. The reader never looks at a fraction: it takes the digits before and after
the point as one number and corrects the scale, and it rounds in one division at the end. That this
is the same as rounding the exact number is an equation between integers and rationals for each kind
of scale. Where a power of ten is beyond 128 bits, the number below it is too small to be more than
one thousandth.

A text of the grammar is refused only if its digits make too large a number, or a step of the
scaling is too large, and `Scale.Passes` says when no step is.
-/

namespace NodeGroups

theorem Text.ofDigits_append (ds ds' : List Char) :
    ofDigits (ds ++ ds') = ofDigits ds * 10 ^ ds'.length + ofDigits ds' := by
  rw [ofDigits, Nat.ofDigitChars_append, Nat.ofDigitChars_eq_ofDigitChars_zero, Nat.mul_comm]
  rfl

namespace Quantity

variable {m n d e places : Nat} {scale : Scale} {format : Format} {w : Written} {text : List Char}

/-! ## What is written -/

def Scale.factor : Scale → ℚ
  | .ten e => 10 ^ e
  | .two e => 2 ^ e

/-- The number that the digits before and after the point make together. -/
def Written.mantissa (w : Written) : Nat := Text.ofDigits w.mantissaDigits

/-- The number that is written, without its sign: the digits before the point and those after it, at
a scale. -/
def Written.magnitude (w : Written) (scale : Scale) : ℚ :=
  (Text.ofDigits w.whole + Text.ofDigits w.fraction / 10 ^ w.fraction.length) * scale.factor

def Written.number (w : Written) (scale : Scale) : ℚ :=
  if w.negative then -w.magnitude scale else w.magnitude scale

/-- A text denotes a number in a notation. -/
def Denotes (text : List Char) (x : ℚ) (format : Format) : Prop :=
  ∃ (w : Written) (scale : Scale),
    w.Spells text ∧ IsScale w.suffix scale format ∧ x = w.number scale

theorem Scale.factor_pos (scale : Scale) : 0 < scale.factor := by
  cases scale with
  | ten e => exact zpow_pos (by norm_num) e
  | two e => exact pow_pos (by norm_num) e

theorem Written.magnitude_eq (w : Written) (scale : Scale) :
    w.magnitude scale = w.mantissa / 10 ^ w.fraction.length * scale.factor := by
  have hpower : (10 : ℚ) ^ w.fraction.length ≠ 0 := pow_ne_zero _ (by norm_num)
  rw [magnitude, mantissa, mantissaDigits, Text.ofDigits_append]
  congr 1
  push_cast
  rw [add_div, mul_div_cancel_right₀ _ hpower]

theorem Written.magnitude_nonneg (w : Written) (scale : Scale) : 0 ≤ w.magnitude scale := by
  rw [w.magnitude_eq]
  have := scale.factor_pos
  positivity

theorem Written.natCast_ceil (w : Written) (scale : Scale) :
    (⌈w.magnitude scale * 1000⌉₊ : Int) = ⌈w.magnitude scale * 1000⌉ :=
  Int.natCast_ceil_eq_ceil (mul_nonneg (w.magnitude_nonneg scale) (by norm_num))

/-! ## Rounding -/

theorem ceilDiv_eq_ceil (hd : 0 < d) : ceilDiv n d = ⌈(n / d : ℚ)⌉₊ := by
  refine eq_of_forall_ge_iff fun k ↦ ?_
  have hd' : (0 : ℚ) < d := Nat.cast_pos.mpr hd
  rw [Nat.ceil_le, div_le_iff₀ hd', ceilDiv, ← Nat.lt_succ_iff, Nat.div_lt_iff_lt_mul hd]
  have hcast : (n : ℚ) ≤ k * d ↔ n ≤ k * d := by exact_mod_cast Iff.rfl
  rw [hcast, Nat.succ_mul]
  omega

theorem ceilDiv_le (hd : 0 < d) : ceilDiv n d ≤ n := by
  rw [ceilDiv_eq_ceil hd, Nat.ceil_le]
  exact div_le_self (Nat.cast_nonneg n) (by exact_mod_cast hd)

theorem limit_le_pow (h : 38 < e) : limit ≤ 10 ^ e := by
  calc limit ≤ 10 ^ 39 := by decide
    _ ≤ 10 ^ e := Nat.pow_le_pow_right (by decide) h

theorem within?_eq_some_iff : within? m = some n ↔ m < limit ∧ m = n := by
  rw [within?, Option.ite_none_right_eq_some, Option.some_inj]

theorem tenPower?_eq_some_iff : tenPower? e = some n ↔ e ≤ 38 ∧ 10 ^ e = n := by
  rw [tenPower?, Option.ite_none_right_eq_some, Option.some_inj]
  rfl

/-- A number of 128 bits divided by a larger power of ten is rounded to one, if it is not zero. -/
theorem ceil_div_pow (hm : m < limit) (he : 38 < e) :
    ⌈(m / 10 ^ e : ℚ)⌉₊ = if m = 0 then 0 else 1 := by
  split
  · next hzero => rw [hzero, Nat.cast_zero, zero_div, Nat.ceil_zero]
  · next hne =>
    have hpos : (0 : ℚ) < m := Nat.cast_pos.mpr (Nat.pos_of_ne_zero hne)
    have hle : (m : ℚ) ≤ 10 ^ e := by exact_mod_cast (hm.trans_le (limit_le_pow he)).le
    have hpower : (0 : ℚ) < 10 ^ e := by positivity
    rw [Nat.ceil_eq_iff one_ne_zero]
    refine ⟨?_, ?_⟩
    · simpa using div_pos hpos hpower
    · rw [Nat.cast_one, div_le_one hpower]
      exact hle

/-! ## Scaling -/

theorem scaleTen?_natCast :
    scaleTen? m e = some n ↔ (m = 0 → e ≤ 38) ∧ m * 10 ^ e = n ∧ n < limit := by
  rw [scaleTen?, if_pos (Int.natCast_nonneg e), Int.toNat_natCast, Option.bind_eq_some_iff]
  constructor
  · rintro ⟨power, hpower, hproduct⟩
    obtain ⟨he, rfl⟩ := tenPower?_eq_some_iff.mp hpower
    obtain ⟨hlt, rfl⟩ := within?_eq_some_iff.mp hproduct
    exact ⟨fun _ ↦ he, rfl, hlt⟩
  · rintro ⟨hzero, rfl, hlt⟩
    have he : e ≤ 38 := by
      by_contra hlarge
      have hm : 0 < m := Nat.pos_of_ne_zero fun hm ↦ hlarge (hzero hm)
      have hpower := limit_le_pow (e := e) (by omega)
      have hproduct := Nat.le_mul_of_pos_left (10 ^ e) hm
      omega
    exact ⟨10 ^ e, tenPower?_eq_some_iff.mpr ⟨he, rfl⟩, within?_eq_some_iff.mpr ⟨hlt, rfl⟩⟩

theorem scaleTen?_neg (hm : m < limit) (he : 0 < e) :
    scaleTen? m (-e) = some ⌈(m / 10 ^ e : ℚ)⌉₊ := by
  have hneg : ¬ (0 : Int) ≤ -e := by omega
  rw [scaleTen?, if_neg hneg, neg_neg, Int.toNat_natCast, tenPower?]
  split
  · next power hpower =>
    obtain ⟨-, rfl⟩ := tenPower?_eq_some_iff.mp hpower
    rw [ceilDiv_eq_ceil (Nat.pow_pos (by decide))]
    push_cast
    rfl
  · next hnone =>
    have hlarge : 38 < e := by simpa using hnone
    rw [ceil_div_pow hm hlarge]

theorem scaleTen?_eq_some_iff {shift : Int} (hm : m < limit) : scaleTen? m shift = some n
    ↔ (m = 0 → shift ≤ 38) ∧ ⌈(m * 10 ^ shift : ℚ)⌉₊ = n ∧ n < limit := by
  by_cases hshift : 0 ≤ shift
  · obtain ⟨e, rfl⟩ := Int.eq_ofNat_of_zero_le hshift
    have hceil : ⌈(m * 10 ^ (e : ℤ) : ℚ)⌉₊ = m * 10 ^ e := by
      rw [zpow_natCast]
      exact_mod_cast Nat.ceil_natCast (m * 10 ^ e)
    have hle : (e : ℤ) ≤ 38 ↔ e ≤ 38 := by omega
    rw [scaleTen?_natCast, hceil, hle]
  · obtain ⟨e, rfl⟩ : ∃ e : Nat, shift = -e := ⟨(-shift).toNat, by omega⟩
    have hvalue : (m * 10 ^ (-(e : ℤ)) : ℚ) = m / 10 ^ e := by
      rw [zpow_neg, zpow_natCast, div_eq_mul_inv]
    have hle : ⌈(m / 10 ^ e : ℚ)⌉₊ ≤ m :=
      Nat.ceil_le.mpr (div_le_self (Nat.cast_nonneg m) (one_le_pow₀ (by norm_num)))
    rw [scaleTen?_neg hm (by omega), hvalue, Option.some_inj]
    constructor
    · rintro rfl
      exact ⟨fun _ ↦ by omega, rfl, hle.trans_lt hm⟩
    · exact fun h ↦ h.2.1

/-- No step of the scaling is too large for the word it is done in, if the result is not. A power of
ten beyond 128 bits spoils zero, which could be multiplied by it; and a scale of two is applied
before the digits after the point are divided off, so that the product before that can be too large.
-/
def Scale.Passes (mantissa places : Nat) : Scale → Prop
  | .ten e => e + 3 < 2 ^ 31 ∧ -2 ^ 31 ≤ e + 3 - places ∧ (mantissa = 0 → e + 3 - places ≤ 38)
  | .two e => mantissa * 2 ^ e * 1000 < limit ∧ places ≤ 38

/-- The scaling gives the thousandths of the exact number, rounded up. -/
theorem Scale.thousandths?_eq_some_iff (hm : m < limit) : scale.thousandths? m places = some n
    ↔ scale.Passes m places ∧ ⌈m / 10 ^ places * scale.factor * 1000⌉₊ = n ∧ n < limit := by
  have hbound : (exponentBound : Int) = 2 ^ 31 := by decide
  cases scale with
  | ten e =>
    have hvalue : (m / 10 ^ places * (10 : ℚ) ^ e * 1000) = m * 10 ^ (e + 3 - places) := by
      have hten : (10 : ℚ) ≠ 0 := by norm_num
      rw [zpow_sub₀ hten, zpow_add₀ hten, zpow_natCast]
      have hpower : (10 : ℚ) ^ places ≠ 0 := pow_ne_zero _ hten
      field_simp
      norm_num
    rw [Scale.thousandths?, Option.ite_none_right_eq_some, scaleTen?_eq_some_iff hm, hbound,
      Scale.Passes, Scale.factor, hvalue]
    tauto
  | two e =>
    have hvalue : (m / 10 ^ places * (2 : ℚ) ^ e * 1000)
        = (m * 2 ^ e * 1000 : Nat) / 10 ^ places := by
      push_cast
      ring
    have hceil : ⌈(m / 10 ^ places * (2 : ℚ) ^ e * 1000)⌉₊
        = ceilDiv (m * 2 ^ e * 1000) (10 ^ places) := by
      rw [hvalue, ceilDiv_eq_ceil (Nat.pow_pos (by decide))]
      push_cast
      rfl
    have hle : ceilDiv (m * 2 ^ e * 1000) (10 ^ places) ≤ m * 2 ^ e * 1000 :=
      ceilDiv_le (Nat.pow_pos (by decide))
    rw [Scale.thousandths?, Scale.Passes, Scale.factor, hceil]
    simp only [Option.bind_eq_bind, Option.bind_eq_some_iff, Option.pure_def, Option.some_inj,
      within?_eq_some_iff, tenPower?_eq_some_iff]
    constructor
    · rintro ⟨-, ⟨-, rfl⟩, -, ⟨hlt, rfl⟩, -, ⟨hplaces, rfl⟩, rfl⟩
      exact ⟨⟨hlt, hplaces⟩, rfl, hle.trans_lt hlt⟩
    · rintro ⟨⟨hlt, hplaces⟩, rfl, -⟩
      have hunits : m * 2 ^ e < limit := (Nat.le_mul_of_pos_right _ (by decide)).trans_lt hlt
      exact ⟨_, ⟨hunits, rfl⟩, _, ⟨hlt, rfl⟩, _, ⟨hplaces, rfl⟩, rfl⟩

/-! ## Reading -/

theorem ofMagnitude?_eq_some_iff {negative : Bool} {q : Quantity} :
    ofMagnitude? negative n format = some q ↔ q.milli = signed negative n ∧ q.format = format := by
  rw [ofMagnitude?]
  constructor
  · intro h
    split at h
    · obtain rfl := Option.some.inj h
      exact ⟨rfl, rfl⟩
    · cases h
  · obtain ⟨milli, format', hbounded⟩ := q
    rintro ⟨rfl, rfl⟩
    rw [natAbs_signed] at hbounded
    rw [dif_pos hbounded]

/-- A quantity comes out of the scaling if no step of it is too large. -/
theorem Scale.quantity_eq_some_iff {negative : Bool} {q : Quantity} (hm : m < limit) :
    (scale.thousandths? m places).bind (ofMagnitude? negative · format) = some q
      ↔ scale.Passes m places ∧ q.format = format
        ∧ q.milli = signed negative ⌈m / 10 ^ places * scale.factor * 1000⌉₊ := by
  rw [Option.bind_eq_some_iff]
  constructor
  · rintro ⟨n, hn, hquantity⟩
    obtain ⟨hpasses, rfl, -⟩ := (thousandths?_eq_some_iff hm).mp hn
    obtain ⟨hmilli, hformat⟩ := ofMagnitude?_eq_some_iff.mp hquantity
    exact ⟨hpasses, hformat, hmilli⟩
  · rintro ⟨hpasses, hformat, hmilli⟩
    have hbounded := q.bounded
    rw [hmilli, natAbs_signed] at hbounded
    exact ⟨_, (thousandths?_eq_some_iff hm).mpr ⟨hpasses, rfl, hbounded⟩,
      ofMagnitude?_eq_some_iff.mpr ⟨hmilli, hformat⟩⟩

namespace Written

variable {q : Quantity} {input : String}

theorem toQuantity_of_spells (hspells : w.Spells text) (hscale : IsScale w.suffix scale format) :
    w.toQuantity = match within? w.mantissa with
      | none => .error .mantissaTooLarge
      | some m => match (scale.thousandths? m w.fraction.length).bind
          (ofMagnitude? w.negative · format) with
        | none => .error .valueTooLarge
        | some q => .ok q := by
  rw [toQuantity, if_neg (not_and_or.mpr hspells.ne_nil), if_neg hspells.point_notMem,
    readSuffix?_eq_some_iff.mpr hscale]
  rfl

theorem toQuantity_of_lt (hspells : w.Spells text) (hscale : IsScale w.suffix scale format)
    (hm : w.mantissa < limit) :
    w.toQuantity = match (scale.thousandths? w.mantissa w.fraction.length).bind
        (ofMagnitude? w.negative · format) with
      | none => .error .valueTooLarge
      | some q => .ok q := by
  have hwithin : within? w.mantissa = some w.mantissa := if_pos hm
  rw [toQuantity_of_spells hspells hscale, hwithin]

theorem toQuantity_of_le (hspells : w.Spells text) (hscale : IsScale w.suffix scale format)
    (hm : limit ≤ w.mantissa) : w.toQuantity = .error .mantissaTooLarge := by
  have hwithin : within? w.mantissa = none := if_neg (Nat.not_lt.mpr hm)
  rw [toQuantity_of_spells hspells hscale, hwithin]

theorem toQuantity_eq_ok_iff (hspells : w.Spells text) (hscale : IsScale w.suffix scale format) :
    w.toQuantity = .ok q ↔ w.mantissa < limit ∧ scale.Passes w.mantissa w.fraction.length
      ∧ q.format = format ∧ q.milli = signed w.negative ⌈w.magnitude scale * 1000⌉₊ := by
  by_cases hm : w.mantissa < limit
  · have hquantity : (scale.thousandths? w.mantissa w.fraction.length).bind
          (ofMagnitude? w.negative · format) = some q
        ↔ scale.Passes w.mantissa w.fraction.length ∧ q.format = format
          ∧ q.milli = signed w.negative
            ⌈w.mantissa / 10 ^ w.fraction.length * scale.factor * 1000⌉₊ :=
      scale.quantity_eq_some_iff hm
    rw [toQuantity_of_lt hspells hscale hm, w.magnitude_eq, and_iff_right hm, ← hquantity]
    cases (scale.thousandths? w.mantissa w.fraction.length).bind
      (ofMagnitude? w.negative · format) with
    | none => simp
    | some q' => simp
  · rw [toQuantity_of_le hspells hscale (Nat.not_lt.mp hm)]
    exact iff_of_false nofun fun h ↦ hm h.1

theorem exists_isScale_of_toQuantity (h : w.toQuantity = .ok q) :
    (w.whole ≠ [] ∨ w.fraction ≠ []) ∧ '.' ∉ w.fraction
      ∧ ∃ scale format, IsScale w.suffix scale format := by
  rw [toQuantity] at h
  split at h
  · cases h
  · next hdigits =>
    split at h
    · cases h
    · next hpoint =>
      refine ⟨not_and_or.mp hdigits, hpoint, ?_⟩
      split at h
      · cases h
      · next scale format hread => exact ⟨scale, format, readSuffix?_eq_some_iff.mp hread⟩

end Written

theorem parse_of_split {input : String} (hsplit : Written.split (Text.trim input.toList) = w) :
    parse input = w.toQuantity.mapError fun fault ↦ ⟨input, fault⟩ := by
  rw [parse, hsplit]
  cases w.toQuantity with
  | ok q => rfl
  | error fault => rfl

theorem parse_eq_ok_iff_of_split {input : String} {q : Quantity}
    (hsplit : Written.split (Text.trim input.toList) = w) :
    parse input = .ok q ↔ w.toQuantity = .ok q := by
  rw [parse_of_split hsplit]
  cases w.toQuantity with
  | ok q' => simp [Except.mapError]
  | error fault => simp [Except.mapError]

/-- Exactly the texts of the grammar are read for which no step is too large, and then the amount is
that of the number which is written. -/
theorem parse_eq_ok_iff {input : String} {q : Quantity} : parse input = .ok q
    ↔ ∃ (w : Written) (scale : Scale), w.Spells (Text.trim input.toList)
      ∧ IsScale w.suffix scale q.format ∧ w.mantissa < limit
      ∧ scale.Passes w.mantissa w.fraction.length
      ∧ q.milli = signed w.negative ⌈w.magnitude scale * 1000⌉₊ := by
  constructor
  · intro h
    have hquantity := (parse_eq_ok_iff_of_split rfl).mp h
    obtain ⟨hdigits, hpoint, scale, format, hscale⟩ :=
      Written.exists_isScale_of_toQuantity hquantity
    have hspells := Written.spells_split hdigits hpoint
    obtain ⟨hm, hpasses, rfl, hmilli⟩ := (Written.toQuantity_eq_ok_iff hspells hscale).mp hquantity
    exact ⟨_, scale, hspells, hscale, hm, hpasses, hmilli⟩
  · rintro ⟨w, scale, hspells, hscale, hm, hpasses, hmilli⟩
    rw [parse_eq_ok_iff_of_split (hspells.split_eq hscale)]
    exact (Written.toQuantity_eq_ok_iff hspells hscale).mpr ⟨hm, hpasses, rfl, hmilli⟩

end Quantity

end NodeGroups
