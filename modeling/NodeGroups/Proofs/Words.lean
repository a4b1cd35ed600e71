import Mathlib
import NodeGroups.Proofs.Except
import NodeGroups.Proofs.Thousandths

/-!
# Quantities in words of fixed width

The arithmetic of reading a quantity, with each number in the word that it is kept in. Some steps
are checked: a result that does not fit is found, and the text is refused. The others are not
checked, and a result that did not fit would be wrapped around and go unnoticed. Here such a step
ends the computation, so that a computation which does not end like that had no step that wrapped.

The computation agrees with the exact one on every text with fewer than `2 ^ 31` digits after the
point, for each scale and each number of digits: it refuses the same texts for the same reasons, and
wraps in no step.
-/

namespace NodeGroups.Quantity

/-! ## Words -/

/-- Why a computation in words ends before it has a result. -/
inductive Halt
  /-- The result of a checked step did not fit. -/
  | refused (fault : Fault)
  /-- The result of a step that was not checked did not fit. -/
  | wrapped
  deriving DecidableEq, Repr

/-- The words that numbers are kept in. -/
inductive Word
  | signed (bits : Nat)
  | unsigned (bits : Nat)
  deriving DecidableEq, Repr

namespace Word

variable {word : Word} {n : Int} {fault : Fault}

def Holds : Word → Int → Prop
  | signed bits, n => -2 ^ (bits - 1) ≤ n ∧ n < 2 ^ (bits - 1)
  | unsigned bits, n => 0 ≤ n ∧ n < 2 ^ bits

instance (n : Int) : (word : Word) → Decidable (word.Holds n)
  | signed _ => inferInstanceAs (Decidable (_ ∧ _))
  | unsigned _ => inferInstanceAs (Decidable (_ ∧ _))

def store (word : Word) (n : Int) : Except Halt Int :=
  if word.Holds n then .ok n else .error .wrapped

def check (word : Word) (fault : Fault) (n : Int) : Except Halt Int :=
  if word.Holds n then .ok n else .error (.refused fault)

theorem store_of_holds (h : word.Holds n) : word.store n = .ok n := if_pos h

theorem check_of_holds (h : word.Holds n) : word.check fault n = .ok n := if_pos h

theorem check_of_not_holds (h : ¬ word.Holds n) :
    word.check fault n = .error (.refused fault) := if_neg h

end Word

/-! ## The computation -/

/-- Division that rounds away from zero, from a division that rounds toward it. -/
def ceilDivInWords (value divisor : Int) : Except Halt Int := do
  let quotient ← (Word.signed 128).store (value.tdiv divisor)
  let rest ← (Word.signed 128).store (value.tmod divisor)
  if rest = 0 then pure quotient
  else if 0 < value then (Word.signed 128).store (quotient + 1)
  else (Word.signed 128).store (quotient - 1)

/-- A power of ten, if it fits. -/
def tenPowerInWords (e : Int) : Except Halt Int :=
  (Word.signed 128).check .valueTooLarge (10 ^ e.toNat)

/-- The mantissa times ten to the `shift`. -/
def scaleTenInWords (mantissa shift : Int) : Except Halt Int := do
  if 0 ≤ shift then
    let power ← tenPowerInWords (← (Word.unsigned 32).store shift)
    (Word.signed 128).check .valueTooLarge (mantissa * power)
  else
    let depth ← (Word.unsigned 32).store (-shift)
    match tenPowerInWords depth with
    | .ok power => ceilDivInWords mantissa power
    | .error _ => pure (if mantissa = 0 then 0 else 1)

/-- The thousandths in a mantissa with a number of digits after the point, at a given scale. -/
def Scale.thousandthsInWords (mantissa : Int) (length : Nat) : Scale → Except Halt Int
  | .ten e => do
    let places ← (Word.unsigned 32).store length
    let places ← (Word.signed 32).store places
    let e ← (Word.signed 32).store e
    let raised ← (Word.signed 32).check .valueTooLarge (e + 3)
    let shift ← (Word.signed 32).check .valueTooLarge (raised - places)
    scaleTenInWords mantissa shift
  | .two e => do
    let places ← (Word.unsigned 32).store length
    let unit ← (Word.signed 128).store (2 ^ e)
    let product ← (Word.signed 128).check .valueTooLarge (mantissa * unit)
    let product ← (Word.signed 128).check .valueTooLarge (product * 1000)
    let power ← tenPowerInWords places
    ceilDivInWords product power

/-- A magnitude with a sign. -/
def signedInWords (negative : Bool) (magnitude : Int) : Except Halt Int :=
  if negative then (Word.signed 128).store (-magnitude) else pure magnitude

/-- The amount and the notation that the parts denote. -/
def Written.readInWords (w : Written) : Except Halt (Int × Format) :=
  if w.whole = [] ∧ w.fraction = [] then .error (.refused .missingDigits)
  else if '.' ∈ w.fraction then .error (.refused .secondPoint)
  else match readSuffix? w.suffix with
    | none => .error (.refused .unknownSuffix)
    | some (scale, format) => do
      let mantissa ← (Word.signed 128).check .mantissaTooLarge w.mantissa
      let milli ← scale.thousandthsInWords mantissa w.fraction.length
      let milli ← signedInWords w.negative milli
      pure (milli, format)

def parseInWords (input : String) : Except Halt (Int × Format) :=
  (Written.split (Text.trim input.toList)).readInWords

/-! ## Agreement with the exact computation -/

variable {m n d e : Nat} {scale : Scale} {format : Format} {suffix : List Char} {fault : Fault}

/-- The result of a computation that is refused if there is none. -/
def orRefused (fault : Fault) : Option Nat → Except Halt Int
  | some n => .ok n
  | none => .error (.refused fault)

/-- Two chains agree if they agree in their first links and, after them, in the rest. -/
theorem orRefused_bind {o : Option Nat} {f : Nat → Option Nat} {g : Int → Except Halt Int}
    (h : ∀ n, o = some n → g n = orRefused fault (f n)) :
    (orRefused fault o >>= g) = orRefused fault (o.bind f) := by
  cases o with
  | none => rfl
  | some n => exact h n rfl

theorem holds_wide_iff : (Word.signed 128).Holds n ↔ n < limit := by
  have hlimit : (2 : Int) ^ 127 = (limit : Nat) := by decide
  rw [Word.Holds, hlimit]
  omega

theorem holds_wide (h : n < limit) : (Word.signed 128).Holds n := holds_wide_iff.mpr h

theorem check_wide : (Word.signed 128).check fault n = orRefused fault (within? n) := by
  rw [within?]
  split
  · next hlt => exact Word.check_of_holds (holds_wide hlt)
  · next hge => exact Word.check_of_not_holds (mt holds_wide_iff.mp hge)

theorem tenPowerInWords_natCast : tenPowerInWords e = orRefused .valueTooLarge (tenPower? e) := by
  have hpower : (10 : Int) ^ (e : Int).toNat = (10 ^ e : Nat) := by
    rw [Int.toNat_natCast]
    push_cast
    rfl
  rw [tenPowerInWords, hpower, check_wide]
  by_cases he : e ≤ 38
  · rw [tenPower?_eq e he]
    rfl
  · have hlarge : ¬ 10 ^ e < limit := Nat.not_lt.mpr (limit_le_pow (Nat.lt_of_not_le he))
    rw [within?, if_neg hlarge, tenPower?, if_neg he]

theorem ceilDiv_eq_ite (hd : 0 < d) : ceilDiv n d = if n % d = 0 then n / d else n / d + 1 := by
  have hdiv : n = n % d + d * (n / d) := (Nat.mod_add_div n d).symm
  have hmod := Nat.mod_lt n hd
  rw [ceilDiv]
  split
  · next hzero =>
    have hsum : n + (d - 1) = d - 1 + d * (n / d) := by omega
    rw [hsum, Nat.add_mul_div_left _ _ hd, Nat.div_eq_of_lt (by omega), Nat.zero_add]
  · next hrest =>
    have hsum : n + (d - 1) = n % d - 1 + d * (n / d + 1) := by
      rw [Nat.mul_add, Nat.mul_one]
      omega
    rw [hsum, Nat.add_mul_div_left _ _ hd, Nat.div_eq_of_lt (by omega), Nat.zero_add]

theorem ceilDivInWords_natCast (hn : n < limit) (hd : 0 < d) :
    ceilDivInWords n d = .ok (ceilDiv n d) := by
  have hquotient : (Word.signed 128).store ((n : Int).tdiv d) = .ok (n / d : Nat) :=
    Word.store_of_holds (holds_wide ((Nat.div_le_self n d).trans_lt hn))
  have hrest : (Word.signed 128).store ((n : Int).tmod d) = .ok (n % d : Nat) :=
    Word.store_of_holds (holds_wide ((Nat.mod_le n d).trans_lt hn))
  have hle := ceilDiv_le (n := n) hd
  rw [ceilDivInWords, hquotient, ok_bind, hrest, ok_bind, ceilDiv_eq_ite hd]
  rw [ceilDiv_eq_ite hd] at hle
  by_cases hzero : n % d = 0
  · rw [if_pos hzero, if_pos (by omega)]
    rfl
  · have hpos : 0 < n := Nat.pos_of_ne_zero fun hn ↦ hzero (by rw [hn, Nat.zero_mod])
    rw [if_neg hzero] at hle ⊢
    rw [if_neg (by omega), if_pos (by omega)]
    exact Word.store_of_holds (holds_wide (hle.trans_lt hn))

/-- A scale whose exponent, or whose unit, fits into the word that it is kept in. -/
def Scale.FitsWords : Scale → Prop
  | .ten e => (Word.signed 32).Holds e
  | .two e => e ≤ 60

theorem IsScale.fitsWords (h : IsScale suffix scale format) : scale.FitsWords := by
  cases h with
  | one => exact ⟨by decide, by decide⟩
  | thousandth => exact ⟨by decide, by decide⟩
  | decimal power => exact ⟨by omega, by omega⟩
  | binary power =>
    have hunit : 10 * (power.val + 1) ≤ 60 := by omega
    exact hunit
  | exponent hmark hnumeral hlow hhigh => exact ⟨hlow, hhigh⟩

theorem scaleTenInWords_natCast {shift : Int} (hm : m < limit)
    (hshift : (Word.signed 32).Holds shift) :
    scaleTenInWords m shift = orRefused .valueTooLarge (scaleTen? m shift) := by
  obtain ⟨hlow, hhigh⟩ := hshift
  rw [scaleTenInWords, scaleTen?]
  split
  · next hpos =>
    obtain ⟨k, rfl⟩ := Int.eq_ofNat_of_zero_le hpos
    have hword : (Word.unsigned 32).Holds k := ⟨hpos, by omega⟩
    rw [Word.store_of_holds hword, ok_bind, tenPowerInWords_natCast, Int.toNat_natCast]
    refine orRefused_bind fun power _ ↦ ?_
    rw [← Int.natCast_mul, check_wide]
  · next hneg =>
    obtain ⟨k, hk⟩ : ∃ k : Nat, -shift = k := ⟨(-shift).toNat, by omega⟩
    have hword : (Word.unsigned 32).Holds k := ⟨by omega, by omega⟩
    rw [hk, Word.store_of_holds hword, ok_bind, tenPowerInWords_natCast, Int.toNat_natCast]
    cases hpower : tenPower? k with
    | none =>
      by_cases hzero : m = 0
      · subst hzero
        rfl
      · have hne : (m : Int) ≠ 0 := Int.natCast_ne_zero.mpr hzero
        simp only [orRefused, if_neg hne, if_neg hzero]
        rfl
    | some power =>
      obtain ⟨-, rfl⟩ := tenPower?_eq_some_iff.mp hpower
      exact ceilDivInWords_natCast hm (Nat.pow_pos (by decide))

theorem Scale.thousandthsInWords_natCast {length : Nat} (hm : m < limit) (hlength : length < 2 ^ 31)
    (hscale : scale.FitsWords) : scale.thousandthsInWords m length
      = orRefused .valueTooLarge (scale.thousandths? m length) := by
  have hbound : (exponentBound : Int) = 2 ^ 31 := by decide
  have hplaces : (Word.unsigned 32).Holds length := ⟨Int.natCast_nonneg length, by omega⟩
  cases scale with
  | ten e =>
    have hexponent : (Word.signed 32).Holds e := hscale
    have ⟨hlow, hhigh⟩ := hexponent
    have hplaces' : (Word.signed 32).Holds length := ⟨by omega, by omega⟩
    rw [thousandthsInWords, thousandths?, hbound, Word.store_of_holds hplaces, ok_bind,
      Word.store_of_holds hplaces', ok_bind, Word.store_of_holds hexponent, ok_bind]
    by_cases hraised : (Word.signed 32).Holds (e + 3)
    · rw [Word.check_of_holds hraised, ok_bind]
      by_cases hshift : (Word.signed 32).Holds (e + 3 - length)
      · rw [Word.check_of_holds hshift, ok_bind, scaleTenInWords_natCast hm hshift,
          if_pos ⟨hraised.2, hshift.1⟩]
      · have hrange : ¬ (e + 3 < 2 ^ 31 ∧ -2 ^ 31 ≤ e + 3 - length) := fun h ↦
          hshift ⟨h.2, by omega⟩
        rw [Word.check_of_not_holds hshift, error_bind, if_neg hrange]
        rfl
    · have hrange : ¬ (e + 3 < 2 ^ 31 ∧ -2 ^ 31 ≤ e + 3 - length) := fun h ↦
        hraised ⟨by omega, h.1⟩
      rw [Word.check_of_not_holds hraised, error_bind, if_neg hrange]
      rfl
  | two e =>
    have hunit : 2 ^ e < limit := by
      calc 2 ^ e ≤ 2 ^ 60 := Nat.pow_le_pow_right (by decide) hscale
        _ < limit := by decide
    have hcast : (2 : Int) ^ e = (2 ^ e : Nat) := by push_cast; rfl
    have hthousand (v : Nat) : (v : Int) * 1000 = (v * 1000 : Nat) := (Int.natCast_mul _ _).symm
    rw [thousandthsInWords, thousandths?, Word.store_of_holds hplaces, ok_bind, hcast,
      Word.store_of_holds (holds_wide hunit), ok_bind, ← Int.natCast_mul, check_wide]
    refine orRefused_bind fun units _ ↦ ?_
    rw [hthousand, check_wide]
    refine orRefused_bind fun thousandths hthousandths ↦ ?_
    rw [tenPowerInWords_natCast]
    refine orRefused_bind fun power hpower ↦ ?_
    obtain ⟨hlt, rfl⟩ := within?_eq_some_iff.mp hthousandths
    obtain ⟨-, rfl⟩ := tenPower?_eq_some_iff.mp hpower
    exact ceilDivInWords_natCast hlt (Nat.pow_pos (by decide))

theorem signedInWords_natCast (hn : n < limit) (negative : Bool) :
    signedInWords negative n = .ok (signed negative n) := by
  cases negative with
  | false => rfl
  | true =>
    have hlimit : (limit : Int) = 2 ^ 127 := by decide
    have hholds : (Word.signed 128).Holds (-n) := ⟨by omega, by omega⟩
    exact Word.store_of_holds hholds

/-- The computation in words reads what the exact one reads and refuses what it refuses, for the
same reason, and no step of it wraps. -/
theorem Written.readInWords_eq {w : Written} (hlength : w.fraction.length < 2 ^ 31) :
    w.readInWords = match w.toQuantity with
      | .ok q => .ok (q.milli, q.format)
      | .error fault => .error (.refused fault) := by
  rw [readInWords, toQuantity]
  by_cases hdigits : w.whole = [] ∧ w.fraction = []
  · rw [if_pos hdigits, if_pos hdigits]
  by_cases hpoint : '.' ∈ w.fraction
  · rw [if_neg hdigits, if_neg hdigits, if_pos hpoint, if_pos hpoint]
  rw [if_neg hdigits, if_neg hdigits, if_neg hpoint, if_neg hpoint, check_wide, mantissa]
  cases hread : readSuffix? w.suffix with
  | none => rfl
  | some scaled =>
    obtain ⟨scale, format⟩ := scaled
    have hscale := (readSuffix?_eq_some_iff.mp hread).fitsWords
    cases hmantissa : within? (Text.ofDigits w.mantissaDigits) with
    | none => rfl
    | some m =>
      have hm : m < limit := by
        obtain ⟨hlt, rfl⟩ := within?_eq_some_iff.mp hmantissa
        exact hlt
      simp only [orRefused, ok_bind, scale.thousandthsInWords_natCast hm hlength hscale]
      cases hthousandths : scale.thousandths? m w.fraction.length with
      | none => rfl
      | some n =>
        have hn := ((Scale.thousandths?_eq_some_iff hm).mp hthousandths).2.2
        simp only [ok_bind, signedInWords_natCast hn, Option.bind_some, ofMagnitude?,
          dif_pos hn]
        rfl

/-! ## Texts -/

theorem length_le_utf8ByteSize (s : List Char) : s.length ≤ (String.ofList s).utf8ByteSize := by
  induction s with
  | nil => exact Nat.zero_le _
  | cons c r ih =>
    have hcons : String.ofList (c :: r) = String.singleton c ++ String.ofList r := by
      rw [← String.toList_inj]
      simp
    rw [hcons, String.utf8ByteSize_append, String.utf8ByteSize_singleton, List.length_cons]
    have := c.utf8Size_pos
    omega

theorem length_fraction_le (text : List Char) :
    (Written.split text).fraction.length ≤ text.length := by
  obtain ⟨sign, -, htext⟩ := exists_isSign_splitSign text
  have hsublist : (Written.split text).fraction.Sublist (splitSign text).2 :=
    (List.drop_sublist _ _).trans ((List.dropWhile_sublist _).trans (List.takeWhile_sublist _))
  calc (Written.split text).fraction.length ≤ (splitSign text).2.length := hsublist.length_le
    _ ≤ text.length := by
      rw [congrArg List.length htext, List.length_append]
      omega

theorem length_fraction_trim_le (input : String) :
    (Written.split (Text.trim input.toList)).fraction.length ≤ input.utf8ByteSize := by
  obtain ⟨before, after, htext, -⟩ := Text.exists_eq_append_trim input.toList
  have htrim : (Text.trim input.toList).length ≤ input.toList.length := by
    rw [congrArg List.length htext, List.length_append, List.length_append]
    omega
  have hbytes := length_le_utf8ByteSize input.toList
  rw [String.ofList_toList] at hbytes
  exact (length_fraction_le _).trans (htrim.trans hbytes)

theorem parseInWords_eq {input : String} (hlength : input.utf8ByteSize < 2 ^ 31) :
    parseInWords input = match parse input with
      | .ok q => .ok (q.milli, q.format)
      | .error e => .error (.refused e.fault) := by
  rw [parseInWords, Written.readInWords_eq ((length_fraction_trim_le input).trans_lt hlength),
    parse]
  cases (Written.split (Text.trim input.toList)).toQuantity with
  | ok q => rfl
  | error fault => rfl

end NodeGroups.Quantity
