import NodeGroups.Text.Blank

/-!
# Decimal numerals

Reading and writing whole numbers in decimal. A numeral may open with a sign where its type
allows one, must have at least one digit and may have leading zeros; anything else in it makes
it unreadable. The bounds are those of the type that the number is stored in.
-/

namespace NodeGroups.Text

/-- The number that a sequence of decimal digits denotes. -/
def ofDigits (ds : List Char) : Nat := Nat.ofDigitChars 10 ds 0

/-- The decimal digits of a number, without leading zeros. -/
def digits (n : Nat) : List Char := Nat.toDigits 10 n

/-- A nonempty sequence of digits, read as a number. -/
def readDigits? (s : List Char) : Option Nat :=
  if s ≠ [] ∧ s.all Char.isDigit then some (ofDigits s) else none

/-- A numeral without a minus sign that denotes a number below `bound`. -/
def readNat? (bound : Nat) (s : List Char) : Option Nat :=
  let magnitude := match s with
    | '+' :: r => readDigits? r
    | _ => readDigits? s
  magnitude.filter (· < bound)

/-- A numeral that denotes an integer from `-bound` up to, and without, `bound`. -/
def readInt? (bound : Nat) (s : List Char) : Option Int :=
  match s with
  | '-' :: r => (readDigits? r).bind fun n ↦ if n ≤ bound then some (-(n : Int)) else none
  | _ => (readNat? bound s).map Int.ofNat

/-- A numeral for a size: at most `4294967295`. -/
def readSize? (s : List Char) : Option UInt32 := (readNat? UInt32.size s).map UInt32.ofNat

@[simp] theorem ofDigits_digits (n : Nat) : ofDigits (digits n) = n :=
  Nat.ofDigitChars_toDigits (by decide) (by decide)

theorem digits_ne_nil (n : Nat) : digits n ≠ [] := Nat.toDigits_ne_nil

theorem isDigit_of_mem_digits {n : Nat} {c : Char} (h : c ∈ digits n) : c.isDigit = true :=
  Nat.isDigit_of_mem_toDigits (by decide) (by decide) h

/-! ## Texts that are numerals -/

variable {bound n : Nat} {s ds : List Char} {z : Int}

/-- Decimal digits and nothing else. -/
def AreDigits (ds : List Char) : Prop := ∀ c ∈ ds, c.isDigit = true

/-- A text that denotes an integer: a sign or none, and digits. -/
inductive IsNumeral : List Char → Int → Prop
  | plain {ds : List Char} (hne : ds ≠ []) (hdigits : AreDigits ds) : IsNumeral ds (ofDigits ds)
  | plus {ds : List Char} (hne : ds ≠ []) (hdigits : AreDigits ds) :
    IsNumeral ('+' :: ds) (ofDigits ds)
  | minus {ds : List Char} (hne : ds ≠ []) (hdigits : AreDigits ds) :
    IsNumeral ('-' :: ds) (-(ofDigits ds : Int))

/-- A text that denotes a number: a plus sign or none, and digits. -/
inductive IsUnsigned : List Char → Nat → Prop
  | plain {ds : List Char} (hne : ds ≠ []) (hdigits : AreDigits ds) : IsUnsigned ds (ofDigits ds)
  | plus {ds : List Char} (hne : ds ≠ []) (hdigits : AreDigits ds) :
    IsUnsigned ('+' :: ds) (ofDigits ds)

theorem readDigits?_eq_some_iff :
    readDigits? s = some n ↔ s ≠ [] ∧ AreDigits s ∧ ofDigits s = n := by
  rw [AreDigits, ← List.all_eq_true]
  by_cases h : s ≠ [] ∧ s.all Char.isDigit = true
  · simp only [readDigits?, if_pos h, Option.some_inj]
    exact ⟨fun e ↦ ⟨h.1, h.2, e⟩, fun e ↦ e.2.2⟩
  · simp only [readDigits?, if_neg h]
    exact ⟨fun e ↦ by simp at e, fun e ↦ absurd ⟨e.1, e.2.1⟩ h⟩

theorem AreDigits.ne_of_head (h : AreDigits ds) {c : Char} {r : List Char} (hds : ds = c :: r)
    {d : Char} (hd : d.isDigit = false) : c ≠ d := by
  rintro rfl
  have hc := h c (hds ▸ List.mem_cons_self)
  rw [hd] at hc
  exact Bool.false_ne_true hc

theorem readNat?_eq_some_iff : readNat? bound s = some n ↔ IsUnsigned s n ∧ n < bound := by
  rw [readNat?.eq_def, Option.filter_eq_some_iff, decide_eq_true_iff]
  refine and_congr_left fun _ ↦ ⟨fun hread ↦ ?_, fun hnumeral ↦ ?_⟩
  · split at hread
    · obtain ⟨hne, hdigits, rfl⟩ := readDigits?_eq_some_iff.mp hread
      exact .plus hne hdigits
    · obtain ⟨hne, hdigits, rfl⟩ := readDigits?_eq_some_iff.mp hread
      exact .plain hne hdigits
  · cases hnumeral with
    | plain hne hdigits =>
      split
      · next r => exact absurd rfl (hdigits.ne_of_head rfl (by decide))
      · exact readDigits?_eq_some_iff.mpr ⟨hne, hdigits, rfl⟩
    | plus hne hdigits => exact readDigits?_eq_some_iff.mpr ⟨hne, hdigits, rfl⟩

theorem readSize?_eq_some_iff {size : UInt32} :
    readSize? s = some size ↔ IsUnsigned s size.toNat := by
  rw [readSize?, Option.map_eq_some_iff]
  constructor
  · rintro ⟨n, hread, rfl⟩
    obtain ⟨hnumeral, hlt⟩ := readNat?_eq_some_iff.mp hread
    rwa [UInt32.toNat_ofNat_of_lt' hlt]
  · intro hnumeral
    exact ⟨size.toNat, readNat?_eq_some_iff.mpr ⟨hnumeral, size.toNat_lt⟩, UInt32.ofNat_toNat⟩

theorem IsUnsigned.isNumeral (h : IsUnsigned s n) : IsNumeral s n := by
  cases h with
  | plain hne hdigits => exact .plain hne hdigits
  | plus hne hdigits => exact .plus hne hdigits

/-- A text denotes one number. -/
theorem IsUnsigned.unique {n' : Nat} (h : IsUnsigned s n) (h' : IsUnsigned s n') : n = n' := by
  have hread := readNat?_eq_some_iff.mpr ⟨h, Nat.lt_succ_of_le (Nat.le_max_left n n')⟩
  have hread' := readNat?_eq_some_iff.mpr ⟨h', Nat.lt_succ_of_le (Nat.le_max_right n n')⟩
  exact Option.some.inj (hread.symm.trans hread')

theorem readInt?_eq_some_iff (hbound : 0 < bound) :
    readInt? bound s = some z ↔ IsNumeral s z ∧ -(bound : Int) ≤ z ∧ z < bound := by
  constructor
  · intro hread
    rw [readInt?.eq_def] at hread
    split at hread
    · next ds =>
      obtain ⟨n, hn, hle⟩ := Option.bind_eq_some_iff.mp hread
      obtain ⟨hne, hdigits, rfl⟩ := readDigits?_eq_some_iff.mp hn
      obtain ⟨hle, hz⟩ := Option.ite_none_right_eq_some.mp hle
      obtain rfl := Option.some.inj hz
      exact ⟨.minus hne hdigits, by omega, by omega⟩
    · obtain ⟨n, hn, rfl⟩ := Option.map_eq_some_iff.mp hread
      obtain ⟨hnumeral, hlt⟩ := readNat?_eq_some_iff.mp hn
      exact ⟨hnumeral.isNumeral, by simp only [Int.ofNat_eq_natCast]; omega, Int.ofNat_lt.mpr hlt⟩
  · rintro ⟨hnumeral, hlow, hhigh⟩
    cases hnumeral with
    | plain hne hdigits =>
      have hnat := readNat?_eq_some_iff.mpr
        ⟨.plain hne hdigits, Int.ofNat_lt.mp hhigh⟩
      rw [readInt?, hnat]
      · rfl
      · rintro r rfl
        exact absurd rfl (hdigits.ne_of_head rfl (by decide))
    | plus hne hdigits =>
      have hnat := readNat?_eq_some_iff.mpr
        ⟨.plus hne hdigits, Int.ofNat_lt.mp hhigh⟩
      rw [readInt?, hnat]
      · rfl
      · rintro r ⟨⟩
    | @minus ds hne hdigits =>
      have hread := readDigits?_eq_some_iff.mpr ⟨hne, hdigits, rfl⟩
      rw [readInt?, hread, Option.bind_some, if_pos (by omega)]

theorem IsNumeral.ne_nil (h : IsNumeral s z) : s ≠ [] := by
  cases h with
  | plain hne => exact hne
  | plus => exact List.cons_ne_nil _ _
  | minus => exact List.cons_ne_nil _ _

theorem isUnsigned_digits (n : Nat) : IsUnsigned (digits n) n := by
  have hplain := IsUnsigned.plain (digits_ne_nil n) fun _ ↦ isDigit_of_mem_digits
  rwa [ofDigits_digits] at hplain

theorem IsNumeral.isDigit_getLast (h : IsNumeral s z) :
    ∀ c ∈ s.getLast?, c.isDigit = true := by
  intro c hc
  cases h with
  | plain hne hdigits => exact hdigits c (List.mem_of_getLast? hc)
  | plus hne hdigits =>
    rw [List.getLast?_cons_of_ne_nil hne] at hc
    exact hdigits c (List.mem_of_getLast? hc)
  | minus hne hdigits =>
    rw [List.getLast?_cons_of_ne_nil hne] at hc
    exact hdigits c (List.mem_of_getLast? hc)

theorem IsUnsigned.isBlank_head (h : IsUnsigned s n) : ∀ c ∈ s.head?, isBlank c = false := by
  intro c hc
  cases h with
  | plain hne hdigits => exact isBlank_eq_false_of_isDigit (hdigits c (List.mem_of_head? hc))
  | plus =>
    obtain rfl := Option.some.inj hc
    decide

theorem IsUnsigned.isBlank_getLast (h : IsUnsigned s n) : ∀ c ∈ s.getLast?, isBlank c = false :=
  fun c hc ↦ isBlank_eq_false_of_isDigit (h.isNumeral.isDigit_getLast c hc)

/-- White space after a number is dropped, and nothing of the number. -/
theorem IsUnsigned.trim_append (h : IsUnsigned s n) {blank : List Char}
    (hblank : ∀ c ∈ blank, isBlank c = true) : trim (s ++ blank) = s :=
  trim_eq_iff.mpr ⟨⟨[], blank, rfl, nofun, hblank⟩, h.isBlank_head, h.isBlank_getLast⟩

end NodeGroups.Text
