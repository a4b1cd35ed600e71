import Mathlib
import NodeGroups.Quantity.Parser

/-!
# The grammar of quantities

Which texts are quantities, and what their parts are. The reader cuts a text where the digits and
points end and at the first point, and looks up the rest; the grammar says which texts can be put
together from a sign, digits with a point among them or beside them, and a suffix. The two agree
since no suffix begins with a digit or a point, so that a text can be taken apart in one way only.

A text of the grammar neither begins nor ends with white space, so it is left as it is by trimming.
-/

namespace NodeGroups.Quantity

variable {text suffix : List Char} {scale : Scale} {format : Format} {w : Written}

/-! ## Suffixes -/

/-- The letters for the powers of a thousand, from the first one on. -/
def decimalLetters : List Char := ['k', 'M', 'G', 'T', 'P', 'E']

/-- The letters before an `i` for the powers of `1024`, from the first one on. -/
def binaryLetters : List Char := ['K', 'M', 'G', 'T', 'P', 'E']

/-- What a suffix multiplies the number before it by, and the notation it belongs to. -/
inductive IsScale : List Char → Scale → Format → Prop
  | one : IsScale [] (.ten 0) .decimalSI
  | thousandth : IsScale ['m'] (.ten (-3)) .decimalSI
  | decimal (power : Fin 6) :
      IsScale [decimalLetters[power]] (.ten (3 * (power.val + 1))) .decimalSI
  | binary (power : Fin 6) :
      IsScale [binaryLetters[power], 'i'] (.two (10 * (power.val + 1))) .binarySI
  | exponent {mark : Char} {numeral : List Char} {e : Int} (hmark : mark = 'e' ∨ mark = 'E')
    (hnumeral : Text.IsNumeral numeral e) (hlow : -2 ^ 31 ≤ e) (hhigh : e < 2 ^ 31) :
    IsScale (mark :: numeral) (.ten e) .decimalExponent

theorem readExponent?_eq_some_iff {e : Int} : readExponent? suffix = some e
    ↔ ∃ mark numeral, suffix = mark :: numeral ∧ (mark = 'e' ∨ mark = 'E')
      ∧ Text.IsNumeral numeral e ∧ -2 ^ 31 ≤ e ∧ e < 2 ^ 31 := by
  have hread (numeral : List Char) : Text.readInt? exponentBound numeral = some e
      ↔ Text.IsNumeral numeral e ∧ -2 ^ 31 ≤ e ∧ e < 2 ^ 31 :=
    Text.readInt?_eq_some_iff (by decide)
  constructor
  · intro h
    rw [readExponent?.eq_def] at h
    split at h
    · exact ⟨'e', _, rfl, .inl rfl, (hread _).mp h⟩
    · exact ⟨'E', _, rfl, .inr rfl, (hread _).mp h⟩
    · cases h
  · rintro ⟨mark, numeral, rfl, rfl | rfl, h⟩
    · exact (hread numeral).mpr h
    · exact (hread numeral).mpr h

/-- An exponent is no letter of a unit. -/
theorem lookup_units_eq_none (mark : Char) {numeral : List Char} {e : Int}
    (hnumeral : Text.IsNumeral numeral e) : decimalUnits.lookup (mark :: numeral) = none
      ∧ binaryUnits.lookup (mark :: numeral) = none := by
  have hdecimal : ∀ u ∈ decimalUnits, u.1.tail = [] := by decide
  have hbinary : ∀ u ∈ binaryUnits, u.1.tail = ['i'] := by decide
  refine ⟨List.lookup_eq_none_iff.mpr fun u hu ↦ ?_, List.lookup_eq_none_iff.mpr fun u hu ↦ ?_⟩
  · refine bne_iff_ne.mpr fun heq ↦ hnumeral.ne_nil ?_
    rw [← hdecimal u hu, ← heq, List.tail_cons]
  · refine bne_iff_ne.mpr fun heq ↦ ?_
    have hletter : numeral = ['i'] := by rw [← hbinary u hu, ← heq, List.tail_cons]
    have hdigit := hnumeral.isDigit_getLast 'i' (by rw [hletter]; rfl)
    exact absurd hdigit (by decide)

theorem isScale_of_mem_decimalUnits {u : List Char × Nat} (hunit : u ∈ decimalUnits) :
    IsScale u.1 (.ten u.2) .decimalSI := by
  have hall : ∀ u ∈ decimalUnits, ∃ power : Fin 6,
      u = ([decimalLetters[power]], 3 * (power.val + 1)) := by decide
  obtain ⟨power, rfl⟩ := hall u hunit
  exact .decimal power

theorem isScale_of_mem_binaryUnits {u : List Char × Nat} (hunit : u ∈ binaryUnits) :
    IsScale u.1 (.two u.2) .binarySI := by
  have hall : ∀ u ∈ binaryUnits, ∃ power : Fin 6,
      u = ([binaryLetters[power], 'i'], 10 * (power.val + 1)) := by decide
  obtain ⟨power, rfl⟩ := hall u hunit
  exact .binary power

theorem isScale_of_readSuffix? (h : readSuffix? suffix = some (scale, format)) :
    IsScale suffix scale format := by
  rw [readSuffix?] at h
  split at h
  · next hnil =>
    obtain ⟨rfl, rfl⟩ := Prod.mk.inj (Option.some.inj h)
    exact hnil ▸ .one
  · split at h
    · next hmilli =>
      obtain ⟨rfl, rfl⟩ := Prod.mk.inj (Option.some.inj h)
      exact hmilli ▸ .thousandth
    · split at h
      · next e hlookup =>
        obtain ⟨rfl, rfl⟩ := Prod.mk.inj (Option.some.inj h)
        obtain ⟨before, after, hunits, -⟩ := List.lookup_eq_some_iff.mp hlookup
        exact isScale_of_mem_decimalUnits (hunits ▸ List.mem_append_right _ List.mem_cons_self)
      · split at h
        · next e hlookup =>
          obtain ⟨rfl, rfl⟩ := Prod.mk.inj (Option.some.inj h)
          obtain ⟨before, after, hunits, -⟩ := List.lookup_eq_some_iff.mp hlookup
          exact isScale_of_mem_binaryUnits (hunits ▸ List.mem_append_right _ List.mem_cons_self)
        · obtain ⟨e, he, hscale⟩ := Option.map_eq_some_iff.mp h
          obtain ⟨rfl, rfl⟩ := Prod.mk.inj hscale
          obtain ⟨mark, numeral, rfl, hmark, hnumeral, hlow, hhigh⟩ :=
            readExponent?_eq_some_iff.mp he
          exact .exponent hmark hnumeral hlow hhigh

theorem IsScale.readSuffix?_eq (h : IsScale suffix scale format) :
    readSuffix? suffix = some (scale, format) := by
  cases h with
  | one => rfl
  | thousandth => rfl
  | decimal power =>
    revert power
    decide
  | binary power =>
    revert power
    decide
  | @exponent mark numeral e hmark hnumeral hlow hhigh =>
    have hmilli : mark :: numeral ≠ ['m'] := by
      rintro ⟨⟩
      exact hnumeral.ne_nil rfl
    obtain ⟨hdecimal, hbinary⟩ := lookup_units_eq_none mark hnumeral
    have hread := readExponent?_eq_some_iff.mpr
      ⟨mark, numeral, rfl, hmark, hnumeral, hlow, hhigh⟩
    rw [readSuffix?, if_neg (List.cons_ne_nil _ _), if_neg hmilli, hdecimal, hbinary, hread]
    rfl

theorem readSuffix?_eq_some_iff :
    readSuffix? suffix = some (scale, format) ↔ IsScale suffix scale format :=
  ⟨isScale_of_readSuffix?, IsScale.readSuffix?_eq⟩

theorem IsScale.isNumeric_head (h : IsScale suffix scale format) :
    ∀ c ∈ suffix.head?, isNumeric c = false := by
  cases h with
  | one => nofun
  | thousandth =>
    rintro c ⟨⟩
    decide
  | decimal power =>
    rintro c ⟨⟩
    revert power
    decide
  | binary power =>
    rintro c ⟨⟩
    revert power
    decide
  | exponent hmark =>
    rcases hmark with rfl | rfl
    · rintro c ⟨⟩
      decide
    · rintro c ⟨⟩
      decide

theorem IsScale.isBlank_getLast (h : IsScale suffix scale format) :
    ∀ c ∈ suffix.getLast?, Text.isBlank c = false := by
  cases h with
  | one => nofun
  | thousandth =>
    rintro c ⟨⟩
    decide
  | decimal power =>
    rintro c ⟨⟩
    revert power
    decide
  | binary power =>
    rintro c ⟨⟩
    revert power
    decide
  | exponent hmark hnumeral =>
    intro c hc
    rw [List.getLast?_cons_of_ne_nil hnumeral.ne_nil] at hc
    exact Text.isBlank_eq_false_of_isDigit (hnumeral.isDigit_getLast c hc)

/-! ## Signs and numbers -/

/-- A sign or none, and whether it is a minus. -/
inductive IsSign : List Char → Bool → Prop
  | none : IsSign [] false
  | plus : IsSign ['+'] false
  | minus : IsSign ['-'] true

/-- The number of a written quantity, with a point if there are digits after it. -/
inductive Written.IsNumber (w : Written) : List Char → Prop
  | whole (hfraction : w.fraction = []) : w.IsNumber w.whole
  | point : w.IsNumber (w.whole ++ '.' :: w.fraction)

/-- A text is put together from the parts of a quantity. -/
structure Written.Spells (w : Written) (text : List Char) : Prop where
  whole : Text.AreDigits w.whole
  fraction : Text.AreDigits w.fraction
  ne_nil : w.whole ≠ [] ∨ w.fraction ≠ []
  eq : ∃ sign number, IsSign sign w.negative ∧ w.IsNumber number
    ∧ text = sign ++ (number ++ w.suffix)

theorem IsSign.splitSign_append {sign : List Char} {negative : Bool} (h : IsSign sign negative)
    (rest : List Char) (hplus : rest.head? ≠ some '+') (hminus : rest.head? ≠ some '-') :
    splitSign (sign ++ rest) = (negative, rest) := by
  cases h with
  | none =>
    rw [List.nil_append, splitSign]
    · rintro r rfl
      exact hminus rfl
    · rintro r rfl
      exact hplus rfl
  | plus => rfl
  | minus => rfl

theorem exists_isSign_splitSign (s : List Char) :
    ∃ sign, IsSign sign (splitSign s).1 ∧ s = sign ++ (splitSign s).2 := by
  rw [splitSign.eq_def]
  split
  · exact ⟨_, .minus, rfl⟩
  · exact ⟨_, .plus, rfl⟩
  · exact ⟨_, .none, rfl⟩

theorem IsSign.isBlank {sign : List Char} {negative : Bool} (h : IsSign sign negative) :
    ∀ c ∈ sign, Text.isBlank c = false := by
  cases h with
  | none => nofun
  | plus =>
    intro c hc
    obtain rfl := List.mem_singleton.mp hc
    decide
  | minus =>
    intro c hc
    obtain rfl := List.mem_singleton.mp hc
    decide

theorem isNumeric_of_isDigit {c : Char} (h : c.isDigit = true) : isNumeric c = true := by
  rw [isNumeric, h, Bool.true_or]

theorem ne_point_of_isDigit {c : Char} (h : c.isDigit = true) : (c != '.') = true := by
  rw [bne_iff_ne]
  rintro rfl
  exact absurd h (by decide)

theorem isDigit_of_isNumeric {c : Char} (h : isNumeric c = true) (hpoint : c ≠ '.') :
    c.isDigit = true := by
  rw [isNumeric, Bool.or_eq_true, beq_iff_eq] at h
  exact h.resolve_right hpoint

theorem isBlank_of_isNumeric {c : Char} (h : isNumeric c = true) : Text.isBlank c = false := by
  by_cases hpoint : c = '.'
  · subst hpoint
    decide
  · exact Text.isBlank_eq_false_of_isDigit (isDigit_of_isNumeric h hpoint)

namespace Written

variable {number : List Char}

theorem Spells.isNumeric_number (h : w.Spells text) (hnumber : w.IsNumber number) :
    ∀ c ∈ number, isNumeric c = true := by
  have hwhole : ∀ c ∈ w.whole, isNumeric c = true := fun c hc ↦
    isNumeric_of_isDigit (h.whole c hc)
  cases hnumber with
  | whole => exact hwhole
  | point =>
    intro c hc
    rcases List.mem_append.mp hc with hc | hc
    · exact hwhole c hc
    · rcases List.mem_cons.mp hc with rfl | hc
      · decide
      · exact isNumeric_of_isDigit (h.fraction c hc)

theorem Spells.number_ne_nil (h : w.Spells text) (hnumber : w.IsNumber number) : number ≠ [] := by
  cases hnumber with
  | whole hfraction => exact h.ne_nil.resolve_right (not_not_intro hfraction)
  | point => simp

theorem Spells.point_notMem (h : w.Spells text) : '.' ∉ w.fraction := fun hmem ↦
  absurd (h.fraction '.' hmem) (by decide)

theorem Spells.split_number (h : w.Spells text) (hnumber : w.IsNumber number) :
    number.takeWhile (· != '.') = w.whole ∧ (number.dropWhile (· != '.')).drop 1 = w.fraction := by
  have hwhole : ∀ c ∈ w.whole, (c != '.') = true := fun c hc ↦ ne_point_of_isDigit (h.whole c hc)
  cases hnumber with
  | whole hfraction =>
    rw [List.takeWhile_eq_self_iff.mpr hwhole, List.dropWhile_eq_nil_iff.mpr hwhole, hfraction]
    exact ⟨rfl, rfl⟩
  | point =>
    rw [List.takeWhile_append_of_pos hwhole, List.dropWhile_append_of_pos hwhole]
    simp

/-- A text of the grammar is taken apart into the parts it was put together from. -/
theorem Spells.split_eq (h : w.Spells text) (hscale : IsScale w.suffix scale format) :
    split text = w := by
  obtain ⟨sign, number, hsign, hnumber, rfl⟩ := h.eq
  have hnumeric := h.isNumeric_number hnumber
  obtain ⟨c, r, rfl⟩ := List.exists_cons_of_ne_nil (h.number_ne_nil hnumber)
  have hrest := hsign.splitSign_append (c :: r ++ w.suffix)
    (by rintro ⟨⟩; exact absurd (hnumeric '+' List.mem_cons_self) (by decide))
    (by rintro ⟨⟩; exact absurd (hnumeric '-' List.mem_cons_self) (by decide))
  have hsuffix : w.suffix.takeWhile isNumeric = [] ∧ w.suffix.dropWhile isNumeric = w.suffix := by
    cases hs : w.suffix with
    | nil => exact ⟨rfl, rfl⟩
    | cons d s =>
      have hd : isNumeric d = false := hscale.isNumeric_head d (by rw [hs]; rfl)
      simp [hd]
  obtain ⟨hwhole, hfraction⟩ := h.split_number hnumber
  rw [split, hrest]
  simp only [List.takeWhile_append_of_pos hnumeric, List.dropWhile_append_of_pos hnumeric, hsuffix,
    List.append_nil, hwhole, hfraction]

/-- What the reader takes a text apart into is what the text is put together from, if there is a
digit in it and one point at most. -/
theorem spells_split (hne : (split text).whole ≠ [] ∨ (split text).fraction ≠ [])
    (hpoint : '.' ∉ (split text).fraction) : (split text).Spells text := by
  obtain ⟨sign, hsign, htext⟩ := exists_isSign_splitSign text
  let number := (splitSign text).2.takeWhile isNumeric
  have hnumeric : ∀ c ∈ number, isNumeric c = true := List.all_eq_true.mp List.all_takeWhile
  have hwhole : Text.AreDigits (split text).whole := by
    intro c hc
    have hmem := List.takeWhile_subset _ hc
    have hne := List.all_eq_true.mp List.all_takeWhile c hc
    exact isDigit_of_isNumeric (hnumeric c hmem) (bne_iff_ne.mp hne)
  have hsplit : number = (split text).whole ++ number.dropWhile (· != '.') :=
    List.takeWhile_append_dropWhile.symm
  have hfraction : (split text).fraction = (number.dropWhile (· != '.')).drop 1 := rfl
  have hnumber : (split text).IsNumber number := by
    cases hrest : number.dropWhile (· != '.') with
    | nil =>
      rw [hrest, List.append_nil] at hsplit
      rw [hrest] at hfraction
      have hwholeNumber := IsNumber.whole (w := split text) hfraction
      rwa [← hsplit] at hwholeNumber
    | cons c r =>
      have hc : c = '.' := by
        have hnot := List.head?_dropWhile_not (· != '.') number
        rw [hrest] at hnot
        simpa using hnot
      have hpointNumber := IsNumber.point (w := split text)
      rw [hfraction, hrest, List.drop_one, List.tail_cons, ← hc, ← hrest, ← hsplit] at hpointNumber
      exact hpointNumber
  refine ⟨hwhole, fun c hc ↦ ?_, hne, sign, number, hsign, hnumber, ?_⟩
  · have hmem : c ∈ number := by
      rw [hfraction] at hc
      exact (List.dropWhile_sublist _).subset (List.mem_of_mem_drop hc)
    exact isDigit_of_isNumeric (hnumeric c hmem) fun heq ↦ hpoint (heq ▸ hc)
  · have hrest : number ++ (split text).suffix = (splitSign text).2 :=
      List.takeWhile_append_dropWhile
    rw [hrest]
    exact htext

theorem Spells.trim_eq (h : w.Spells text) (hscale : IsScale w.suffix scale format) :
    Text.trim text = text := by
  obtain ⟨sign, number, hsign, hnumber, rfl⟩ := h.eq
  have hblank : ∀ c ∈ number, Text.isBlank c = false := fun c hc ↦
    isBlank_of_isNumeric (h.isNumeric_number hnumber c hc)
  have hne := h.number_ne_nil hnumber
  have hne' : number ++ w.suffix ≠ [] := List.append_ne_nil_of_left_ne_nil hne _
  refine Text.trim_eq_self (fun c hc ↦ ?_) fun c hc ↦ ?_
  · by_cases hnil : sign = []
    · rw [hnil, List.nil_append, List.head?_append_of_ne_nil _ hne] at hc
      exact hblank c (List.mem_of_head? hc)
    · rw [List.head?_append_of_ne_nil _ hnil] at hc
      exact hsign.isBlank c (List.mem_of_head? hc)
  · rw [List.getLast?_append_of_ne_nil _ hne'] at hc
    by_cases hsuffix : w.suffix = []
    · rw [hsuffix, List.append_nil] at hc
      exact hblank c (List.mem_of_getLast? hc)
    · rw [List.getLast?_append_of_ne_nil _ hsuffix] at hc
      exact hscale.isBlank_getLast c hc

end Written

end NodeGroups.Quantity
