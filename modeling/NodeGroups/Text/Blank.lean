import NodeGroups.Text.Ranges

/-!
# White space

The characters with the Unicode property `White_Space`, and trimming a text of them at both
ends. Names, sizes, durations and quantities are all trimmed by this one rule, so a name that
consists of no-break spaces counts as empty.
-/

namespace NodeGroups.Text

/-- The code points with the property `White_Space`, as closed ranges. -/
def blankRanges : List (Nat × Nat) :=
  [(0x9, 0xD), (0x20, 0x20), (0x85, 0x85), (0xA0, 0xA0), (0x1680, 0x1680), (0x2000, 0x200A),
    (0x2028, 0x2029), (0x202F, 0x202F), (0x205F, 0x205F), (0x3000, 0x3000)]

def isBlank (c : Char) : Bool := inRanges blankRanges c

/-- Drops white space at the end. -/
def trimEnd (s : List Char) : List Char := (s.reverse.dropWhile isBlank).reverse

/-- Drops white space at both ends. -/
def trim (s : List Char) : List Char := trimEnd (s.dropWhile isBlank)

/-- A text with nothing in it but white space. -/
def IsBlank (s : String) : Prop := ∀ c ∈ s.toList, isBlank c = true

-- Found by itself, the instance may be one that goes over all characters instead of the text.
instance (s : String) : Decidable (IsBlank s) :=
  List.decidableBAll (fun c ↦ isBlank c = true) s.toList

def trimmed (s : String) : String := String.ofList (trim s.toList)

/-! ## Trimming -/

@[simp] theorem trim_nil : trim [] = [] := rfl

theorem trimEnd_concat_of_not_isBlank {s : List Char} {c : Char} (h : isBlank c = false) :
    trimEnd (s ++ [c]) = s ++ [c] := by
  simp [trimEnd, h]

theorem trim_eq_self {s : List Char} (hhead : ∀ c, s.head? = some c → isBlank c = false)
    (hlast : ∀ c, s.getLast? = some c → isBlank c = false) : trim s = s := by
  cases s with
  | nil => rfl
  | cons a t =>
    have ha : isBlank a = false := hhead a rfl
    rw [trim, List.dropWhile_cons_of_neg (by simp [ha])]
    obtain ⟨u, c, hu⟩ : ∃ u c, a :: t = u ++ [c] :=
      ⟨_, _, (List.dropLast_concat_getLast (List.cons_ne_nil a t)).symm⟩
    rw [hu] at hlast ⊢
    exact trimEnd_concat_of_not_isBlank (hlast c (by simp))

theorem trim_append_left {before : List Char} (hblank : ∀ c ∈ before, isBlank c = true)
    (s : List Char) : trim (before ++ s) = trim s := by
  rw [trim, List.dropWhile_append_of_pos hblank, trim]

theorem trimEnd_append_right {after : List Char} (hblank : ∀ c ∈ after, isBlank c = true)
    (s : List Char) : trimEnd (s ++ after) = trimEnd s := by
  have hreverse : ∀ c ∈ after.reverse, isBlank c = true := fun c hc ↦
    hblank c (List.mem_reverse.mp hc)
  rw [trimEnd, List.reverse_append, List.dropWhile_append_of_pos hreverse, trimEnd]

theorem exists_eq_append_trimEnd (s : List Char) :
    ∃ after, s = trimEnd s ++ after ∧ ∀ c ∈ after, isBlank c = true := by
  refine ⟨(s.reverse.takeWhile isBlank).reverse, ?_, fun c hc ↦ ?_⟩
  · rw [trimEnd, ← List.reverse_append, List.takeWhile_append_dropWhile, List.reverse_reverse]
  · exact List.all_eq_true.mp List.all_takeWhile c (List.mem_reverse.mp hc)

theorem isBlank_head_dropWhile {s : List Char} {c : Char}
    (hhead : (s.dropWhile isBlank).head? = some c) : isBlank c = false := by
  have hnot := List.head?_dropWhile_not isBlank s
  rw [hhead] at hnot
  simpa using hnot

/-- What is left after trimming stands between white space and has none at its ends. -/
theorem exists_eq_append_trim (s : List Char) :
    ∃ before after, s = before ++ trim s ++ after
      ∧ (∀ c ∈ before, isBlank c = true) ∧ (∀ c ∈ after, isBlank c = true)
      ∧ (∀ c, (trim s).head? = some c → isBlank c = false)
      ∧ ∀ c, (trim s).getLast? = some c → isBlank c = false := by
  obtain ⟨after, hafter, hblank⟩ := exists_eq_append_trimEnd (s.dropWhile isBlank)
  refine ⟨s.takeWhile isBlank, after, ?_, fun c hc ↦ ?_, hblank, fun c hc ↦ ?_, fun c hc ↦ ?_⟩
  · rw [List.append_assoc, trim, ← hafter, List.takeWhile_append_dropWhile]
  · exact List.all_eq_true.mp List.all_takeWhile c hc
  · -- The first character that is left is also the first after the white space at the beginning.
    refine isBlank_head_dropWhile (s := s) ?_
    rw [hafter, List.head?_append, ← trim, hc]
    rfl
  · refine isBlank_head_dropWhile (s := (s.dropWhile isBlank).reverse) ?_
    rwa [trim, trimEnd, List.getLast?_reverse] at hc

/-- The second text is what is left of the first one without the white space at its ends. -/
structure TrimsTo (s t : List Char) : Prop where
  within : ∃ before after, s = before ++ t ++ after
    ∧ (∀ c ∈ before, isBlank c = true) ∧ ∀ c ∈ after, isBlank c = true
  head : ∀ c, t.head? = some c → isBlank c = false
  last : ∀ c, t.getLast? = some c → isBlank c = false

theorem trim_eq_iff {s t : List Char} : trim s = t ↔ TrimsTo s t := by
  constructor
  · rintro rfl
    obtain ⟨before, after, hs, hbefore, hafter, hhead, hlast⟩ := exists_eq_append_trim s
    exact ⟨⟨before, after, hs, hbefore, hafter⟩, hhead, hlast⟩
  · rintro ⟨⟨before, after, rfl, hbefore, hafter⟩, hhead, hlast⟩
    rw [List.append_assoc, trim_append_left hbefore]
    cases t with
    | nil => rw [List.nil_append, ← List.append_nil after, trim_append_left hafter, trim_nil]
    | cons c r =>
      have hstart : isBlank c ≠ true := by rw [hhead c rfl]; exact Bool.false_ne_true
      have hself := trim_eq_self hhead hlast
      rw [trim, List.dropWhile_cons_of_neg hstart] at hself
      rw [trim, List.cons_append, List.dropWhile_cons_of_neg hstart, ← List.cons_append,
        trimEnd_append_right hafter, hself]

theorem isBlank_ofList_trim_iff {s : List Char} :
    IsBlank (String.ofList (trim s)) ↔ trim s = [] := by
  obtain ⟨-, -, -, -, -, hhead, -⟩ := exists_eq_append_trim s
  rw [IsBlank, String.toList_ofList]
  cases htrim : trim s with
  | nil => simp
  | cons c r =>
    rw [htrim] at hhead
    refine iff_of_false (fun hblank ↦ ?_) (List.cons_ne_nil c r)
    have hfirst := hblank c List.mem_cons_self
    rw [hhead c rfl] at hfirst
    cases hfirst

/-- A change of characters that makes no white space and takes none away can be made before trimming
or after it. -/
theorem trim_map {f : Char → Char} (hf : ∀ c, isBlank (f c) = isBlank c) (s : List Char) :
    trim (s.map f) = (trim s).map f := by
  have hblank : isBlank ∘ f = isBlank := funext hf
  rw [trim, trim, trimEnd, trimEnd, List.dropWhile_map, ← List.map_reverse, List.dropWhile_map,
    List.map_reverse, hblank]

theorem isBlank_eq_false_of_isDigit {c : Char} (h : c.isDigit = true) : isBlank c = false := by
  have h1 : 48 ≤ c.toNat ∧ c.toNat ≤ 57 := by
    simp only [Char.isDigit, ge_iff_le, Bool.and_eq_true, decide_eq_true_eq] at h
    exact ⟨h.1, h.2⟩
  simp only [isBlank, inRanges, blankRanges, List.any_cons, List.any_nil, Bool.or_false,
    Bool.or_eq_false_iff, Bool.and_eq_false_iff, decide_eq_false_iff_not]
  omega

end NodeGroups.Text
