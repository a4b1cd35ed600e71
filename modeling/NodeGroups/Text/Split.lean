/-!
# Splitting at a separator

Cutting a text at the first or the last occurrence of a separator, or at all of them.
-/

namespace NodeGroups.Text

/-- The parts between all occurrences of a separator; there is always at least one part. -/
def splitAll (separator : Char) : List Char → List (List Char)
  | [] => [[]]
  | c :: r =>
    if c = separator then [] :: splitAll separator r
    else match splitAll separator r with
      | [] => [[c]]
      | part :: parts => (c :: part) :: parts

/-- What stands before and after the first occurrence of a separator. -/
def cutFirst? (separator : Char) : List Char → Option (List Char × List Char)
  | [] => none
  | c :: r =>
    if c = separator then some ([], r)
    else (cutFirst? separator r).map fun p ↦ (c :: p.1, p.2)

/-- What stands before and after the last occurrence of a separator. -/
def cutLast? (separator : Char) (s : List Char) : Option (List Char × List Char) :=
  (cutFirst? separator s.reverse).map fun p ↦ (p.2.reverse, p.1.reverse)

/-- What follows an opening, if the text has it. -/
def afterOpening? (opening : List Char) (s : List Char) : Option (List Char) :=
  if opening.isPrefixOf s then some (s.drop opening.length) else none

theorem splitAll_ne_nil (separator : Char) (s : List Char) : splitAll separator s ≠ [] := by
  cases s with
  | nil => simp [splitAll]
  | cons c r =>
    rw [splitAll]
    split
    · simp
    · split <;> simp

theorem splitAll_of_notMem {separator : Char} {s : List Char} (hnot : separator ∉ s) :
    splitAll separator s = [s] := by
  induction s with
  | nil => rfl
  | cons c r ih =>
    simp only [List.mem_cons, not_or] at hnot
    rw [splitAll, if_neg (Ne.symm hnot.1), ih hnot.2]

theorem splitAll_append {separator : Char} {part : List Char} (hnot : separator ∉ part)
    (s : List Char) :
    splitAll separator (part ++ separator :: s) = part :: splitAll separator s := by
  induction part with
  | nil => exact if_pos rfl
  | cons c part ih =>
    simp only [List.mem_cons, not_or] at hnot
    rw [List.cons_append, splitAll, if_neg (Ne.symm hnot.1), ih hnot.2]

theorem notMem_of_mem_splitAll {separator : Char} {s part : List Char}
    (hpart : part ∈ splitAll separator s) : separator ∉ part := by
  induction s generalizing part with
  | nil =>
    rw [List.mem_singleton.mp hpart]
    exact List.not_mem_nil
  | cons c r ih =>
    rw [splitAll] at hpart
    split at hpart
    · rcases List.mem_cons.mp hpart with rfl | hrest
      · exact List.not_mem_nil
      · exact ih hrest
    · next hne =>
      split at hpart
      · rw [List.mem_singleton.mp hpart, List.mem_singleton]
        exact Ne.symm hne
      · next first parts hsplit =>
        rw [hsplit] at ih
        rcases List.mem_cons.mp hpart with rfl | hrest
        · simp only [List.mem_cons, not_or]
          exact ⟨Ne.symm hne, ih List.mem_cons_self⟩
        · exact ih (List.mem_cons_of_mem _ hrest)

theorem intercalate_splitAll (separator : Char) (s : List Char) :
    [separator].intercalate (splitAll separator s) = s := by
  induction s with
  | nil => rfl
  | cons c r ih =>
    rw [splitAll]
    cases hsplit : splitAll separator r with
    | nil => exact absurd hsplit (splitAll_ne_nil separator r)
    | cons part parts =>
      rw [hsplit] at ih
      split
      · next heq => rw [List.intercalate_cons_cons, ih, heq]; rfl
      · rw [← ih]
        cases parts with
        | nil => rfl
        | cons next parts => simp [List.intercalate_cons_cons]

theorem splitAll_inj {separator : Char} {s t : List Char} :
    splitAll separator s = splitAll separator t ↔ s = t := by
  refine ⟨fun hsplit ↦ ?_, fun heq ↦ heq ▸ rfl⟩
  rw [← intercalate_splitAll separator s, hsplit, intercalate_splitAll]

theorem splitAll_intercalate {separator : Char} {parts : List (List Char)} (hne : parts ≠ [])
    (hnot : ∀ part ∈ parts, separator ∉ part) :
    splitAll separator ([separator].intercalate parts) = parts := by
  induction parts with
  | nil => exact absurd rfl hne
  | cons part parts ih =>
    have hpart := hnot part List.mem_cons_self
    cases parts with
    | nil => rw [List.intercalate_singleton, splitAll_of_notMem hpart]
    | cons next parts =>
      rw [List.intercalate_cons_cons, List.append_assoc, List.singleton_append,
        splitAll_append hpart, ih (List.cons_ne_nil _ _)
          fun p hp ↦ hnot p (List.mem_cons_of_mem _ hp)]

/-- A change of characters that leaves the separators as they are, and makes no new ones, can be
made before the splitting or after it. -/
theorem splitAll_map {separator : Char} {f : Char → Char}
    (hf : ∀ c, f c = separator ↔ c = separator) (s : List Char) :
    splitAll separator (s.map f) = (splitAll separator s).map (List.map f) := by
  induction s with
  | nil => rfl
  | cons c r ih =>
    rw [List.map_cons, splitAll, splitAll]
    by_cases hc : c = separator
    · rw [if_pos hc, if_pos ((hf c).mpr hc), ih]
      rfl
    · rw [if_neg hc, if_neg (mt (hf c).mp hc), ih]
      cases splitAll separator r with
      | nil => rfl
      | cons part parts => rfl

/-- There is one way only to write a text as parts without the separator in them. -/
theorem splitAll_eq_iff {separator : Char} {s : List Char} {parts : List (List Char)}
    (hne : parts ≠ []) :
    splitAll separator s = parts
      ↔ (∀ part ∈ parts, separator ∉ part) ∧ s = [separator].intercalate parts := by
  constructor
  · rintro rfl
    exact ⟨fun part ↦ notMem_of_mem_splitAll, (intercalate_splitAll separator s).symm⟩
  · rintro ⟨hnot, rfl⟩
    exact splitAll_intercalate hne hnot

theorem afterOpening?_append (opening s : List Char) :
    afterOpening? opening (opening ++ s) = some s := by
  rw [afterOpening?, if_pos (List.isPrefixOf_iff_prefix.mpr (List.prefix_append opening s)),
    List.drop_left]

theorem afterOpening?_eq_some_iff {opening s rest : List Char} :
    afterOpening? opening s = some rest ↔ s = opening ++ rest := by
  constructor
  · intro hafter
    obtain ⟨hopens, hrest⟩ := Option.ite_none_right_eq_some.mp hafter
    obtain ⟨t, rfl⟩ := List.isPrefixOf_iff_prefix.mp hopens
    rw [← Option.some.inj hrest, List.drop_left]
  · rintro rfl
    exact afterOpening?_append opening rest

theorem cutFirst?_eq_some_iff {separator : Char} {s a b : List Char} :
    cutFirst? separator s = some (a, b) ↔ separator ∉ a ∧ s = a ++ separator :: b := by
  induction s generalizing a with
  | nil => simp [cutFirst?]
  | cons c r ih =>
    rw [cutFirst?]
    by_cases h : c = separator
    · subst h
      rw [if_pos rfl, Option.some_inj, Prod.mk.injEq]
      constructor
      · rintro ⟨rfl, rfl⟩; simp
      · rintro ⟨ha, hs⟩
        cases a with
        | nil => simpa using hs
        | cons d a => simp_all
    · rw [if_neg h, Option.map_eq_some_iff]
      constructor
      · rintro ⟨⟨a', b'⟩, he, hp⟩
        obtain ⟨rfl, rfl⟩ := Prod.mk.inj hp
        obtain ⟨ha, hr⟩ := ih.mp he
        refine ⟨?_, by simp [hr]⟩
        simp only [List.mem_cons, not_or]
        exact ⟨fun e ↦ h e.symm, ha⟩
      · rintro ⟨ha, hs⟩
        cases a with
        | nil => exact absurd (by simpa using congrArg List.head? hs) h
        | cons d a =>
          simp only [List.mem_cons, not_or] at ha
          obtain ⟨rfl, rfl⟩ : c = d ∧ r = a ++ separator :: b := by simpa using hs
          exact ⟨(a, b), ih.mpr ⟨ha.2, rfl⟩, rfl⟩

theorem cutLast?_eq_some_iff {separator : Char} {s a b : List Char} :
    cutLast? separator s = some (a, b) ↔ separator ∉ b ∧ s = a ++ separator :: b := by
  have hturn : s.reverse = b.reverse ++ separator :: a.reverse ↔ s = a ++ separator :: b := by
    rw [← List.reverse_inj, List.reverse_reverse]
    simp
  rw [cutLast?, Option.map_eq_some_iff]
  constructor
  · rintro ⟨⟨a', b'⟩, hcut, hparts⟩
    obtain ⟨rfl, rfl⟩ := Prod.mk.inj hparts
    obtain ⟨hnot, hs⟩ := cutFirst?_eq_some_iff.mp hcut
    exact ⟨mt List.mem_reverse.mp hnot, hturn.mp (by simpa using hs)⟩
  · rintro ⟨hnot, hs⟩
    refine ⟨(b.reverse, a.reverse), cutFirst?_eq_some_iff.mpr ⟨?_, hturn.mpr hs⟩, ?_⟩
    · exact mt List.mem_reverse.mp hnot
    · simp

end NodeGroups.Text
