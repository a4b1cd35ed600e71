import Mathlib
import NodeGroups.Config.Basic

/-!
# The grammar of durations

Which texts are durations, and how long they are. The reader takes a word for a unit from the end
of a text, trying `ms` before `s`, and reads what is left as a number; the grammar says which texts
can be put together from a number, white space and a word. The two agree since neither a number nor
white space ends in a letter of a word: what stands after them is the whole word, and an `m` before
an `s` is part of it.

A number of units that takes too many milliseconds is refused, so no length is ever read modulo
`2 ^ 64`.
-/

namespace NodeGroups

variable {s : List Char} {text : String} {d : Duration}

namespace Duration

/-! ## Units -/

/-- The ways to write what a number counts. -/
inductive TimeUnit
  | milliseconds
  | seconds
  | minutes
  | hours
  /-- Nothing is written, and the number counts seconds. -/
  | unwritten
  deriving DecidableEq, Repr

namespace TimeUnit

def word : TimeUnit → List Char
  | milliseconds => ['m', 's']
  | seconds => ['s']
  | minutes => ['m']
  | hours => ['h']
  | unwritten => []

def ms : TimeUnit → Nat
  | milliseconds => 1
  | seconds => 1000
  | minutes => 60000
  | hours => 3600000
  | unwritten => 1000

end TimeUnit

theorem exists_splitUnit (s : List Char) :
    ∃ u : TimeUnit, (splitUnit s).2 = u.ms ∧ s = (splitUnit s).1 ++ u.word := by
  have hturn {r : List Char} (hr : s.reverse = r) : s = r.reverse := by
    rw [← hr, List.reverse_reverse]
  rw [splitUnit.eq_def]
  split
  · next r hr => exact ⟨.milliseconds, rfl, by simpa [TimeUnit.word] using hturn hr⟩
  · next r _ hr => exact ⟨.seconds, rfl, by simpa [TimeUnit.word] using hturn hr⟩
  · next r hr => exact ⟨.minutes, rfl, by simpa [TimeUnit.word] using hturn hr⟩
  · next r hr => exact ⟨.hours, rfl, by simpa [TimeUnit.word] using hturn hr⟩
  · exact ⟨.unwritten, rfl, (List.append_nil s).symm⟩

theorem splitUnit_append (hlast : ∀ c ∈ s.getLast?, c ≠ 's' ∧ c ≠ 'm' ∧ c ≠ 'h') (u : TimeUnit) :
    splitUnit (s ++ u.word) = (s, u.ms) := by
  obtain ⟨r, rfl⟩ : ∃ r, s = r.reverse := ⟨s.reverse, s.reverse_reverse.symm⟩
  rw [List.getLast?_reverse] at hlast
  rw [splitUnit.eq_def, List.reverse_append, List.reverse_reverse]
  cases r with
  | nil => cases u <;> rfl
  | cons c r =>
    obtain ⟨hs, hm, hh⟩ := hlast c rfl
    cases u with
    | milliseconds => rfl
    | seconds => simp [TimeUnit.word, TimeUnit.ms, hm]
    | minutes => rfl
    | hours => rfl
    | unwritten => simp [TimeUnit.word, TimeUnit.ms, hs, hm, hh]

/-! ## Texts -/

/-- A number of units, with white space or none after the number. -/
def IsWritten (s : List Char) (n : Nat) (u : TimeUnit) : Prop :=
  ∃ number blank, Text.IsUnsigned number n ∧ (∀ c ∈ blank, Text.isBlank c = true)
    ∧ s = number ++ blank ++ u.word

theorem not_letter_of_getLast {number blank : List Char} {n : Nat}
    (hnumber : Text.IsUnsigned number n) (hblank : ∀ c ∈ blank, Text.isBlank c = true) :
    ∀ c ∈ (number ++ blank).getLast?, c ≠ 's' ∧ c ≠ 'm' ∧ c ≠ 'h' := by
  intro c hc
  have hclass : c.isDigit = true ∨ Text.isBlank c = true := by
    rw [List.getLast?_append, Option.mem_def, Option.or_eq_some_iff] at hc
    rcases hc with hblank' | ⟨-, hdigit⟩
    · exact .inr (hblank c (List.mem_of_getLast? hblank'))
    · exact .inl (hnumber.isNumeral.isDigit_getLast c hdigit)
  refine ⟨?_, ?_, ?_⟩ <;>
  · rintro rfl
    revert hclass
    decide

theorem exists_ms_eq {n : Nat} (hfits : n < 2 ^ 64) : ∃ d : Duration, d.ms = n :=
  ⟨⟨.ofNat n⟩, UInt64.toNat_ofNat_of_lt' hfits⟩

theorem ofMillis?_eq_some_iff {n : Nat} : ofMillis? n = some d ↔ d.ms = n := by
  rw [ofMillis?, Option.ite_none_right_eq_some, Option.some_inj]
  constructor
  · rintro ⟨hlt, rfl⟩
    exact UInt64.toNat_ofNat_of_lt' hlt
  · rintro rfl
    exact ⟨d.millis.toNat_lt, congrArg Duration.mk UInt64.ofNat_toNat⟩

/-- The reader finds what is written. -/
theorem IsWritten.isUnsigned_splitUnit {n : Nat} {u : TimeUnit} (h : IsWritten s n u) :
    Text.IsUnsigned (Text.trim (splitUnit s).1) n ∧ (splitUnit s).2 = u.ms := by
  obtain ⟨number, blank, hnumber, hblank, rfl⟩ := h
  rw [splitUnit_append (not_letter_of_getLast hnumber hblank), hnumber.trim_append hblank]
  exact ⟨hnumber, rfl⟩

/-- What the reader finds is written, if there is no white space at the beginning. -/
theorem exists_isWritten (hhead : ∀ c ∈ s.head?, Text.isBlank c = false) {n : Nat}
    (hnumber : Text.IsUnsigned (Text.trim (splitUnit s).1) n) :
    ∃ u : TimeUnit, (splitUnit s).2 = u.ms ∧ IsWritten s n u := by
  obtain ⟨u, hms, hs⟩ := exists_splitUnit s
  obtain ⟨before, after, hparts, hbefore, hafter, -⟩ :=
    Text.exists_eq_append_trim (splitUnit s).1
  cases before with
  | nil => exact ⟨u, hms, _, after, hnumber, hafter, hparts ▸ hs⟩
  | cons c before =>
    have hblank := hbefore c List.mem_cons_self
    rw [hhead c (by rw [hs, hparts]; rfl)] at hblank
    cases hblank

theorem IsWritten.unique {n n' : Nat} {u u' : TimeUnit} (h : IsWritten s n u)
    (h' : IsWritten s n' u') : n = n' ∧ u.ms = u'.ms := by
  obtain ⟨hnumber, hms⟩ := h.isUnsigned_splitUnit
  obtain ⟨hnumber', hms'⟩ := h'.isUnsigned_splitUnit
  exact ⟨hnumber.unique hnumber', hms.symm.trans hms'⟩

theorem parse?_eq_some_iff : parse? text = some d ↔ ∃ n u,
    IsWritten (Text.trim text.toList) n u ∧ n < 2 ^ 64 ∧ n * u.ms < 2 ^ 64 ∧ d.ms = n * u.ms := by
  have hparse : parse? text
      = (Text.readNat? UInt64.size (Text.trim (splitUnit (Text.trim text.toList)).1)).bind
        fun n ↦ ofMillis? (n * (splitUnit (Text.trim text.toList)).2) := rfl
  rw [hparse, Option.bind_eq_some_iff]
  constructor
  · rintro ⟨n, hread, hlength⟩
    obtain ⟨hnumber, hlt⟩ := Text.readNat?_eq_some_iff.mp hread
    obtain ⟨-, -, -, -, -, hhead, -⟩ := Text.exists_eq_append_trim text.toList
    obtain ⟨u, hms, hwritten⟩ := exists_isWritten hhead hnumber
    rw [hms, ofMillis?_eq_some_iff] at hlength
    exact ⟨n, u, hwritten, hlt, hlength ▸ d.millis.toNat_lt, hlength⟩
  · rintro ⟨n, u, hwritten, hlt, -, hlength⟩
    obtain ⟨hnumber, hms⟩ := hwritten.isUnsigned_splitUnit
    refine ⟨n, Text.readNat?_eq_some_iff.mpr ⟨hnumber, hlt⟩, ?_⟩
    rw [hms, ofMillis?_eq_some_iff, hlength]

/-! ## What is printed -/

theorem trim_append_word {number : List Char} {n : Nat} (hnumber : Text.IsUnsigned number n)
    (u : TimeUnit) : Text.trim (number ++ u.word) = number ++ u.word := by
  refine Text.trim_eq_self (fun c hc ↦ ?_) fun c hc ↦ ?_
  · rw [List.head?_append, Option.or_of_isSome (List.isSome_head?.mpr hnumber.isNumeral.ne_nil)]
      at hc
    exact hnumber.isBlank_head c hc
  · rw [List.getLast?_append, Option.or_eq_some_iff] at hc
    rcases hc with hword | ⟨-, hdigit⟩
    · -- Stated with `List.all`, since the quantifier may be decided over all characters.
      have hletters : u.word.all (!Text.isBlank ·) = true := by cases u <;> rfl
      simpa using List.all_eq_true.mp hletters c (List.mem_of_getLast? hword)
    · exact hnumber.isBlank_getLast c hdigit

theorem toList_printed (n : UInt64) (u : TimeUnit) :
    (toString n ++ String.ofList u.word).toList = Text.digits n.toNat ++ u.word := by
  have hdigits : (toString n).toList = Text.digits n.toNat := String.toList_ofList
  rw [String.toList_append, String.toList_ofList, hdigits]

theorem isWritten_printed (n : UInt64) (u : TimeUnit) :
    IsWritten (Text.trim (toString n ++ String.ofList u.word).toList) n.toNat u := by
  have hnumber := Text.isUnsigned_digits n.toNat
  rw [toList_printed, trim_append_word hnumber]
  exact ⟨_, [], hnumber, nofun, by rw [List.append_nil]⟩

theorem trimmed_printed (n : UInt64) (u : TimeUnit) :
    Text.trimmed (toString n ++ String.ofList u.word) = toString n ++ String.ofList u.word := by
  rw [Text.trimmed, toList_printed, trim_append_word (Text.isUnsigned_digits n.toNat),
    ← toList_printed, String.ofList_toList]

theorem parse?_printed_eq_some_iff {n : UInt64} {u : TimeUnit} :
    parse? (toString n ++ String.ofList u.word) = some d ↔ d.ms = n.toNat * u.ms := by
  rw [parse?_eq_some_iff]
  constructor
  · rintro ⟨n', u', hwritten, -, -, hlength⟩
    obtain ⟨hnumber, hms⟩ := (isWritten_printed n u).unique hwritten
    rw [hlength, hnumber, hms]
  · intro hlength
    exact ⟨n.toNat, u, isWritten_printed n u, n.toNat_lt, hlength ▸ d.millis.toNat_lt, hlength⟩

end Duration

/-! ## Configured durations -/

theorem readDuration_eq_ok_iff : readDuration text = .ok d ↔ Duration.parse? text = some d := by
  rw [readDuration]
  cases Duration.parse? text <;> simp

theorem readDuration_eq_error_iff {e : ConfigError} : readDuration text = .error e
    ↔ e = .badDuration (Text.trimmed text) ∧ ∀ d, Duration.parse? text ≠ some d := by
  rw [readDuration]
  cases Duration.parse? text with
  | none => simp [eq_comm]
  | some d => simp

/-- **The grammar of durations.** A text is a duration if, without the white space around it, it is
a number below `2 ^ 64`, white space or none, and a word for a unit, and if that many units are
fewer than `2 ^ 64` milliseconds; it is that long then. Every other text is refused as no duration.
A number as it is printed, followed by the word for a unit, is so many units, and is refused if
they are too many. -/
theorem readDuration_grammar :
    (∀ text d, readDuration text = .ok d ↔ ∃ n u, Duration.IsWritten (Text.trim text.toList) n u
      ∧ n < 2 ^ 64 ∧ n * u.ms < 2 ^ 64 ∧ d.ms = n * u.ms)
    ∧ (∀ text e, readDuration text = .error e ↔ e = .badDuration (Text.trimmed text)
      ∧ ¬ ∃ n u, Duration.IsWritten (Text.trim text.toList) n u
        ∧ n < 2 ^ 64 ∧ n * u.ms < 2 ^ 64)
    ∧ ∀ (n : UInt64) (u : Duration.TimeUnit),
      (∀ d, readDuration (toString n ++ String.ofList u.word) = .ok d ↔ d.ms = n.toNat * u.ms)
      ∧ ∀ e, readDuration (toString n ++ String.ofList u.word) = .error e
        ↔ e = .badDuration (toString n ++ String.ofList u.word) ∧ 2 ^ 64 ≤ n.toNat * u.ms := by
  refine ⟨fun text d ↦ readDuration_eq_ok_iff.trans Duration.parse?_eq_some_iff, fun text e ↦ ?_,
    fun n u ↦ ⟨fun d ↦ readDuration_eq_ok_iff.trans Duration.parse?_printed_eq_some_iff,
      fun e ↦ ?_⟩⟩
  · rw [readDuration_eq_error_iff]
    refine and_congr_right fun _ ↦ ⟨?_, ?_⟩
    · rintro hnone ⟨n, u, hwritten, hlt, hfits⟩
      obtain ⟨d, hd⟩ := Duration.exists_ms_eq hfits
      exact hnone d (Duration.parse?_eq_some_iff.mpr ⟨n, u, hwritten, hlt, hfits, hd⟩)
    · rintro hnone d hparse
      obtain ⟨n, u, hwritten, hlt, hfits, -⟩ := Duration.parse?_eq_some_iff.mp hparse
      exact hnone ⟨n, u, hwritten, hlt, hfits⟩
  · rw [readDuration_eq_error_iff, Duration.trimmed_printed]
    refine and_congr_right fun _ ↦ ⟨fun hnone ↦ Nat.le_of_not_lt fun hfits ↦ ?_,
      fun hmany d hparse ↦ ?_⟩
    · obtain ⟨d, hd⟩ := Duration.exists_ms_eq hfits
      exact hnone d (Duration.parse?_printed_eq_some_iff.mpr hd)
    · rw [Duration.parse?_printed_eq_some_iff] at hparse
      have hlt : d.ms < 2 ^ 64 := d.millis.toNat_lt
      omega

end NodeGroups
