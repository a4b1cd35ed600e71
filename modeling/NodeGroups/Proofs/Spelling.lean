import NodeGroups.Cache
import NodeGroups.Proofs.Identifier

/-!
# Letter case in provider IDs

Texts that differ in the case of ASCII letters only are meant to be provider IDs of one machine, or
none of them one. A reader compares letters in three ways: the scheme as it stands, the fixed words
without regard to case, and the names not at all, which are made small when machines are compared.

The second and third agree: a path in small letters is read as the machine whose names are those of
the path in small letters. So all spellings of a text that are read are read as machines with one
key, which belong to the same scale sets and are found in the same views. The first does not agree
with them. A scheme with a capital in it is no scheme, nor can it be part of a path, so a text that
begins with one is refused.
-/

namespace NodeGroups

namespace Text

theorem isBlank_toLower (c : Char) : isBlank c.toLower = isBlank c := by
  rw [Bool.eq_iff_iff, isBlank, isBlank, inRanges_iff, inRanges_iff, toNat_toLower]
  refine exists_congr fun r ↦ and_congr_right fun hr ↦ ?_
  split
  · next hcapital =>
    have hfar : r.2 < 65 ∨ 122 < r.1 :=
      (by decide : ∀ r ∈ blankRanges, r.2 < 65 ∨ 122 < r.1) r hr
    omega
  · rfl

theorem sameName_foldCase (s : String) : SameName s (foldCase s) := by
  rw [sameName_iff, toList_foldCase, List.map_map]
  exact List.map_congr_left fun c _ ↦ (toLower_toLower c).symm

theorem foldCase_ofList (s : List Char) : foldCase (.ofList s) = .ofList (s.map Char.toLower) := by
  rw [← String.toList_inj, toList_foldCase, String.toList_ofList, String.toList_ofList]

end Text

namespace ProviderId

variable {id id' : ProviderId} {raw raw' : String}

/-! ## Paths in small letters -/

/-- The ID with its names in small letters. -/
def folded (id : ProviderId) : ProviderId where
  subscription := Text.foldCase id.subscription
  resourceGroup := Text.foldCase id.resourceGroup
  scaleSet := Text.foldCase id.scaleSet
  instanceId := Text.foldCase id.instanceId

theorem foldLetter_toLower (c : Char) : foldLetter c.toLower = foldLetter c := by
  have hlong : c.toLower = '\u017f' ↔ c = '\u017f' := Text.toLower_eq_iff (.inr (by decide))
  have hkelvin : c.toLower = '\u212a' ↔ c = '\u212a' := Text.toLower_eq_iff (.inr (by decide))
  simp only [foldLetter, hlong, hkelvin, Text.toLower_toLower]

theorem isWord_map_toLower (word : String) (part : List Char) :
    isWord word (part.map Char.toLower) = isWord word part := by
  have hfold : foldLetter ∘ Char.toLower = foldLetter := funext foldLetter_toLower
  rw [isWord, List.map_map, hfold, isWord]

theorem ofPath?_eq_none_of_length {path : List Char}
    (hlength : (Text.splitAll '/' path).length ≠ 11) : ofPath? path = none := by
  rw [ofPath?]
  split
  · next hsplit =>
    rw [hsplit] at hlength
    exact absurd rfl hlength
  · rfl

theorem exists_parts {parts : List (List Char)} (hlength : parts.length = 11) :
    ∃ start w₁ s w₂ r w₃ w₄ w₅ n w₆ i,
      parts = [start, w₁, s, w₂, r, w₃, w₄, w₅, n, w₆, i] := by
  match parts, hlength with
  | [start, w₁, s, w₂, r, w₃, w₄, w₅, n, w₆, i], _ =>
    exact ⟨start, w₁, s, w₂, r, w₃, w₄, w₅, n, w₆, i, rfl⟩

theorem ofPath?_map_toLower (path : List Char) :
    ofPath? (path.map Char.toLower) = (ofPath? path).map folded := by
  have hlower := Text.splitAll_map (fun _ ↦ Text.toLower_eq_slash_iff) path
  by_cases hlength : (Text.splitAll '/' path).length = 11
  · obtain ⟨start, w₁, s, w₂, r, w₃, w₄, w₅, n, w₆, i, hparts⟩ := exists_parts hlength
    rw [ofPath?, ofPath?, hlower, hparts]
    simp only [List.map_cons, List.map_nil, isWord_map_toLower, List.isEmpty_map]
    split
    · rw [Option.map_some, folded]
      simp only [Text.foldCase_ofList]
    · rfl
  · rw [ofPath?_eq_none_of_length hlength, Option.map_none]
    refine ofPath?_eq_none_of_length ?_
    rwa [hlower, List.length_map]

/-! ## Schemes with capitals -/

/-- The text begins with the scheme, but not in small letters. -/
def HasCapitalScheme (raw : String) : Prop :=
  let opening := (Text.trim raw.toList).take scheme.length
  opening.map Char.toLower = scheme ∧ opening ≠ scheme

instance (raw : String) : Decidable (HasCapitalScheme raw) := inferInstanceAs (Decidable (_ ∧ _))

/-- Such a text is refused: it does not have the scheme, and a path begins with a slash. -/
theorem parse?_of_hasCapitalScheme (hcapital : HasCapitalScheme raw) : parse? raw = none := by
  obtain ⟨hfold, hne⟩ := hcapital
  have hnone : Text.afterOpening? scheme (Text.trim raw.toList) = none := by
    rw [Option.eq_none_iff_forall_ne_some]
    intro rest hrest
    rw [Text.afterOpening?_eq_some_iff.mp hrest, List.take_left] at hne
    exact hne rfl
  rw [Option.eq_none_iff_forall_ne_some]
  intro id hid
  rw [parse?, hnone, Option.getD_none] at hid
  have hhead := (ofPath?_eq_some_iff.mp hid).2.head?_eq
  cases htext : Text.trim raw.toList with
  | nil =>
    rw [htext] at hhead
    cases hhead
  | cons c rest =>
    rw [htext] at hhead hfold
    obtain rfl : c = '/' := Option.some.inj hhead
    have hletter : '/'.toLower = 'a' := (List.cons.inj hfold).1
    exact absurd hletter (by decide)

theorem hasCapitalScheme_append {opening : List Char} (hwritten : id.IsWritten id.path)
    (hfold : opening.map Char.toLower = scheme) (hne : opening ≠ scheme) :
    HasCapitalScheme (.ofList opening ++ id.path) := by
  have hlength : opening.length = scheme.length := by rw [← hfold, List.length_map]
  have htrim : Text.trim (opening ++ id.path.toList) = opening ++ id.path.toList := by
    refine Text.trim_eq_self (fun c hc ↦ ?_) fun c hc ↦ ?_
    · cases opening with
      | nil => cases hfold
      | cons letter rest =>
        obtain rfl : letter = c := Option.some.inj hc
        have hletter : letter.toLower = 'a' := (List.cons.inj hfold).1
        rw [← Text.isBlank_toLower, hletter]
        decide
    · rw [id.isPath_path.getLast?_append_eq hwritten.1.instanceId] at hc
      exact hwritten.last hc
  rw [HasCapitalScheme, String.toList_append, String.toList_ofList, htrim, ← hlength,
    List.take_left]
  exact ⟨hfold, hne⟩

theorem not_hasCapitalScheme_of_parse? (hparse : parse? raw = some id) :
    ¬ HasCapitalScheme raw := by
  intro hcapital
  rw [parse?_of_hasCapitalScheme hcapital] at hparse
  cases hparse

/-- Unless a text has such a scheme, it is read in small letters as the machine with its names in
small letters. -/
theorem parse?_foldCase (hscheme : ¬ HasCapitalScheme raw) :
    parse? (Text.foldCase raw) = (parse? raw).map folded := by
  have hlower : scheme.map Char.toLower = scheme := by decide
  rw [parse?, parse?, Text.toList_foldCase, Text.trim_map Text.isBlank_toLower,
    ← ofPath?_map_toLower]
  congr 1
  cases hafter : Text.afterOpening? scheme (Text.trim raw.toList) with
  | some rest =>
    rw [Text.afterOpening?_eq_some_iff.mp hafter, List.map_append, hlower,
      Text.afterOpening?_append, Option.getD_some, Option.getD_some]
  | none =>
    -- What begins with the scheme in small letters began with it in some letters, so with itself.
    have hnone : Text.afterOpening? scheme ((Text.trim raw.toList).map Char.toLower) = none := by
      rw [Option.eq_none_iff_forall_ne_some]
      intro rest hrest
      have hopening : ((Text.trim raw.toList).take scheme.length).map Char.toLower = scheme := by
        rw [List.map_take, Text.afterOpening?_eq_some_iff.mp hrest, List.take_left]
      have hself : (Text.trim raw.toList).take scheme.length = scheme :=
        by_contra fun hne ↦ hscheme ⟨hopening, hne⟩
      have hopens := Text.afterOpening?_append scheme ((Text.trim raw.toList).drop scheme.length)
      nth_rewrite 2 [← hself] at hopens
      rw [List.take_append_drop, hafter] at hopens
      cases hopens
    rw [hnone, Option.getD_none, Option.getD_none]

/-! ## Texts that differ in letter case -/

/-- A text that is read in one spelling is read in another, unless that one has a scheme with
capitals; and then it is the same machine but for the case of its names. -/
theorem exists_parse?_of_sameName (hsame : Text.SameName raw raw') (hparse : parse? raw = some id)
    (hscheme : ¬ HasCapitalScheme raw') :
    ∃ id', parse? raw' = some id' ∧ id'.folded = id.folded := by
  have hfolded := parse?_foldCase hscheme
  rw [← hsame, parse?_foldCase (not_hasCapitalScheme_of_parse? hparse), hparse,
    Option.map_some] at hfolded
  exact Option.map_eq_some_iff.mp hfolded.symm

theorem sameName_of_folded_eq (h : id'.folded = id.folded) :
    Text.SameName id.subscription id'.subscription
      ∧ Text.SameName id.resourceGroup id'.resourceGroup
      ∧ Text.SameName id.scaleSet id'.scaleSet ∧ Text.SameName id.instanceId id'.instanceId := by
  simp only [folded, mk.injEq] at h
  exact ⟨h.1.symm, h.2.1.symm, h.2.2.1.symm, h.2.2.2.symm⟩

theorem isIn_congr (hgroup : Text.SameName id.resourceGroup id'.resourceGroup)
    (hset : Text.SameName id.scaleSet id'.scaleSet) (resourceGroup name : String) :
    id.IsIn resourceGroup name ↔ id'.IsIn resourceGroup name :=
  ⟨fun h ↦ ⟨hgroup.symm.trans h.1, hset.symm.trans h.2⟩, fun h ↦ ⟨hgroup.trans h.1, hset.trans h.2⟩⟩

theorem key_eq_of_sameName (hsame : Text.SameName raw raw') (hparse : parse? raw = some id)
    (hparse' : parse? raw' = some id') :
    id.key = id'.key ∧ Text.SameName id.resourceGroup id'.resourceGroup
      ∧ Text.SameName id.scaleSet id'.scaleSet := by
  obtain ⟨id'', hparse'', hfolded⟩ := exists_parse?_of_sameName hsame hparse
    (not_hasCapitalScheme_of_parse? hparse')
  obtain rfl : id' = id'' := Option.some.inj (hparse'.symm.trans hparse'')
  have hnames := sameName_of_folded_eq hfolded
  exact ⟨(key_eq_key_iff (parse?_eq_some_iff.mp hparse).1 (parse?_eq_some_iff.mp hparse').1).mpr
    hnames, hnames.2.1, hnames.2.2.1⟩

/-- **Letter case.** Of two texts that differ in the case of ASCII letters only, if one is read,
then so is the other, unless it begins with the scheme and a letter of that is a capital. If both
are read, they are of machines with one key, which belong to the same scale sets and are found alike
in each view. -/
theorem parse_ignores_case (hsame : Text.SameName raw raw') :
    (∀ id, parse raw = .ok id → ((∃ id', parse raw' = .ok id') ↔ ¬ HasCapitalScheme raw'))
    ∧ ∀ id id', parse raw = .ok id → parse raw' = .ok id' →
      id.key = id'.key
      ∧ (∀ resourceGroup name, id.IsIn resourceGroup name ↔ id'.IsIn resourceGroup name)
      ∧ ∀ c : Cache, c.get? id = c.get? id' := by
  simp only [parse_eq_ok_iff_parse?]
  constructor
  · intro id hparse
    refine ⟨fun ⟨id', hparse'⟩ ↦ not_hasCapitalScheme_of_parse? hparse', fun hscheme ↦ ?_⟩
    obtain ⟨id', hparse', -⟩ := exists_parse?_of_sameName hsame hparse hscheme
    exact ⟨id', hparse'⟩
  · intro id id' hparse hparse'
    obtain ⟨hkey, hgroup, hset⟩ := key_eq_of_sameName hsame hparse hparse'
    refine ⟨hkey, isIn_congr hgroup hset, fun c ↦ ?_⟩
    rw [Cache.get?, Cache.get?, hkey]

/-! ## One machine in three spellings -/

def plainId : ProviderId := ⟨"sub-1", "K8s-Rg", "AgentPool1", "3"⟩

theorem isNamed_plainId : plainId.IsNamed :=
  ⟨⟨by decide, by decide⟩, ⟨by decide, by decide⟩, ⟨by decide, by decide⟩, by decide, by decide⟩

theorem isWritten_plainId : plainId.IsWritten plainId.print ∧ plainId.IsWritten plainId.path := by
  refine isNamed_plainId.written fun c hc ↦ ?_
  obtain rfl : '3' = c := Option.some.inj hc
  decide

theorem parse?_plainId : parse? plainId.print = some plainId :=
  parse?_eq_some_iff.mpr isWritten_plainId.1

def smallText : String := Text.foldCase plainId.print

theorem parse?_smallText : parse? smallText = some plainId.folded := by
  rw [smallText, parse?_foldCase (not_hasCapitalScheme_of_parse? parse?_plainId), parse?_plainId,
    Option.map_some]

def capitalText : String := .ofList ['A', 'z', 'u', 'r', 'e', ':', '/', '/'] ++ plainId.path

theorem sameName_capitalText : Text.SameName plainId.print capitalText := by
  rw [Text.sameName_iff, print, capitalText, String.toList_append, String.toList_append,
    String.toList_ofList, String.toList_ofList, List.map_append, List.map_append]
  rfl

theorem hasCapitalScheme_capitalText : HasCapitalScheme capitalText :=
  hasCapitalScheme_append isWritten_plainId.2 (by decide) (by decide)

/-- In small letters the machine is found under the same key, and with a capital in the scheme it is
not. -/
theorem parse_ignores_case_of_smallText :
    (∃ id', parse smallText = .ok id' ∧ plainId.key = id'.key ∧ id'.IsIn "K8s-Rg" "AgentPool1")
    ∧ ¬ ∃ id', parse capitalText = .ok id' := by
  have hplain := parse_eq_ok_iff_parse?.mpr parse?_plainId
  obtain ⟨hread, hagree⟩ := parse_ignores_case (Text.sameName_foldCase plainId.print)
  obtain ⟨hread', -⟩ := parse_ignores_case sameName_capitalText
  obtain ⟨id', hparse'⟩ :=
    (hread _ hplain).mpr (not_hasCapitalScheme_of_parse? parse?_smallText)
  obtain ⟨hkey, hin, -⟩ := hagree _ _ hplain hparse'
  exact ⟨⟨id', hparse', hkey, (hin _ _).mp ⟨rfl, rfl⟩⟩,
    fun hexists ↦ (hread' _ hplain).mp hexists hasCapitalScheme_capitalText⟩

/-- Whether a text is a provider ID depends on the case of its letters after all. -/
theorem exists_refused_for_case : ∃ raw raw' id, Text.SameName raw raw' ∧ parse raw = .ok id
    ∧ parse raw' = .error (.malformedId raw') := by
  refine ⟨plainId.print, capitalText, plainId, sameName_capitalText,
    parse_eq_ok_iff_parse?.mpr parse?_plainId, ?_⟩
  rw [parse, parse?_of_hasCapitalScheme hasCapitalScheme_capitalText]

end ProviderId

end NodeGroups
