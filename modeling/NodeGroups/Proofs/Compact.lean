import NodeGroups.Proofs.Configuration

/-!
# The grammar of compact descriptions

Which texts describe a node group, and which one. The first two colons of a text are the ones that
separate the parts: a size cannot have a colon in it, so colons after the second belong to the name.
White space around a part is dropped before the part is looked at, which is why a name that is
nothing but white space is no name.

A group makes checks of its own when it is set up. They are those that a description has passed, so
a group is set up from every text that describes one, and a text that does not is refused as an
invalid argument.
-/

namespace NodeGroups

variable {text : List Char} {spec : String} {entry : GroupConfig}

namespace GroupConfig

/-- A text describes a group by its sizes and its name, with colons between them. -/
structure IsCompact (text : List Char) (entry : GroupConfig) : Prop where
  parts : ∃ least greatest rest, ':' ∉ least ∧ ':' ∉ greatest
    ∧ text = least ++ ':' :: (greatest ++ ':' :: rest)
    ∧ Text.IsUnsigned (Text.trim least) entry.minSize.toNat
    ∧ Text.IsUnsigned (Text.trim greatest) entry.maxSize.toNat
    ∧ Text.trim rest = entry.name.toList
  min_le_max : entry.minSize ≤ entry.maxSize
  named : entry.name ≠ ""
  /-- A period of its own is not a part of the description. -/
  period : entry.refreshPeriod = none

theorem IsCompact.not_isBlank (h : IsCompact text entry) : ¬ Text.IsBlank entry.name := by
  obtain ⟨-, -, rest, -, -, -, -, -, hname⟩ := h.parts
  have hblank := Text.isBlank_ofList_trim_iff (s := rest)
  rw [hname, String.ofList_toList, String.toList_eq_nil_iff] at hblank
  exact fun hempty ↦ h.named (hblank.mp hempty)

theorem splitSpec?_eq_some_iff {least greatest rest : List Char} :
    splitSpec? text = some (least, greatest, rest) ↔ ':' ∉ least ∧ ':' ∉ greatest
      ∧ text = least ++ ':' :: (greatest ++ ':' :: rest) := by
  rw [splitSpec?, Option.bind_eq_some_iff]
  constructor
  · rintro ⟨⟨least', tail⟩, hfirst, hsecond⟩
    obtain ⟨⟨greatest', rest'⟩, hcut, hparts⟩ := Option.map_eq_some_iff.mp hsecond
    obtain ⟨rfl, rfl, rfl⟩ : least' = least ∧ greatest' = greatest ∧ rest' = rest := by
      simpa using hparts
    obtain ⟨hleast, rfl⟩ := Text.cutFirst?_eq_some_iff.mp hfirst
    obtain ⟨hgreatest, rfl⟩ := Text.cutFirst?_eq_some_iff.mp hcut
    exact ⟨hleast, hgreatest, rfl⟩
  · rintro ⟨hleast, hgreatest, rfl⟩
    refine ⟨_, Text.cutFirst?_eq_some_iff.mpr ⟨hleast, rfl⟩, ?_⟩
    rw [Text.cutFirst?_eq_some_iff.mpr ⟨hgreatest, rfl⟩]
    rfl

theorem fault?_trimmed_eq_none_iff {rest : List Char} {minSize maxSize : UInt32}
    {period : Option String} :
    fault? ⟨String.ofList (Text.trim rest), minSize, maxSize, period⟩ = none
      ↔ Text.trim rest ≠ [] ∧ minSize ≤ maxSize := by
  rw [fault?_eq_none_iff, Text.isBlank_ofList_trim_iff]

theorem readSpec_eq_ok_iff : readSpec text = .ok entry ↔ IsCompact text entry := by
  constructor
  · intro hread
    rw [readSpec] at hread
    split at hread
    · cases hread
    · next least greatest rest hsplit =>
      split at hread
      · cases hread
      · next minSize hmin =>
        split at hread
        · cases hread
        · next maxSize hmax =>
          dsimp only at hread
          split at hread
          · cases hread
          · next hfault =>
            obtain rfl := Except.ok.inj hread
            obtain ⟨hleast, hgreatest, rfl⟩ := splitSpec?_eq_some_iff.mp hsplit
            obtain ⟨hname, hsize⟩ := fault?_trimmed_eq_none_iff.mp hfault
            exact ⟨⟨least, greatest, rest, hleast, hgreatest, rfl,
              Text.readSize?_eq_some_iff.mp hmin, Text.readSize?_eq_some_iff.mp hmax,
              String.toList_ofList.symm⟩, hsize, fun hempty ↦ hname (by simpa using hempty), rfl⟩
  · obtain ⟨name, minSize, maxSize, period⟩ := entry
    rintro ⟨⟨least, greatest, rest, hleast, hgreatest, hparts, hmin, hmax, hname⟩, hsize, hnamed,
      rfl⟩
    obtain rfl : String.ofList (Text.trim rest) = name := by rw [hname, String.ofList_toList]
    have hfault : fault? ⟨String.ofList (Text.trim rest), minSize, maxSize, none⟩ = none :=
      fault?_trimmed_eq_none_iff.mpr ⟨fun hempty ↦ hnamed (by rw [hempty]), hsize⟩
    simp only [readSpec, splitSpec?_eq_some_iff.mpr ⟨hleast, hgreatest, hparts⟩,
      Text.readSize?_eq_some_iff.mpr hmin, Text.readSize?_eq_some_iff.mpr hmax, hfault]

theorem ofSpec_eq_ok_iff : ofSpec spec = .ok entry ↔ IsCompact spec.toList entry := by
  rw [← readSpec_eq_ok_iff, ofSpec]
  cases readSpec spec.toList <;> simp

/-! ## What is printed -/

theorem ofSpec_printed {minSize maxSize : UInt32} {name : String} (hsize : minSize ≤ maxSize)
    (hnamed : name ≠ "") (htrimmed : Text.trimmed name = name) :
    ofSpec (toString minSize ++ ":" ++ toString maxSize ++ ":" ++ name)
      = .ok ⟨name, minSize, maxSize, none⟩ := by
  have hdigits (n : UInt32) : (toString n).toList = Text.digits n.toNat := String.toList_ofList
  have hnumber (n : UInt32) : ':' ∉ Text.digits n.toNat
      ∧ Text.IsUnsigned (Text.trim (Text.digits n.toNat)) n.toNat := by
    have hunsigned := Text.isUnsigned_digits n.toNat
    refine ⟨fun hcolon ↦ absurd (Text.isDigit_of_mem_digits hcolon) (by decide), ?_⟩
    rwa [Text.trim_eq_self hunsigned.isBlank_head hunsigned.isBlank_getLast]
  refine ofSpec_eq_ok_iff.mpr ⟨⟨_, _, name.toList, (hnumber minSize).1, (hnumber maxSize).1, ?_,
    (hnumber minSize).2, (hnumber maxSize).2, ?_⟩, hsize, hnamed, rfl⟩
  · simp [hdigits]
  · rw [← String.ofList_inj, String.ofList_toList]
    exact htrimmed

end GroupConfig

/-! ## Setting up the group -/

/-- A group is as its description says, and has the period that groups have by default. -/
structure GroupConfig.SetsUp (entry : GroupConfig) (resourceGroup : String) (group : Group) :
    Prop where
  name : group.name = entry.name
  resourceGroup : group.resourceGroup = resourceGroup
  minSize : group.minSize = entry.minSize
  maxSize : group.maxSize = entry.maxSize
  period : group.refreshPeriod = .defaultRefreshPeriod

/-- What has been read passes the checks of the group. -/
theorem Group.exists_ofSpec (hread : GroupConfig.ofSpec spec = .ok entry) (resourceGroup : String) :
    ∃ group, ofSpec spec resourceGroup = .ok group ∧ entry.SetsUp resourceGroup group := by
  have hcompact := GroupConfig.ofSpec_eq_ok_iff.mp hread
  rw [ofSpec, hread]
  exact ⟨_, create_eq_ok hcompact.not_isBlank hcompact.min_le_max, rfl, rfl, rfl, rfl, rfl⟩

theorem Group.ofSpec_of_error {e : ConfigError} (hread : GroupConfig.ofSpec spec = .error e)
    (resourceGroup : String) : ofSpec spec resourceGroup = .error (.badConfig e) := by
  rw [ofSpec, hread]
  rfl

end NodeGroups
