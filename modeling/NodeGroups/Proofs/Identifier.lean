import Mathlib.Data.List.Forall2
import NodeGroups.ProviderId

/-!
# The grammar of provider IDs

Which texts are provider IDs, and of which machines. A reader cuts a text at every slash and looks
at what it gets; the grammar says which texts can be put together from four names. The two agree
since neither a name nor a fixed word has a slash in it, so that a path can be taken apart in one
way only. The same holds of keys, as the slash is no letter and stays what it is when capitals are
made small.

What is written is read back as it was: the white space that is dropped from a text cannot be part
of the last name, for that name stood at the end of a text that was trimmed before.
-/

namespace NodeGroups

namespace ProviderId

variable {id id' : ProviderId} {raw word : String} {part path text : List Char}

/-! ## Words and names -/

/-- A character is the letter of a word without regard to case. Beside the two cases of an ASCII
letter, the long `s` is an `s` and the Kelvin sign a `k`. -/
def StandsFor (c letter : Char) : Prop :=
  c.toLower = letter.toLower ∨ (c = '\u017f' ∧ letter.toLower = 's')
    ∨ (c = '\u212a' ∧ letter.toLower = 'k')

/-- A text is a word, letter by letter. -/
def IsSpelling (word : String) (part : List Char) : Prop := List.Forall₂ StandsFor part word.toList

def IsName (s : String) : Prop := s ≠ "" ∧ '/' ∉ s.toList

theorem foldLetter_eq_iff {c letter : Char} (hascii : letter.toNat < 128) :
    foldLetter c = foldLetter letter ↔ StandsFor c letter := by
  have hlower : letter.toLower.toNat < 128 := by
    rw [Text.toNat_toLower]
    split <;> omega
  have hletter : foldLetter letter = letter.toLower := by
    have hlong : letter ≠ '\u017f' := by rintro rfl; exact absurd hascii (by decide)
    have hkelvin : letter ≠ '\u212a' := by rintro rfl; exact absurd hascii (by decide)
    rw [foldLetter, if_neg hlong, if_neg hkelvin]
  rw [hletter, foldLetter, StandsFor]
  split
  · next hc =>
    have hfar : '\u017f' ≠ letter.toLower := by
      intro heq
      exact absurd hlower (heq ▸ by decide)
    simp [hc, hfar, eq_comm]
  · split
    · next hc =>
      have hfar : '\u212a' ≠ letter.toLower := by
        intro heq
        exact absurd hlower (heq ▸ by decide)
      simp [hc, hfar, eq_comm]
    · next hlong hkelvin => simp [hlong, hkelvin]

theorem isWord_iff (hascii : word.toList.all (fun letter ↦ letter.toNat < 128) = true) :
    isWord word part = true ↔ IsSpelling word part := by
  simp only [List.all_eq_true, decide_eq_true_eq] at hascii
  rw [isWord, beq_iff_eq, IsSpelling]
  generalize word.toList = letters at hascii
  induction letters generalizing part with
  | nil => simp
  | cons letter letters ih =>
    have hrest := @ih part.tail fun l hl ↦ hascii l (List.mem_cons_of_mem _ hl)
    cases part with
    | nil => simp
    | cons c part =>
      rw [List.map_cons, List.map_cons, List.cons.injEq, List.forall₂_cons,
        foldLetter_eq_iff (hascii letter List.mem_cons_self)]
      exact and_congr_right fun _ ↦ hrest

theorem IsSpelling.slash_notMem (h : IsSpelling word part) (hslash : '/' ∉ word.toList) :
    '/' ∉ part := by
  intro hmem
  obtain ⟨i, hi, hget⟩ := List.mem_iff_getElem.mp hmem
  obtain ⟨hlength, hall⟩ := List.forall₂_iff_get.mp h
  have hstands : StandsFor '/' word.toList[i] := by
    rw [← hget]
    exact hall i hi (hlength ▸ hi)
  obtain hcase | ⟨hlong, -⟩ | ⟨hkelvin, -⟩ := hstands
  · have hletter := Text.toLower_eq_slash_iff.mp (hcase.symm.trans (by decide))
    exact hslash (hletter ▸ List.getElem_mem _)
  · exact absurd hlong (by decide)
  · exact absurd hkelvin (by decide)

/-! ## Paths -/

/-- The four names of an ID are names that a path can have. -/
structure IsNamed (id : ProviderId) : Prop where
  subscription : IsName id.subscription
  resourceGroup : IsName id.resourceGroup
  scaleSet : IsName id.scaleSet
  instanceId : IsName id.instanceId

/-- What is between the slashes of a path: nothing before the first one, then the names of the ID
among six words. -/
def partsWith (id : ProviderId) (w₁ w₂ w₃ w₄ w₅ w₆ : List Char) : List (List Char) :=
  [[], w₁, id.subscription.toList, w₂, id.resourceGroup.toList, w₃, w₄, w₅, id.scaleSet.toList, w₆,
    id.instanceId.toList]

/-- The path of a machine, with the fixed words in any spelling. -/
def IsPath (id : ProviderId) (path : List Char) : Prop :=
  ∃ w₁ w₂ w₃ w₄ w₅ w₆, IsSpelling "subscriptions" w₁ ∧ IsSpelling "resourceGroups" w₂
    ∧ IsSpelling "providers" w₃ ∧ IsSpelling "Microsoft.Compute" w₄
    ∧ IsSpelling "virtualMachineScaleSets" w₅ ∧ IsSpelling "virtualMachines" w₆
    ∧ path = ['/'].intercalate (id.partsWith w₁ w₂ w₃ w₄ w₅ w₆)

/-- The path of a machine is taken apart at the slashes into what it was put together from. -/
theorem splitAll_partsWith {w₁ w₂ w₃ w₄ w₅ w₆ : List Char} (hnamed : id.IsNamed)
    (hwords : ∀ w ∈ [w₁, w₂, w₃, w₄, w₅, w₆], '/' ∉ w) :
    Text.splitAll '/' (['/'].intercalate (id.partsWith w₁ w₂ w₃ w₄ w₅ w₆))
      = id.partsWith w₁ w₂ w₃ w₄ w₅ w₆ := by
  refine Text.splitAll_intercalate (List.cons_ne_nil _ _) fun part hpart ↦ ?_
  simp only [List.forall_mem_cons, List.not_mem_nil, false_imp_iff, implies_true, and_true]
    at hwords
  obtain ⟨h₁, h₂, h₃, h₄, h₅, h₆⟩ := hwords
  simp only [partsWith, List.mem_cons, List.not_mem_nil, or_false] at hpart
  obtain rfl | rfl | rfl | rfl | rfl | rfl | rfl | rfl | rfl | rfl | rfl := hpart
  · exact List.not_mem_nil
  · exact h₁
  · exact hnamed.subscription.2
  · exact h₂
  · exact hnamed.resourceGroup.2
  · exact h₃
  · exact h₄
  · exact h₅
  · exact hnamed.scaleSet.2
  · exact h₆
  · exact hnamed.instanceId.2

theorem isName_ofList_iff {s : List Char} : IsName (.ofList s) ↔ s ≠ [] ∧ '/' ∉ s := by
  rw [IsName, String.toList_ofList, ne_eq, ← String.toList_inj, String.toList_ofList]
  rfl

theorem ofPath?_eq_some_iff : ofPath? path = some id ↔ id.IsNamed ∧ id.IsPath path := by
  constructor
  · intro hread
    rw [ofPath?] at hread
    split at hread
    · next start w₁ s w₂ r w₃ w₄ w₅ n w₆ i hsplit =>
      obtain ⟨hchecks, hid⟩ := Option.ite_none_right_eq_some.mp hread
      simp only [Bool.and_eq_true, Bool.not_eq_true', List.isEmpty_eq_false_iff,
        List.isEmpty_iff] at hchecks
      obtain ⟨⟨⟨⟨⟨⟨⟨⟨⟨⟨rfl, h₁⟩, h₂⟩, h₃⟩, h₄⟩, h₅⟩, h₆⟩, hs⟩, hr⟩, hn⟩, hi⟩ := hchecks
      obtain ⟨hslash, hpath⟩ := (Text.splitAll_eq_iff (List.cons_ne_nil _ _)).mp hsplit
      rw [← Option.some.inj hid]
      refine ⟨⟨isName_ofList_iff.mpr ⟨hs, hslash s (by simp)⟩,
        isName_ofList_iff.mpr ⟨hr, hslash r (by simp)⟩,
        isName_ofList_iff.mpr ⟨hn, hslash n (by simp)⟩,
        isName_ofList_iff.mpr ⟨hi, hslash i (by simp)⟩⟩, w₁, w₂, w₃, w₄, w₅, w₆,
        (isWord_iff (by decide)).mp h₁, (isWord_iff (by decide)).mp h₂,
        (isWord_iff (by decide)).mp h₃, (isWord_iff (by decide)).mp h₄,
        (isWord_iff (by decide)).mp h₅, (isWord_iff (by decide)).mp h₆, ?_⟩
      rw [hpath, partsWith]
      simp only [String.toList_ofList]
    · cases hread
  · rintro ⟨hnamed, w₁, w₂, w₃, w₄, w₅, w₆, h₁, h₂, h₃, h₄, h₅, h₆, rfl⟩
    have hwords : ∀ w ∈ [w₁, w₂, w₃, w₄, w₅, w₆], '/' ∉ w := by
      simp only [List.forall_mem_cons, List.not_mem_nil, false_imp_iff, implies_true, and_true]
      exact ⟨h₁.slash_notMem (by decide), h₂.slash_notMem (by decide),
        h₃.slash_notMem (by decide), h₄.slash_notMem (by decide), h₅.slash_notMem (by decide),
        h₆.slash_notMem (by decide)⟩
    have hsplit := splitAll_partsWith hnamed hwords
    rw [ofPath?, hsplit, partsWith]
    have hnames := And.intro hnamed.subscription.1 (And.intro hnamed.resourceGroup.1
      (And.intro hnamed.scaleSet.1 hnamed.instanceId.1))
    simp [(isWord_iff (by decide)).mpr h₁, (isWord_iff (by decide)).mpr h₂,
      (isWord_iff (by decide)).mpr h₃, (isWord_iff (by decide)).mpr h₄,
      (isWord_iff (by decide)).mpr h₅, (isWord_iff (by decide)).mpr h₆, hnames]

theorem IsPath.head?_eq (h : id.IsPath path) : path.head? = some '/' := by
  obtain ⟨w₁, w₂, w₃, w₄, w₅, w₆, -, -, -, -, -, -, rfl⟩ := h
  simp [partsWith, List.intercalate_cons_cons]

theorem IsPath.getLast?_eq (h : id.IsPath path) (hname : IsName id.instanceId) :
    path.getLast? = id.instanceId.toList.getLast? := by
  obtain ⟨w₁, w₂, w₃, w₄, w₅, w₆, -, -, -, -, -, -, rfl⟩ := h
  have hsome : id.instanceId.toList.getLast? ≠ none := by
    simpa [List.getLast?_eq_none_iff] using hname.1
  obtain ⟨c, hc⟩ := Option.ne_none_iff_exists'.mp hsome
  simp [partsWith, List.intercalate_cons_cons, List.getLast?_append, List.getLast?_cons, hc]

theorem IsPath.getLast?_append_eq (h : id.IsPath path) (hname : IsName id.instanceId)
    (opening : List Char) : (opening ++ path).getLast? = id.instanceId.toList.getLast? := by
  have hne : path ≠ [] := by
    rintro rfl
    exact absurd h.head?_eq (by simp)
  rw [List.getLast?_append_of_ne_nil _ hne, h.getLast?_eq hname]

/-! ## Texts -/

/-- A text that is the provider ID of a machine: its path, with or without the scheme, among white
space. -/
def IsWritten (id : ProviderId) (raw : String) : Prop :=
  id.IsNamed ∧ ∃ text path, Text.TrimsTo raw.toList text ∧ id.IsPath path
    ∧ (text = path ∨ text = scheme ++ path)

theorem IsPath.getD_afterOpening?_eq_iff (h : id.IsPath path) :
    (Text.afterOpening? scheme text).getD text = path
      ↔ text = path ∨ text = scheme ++ path := by
  have hnone : Text.afterOpening? scheme path = none := by
    rw [Option.eq_none_iff_forall_ne_some]
    intro rest hrest
    have hhead := h.head?_eq
    rw [Text.afterOpening?_eq_some_iff.mp hrest] at hhead
    exact absurd hhead (by simp [scheme])
  constructor
  · intro hpath
    cases hafter : Text.afterOpening? scheme text with
    | none =>
      rw [hafter, Option.getD_none] at hpath
      exact .inl hpath
    | some rest =>
      rw [hafter, Option.getD_some] at hpath
      rw [hpath] at hafter
      exact .inr (Text.afterOpening?_eq_some_iff.mp hafter)
  · rintro (rfl | rfl)
    · rw [hnone, Option.getD_none]
    · rw [Text.afterOpening?_append, Option.getD_some]

/-- A text is read as the machine whose provider ID it is. -/
theorem parse?_eq_some_iff : parse? raw = some id ↔ id.IsWritten raw := by
  rw [parse?, ofPath?_eq_some_iff]
  refine and_congr_right fun hnamed ↦ ?_
  constructor
  · intro hpath
    exact ⟨_, _, Text.trim_eq_iff.mp rfl, hpath, hpath.getD_afterOpening?_eq_iff.mp rfl⟩
  · rintro ⟨text, path, htrim, hpath, hform⟩
    rw [Text.trim_eq_iff.mpr htrim, hpath.getD_afterOpening?_eq_iff.mpr hform]
    exact hpath

theorem parse_eq_ok_iff : parse raw = .ok id ↔ id.IsWritten raw :=
  parse_eq_ok_iff_parse?.trans parse?_eq_some_iff

/-! ## The written form -/

theorem toList_path (id : ProviderId) : id.path.toList = ['/'].intercalate (id.partsWith
    "subscriptions".toList "resourceGroups".toList "providers".toList "Microsoft.Compute".toList
    "virtualMachineScaleSets".toList "virtualMachines".toList) := by
  have hsubscription : "/subscriptions/".toList = '/' :: ("subscriptions".toList ++ ['/']) := by
    decide +kernel
  have hresourceGroup : "/resourceGroups/".toList = '/' :: ("resourceGroups".toList ++ ['/']) := by
    decide +kernel
  have hscaleSet : "/providers/Microsoft.Compute/virtualMachineScaleSets/".toList
      = '/' :: ("providers".toList ++ '/' :: ("Microsoft.Compute".toList
        ++ '/' :: ("virtualMachineScaleSets".toList ++ ['/']))) := by
    decide +kernel
  have hinstanceId : "/virtualMachines/".toList = '/' :: ("virtualMachines".toList ++ ['/']) := by
    decide +kernel
  unfold path
  simp only [partsWith, String.toList_append, hsubscription, hresourceGroup, hscaleSet,
    hinstanceId, List.intercalate_cons_cons, List.intercalate_singleton, List.append_assoc,
    List.cons_append, List.nil_append]

theorem isSpelling_self (word : String) : IsSpelling word word.toList :=
  List.forall₂_same.mpr fun _ _ ↦ .inl rfl

theorem isPath_path (id : ProviderId) : id.IsPath id.path.toList :=
  ⟨_, _, _, _, _, _, isSpelling_self _, isSpelling_self _, isSpelling_self _, isSpelling_self _,
    isSpelling_self _, isSpelling_self _, id.toList_path⟩

theorem IsWritten.last (h : id.IsWritten raw) {c : Char}
    (hlast : id.instanceId.toList.getLast? = some c) : Text.isBlank c = false := by
  obtain ⟨hnamed, text, path, htrim, hpath, hform⟩ := h
  refine htrim.last c ?_
  obtain rfl | rfl := hform
  · rw [hpath.getLast?_eq hnamed.instanceId, hlast]
  · rw [hpath.getLast?_append_eq hnamed.instanceId, hlast]

/-- An ID that has names is what its path is read as, with the scheme and without it, if the last
name does not end in white space. -/
theorem IsNamed.written (h : id.IsNamed)
    (hlast : ∀ c, id.instanceId.toList.getLast? = some c → Text.isBlank c = false) :
    id.IsWritten id.print ∧ id.IsWritten id.path := by
  have hself : ∀ text : List Char, (∀ c, text.head? = some c → Text.isBlank c = false) →
      (∀ c, text.getLast? = some c → Text.isBlank c = false) → Text.TrimsTo text text :=
    fun text hhead hlast ↦ ⟨⟨[], [], by simp, nofun, nofun⟩, hhead, hlast⟩
  have hpath := id.isPath_path
  refine ⟨⟨h, id.print.toList, id.path.toList, hself _ ?_ ?_, hpath, .inr ?_⟩,
    ⟨h, id.path.toList, id.path.toList, hself _ ?_ ?_, hpath, .inl rfl⟩⟩
  · intro c hc
    rw [print, String.toList_append, String.toList_ofList] at hc
    obtain rfl : 'a' = c := by simpa [scheme] using hc
    decide
  · intro c hc
    rw [print, String.toList_append, String.toList_ofList,
      hpath.getLast?_append_eq h.instanceId] at hc
    exact hlast c hc
  · rw [print, String.toList_append, String.toList_ofList]
  · intro c hc
    rw [hpath.head?_eq] at hc
    rw [← Option.some.inj hc]
    decide
  · intro c hc
    rw [hpath.getLast?_eq h.instanceId] at hc
    exact hlast c hc

theorem IsWritten.written (h : id.IsWritten raw) : id.IsWritten id.print ∧ id.IsWritten id.path :=
  h.1.written fun _ ↦ h.last

theorem parse?_print (hparse : parse? raw = some id) : parse? id.print = some id :=
  parse?_eq_some_iff.mpr (parse?_eq_some_iff.mp hparse).written.1

/-! ## Keys -/

/-- Keys are equal if the names are, but for the case of ASCII letters. -/
theorem key_eq_key_iff (hnamed : id.IsNamed) (hnamed' : id'.IsNamed) :
    id.key = id'.key ↔ Text.SameName id.subscription id'.subscription
      ∧ Text.SameName id.resourceGroup id'.resourceGroup
      ∧ Text.SameName id.scaleSet id'.scaleSet ∧ Text.SameName id.instanceId id'.instanceId := by
  have hparts : ∀ {id : ProviderId}, id.IsNamed →
      Text.splitAll '/' (id.path.toList.map Char.toLower) = (id.partsWith
        "subscriptions".toList "resourceGroups".toList "providers".toList
        "Microsoft.Compute".toList "virtualMachineScaleSets".toList
        "virtualMachines".toList).map (List.map Char.toLower) := by
    intro id hnamed
    rw [Text.splitAll_map fun _ ↦ Text.toLower_eq_slash_iff, toList_path,
      splitAll_partsWith hnamed (by decide)]
  rw [key, key, ← String.toList_inj, Text.toList_foldCase, Text.toList_foldCase, print, print,
    String.toList_append, String.toList_append, List.map_append, List.map_append,
    List.append_cancel_left_eq, ← @Text.splitAll_inj '/', hparts hnamed,
    hparts hnamed']
  simp [partsWith, Text.sameName_iff]

/-- **The grammar of provider IDs.** A text is read as the machine whose provider ID it is, and any
other is refused as an invalid argument. What an ID is written as is read as that ID, with the
scheme and without it, and two IDs have one key exactly if their names are the same, but for the
case of ASCII letters. -/
theorem parse_grammar (raw : String) :
    (∀ id, parse raw = .ok id ↔ id.IsWritten raw)
    ∧ (∀ e, parse raw = .error e → e = .malformedId raw ∧ e.kind = .invalidArgument)
    ∧ ∀ id, parse raw = .ok id →
      id.print = .ofList scheme ++ id.path ∧ parse id.print = .ok id ∧ parse id.path = .ok id
      ∧ ∀ raw' id', parse raw' = .ok id' →
        (id.key = id'.key ↔ Text.SameName id.subscription id'.subscription
          ∧ Text.SameName id.resourceGroup id'.resourceGroup
          ∧ Text.SameName id.scaleSet id'.scaleSet
          ∧ Text.SameName id.instanceId id'.instanceId) := by
  refine ⟨fun id ↦ parse_eq_ok_iff, fun e herror ↦ ?_, fun id hread ↦ ?_⟩
  · rw [parse] at herror
    split at herror
    · cases herror
    · rw [← Except.error.inj herror]
      exact ⟨rfl, rfl⟩
  · have hwritten := parse_eq_ok_iff.mp hread
    obtain ⟨hprint, hpath⟩ := hwritten.written
    refine ⟨rfl, parse_eq_ok_iff.mpr hprint, parse_eq_ok_iff.mpr hpath, fun raw' id' hread' ↦ ?_⟩
    exact key_eq_key_iff hwritten.1 (parse_eq_ok_iff.mp hread').1

/-- A provider ID as the cluster may have it, in an unusual spelling: white space around it, a long
`s` and other letter cases in the fixed words, and a name with a line break in it. -/
def clusterText : String :=
  " \u00a0azure:///\u017fUBSCRIPTIONS/Main/resourcegroups/Rg\n1/providers/microsoft.compute/"
    ++ "VIRTUALMACHINESCALESETS/Pool/virtualMachines/7\t"

def cloudText : String :=
  "/subscriptions/main/resourceGroups/rg\n1/providers/Microsoft.Compute/virtualMachineScaleSets/"
    ++ "pool/virtualMachines/7"

/-- The two texts are read as the names that they have, which differ in their letter case only. -/
theorem parse_grammar_of_spellings :
    parse clusterText = .ok ⟨"Main", "Rg\n1", "Pool", "7"⟩
    ∧ parse cloudText = .ok ⟨"main", "rg\n1", "pool", "7"⟩
    ∧ IsWritten ⟨"Main", "Rg\n1", "Pool", "7"⟩ clusterText
    ∧ parse (print ⟨"Main", "Rg\n1", "Pool", "7"⟩) = .ok ⟨"Main", "Rg\n1", "Pool", "7"⟩
    ∧ key ⟨"Main", "Rg\n1", "Pool", "7"⟩ = key ⟨"main", "rg\n1", "pool", "7"⟩ := by
  have hcluster : parse clusterText = .ok ⟨"Main", "Rg\n1", "Pool", "7"⟩ := by decide +kernel
  have hcloud : parse cloudText = .ok ⟨"main", "rg\n1", "pool", "7"⟩ := by decide +kernel
  obtain ⟨hgrammar, -, hread⟩ := parse_grammar clusterText
  obtain ⟨-, hprint, -, hkey⟩ := hread _ hcluster
  refine ⟨hcluster, hcloud, (hgrammar _).mp hcluster, hprint,
    (hkey _ _ hcloud).mpr ⟨?_, ?_, ?_, ?_⟩⟩
  · exact Text.sameName_iff.mpr (by decide)
  · exact Text.sameName_iff.mpr (by decide)
  · exact Text.sameName_iff.mpr (by decide)
  · exact Text.sameName_iff.mpr (by decide)

end ProviderId

end NodeGroups
