import NodeGroups.Proofs.Report
import NodeGroups.Template.Synthesis

/-!
# What a template says

A template is put together from three sources: what every node has, what the machine size offers,
and what the tags of the scale set declare. The last of them that says something wins, so a tag that
cannot be read, or that declares something without a name, leaves the others as they are.

The tags come in no particular order. Two of them with the same opening declare things of two names,
since the name is all of the key that follows the opening, so none takes the place of another, and
the taints have one order by key only. This is why the template is the same whichever way the tags
are gone through.
-/

namespace NodeGroups

variable {β : Type}

theorem Dict.eq_of_get? {d d' : Dict β} (hget : ∀ k, d.get? k = d'.get? k) : d = d' := by
  refine Dict.ext (eq_of_pairwise_key Prod.fst d.sorted d'.sorted fun ⟨k, v⟩ ↦ ?_)
  rw [← Dict.get?_eq_some_iff, ← Dict.get?_eq_some_iff, hget]

namespace Template

variable {opening name : String} {tag : String × String} {tags : List (String × String)}
  {d : Dict String}

/-! ## Tags -/

/-- What the tags under an opening declare under a name. What has no name, or cannot be read, is not
declared. -/
def declared? (d : Dict String) (opening : String) (read : String → Option β) (name : String) :
    Option β :=
  if name = "" then none else (d.get? (opening ++ name)).bind read

theorem nameAfter?_eq_some_iff {key : String} :
    nameAfter? opening key = some name ↔ key = opening ++ name := by
  rw [nameAfter?, Option.map_eq_some_iff]
  constructor
  · rintro ⟨rest, hrest, rfl⟩
    rw [Text.afterOpening?_eq_some_iff] at hrest
    rw [← String.toList_inj, hrest, String.toList_append, String.toList_ofList]
  · rintro rfl
    refine ⟨name.toList, ?_, String.ofList_toList⟩
    rw [Text.afterOpening?_eq_some_iff, String.toList_append]

theorem resourceOf?_eq_some_iff {amount : Quantity} : resourceOf? tag = some (name, amount)
    ↔ tag.1 = resourceOpening ++ name ∧ name ≠ "" ∧ Quantity.parse? tag.2 = some amount := by
  rw [← nameAfter?_eq_some_iff]
  constructor
  · intro h
    obtain ⟨name', hname, h⟩ := Option.bind_eq_some_iff.mp h
    obtain ⟨amount', hamount, h⟩ := Option.bind_eq_some_iff.mp h
    obtain ⟨hne, h⟩ := Option.ite_none_left_eq_some.mp h
    obtain ⟨rfl, rfl⟩ := Prod.mk.inj (Option.some.inj h)
    exact ⟨hname, hne, hamount⟩
  · rintro ⟨hname, hne, hamount⟩
    simp [resourceOf?, hname, hne, hamount]

theorem labelOf?_eq_some_iff {value : String} : labelOf? tag = some (name, value)
    ↔ tag.1 = labelOpening ++ name ∧ name ≠ "" ∧ some tag.2 = some value := by
  rw [← nameAfter?_eq_some_iff]
  constructor
  · intro h
    obtain ⟨name', hname, h⟩ := Option.bind_eq_some_iff.mp h
    obtain ⟨hne, h⟩ := Option.ite_none_left_eq_some.mp h
    obtain ⟨rfl, hvalue⟩ := Prod.mk.inj (Option.some.inj h)
    exact ⟨hname, hne, congrArg some hvalue⟩
  · rintro ⟨hname, hne, hvalue⟩
    simpa [labelOf?, hname, hne] using hvalue

/-- The value of a tag says what a taint does: its last colon stands before the name of the
effect. -/
def Declares (raw : String) (t : Taint) : Prop :=
  ∃ word, ':' ∉ word.toList ∧ raw = t.value ++ ":" ++ word ∧ (word, t.effect) ∈ TaintEffect.names

theorem taintOf?_eq_some_iff {t : Taint} :
    taintOf? tag = some t ↔ tag.1 = taintOpening ++ t.key ∧ Declares tag.2 t := by
  have hnames : (TaintEffect.names.map Prod.fst).Nodup := by decide
  rw [← nameAfter?_eq_some_iff]
  constructor
  · intro h
    obtain ⟨key, hkey, h⟩ := Option.bind_eq_some_iff.mp h
    obtain ⟨⟨value, word⟩, hcut, h⟩ := Option.bind_eq_some_iff.mp h
    obtain ⟨effect, heffect, h⟩ := Option.bind_eq_some_iff.mp h
    obtain rfl := Option.some.inj h
    obtain ⟨hnot, hvalue⟩ := Text.cutLast?_eq_some_iff.mp hcut
    refine ⟨hkey, String.ofList word, ?_, ?_, (Dict.lookup_eq_some_iff_mem hnames).mp heffect⟩
    · rwa [String.toList_ofList]
    · rw [← String.toList_inj, hvalue]
      simp
  · rintro ⟨hkey, word, hnot, hvalue, heffect⟩
    have hcut : Text.cutLast? ':' tag.2.toList = some (t.value.toList, word.toList) := by
      refine Text.cutLast?_eq_some_iff.mpr ⟨hnot, ?_⟩
      rw [hvalue]
      simp
    have hparse : TaintEffect.parse? word = some t.effect :=
      (Dict.lookup_eq_some_iff_mem hnames).mpr heffect
    simp [taintOf?, hkey, hcut, hparse]

/-! ## Tags in any order -/

theorem nodup_keys_of_perm (hperm : tags.Perm d.entries) : (tags.map Prod.fst).Nodup :=
  (hperm.map Prod.fst).nodup_iff.mpr d.nodup_keys

theorem exists_mem_iff_of_perm (hperm : tags.Perm d.entries) {key : String}
    {p : String → Prop} :
    (∃ tag ∈ tags, tag.1 = key ∧ p tag.2) ↔ ∃ raw, d.get? key = some raw ∧ p raw := by
  constructor
  · rintro ⟨⟨key, raw⟩, hmem, rfl, hraw⟩
    exact ⟨raw, Dict.get?_eq_some_iff.mpr (hperm.mem_iff.mp hmem), hraw⟩
  · rintro ⟨raw, hget, hraw⟩
    exact ⟨(key, raw), hperm.mem_iff.mpr (Dict.get?_eq_some_iff.mp hget), rfl, hraw⟩

theorem nodup_filterMap {f : String × String → Option α} {label : α → String}
    (hf : ∀ {tag a}, f tag = some a → tag.1 = opening ++ label a)
    (hdistinct : (tags.map Prod.fst).Nodup) : ((tags.filterMap f).map label).Nodup := by
  refine List.pairwise_map.mpr (List.Pairwise.filterMap f ?_ (List.pairwise_map.mp hdistinct))
  intro tag tag' hne a ha a' ha' heq
  exact hne (by rw [hf ha, hf ha', heq])

/-- What is found among the things that the tags under an opening declare. -/
theorem get?_ofList_filterMap {f : String × String → Option (String × β)}
    {read : String → Option β}
    (hf : ∀ {tag name v}, f tag = some (name, v)
      ↔ tag.1 = opening ++ name ∧ name ≠ "" ∧ read tag.2 = some v)
    (hperm : tags.Perm d.entries) (name : String) :
    (Dict.ofList (tags.filterMap f)).get? name = declared? d opening read name := by
  have hdistinct : ((tags.filterMap f).map Prod.fst).Nodup :=
    nodup_filterMap (fun h ↦ (hf.mp h).1) (nodup_keys_of_perm hperm)
  ext v
  rw [Dict.get?_ofList hdistinct, Dict.lookup_eq_some_iff_mem hdistinct, List.mem_filterMap]
  simp only [hf]
  by_cases hname : name = ""
  · simp [declared?, hname]
  · rw [declared?, if_neg hname, Option.bind_eq_some_iff, ← exists_mem_iff_of_perm hperm]
    simp [hname]

theorem mem_taints_iff (hperm : tags.Perm d.entries) {t : Taint} :
    t ∈ taints tags ↔ ∃ raw, d.get? (taintOpening ++ t.key) = some raw ∧ Declares raw t := by
  rw [taints, (List.mergeSort_perm _ _).mem_iff, List.mem_filterMap,
    ← exists_mem_iff_of_perm hperm]
  simp only [taintOf?_eq_some_iff]

theorem pairwise_taints (hperm : tags.Perm d.entries) :
    (taints tags).Pairwise fun a b ↦ a.key < b.key :=
  List.pairwise_map.mp (Report.pairwise_mergeSort_of_nodup Taint.key
    (nodup_filterMap (fun h ↦ (taintOf?_eq_some_iff.mp h).1) (nodup_keys_of_perm hperm)))

/-! ## What is built in -/

theorem lookup_cons_eq_ite (k k' : String) (v : β) (es : List (String × β)) :
    ((k', v) :: es).lookup k = if k = k' then some v else es.lookup k := by
  by_cases hk : k = k'
  · rw [if_pos hk, hk, List.lookup_cons_self]
  · rw [if_neg hk, List.lookup_cons, beq_false_of_ne hk]

theorem nodup_known : (MachineSize.known.map fun e ↦ e.1.toList.map Char.toLower).Nodup := by
  decide +kernel

theorem find?_eq_some_iff {size : MachineSize} : MachineSize.find? name = some size
    ↔ ∃ listed, (listed, size) ∈ MachineSize.known ∧ Text.SameName listed name := by
  rw [MachineSize.find?, Option.map_eq_some_iff]
  constructor
  · rintro ⟨⟨listed, size⟩, hfind, rfl⟩
    have hsame := List.find?_some hfind
    exact ⟨listed, List.mem_of_find?_eq_some hfind, of_decide_eq_true hsame⟩
  · rintro ⟨listed, hmem, hsame⟩
    cases hfind : MachineSize.known.find? fun e ↦ Text.SameName e.1 name with
    | none => exact absurd (decide_eq_true hsame) (List.find?_eq_none.mp hfind _ hmem)
    | some e =>
      have hfound := List.find?_some hfind
      have hkey := Text.sameName_iff.mp ((of_decide_eq_true hfound).trans hsame.symm)
      obtain rfl := List.inj_on_of_nodup_map nodup_known (List.mem_of_find?_eq_some hfind) hmem hkey
      exact ⟨_, rfl, rfl⟩

/-- The amount of a resource that a machine size offers. Graphics processors are a resource only
where there are some. -/
def offered? (size : MachineSize) (resource : String) : Option Quantity :=
  if resource = "cpu" then some (.ofValue size.processors .decimalSI)
  else if resource = "memory" then some (.ofValue (size.memoryMiB * 1024 * 1024) .binarySI)
  else if resource = graphicsResource ∧ 0 < size.graphics then
    some (.ofValue size.graphics .decimalSI)
  else none

/-- The amount of a resource that is not declared. -/
def builtin? (sku : Option Sku) (resource : String) : Option Quantity :=
  ((sku.bind fun s ↦ MachineSize.find? s.name).bind fun size ↦ offered? size resource).or
    (if resource = "pods" then some podRoom else none)

theorem get?_builtinResources (sku : Option Sku) (resource : String) :
    (Dict.ofList (builtinResources sku)).get? resource = builtin? sku resource := by
  rw [builtinResources, builtin?]
  cases sku.bind fun s ↦ MachineSize.find? s.name with
  | none =>
    rw [Dict.get?_ofList (by simp)]
    exact lookup_cons_eq_ite resource "pods" podRoom []
  | some size =>
    have hdistinct : (([("pods", podRoom)] ++ sizeResources size).map Prod.fst).Nodup := by
      rw [sizeResources]
      split <;> simp [graphicsResource]
    rw [Option.map_some, Option.getD_some, Dict.get?_ofList hdistinct, Option.bind_some, offered?,
      sizeResources]
    simp only [List.cons_append, List.nil_append, lookup_cons_eq_ite]
    by_cases hpods : resource = "pods"
    · simp [hpods, graphicsResource]
    by_cases hgraphics : 0 < size.graphics
    · simp [hpods, hgraphics, lookup_cons_eq_ite]
    · simp [hpods, hgraphics]

/-- The value of a label that is not declared. -/
def wellKnown? (nodeName : String) (s : ScaleSet) (label : String) : Option String :=
  if label = "kubernetes.io/os" then some "linux"
  else if label = "kubernetes.io/arch" then some "amd64"
  else if label = "kubernetes.io/hostname" then some nodeName
  else if label = "node.kubernetes.io/instance-type" then s.sku.map Sku.name
  else if label = "topology.kubernetes.io/region" then s.location
  else none

theorem get?_builtinLabels (nodeName : String) (s : ScaleSet) (label : String) :
    (Dict.ofList (builtinLabels nodeName s)).get? label = wellKnown? nodeName s label := by
  have hdistinct : ((builtinLabels nodeName s).map Prod.fst).Nodup := by
    rw [builtinLabels]
    cases s.sku <;> cases s.location <;> simp
  rw [Dict.get?_ofList hdistinct, builtinLabels, wellKnown?]
  cases s.sku with
  | some sku => cases s.location <;> simp [lookup_cons_eq_ite]
  | none =>
    cases s.location with
    | none => simp [lookup_cons_eq_ite]
    | some region =>
      by_cases hregion : label = "topology.kubernetes.io/region"
      · simp [lookup_cons_eq_ite, hregion]
      · simp [lookup_cons_eq_ite, hregion]

/-! ## Templates -/

/-- A template says what the tags of a scale set declare and what is built in, and nothing else. -/
structure Represents (s : ScaleSet) (t : NodeTemplate) : Prop where
  capacity : ∀ resource, t.capacity.get? resource
    = (declared? s.tags resourceOpening Quantity.parse? resource).or (builtin? s.sku resource)
  allocatable : t.allocatable = t.capacity
  labels : ∀ label, t.labels.get? label
    = (declared? s.tags labelOpening some label).or (wellKnown? t.name s label)
  sorted : t.taints.Pairwise fun a b ↦ a.key < b.key
  mem_taints : ∀ a, a ∈ t.taints
    ↔ ∃ raw, s.tags.get? (taintOpening ++ a.key) = some raw ∧ Declares raw a

/-- Besides its name and its pods nothing about a template is left open. -/
theorem Represents.eq {s : ScaleSet} {t t' : NodeTemplate} (h : Represents s t)
    (h' : Represents s t') (hname : t.name = t'.name) (hpods : t.pods = t'.pods) : t = t' := by
  have hcapacity : t.capacity = t'.capacity :=
    Dict.eq_of_get? fun k ↦ (h.capacity k).trans (h'.capacity k).symm
  have hlabels : t.labels = t'.labels := Dict.eq_of_get? fun k ↦ by
    rw [h.labels, h'.labels, hname]
  have htaints : t.taints = t'.taints :=
    eq_of_pairwise_key Taint.key h.sorted h'.sorted fun a ↦
      (h.mem_taints a).trans (h'.mem_taints a).symm
  have hallocatable : t.allocatable = t'.allocatable := by
    rw [h.allocatable, h'.allocatable, hcapacity]
  cases t
  cases t'
  rw [NodeTemplate.mk.injEq]
  exact ⟨hname, hlabels, htaints, hcapacity, hallocatable, hpods⟩

theorem represents_assemble (number : UInt64) (group : String) (s : ScaleSet)
    (hperm : tags.Perm s.tags.entries) : Represents s (assemble number group s tags) where
  capacity resource := by
    rw [← get?_ofList_filterMap resourceOf?_eq_some_iff hperm, ← get?_builtinResources]
    exact Dict.get?_union _ _ _
  allocatable := rfl
  labels label := by
    rw [← get?_ofList_filterMap labelOf?_eq_some_iff hperm, ← get?_builtinLabels]
    exact Dict.get?_union _ _ _
  sorted := pairwise_taints hperm
  mem_taints _ := mem_taints_iff hperm

/-- **What a template says.** In whatever order the tags of a scale set are gone through, the
template is the same. A resource has the amount that a tag declares for it, or else the amount that
the machine size offers or every node has; a label has the value that a tag declares, or else the
one that is well known; and there is a taint for each tag that declares one, by increasing key. The
machine size is the one whose name is that of the description but for the case of letters. -/
theorem synthesis (number : UInt64) (group : String) (s : ScaleSet)
    (hperm : tags.Perm s.tags.entries) :
    assemble number group s tags = synthesize number group s
    ∧ (assemble number group s tags).name = templateName group number
    ∧ Represents s (assemble number group s tags)
    ∧ ∀ name size, MachineSize.find? name = some size
      ↔ ∃ listed, (listed, size) ∈ MachineSize.known ∧ Text.SameName listed name := by
  have hrepresents := represents_assemble number group s hperm
  exact ⟨hrepresents.eq (represents_assemble number group s (.refl _)) rfl rfl, rfl, hrepresents,
    fun _ _ ↦ find?_eq_some_iff⟩

/-! ## A tag that cannot be read -/

/-- Tags of which one cannot be read as an amount, and one as a taint. -/
def mixedTags : List (String × String) :=
  [(resourceOpening ++ "cpu", "4"), (resourceOpening ++ "memory", "plenty"),
    (labelOpening ++ "kubernetes.io/arch", "arm64"),
    (taintOpening ++ "graphics", "only:this:NoSchedule"), (taintOpening ++ "spot", "yes:Never")]

def tagged : ScaleSet :=
  { ScaleSet.bare "pool" 3 with
    sku := some ⟨"standard_nc6", none⟩
    location := some "westeurope"
    tags := .ofList mixedTags }

theorem get?_tagged (key : String) : tagged.tags.get? key = mixedTags.lookup key :=
  Dict.get?_ofList (by simp [mixedTags, resourceOpening, labelOpening, taintOpening]) key

theorem declared?_tagged (opening : String) (read : String → Option β) (hname : name ≠ "") :
    declared? tagged.tags opening read name = (mixedTags.lookup (opening ++ name)).bind read := by
  rw [declared?, if_neg hname, get?_tagged]

def graphicsSize : MachineSize := ⟨6, 57344, 1⟩

/-- What can be read of the tags wins, and what cannot be read does not. -/
theorem synthesis_of_tagged : ∃ t, t = assemble 7 "pool" tagged tagged.tags.entries.reverse
    ∧ t = synthesize 7 "pool" tagged
    ∧ t.capacity.get? "cpu" = some (.ofValue 4 .decimalSI)
    ∧ t.capacity.get? "memory" = some (.ofValue 60129542144 .binarySI)
    ∧ t.capacity.get? "pods" = some podRoom
    ∧ t.labels.get? "kubernetes.io/arch" = some "arm64"
    ∧ ⟨"graphics", "only:this", .noSchedule⟩ ∈ t.taints ∧ ∀ a ∈ t.taints, a.key ≠ "spot" := by
  obtain ⟨hsame, -, hrepresents, hsizes⟩ :=
    synthesis 7 "pool" tagged (List.reverse_perm tagged.tags.entries)
  have hsku : tagged.sku = some ⟨"standard_nc6", none⟩ := rfl
  have hfind : MachineSize.find? "standard_nc6" = some graphicsSize :=
    (hsizes _ _).mpr ⟨"Standard_NC6", by simp [MachineSize.known, graphicsSize],
      Text.sameName_iff.mpr (by decide)⟩
  have hbuiltin (resource : String) : builtin? tagged.sku resource
      = (offered? graphicsSize resource).or (if resource = "pods" then some podRoom else none) := by
    rw [builtin?, hsku, Option.bind_some, hfind, Option.bind_some]
  refine ⟨_, rfl, hsame, ?_, ?_, ?_, ?_, ?_, fun a ha hspot ↦ ?_⟩
  · have htag : mixedTags.lookup (resourceOpening ++ "cpu") = some "4" := by simp [mixedTags]
    have hparse : Quantity.parse? "4" = some (.ofValue 4 .decimalSI) := by decide +kernel
    rw [hrepresents.capacity, declared?_tagged _ _ (by decide), htag, Option.bind_some,
      hparse, Option.some_or]
  · have htag : mixedTags.lookup (resourceOpening ++ "memory") = some "plenty" := by
      simp [mixedTags, lookup_cons_eq_ite, resourceOpening]
    have hparse : Quantity.parse? "plenty" = none := by decide +kernel
    have hoffered : offered? graphicsSize "memory" = some (.ofValue 60129542144 .binarySI) := by
      decide +kernel
    rw [hrepresents.capacity, declared?_tagged _ _ (by decide), htag, Option.bind_some,
      hparse, Option.none_or, hbuiltin, hoffered, Option.some_or]
  · have htag : mixedTags.lookup (resourceOpening ++ "pods") = none := by
      simp [mixedTags, lookup_cons_eq_ite, resourceOpening, labelOpening, taintOpening]
    have hoffered : offered? graphicsSize "pods" = none := by decide +kernel
    rw [hrepresents.capacity, declared?_tagged _ _ (by decide), htag, Option.bind_none,
      Option.none_or, hbuiltin, hoffered, Option.none_or, if_pos rfl]
  · have htag : mixedTags.lookup (labelOpening ++ "kubernetes.io/arch") = some "arm64" := by
      simp [mixedTags, lookup_cons_eq_ite, resourceOpening, labelOpening]
    rw [hrepresents.labels, declared?_tagged _ _ (by decide), htag, Option.bind_some,
      Option.some_or]
  · refine (hrepresents.mem_taints _).mpr ⟨"only:this:NoSchedule", ?_, "NoSchedule", by decide,
      by simp, by simp [TaintEffect.names]⟩
    rw [get?_tagged]
    simp [mixedTags, lookup_cons_eq_ite, resourceOpening, labelOpening, taintOpening]
  · obtain ⟨raw, hraw, hdeclares⟩ := (hrepresents.mem_taints a).mp ha
    have htag : mixedTags.lookup (taintOpening ++ "spot") = some "yes:Never" := by
      simp [mixedTags, lookup_cons_eq_ite, resourceOpening, labelOpening, taintOpening]
    rw [hspot, get?_tagged, htag] at hraw
    obtain rfl := Option.some.inj hraw
    have hread : taintOf? (taintOpening ++ a.key, "yes:Never") = some a :=
      taintOf?_eq_some_iff.mpr ⟨rfl, hdeclares⟩
    have hnone : taintOf? (taintOpening ++ "spot", "yes:Never") = none := by decide +kernel
    rw [hspot, hnone] at hread
    cases hread

end Template

end NodeGroups
