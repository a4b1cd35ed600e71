import NodeGroups.Proofs.Synthesis

/-!
# What has no name

A tag's key may end where its opening ends. What such a tag declares has no name. Resources and
labels are looked at for that, so among them nothing is without a name, and such a tag is as good as
absent: the template without it is the same. Taints are not looked at for it, so a tag under the
bare opening of taints gives a taint without a name whenever its value can be read. Since the keys
of tags differ there is only one such tag, and hence at most one such taint.

What the tags under an opening declare under a name, and what is built in under it, are known
already. Here only the name without letters is put in.
-/

namespace NodeGroups.Template

variable {s : ScaleSet} {t : NodeTemplate} {tag : String × String} {tags : List (String × String)}

/-! ## What is built in has a name -/

theorem offered?_nameless (size : MachineSize) : offered? size "" = none := by
  have hgraphics : "" ≠ graphicsResource := by decide
  simp [offered?, hgraphics]

theorem builtin?_nameless (sku : Option Sku) : builtin? sku "" = none := by
  have hoffered : (fun size ↦ offered? size "") = fun _ ↦ none := funext offered?_nameless
  rw [builtin?, hoffered, Option.bind_fun_none]
  rfl

theorem wellKnown?_nameless (nodeName : String) (s : ScaleSet) :
    wellKnown? nodeName s "" = none := by
  simp [wellKnown?]

/-! ## Names in a template -/

/-- The taint that is declared by the tag whose key is the opening of taints and nothing else. -/
def bareTaint? (s : ScaleSet) : Option Taint :=
  (s.tags.get? taintOpening).bind fun raw ↦ taintOf? (taintOpening, raw)

theorem bareTaint?_eq_some_iff {a : Taint} : bareTaint? s = some a
    ↔ a.key = "" ∧ ∃ raw, s.tags.get? taintOpening = some raw ∧ Declares raw a := by
  have hkey : taintOpening = taintOpening ++ a.key ↔ a.key = "" := by
    rw [← String.toList_inj, String.toList_append, List.self_eq_append_right,
      String.toList_eq_nil_iff]
  rw [bareTaint?, Option.bind_eq_some_iff]
  simp only [taintOf?_eq_some_iff, hkey]
  constructor
  · rintro ⟨raw, hraw, hname, hdeclares⟩
    exact ⟨hname, raw, hraw, hdeclares⟩
  · rintro ⟨hname, raw, hraw, hdeclares⟩
    exact ⟨raw, hraw, hname, hdeclares⟩

/-- What of a template can be without a name: no resource and no label, and of the taints the one
that the bare opening declares. -/
structure Naming (s : ScaleSet) (t : NodeTemplate) : Prop where
  capacity : ∀ e ∈ t.capacity.entries, e.1 ≠ ""
  allocatable : ∀ e ∈ t.allocatable.entries, e.1 ≠ ""
  labels : ∀ e ∈ t.labels.entries, e.1 ≠ ""
  taints : (t.taints.filter fun a ↦ a.key = "") = (bareTaint? s).toList

theorem key_ne_of_get? {β : Type} {d : Dict β} (hget : d.get? "" = none) :
    ∀ e ∈ d.entries, e.1 ≠ "" := by
  rintro ⟨key, v⟩ hmem rfl
  rw [Dict.get?_eq_some_iff.mpr hmem] at hget
  cases hget

theorem filter_key_eq {l : List Taint} {found : Option Taint} {key : String}
    (hsorted : l.Pairwise fun a b ↦ a.key < b.key)
    (hfound : ∀ a, found = some a ↔ a ∈ l ∧ a.key = key) :
    (l.filter fun a ↦ a.key = key) = found.toList := by
  refine eq_of_pairwise_key Taint.key (hsorted.filter _) ?_ fun a ↦ ?_
  · cases found with
    | none => exact List.Pairwise.nil
    | some a => exact List.pairwise_singleton _ a
  · rw [List.mem_filter, decide_eq_true_iff, Option.mem_toList, hfound]

theorem Represents.naming (h : Represents s t) : Naming s t := by
  have hcapacity : t.capacity.get? "" = none := by
    rw [h.capacity, builtin?_nameless, declared?, if_pos rfl, Option.none_or]
  have hlabels : t.labels.get? "" = none := by
    rw [h.labels, wellKnown?_nameless, declared?, if_pos rfl, Option.none_or]
  refine ⟨key_ne_of_get? hcapacity, ?_, key_ne_of_get? hlabels, ?_⟩
  · rw [h.allocatable]
    exact key_ne_of_get? hcapacity
  · refine filter_key_eq h.sorted fun a ↦ ?_
    rw [bareTaint?_eq_some_iff, h.mem_taints, and_comm]
    refine and_congr_left fun hname ↦ ?_
    rw [hname, String.append_empty]

/-! ## A tag that declares nothing -/

/-- A tag that declares no resource, no label and no taint. -/
structure IsIdle (tag : String × String) : Prop where
  resource : resourceOf? tag = none
  label : labelOf? tag = none
  taint : taintOf? tag = none

theorem isIdle_resourceOpening (raw : String) : IsIdle (resourceOpening, raw) := by
  have hname : nameAfter? resourceOpening resourceOpening = some "" := by decide +kernel
  have hlabel : nameAfter? labelOpening resourceOpening = none := by decide +kernel
  have htaint : nameAfter? taintOpening resourceOpening = none := by decide +kernel
  refine ⟨?_, ?_, ?_⟩
  · cases hamount : Quantity.parse? raw <;> simp [resourceOf?, hname, hamount]
  · rw [labelOf?, hlabel, Option.bind_eq_bind, Option.bind_none]
  · rw [taintOf?, htaint, Option.bind_eq_bind, Option.bind_none]

theorem isIdle_labelOpening (raw : String) : IsIdle (labelOpening, raw) := by
  have hname : nameAfter? labelOpening labelOpening = some "" := by decide +kernel
  have hresource : nameAfter? resourceOpening labelOpening = none := by decide +kernel
  have htaint : nameAfter? taintOpening labelOpening = none := by decide +kernel
  refine ⟨?_, ?_, ?_⟩
  · rw [resourceOf?, hresource, Option.bind_eq_bind, Option.bind_none]
  · simp [labelOf?, hname]
  · rw [taintOf?, htaint, Option.bind_eq_bind, Option.bind_none]

theorem isIdle_taintOpening {raw : String} (hraw : taintOf? (taintOpening, raw) = none) :
    IsIdle (taintOpening, raw) := by
  have hresource : nameAfter? resourceOpening taintOpening = none := by decide +kernel
  have hlabel : nameAfter? labelOpening taintOpening = none := by decide +kernel
  refine ⟨?_, ?_, hraw⟩
  · rw [resourceOf?, hresource, Option.bind_eq_bind, Option.bind_none]
  · rw [labelOf?, hlabel, Option.bind_eq_bind, Option.bind_none]

/-- A tag that declares nothing is as good as absent. -/
theorem IsIdle.assemble_erase (h : IsIdle tag) (number : UInt64) (group : String) (s : ScaleSet)
    (tags : List (String × String)) :
    assemble number group s (tags.erase tag) = assemble number group s tags := by
  by_cases hmem : tag ∈ tags
  · obtain ⟨before, after, -, htags, herase⟩ := List.exists_erase_eq hmem
    have hfilter {α : Type} {f : String × String → Option α} (hf : f tag = none) :
        (tags.erase tag).filterMap f = tags.filterMap f := by
      rw [herase, htags, List.filterMap_append, List.filterMap_append,
        List.filterMap_cons_none hf]
    have hresources : resources (tags.erase tag) = resources tags :=
      congrArg Dict.ofList (hfilter h.resource)
    have hlabels : labels (tags.erase tag) = labels tags :=
      congrArg Dict.ofList (hfilter h.label)
    have htaints : taints (tags.erase tag) = taints tags := by
      rw [taints, hfilter h.taint, taints]
    rw [assemble, assemble, hresources, hlabels, htaints]
  · rw [List.erase_of_not_mem hmem]

theorem key_ne_of_mem_taints_erase {raw : String} {a : Taint}
    (hdistinct : (tags.map Prod.fst).Nodup) (hmem : (taintOpening, raw) ∈ tags)
    (ha : a ∈ taints (tags.erase (taintOpening, raw))) : a.key ≠ "" := by
  intro hname
  rw [taints, (List.mergeSort_perm _ _).mem_iff, List.mem_filterMap] at ha
  obtain ⟨tag, htag, hread⟩ := ha
  obtain ⟨hkey, -⟩ := taintOf?_eq_some_iff.mp hread
  rw [hname, String.append_empty] at hkey
  have hnodup : tags.Nodup := List.Nodup.of_map _ hdistinct
  obtain ⟨hne, htag⟩ := (hnodup.mem_erase_iff).mp htag
  exact hne (List.inj_on_of_nodup_map hdistinct htag hmem hkey)

/-! ## Which names can be empty -/

/-- **What has no name.** In whatever order the tags of a scale set are gone through, no resource
and no label of the template is without a name. A taint is without a name just when the tag whose
key is the opening of taints and nothing else can be read as a taint, and then it is that taint. A
tag whose key is nothing but the opening of resources or of labels contributes nothing, and one
whose key is nothing but the opening of taints contributes nothing unless it can be read. -/
theorem nameless_entries (number : UInt64) (group : String) (s : ScaleSet)
    (hperm : tags.Perm s.tags.entries) :
    Naming s (assemble number group s tags)
    ∧ (∀ raw, assemble number group s (tags.erase (resourceOpening, raw))
      = assemble number group s tags)
    ∧ (∀ raw, assemble number group s (tags.erase (labelOpening, raw))
      = assemble number group s tags)
    ∧ ∀ raw, (taintOpening, raw) ∈ tags →
      (assemble number group s (tags.erase (taintOpening, raw)) = assemble number group s tags
        ↔ ∀ a, ¬ Declares raw a) := by
  have hrepresents := represents_assemble number group s hperm
  refine ⟨hrepresents.naming, fun raw ↦ (isIdle_resourceOpening raw).assemble_erase _ _ _ _,
    fun raw ↦ (isIdle_labelOpening raw).assemble_erase _ _ _ _, fun raw hmem ↦ ⟨?_, ?_⟩⟩
  · intro hsame a hdeclares
    have hdeclared : Declares raw { a with key := "" } := hdeclares
    have hget : s.tags.get? taintOpening = some raw :=
      Dict.get?_eq_some_iff.mpr (hperm.mem_iff.mp hmem)
    have htaint : { a with key := "" } ∈ (assemble number group s tags).taints :=
      (hrepresents.mem_taints _).mpr ⟨raw, by rwa [String.append_empty], hdeclared⟩
    rw [← hsame] at htaint
    exact key_ne_of_mem_taints_erase (nodup_keys_of_perm hperm) hmem htaint rfl
  · intro hunread
    have hraw : taintOf? (taintOpening, raw) = none :=
      Option.eq_none_iff_forall_ne_some.mpr fun a ha ↦
        hunread a (taintOf?_eq_some_iff.mp ha).2
    exact (isIdle_taintOpening hraw).assemble_erase _ _ _ _

/-! ## Tags under the bare openings -/

/-- Tags of which none says what it is about. -/
def bareTags : List (String × String) :=
  [(resourceOpening, "4"), (labelOpening, "on"), (taintOpening, "x:NoSchedule")]

def vague : ScaleSet :=
  { ScaleSet.bare "pool" 0 with tags := .ofList bareTags }

def vagueTaint : Taint := ⟨"", "x", .noSchedule⟩

theorem bareTaint?_vague : bareTaint? vague = some vagueTaint := by
  have hget : vague.tags.get? taintOpening = some "x:NoSchedule" := by
    have hdistinct : (bareTags.map Prod.fst).Nodup := by
      simp [bareTags, resourceOpening, labelOpening, taintOpening]
    refine (Dict.get?_ofList hdistinct taintOpening).trans ?_
    simp [bareTags, lookup_cons_eq_ite, resourceOpening, labelOpening, taintOpening]
  have hread : taintOf? (taintOpening, "x:NoSchedule") = some vagueTaint := by decide +kernel
  rw [bareTaint?, hget, Option.bind_some, hread]

/-- Of three tags without a name only the taint is there. -/
theorem nameless_entries_of_vague : ∃ t, t = assemble 7 "pool" vague vague.tags.entries.reverse
    ∧ (∀ e ∈ t.capacity.entries, e.1 ≠ "") ∧ (∀ e ∈ t.labels.entries, e.1 ≠ "")
    ∧ (t.taints.filter fun a ↦ a.key = "") = [vagueTaint]
    ∧ assemble 7 "pool" vague (vague.tags.entries.reverse.erase (resourceOpening, "4")) = t := by
  obtain ⟨hnaming, hresource, -⟩ :=
    nameless_entries 7 "pool" vague (List.reverse_perm vague.tags.entries)
  refine ⟨_, rfl, hnaming.capacity, hnaming.labels, ?_, hresource "4"⟩
  rw [hnaming.taints, bareTaint?_vague, Option.toList_some]

/-- A template can have a taint without a name. -/
theorem exists_nameless_taint :
    ∃ a ∈ (synthesize 0 "pool" vague).taints, a.key = "" := by
  obtain ⟨hname, raw, hraw, hdeclares⟩ := bareTaint?_eq_some_iff.mp bareTaint?_vague
  refine ⟨vagueTaint, ?_, hname⟩
  refine ((represents_assemble 0 "pool" vague (.refl _)).mem_taints _).mpr ⟨raw, ?_, hdeclares⟩
  rwa [hname, String.append_empty]

end NodeGroups.Template
