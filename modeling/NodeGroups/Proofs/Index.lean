import NodeGroups.Proofs.Lookup
import NodeGroups.Proofs.Spelling

/-!
# What a view has in it

A view is a list of instances and an index from keys to positions. The list is as long as the
listing that it was built from and in the same order, and only the states of instances change in it.
The index is made once, from the keys of the listing, the later in the place of the earlier.

The key of an instance is its identifier as it stands in the view, in small letters, whether that is
the written form of a provider ID or something that cannot be read. So the index can be forgotten: a
lookup finds the last instance in the view whose identifier is the written form of the ID looked
for, but for the case of letters. As the identifiers in a view are left as they are when a view is
built from its instances again, that view is the same.

The price of one kind of key for both is paid by identifiers that cannot be read although they
differ from a written form in letter case only. These are the ones whose scheme has a capital in it.
-/

namespace NodeGroups

theorem find?_reverse_eq_some_iff {α : Type} {p : α → Bool} {as : List α} {a : α} :
    as.reverse.find? p = some a
      ↔ ∃ before after, as = before ++ a :: after ∧ p a = true ∧ ∀ b ∈ after, p b = false := by
  rw [List.find?_eq_some_iff_append]
  constructor
  · rintro ⟨ha, after, before, has, hafter⟩
    refine ⟨before.reverse, after.reverse, ?_, ha, fun b hb ↦ ?_⟩
    · rw [← List.reverse_reverse as, has]
      simp
    · simpa using hafter b (List.mem_reverse.mp hb)
  · rintro ⟨before, after, rfl, ha, hafter⟩
    refine ⟨ha, after.reverse, before.reverse, by simp, fun b hb ↦ ?_⟩
    simpa using hafter b (List.mem_reverse.mp hb)

/-! ## Instances in a view -/

namespace Instance

variable {i j : Instance} {id : ProviderId}

/-- The identifier of the instance is the written form of a provider ID, but for the case of
letters. -/
def IsUnder (id : ProviderId) (i : Instance) : Prop := Text.SameName i.providerId id.print

instance (id : ProviderId) (i : Instance) : Decidable (i.IsUnder id) :=
  inferInstanceAs (Decidable (Text.SameName _ _))

def isReadable (i : Instance) : Bool := (ProviderId.parse? i.providerId).isSome

/-- The identifier of the instance cannot be read as its scheme has a capital in it, and would be
the written form of a provider ID in small letters. -/
def IsLookalike (id : ProviderId) (i : Instance) : Prop :=
  ProviderId.HasCapitalScheme i.providerId ∧ i.IsUnder id

/-- The instance after a deletion of those with the given numbers was accepted. -/
def marked (ids : List String) (i : Instance) : Instance :=
  if i.instanceId ∈ ids then { i with state := .deleting } else i

theorem normalized_of_parse? (hparse : ProviderId.parse? i.providerId = some id) :
    i.normalized = { i with providerId := id.print } := by
  rw [normalized, hparse]

theorem normalized_of_parse?_eq_none (hparse : ProviderId.parse? i.providerId = none) :
    i.normalized = i := by
  rw [normalized, hparse]

theorem key_eq_foldCase (i : Instance) : i.key = Text.foldCase i.normalized.providerId := by
  cases hparse : ProviderId.parse? i.providerId with
  | none => rw [normalized_of_parse?_eq_none hparse, key, hparse]
  | some id =>
    rw [normalized_of_parse? hparse, key_eq hparse]
    rfl

theorem key_eq_key_iff_isUnder : i.key = id.key ↔ i.normalized.IsUnder id := by
  rw [key_eq_foldCase]
  exact Iff.rfl

theorem normalized_normalized (i : Instance) : i.normalized.normalized = i.normalized := by
  cases hparse : ProviderId.parse? i.providerId with
  | none => rw [normalized_of_parse?_eq_none hparse, normalized_of_parse?_eq_none hparse]
  | some id =>
    rw [normalized_of_parse? hparse,
      normalized_of_parse? (i := { i with providerId := id.print })
        (ProviderId.parse?_print hparse)]

theorem normalized_marked (ids : List String) (i : Instance) :
    (i.marked ids).normalized = i.normalized.marked ids := by
  by_cases hid : i.instanceId ∈ ids
  · have hid' : i.normalized.instanceId ∈ ids := by rwa [instanceId_normalized]
    rw [marked, if_pos hid, marked, if_pos hid']
    exact i.normalized_withState .deleting
  · have hid' : i.normalized.instanceId ∉ ids := by rwa [instanceId_normalized]
    rw [marked, if_neg hid, marked, if_neg hid']

theorem providerId_marked (ids : List String) (i : Instance) :
    (i.marked ids).providerId = i.providerId := by
  rw [marked]
  split <;> rfl

theorem key_marked (ids : List String) (i : Instance) : (i.marked ids).key = i.key := by
  rw [key, key, providerId_marked]

theorem parse?_eq_none (hunreadable : i.isReadable = false) :
    ProviderId.parse? i.providerId = none :=
  Option.not_isSome_iff_eq_none.mp (Bool.eq_false_iff.mp hunreadable)

theorem isReadable_marked (ids : List String) (i : Instance) :
    (i.marked ids).isReadable = i.isReadable := by
  rw [isReadable, isReadable, providerId_marked]

theorem isReadable_normalized (i : Instance) : i.normalized.isReadable = i.isReadable := by
  cases hparse : ProviderId.parse? i.providerId with
  | none => rw [normalized_of_parse?_eq_none hparse]
  | some id =>
    rw [normalized_of_parse? hparse, isReadable, isReadable, hparse]
    exact congrArg Option.isSome (ProviderId.parse?_print hparse)

theorem isUnder_marked (ids : List String) : (i.marked ids).IsUnder id ↔ i.IsUnder id := by
  rw [IsUnder, IsUnder, providerId_marked]

theorem isLookalike_of_isUnder (hprint : ProviderId.parse? id.print = some id)
    (hunreadable : i.isReadable = false) (hunder : i.normalized.IsUnder id) :
    i.IsLookalike id := by
  rw [normalized_of_parse?_eq_none (parse?_eq_none hunreadable)] at hunder
  refine ⟨by_contra fun hscheme ↦ ?_, hunder⟩
  obtain ⟨id', hparse, -⟩ :=
    ProviderId.exists_parse?_of_sameName (Text.SameName.symm hunder) hprint hscheme
  rw [isReadable, hparse] at hunreadable
  cases hunreadable

theorem marked_marked (ids ids' : List String) (i : Instance) :
    (i.marked ids).marked ids' = i.marked (ids ++ ids') := by
  by_cases hid : i.instanceId ∈ ids <;> by_cases hid' : i.instanceId ∈ ids' <;>
    simp [marked, hid, hid']

end Instance

namespace Cache

variable {c : Cache} {scaleSet : ScaleSet} {listing : List Instance} {id : ProviderId}

/-! ## Deletions -/

theorem instances_markDeleting (c : Cache) (ids : List String) :
    (c.markDeleting ids).instances = c.instances.map (Instance.marked ids) := rfl

theorem markDeleting_markDeleting (c : Cache) (ids ids' : List String) :
    (c.markDeleting ids).markDeleting ids' = c.markDeleting (ids ++ ids') := by
  have hinstances : (c.instances.map (Instance.marked ids)).map (Instance.marked ids')
      = c.instances.map (Instance.marked (ids ++ ids')) := by
    rw [List.map_map]
    exact List.map_congr_left fun i _ ↦ i.marked_marked ids ids'
  exact congrArg (fun instances ↦ { c with instances }) hinstances

theorem markDeleting_congr {ids ids' : List String} (c : Cache)
    (hsame : ∀ id, id ∈ ids ↔ id ∈ ids') : c.markDeleting ids = c.markDeleting ids' := by
  have hinstances : c.instances.map (Instance.marked ids)
      = c.instances.map (Instance.marked ids') := by
    refine List.map_congr_left fun i _ ↦ ?_
    rw [Instance.marked, Instance.marked, if_congr (hsame i.instanceId) rfl rfl]
  exact congrArg (fun instances ↦ { c with instances }) hinstances

theorem markDeleting_nil (c : Cache) : c.markDeleting [] = c := by
  rw [markDeleting, NodeGroups.markDeleting_nil]

/-- The view after deletions were accepted, one after the other. -/
def markRounds (c : Cache) (rounds : List (List String)) : Cache := rounds.foldl markDeleting c

/-- Deletions come to one of all their instances. -/
theorem markRounds_eq (c : Cache) (rounds : List (List String)) :
    c.markRounds rounds = c.markDeleting rounds.flatten := by
  induction rounds generalizing c with
  | nil => exact c.markDeleting_nil.symm
  | cons ids rounds ih =>
    rw [markRounds, List.foldl_cons, ← markRounds, ih, markDeleting_markDeleting,
      List.flatten_cons]

/-! ## Lookups -/

theorem lt_of_mem_index (scaleSet : ScaleSet) {e : String × Nat}
    (hmem : e ∈ (build scaleSet listing).index.entries) : e.2 < listing.length := by
  have hlt := List.snd_lt_of_mem_zipIdx (Dict.mem_of_mem_entries_ofList hmem)
  rwa [List.length_map] at hlt

theorem get?_build_concat_of_ne (scaleSet : ScaleSet) (listing : List Instance) {i : Instance}
    (hne : i.key ≠ id.key) :
    (build scaleSet (listing ++ [i])).get? id = (build scaleSet listing).get? id := by
  have hindex : (build scaleSet (listing ++ [i])).index.get? id.key
      = (build scaleSet listing).index.get? id.key := by
    rw [← Dict.get?_insert_of_ne hne.symm listing.length (build scaleSet listing).index, build,
      build, ← Dict.ofList_concat]
    simp [List.zipIdx_append]
  rw [get?, get?, hindex]
  cases hget : (build scaleSet listing).index.get? id.key with
  | none => rfl
  | some position =>
    have hlt : position < listing.length := lt_of_mem_index scaleSet (Dict.get?_eq_some_iff.mp hget)
    rw [Option.bind_some, Option.bind_some, instances_build, instances_build, List.map_append,
      List.getElem?_append_left (by simpa using hlt)]

/-- The last instance with a key is found. -/
theorem get?_build (scaleSet : ScaleSet) (listing : List Instance) (id : ProviderId) :
    (build scaleSet listing).get? id
      = (listing.reverse.find? fun i ↦ i.key = id.key).map Instance.normalized := by
  induction listing using List.reverseRecOn with
  | nil => rfl
  | append_singleton listing i ih =>
    rw [List.reverse_concat]
    by_cases hkey : i.key = id.key
    · rw [get?_build_concat _ _ hkey, List.find?_cons_of_pos (by simpa using hkey), Option.map_some]
    · rw [get?_build_concat_of_ne _ _ hkey, List.find?_cons_of_neg (by simpa using hkey), ih]

/-- The index can be forgotten: the last instance in the view is found that has the identifier. -/
theorem get?_markDeleting_build (scaleSet : ScaleSet) (listing : List Instance) (ids : List String)
    (id : ProviderId) :
    ((build scaleSet listing).markDeleting ids).get? id
      = ((build scaleSet listing).markDeleting ids).instances.reverse.find?
        fun i ↦ i.IsUnder id := by
  have hunder : (fun i : Instance ↦ decide (i.IsUnder id)) ∘ Instance.marked ids
      ∘ Instance.normalized = fun i ↦ decide (i.key = id.key) := by
    funext i
    rw [Function.comp_apply, Function.comp_apply]
    refine decide_eq_decide.mpr ?_
    rw [Instance.isUnder_marked, Instance.key_eq_key_iff_isUnder]
  rw [get?_markDeleting, get?_build, Option.map_map, instances_markDeleting, instances_build,
    List.map_map, ← List.map_reverse, List.find?_map, hunder]
  rfl

theorem build_markDeleting_build (scaleSet : ScaleSet) (listing : List Instance)
    (ids : List String) :
    build scaleSet ((build scaleSet listing).markDeleting ids).instances
      = (build scaleSet listing).markDeleting ids := by
  have hinstances : (((listing.map Instance.normalized).map (Instance.marked ids)).map
      Instance.normalized) = (listing.map Instance.normalized).map (Instance.marked ids) := by
    simp only [List.map_map]
    refine List.map_congr_left fun i _ ↦ ?_
    simp only [Function.comp_apply, Instance.normalized_marked, Instance.normalized_normalized]
  have hkeys : ((listing.map Instance.normalized).map (Instance.marked ids)).map Instance.key
      = listing.map Instance.key := by
    simp only [List.map_map]
    refine List.map_congr_left fun i _ ↦ ?_
    rw [Function.comp_apply, Function.comp_apply, Instance.key_marked, Instance.key_eq_foldCase,
      Instance.normalized_normalized, ← Instance.key_eq_foldCase]
  rw [instances_markDeleting, instances_build, build, hinstances, hkeys]
  rfl

/-! ## The view as a whole -/

/-- What an instance of a listing has become in a view, after the deletion of those with the given
numbers. -/
structure Holds (ids : List String) (listed held : Instance) : Prop where
  instanceId_eq : held.instanceId = listed.instanceId
  vmId_eq : held.vmId = listed.vmId
  /-- Its identifier is in written form if it can be read. -/
  providerId_eq : held.providerId
    = ((ProviderId.parse? listed.providerId).map ProviderId.print).getD listed.providerId
  state_eq : held.state = if listed.instanceId ∈ ids then .deleting else listed.state

theorem holds_marked (ids : List String) (i : Instance) :
    Holds ids i (i.normalized.marked ids) := by
  have hid := i.instanceId_normalized
  have hvm := i.vmId_normalized
  have hstate := i.state_normalized
  refine ⟨?_, ?_, ?_, ?_⟩
  · rw [Instance.marked]
    split <;> exact hid
  · rw [Instance.marked]
    split <;> exact hvm
  · rw [Instance.providerId_marked]
    cases hparse : ProviderId.parse? i.providerId with
    | none => rw [Instance.normalized_of_parse?_eq_none hparse, Option.map_none, Option.getD_none]
    | some id => rw [Instance.normalized_of_parse? hparse, Option.map_some, Option.getD_some]
  · rw [Instance.marked, hid]
    split
    · rfl
    · exact hstate

theorem forall₂_holds (scaleSet : ScaleSet) (listing : List Instance) (ids : List String) :
    List.Forall₂ (Holds ids) listing ((build scaleSet listing).markDeleting ids).instances := by
  rw [instances_markDeleting, instances_build, List.map_map, List.forall₂_map_right_iff,
    List.forall₂_same]
  exact fun i _ ↦ holds_marked ids i

/-- **What a view has in it.** After any deletions, a view has the instances of the listing that it
was built from, in the order of the listing. The index has only positions of the list in it, and a
lookup finds the last instance whose identifier is the written form of the ID, but for the case of
letters. A deletion changes the states of the instances with its numbers and nothing else, and the
second time nothing at all. The instances that are live are those that are not on their way out. And
a view that is built from the same description and the instances of a view is that view. -/
theorem representation (scaleSet : ScaleSet) (listing : List Instance)
    (rounds : List (List String)) :
    let c := (build scaleSet listing).markRounds rounds
    (c.scaleSet = scaleSet ∧ List.Forall₂ (Holds rounds.flatten) listing c.instances)
    ∧ (∀ e ∈ c.index.entries, e.2 < c.instances.length)
    ∧ (∀ id i, c.get? id = some i
      ↔ ∃ before after, c.instances = before ++ i :: after ∧ i.IsUnder id
        ∧ ∀ j ∈ after, ¬ j.IsUnder id)
    ∧ (∀ id, c.get? id = none ↔ ∀ i ∈ c.instances, ¬ i.IsUnder id)
    ∧ (∀ ids, (c.markDeleting ids).scaleSet = c.scaleSet
      ∧ (c.markDeleting ids).index = c.index
      ∧ List.Forall₂ (fun i j ↦ j = if i.instanceId ∈ ids then { i with state := .deleting } else i)
        c.instances (c.markDeleting ids).instances
      ∧ (c.markDeleting ids).markDeleting ids = c.markDeleting ids)
    ∧ c.liveCount = (c.instances.filter fun i ↦ i.state ≠ .deleting).length
    ∧ build scaleSet c.instances = c := by
  dsimp only
  rw [markRounds_eq]
  refine ⟨⟨rfl, forall₂_holds scaleSet listing _⟩, fun e he ↦ ?_, fun id i ↦ ?_, fun id ↦ ?_,
    fun ids ↦ ⟨rfl, rfl, ?_, ?_⟩, ?_, build_markDeleting_build scaleSet listing _⟩
  · rw [length_instances_markDeleting, length_instances_build]
    exact lt_of_mem_index scaleSet he
  · rw [get?_markDeleting_build, find?_reverse_eq_some_iff]
    simp only [decide_eq_true_eq, decide_eq_false_iff_not]
  · rw [get?_markDeleting_build, List.find?_eq_none]
    simp only [List.mem_reverse, decide_eq_true_eq]
  · rw [instances_markDeleting _ ids, List.forall₂_map_right_iff, List.forall₂_same]
    exact fun i _ ↦ rfl
  · rw [markDeleting_markDeleting]
    exact markDeleting_congr _ fun id ↦ by simp
  · rw [liveCount, List.countP_eq_length_filter]
    refine congrArg List.length (List.filter_congr fun i _ ↦ ?_)
    simp [ProvisioningState.isDeleting, beq_eq_decide]

def plainMachine : Instance := ⟨"3", ProviderId.plainId.path, "vm-3", .succeeded⟩

/-- The machine once more, in small letters and with another number. -/
def smallMachine : Instance := ⟨"4", ProviderId.smallText, "vm-4", .creating⟩

def oddity : Instance := ⟨"5", "not-a-resource-id", "vm-5", .failed⟩

theorem parse?_plainMachine :
    ProviderId.parse? plainMachine.providerId = some ProviderId.plainId :=
  ProviderId.parse?_eq_some_iff.mpr ProviderId.isWritten_plainId.2

theorem parse?_oddity : ProviderId.parse? oddity.providerId = none := by
  decide +kernel

theorem key_smallMachine : smallMachine.key = ProviderId.plainId.key := by
  have hkeys := ProviderId.key_eq_of_sameName (Text.sameName_foldCase ProviderId.plainId.print)
    ProviderId.parse?_plainId ProviderId.parse?_smallText
  rw [Instance.key_eq (i := smallMachine) ProviderId.parse?_smallText, hkeys.1]

theorem not_isUnder_oddity : ¬ oddity.IsUnder ProviderId.plainId := by
  intro hunder
  have hletters := congrArg List.head? (Text.sameName_iff.mp hunder)
  rw [ProviderId.print, String.toList_append, String.toList_ofList] at hletters
  exact absurd hletters (by decide)

/-- A machine that is listed twice is found where it is listed last, and is on its way out with the
number that it has there. -/
theorem representation_of_smallMachine :
    ∃ i, ((build (.bare "agentpool1" 3) [plainMachine, smallMachine, oddity]).markRounds
        [["4"], ["4", "9"]]).get? ProviderId.plainId = some i
      ∧ i.vmId = "vm-4" ∧ i.state = .deleting := by
  obtain ⟨-, -, hlookup, -⟩ := representation (.bare "agentpool1" 3)
    [plainMachine, smallMachine, oddity] [["4"], ["4", "9"]]
  have hheld := holds_marked ["4", "4", "9"] smallMachine
  refine ⟨smallMachine.normalized.marked ["4", "4", "9"], (hlookup _ _).mpr
    ⟨[plainMachine.normalized.marked ["4", "4", "9"]], [oddity.normalized.marked ["4", "4", "9"]],
      ?_, ?_, ?_⟩, hheld.vmId_eq, hheld.state_eq⟩
  · rw [markRounds_eq]
    rfl
  · rw [Instance.isUnder_marked]
    exact Instance.key_eq_key_iff_isUnder.mp key_smallMachine
  · intro j hj
    rw [List.mem_singleton.mp hj, Instance.isUnder_marked,
      Instance.normalized_of_parse?_eq_none parse?_oddity]
    exact not_isUnder_oddity

/-! ## What cannot be read -/

theorem get?_build_filter (hprint : ProviderId.parse? id.print = some id)
    (hnone : ∀ i ∈ listing, ¬ i.IsLookalike id) :
    (build scaleSet (listing.filter Instance.isReadable)).get? id
      = (build scaleSet listing).get? id := by
  rw [get?_build, get?_build, ← List.filter_reverse, List.find?_filter]
  refine congrArg (Option.map _) (List.find?_congr fun i hi ↦ ?_)
  by_cases hkey : i.key = id.key
  · have hreadable : i.isReadable = true := by
      by_contra hunreadable
      exact hnone i (List.mem_reverse.mp hi) (Instance.isLookalike_of_isUnder hprint
        (Bool.eq_false_of_not_eq_true hunreadable) (Instance.key_eq_key_iff_isUnder.mp hkey))
    simp [hkey, hreadable]
  · simp [hkey]

/-- If something that cannot be read is found, it is because there is a lookalike in the listing. -/
theorem isLookalike_of_get? {ids : List String} {j : Instance}
    (hprint : ProviderId.parse? id.print = some id)
    (hget : ((build scaleSet listing).markDeleting ids).get? id = some j)
    (hunreadable : j.isReadable = false) : j.IsLookalike id ∧ ∃ i ∈ listing, i.IsLookalike id := by
  rw [get?_markDeleting_build, List.find?_eq_some_iff_append, decide_eq_true_eq] at hget
  obtain ⟨hunder, before, after, hinstances, -⟩ := hget
  have hmem : j ∈ ((build scaleSet listing).markDeleting ids).instances := by
    rw [← List.mem_reverse, hinstances]
    exact List.mem_append_right _ List.mem_cons_self
  rw [instances_markDeleting, instances_build, List.map_map] at hmem
  obtain ⟨i, hi, rfl⟩ := List.mem_map.mp hmem
  rw [Function.comp_apply, Instance.isReadable_marked, Instance.isReadable_normalized]
    at hunreadable
  have hlookalike :=
    Instance.isLookalike_of_isUnder hprint hunreadable ((Instance.isUnder_marked ids).mp hunder)
  refine ⟨⟨?_, hunder⟩, i, hi, hlookalike⟩
  rw [Function.comp_apply, Instance.providerId_marked,
    Instance.normalized_of_parse?_eq_none (Instance.parse?_eq_none hunreadable)]
  exact hlookalike.1

/-- **What cannot be read.** After any deletions, an instance whose identifier is no provider ID is
in the view with its identifier as it was listed. It is not found, nor does it keep another from
being found, unless it is a lookalike of what is looked for: its identifier begins with the scheme
and a letter of that is a capital, and it would be the written form of the ID otherwise. -/
theorem unreadable_unmatched (scaleSet : ScaleSet) (listing : List Instance)
    (rounds : List (List String)) :
    let c := (build scaleSet listing).markRounds rounds
    List.Forall₂ (fun i j : Instance ↦ i.isReadable = false → j.providerId = i.providerId
      ∧ j.instanceId = i.instanceId ∧ j.vmId = i.vmId) listing c.instances
    ∧ ∀ raw id, ProviderId.parse raw = .ok id →
      ((∀ i ∈ listing, ¬ i.IsLookalike id) →
        (∀ j, c.get? id = some j → j.isReadable = true)
        ∧ c.get? id
          = ((build scaleSet (listing.filter Instance.isReadable)).markRounds rounds).get? id)
      ∧ ∀ j, c.get? id = some j → j.isReadable = false → j.IsLookalike id := by
  dsimp only
  rw [markRounds_eq, markRounds_eq]
  constructor
  · refine (forall₂_holds scaleSet listing _).imp fun i j hholds hunreadable ↦
      ⟨?_, hholds.instanceId_eq, hholds.vmId_eq⟩
    rw [hholds.providerId_eq, Instance.parse?_eq_none hunreadable, Option.map_none,
      Option.getD_none]
  · intro raw id hraw
    have hprint := ProviderId.parse?_print (ProviderId.parse_eq_ok_iff_parse?.mp hraw)
    refine ⟨fun hnone ↦ ⟨fun j hget ↦ ?_, ?_⟩, fun j hget hunreadable ↦ ?_⟩
    · by_contra hunreadable
      obtain ⟨-, i, hi, hlookalike⟩ :=
        isLookalike_of_get? hprint hget (Bool.eq_false_of_not_eq_true hunreadable)
      exact hnone i hi hlookalike
    · rw [get?_markDeleting, get?_markDeleting, get?_build_filter hprint hnone]
    · exact (isLookalike_of_get? hprint hget hunreadable).1

theorem isReadable_plainMachine : plainMachine.isReadable = true := by
  rw [Instance.isReadable, parse?_plainMachine, Option.isSome_some]

theorem isReadable_oddity : oddity.isReadable = false := by
  rw [Instance.isReadable, parse?_oddity, Option.isSome_none]

/-- A machine is found in spite of what is listed after it and cannot be read. -/
theorem unreadable_unmatched_of_oddity :
    ∃ j, ((build (.bare "agentpool1" 3) [plainMachine, oddity]).markRounds [["5"]]).get?
      ProviderId.plainId = some j ∧ j.isReadable = true := by
  obtain ⟨-, hread⟩ :=
    unreadable_unmatched (.bare "agentpool1" 3) [plainMachine, oddity] [["5"]]
  have hcapital : ¬ ProviderId.HasCapitalScheme oddity.providerId := by decide +kernel
  have hraw := ProviderId.parse_eq_ok_iff_parse?.mpr ProviderId.parse?_plainId
  obtain ⟨hreadable, hfilter⟩ := (hread _ _ hraw).1 fun i hi hlookalike ↦ by
    rcases List.mem_cons.mp hi with rfl | hi
    · exact ProviderId.not_hasCapitalScheme_of_parse? parse?_plainMachine hlookalike.1
    · rw [List.mem_singleton.mp hi] at hlookalike
      exact hcapital hlookalike.1
  have hlisted : [plainMachine, oddity].filter Instance.isReadable = [] ++ [plainMachine] := by
    rw [List.filter_cons_of_pos isReadable_plainMachine, List.filter_singleton, isReadable_oddity]
    rfl
  have hfound : ((build (.bare "agentpool1" 3) ([] ++ [plainMachine])).markRounds [["5"]]).get?
      ProviderId.plainId = some (plainMachine.normalized.marked ["5"]) := by
    rw [markRounds_eq, get?_markDeleting,
      get?_build_concat _ _ (Instance.key_eq parse?_plainMachine)]
    rfl
  rw [hlisted] at hfilter
  exact ⟨_, hfilter.trans hfound, hreadable _ (hfilter.trans hfound)⟩

/-- Something with the provider ID of the machine, but for a capital in the scheme. -/
def lookalike : Instance := ⟨"4", ProviderId.capitalText, "vm-4", .failed⟩

theorem parse?_lookalike : ProviderId.parse? lookalike.providerId = none :=
  ProviderId.parse?_of_hasCapitalScheme ProviderId.hasCapitalScheme_capitalText

/-- Something that cannot be read can be found after all, and in the place of a machine. -/
theorem exists_unreadable_found : ∃ listing raw id i j,
    ProviderId.parse raw = .ok id ∧ i ∈ listing ∧ ProviderId.parse? i.providerId = none
    ∧ (build (.bare "agentpool1" 2) listing).get? id = some i
    ∧ (build (.bare "agentpool1" 2) (listing.filter Instance.isReadable)).get? id = some j
    ∧ j ≠ i := by
  have hkey : lookalike.key = ProviderId.plainId.key := by
    rw [Instance.key_eq_foldCase, Instance.normalized_of_parse?_eq_none parse?_lookalike]
    exact ProviderId.sameName_capitalText.symm
  have hlisted : [plainMachine, lookalike].filter Instance.isReadable = [] ++ [plainMachine] := by
    rw [List.filter_cons_of_pos isReadable_plainMachine, List.filter_singleton,
      Instance.isReadable, parse?_lookalike]
    rfl
  refine ⟨[plainMachine] ++ [lookalike], _, ProviderId.plainId, lookalike, plainMachine.normalized,
    ProviderId.parse_eq_ok_iff_parse?.mpr ProviderId.parse?_plainId, List.mem_concat_self,
    parse?_lookalike, ?_, ?_, ?_⟩
  · rw [get?_build_concat _ _ hkey, Instance.normalized_of_parse?_eq_none parse?_lookalike]
  · exact hlisted ▸ get?_build_concat _ _ (Instance.key_eq parse?_plainMachine)
  · rw [Instance.normalized_of_parse? parse?_plainMachine]
    intro heq
    exact absurd (congrArg Instance.vmId heq) (by decide)

end Cache

end NodeGroups
