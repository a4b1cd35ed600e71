import NodeGroups.Proofs.Atomicity

/-!
# What comes of a deletion

A deletion is checked in a fixed order: whether its provider IDs can be read, whether the group has
a view, whether the view has an instance under each node, and whether the group may become so small.
What it submits are the numbers of those instances, each once and in the order of the nodes, but for
those that are on their way out.

If the numbers in the view are distinct, a deletion that ended well leaves all its instances on
their way out, and there they stay until a new view is installed. So it can be repeated, in whole or
in part, without anything coming of it.
-/

namespace NodeGroups.Group

variable {σ : Type} {client : Client σ} {g : Group}

/-! ## Instances under nodes -/

/-- The view has an instance under a node, whose provider ID names the group's scale set. -/
def HasInstance (g : Group) (c : Cache) (node : Node) (i : Instance) : Prop :=
  ∃ id, ProviderId.parse? node.providerId = some id ∧ id.IsIn g.resourceGroup g.name
    ∧ c.get? id = some i

variable {c : Cache} {node : Node} {nodes : List Node} {i : Instance}

theorem instanceOf?_eq_some_iff : g.instanceOf? c node = some i ↔ g.HasInstance c node i := by
  rw [instanceOf?, Option.bind_eq_some_iff]
  refine exists_congr fun id ↦ and_congr_right fun _ ↦ ?_
  rw [Cache.find?, Option.ite_none_right_eq_some]

theorem resolve_eq_ok_iff : g.resolve c node = .ok i ↔ g.HasInstance c node i := by
  rw [resolve, ← instanceOf?_eq_some_iff]
  split
  · next j hj => rw [hj, Except.ok.injEq, Option.some.injEq]
  · next hnone => simp [hnone]

theorem resolve_eq_error (hnone : ∀ i, ¬ g.HasInstance c node i) :
    g.resolve c node = .error (.unknownNode node.name g.name) := by
  rw [resolve]
  split
  · next i hi => exact absurd (instanceOf?_eq_some_iff.mp hi) (hnone i)
  · rfl

theorem mapM_resolve_eq_ok_iff {instances : List Instance} :
    nodes.mapM (g.resolve c) = .ok instances
      ↔ List.Forall₂ (g.HasInstance c) nodes instances := by
  rw [mapM_eq_ok_iff]
  exact ⟨.imp fun _ _ ↦ resolve_eq_ok_iff.mp, .imp fun _ _ ↦ resolve_eq_ok_iff.mpr⟩

theorem HasInstance.isSome_parse? (h : g.HasInstance c node i) :
    (ProviderId.parse? node.providerId).isSome := by
  obtain ⟨id, hparse, -, -⟩ := h
  rw [hparse]
  rfl

/-! ## Lists in step -/

section

variable {α β : Type} {r : α → β → Prop} {as : List α} {bs : List β}

theorem exists_mem_of_forall₂ (h : List.Forall₂ r as bs) {a : α} (ha : a ∈ as) :
    ∃ b ∈ bs, r a b := by
  obtain ⟨k, hk, rfl⟩ := List.mem_iff_getElem.mp ha
  have hk' : k < bs.length := h.length_eq ▸ hk
  exact ⟨bs[k], List.getElem_mem hk', h.get hk hk'⟩

theorem exists_forall₂ (h : ∀ a ∈ as, ∃ b, r a b) : ∃ bs, List.Forall₂ r as bs := by
  induction as with
  | nil => exact ⟨[], .nil⟩
  | cons a as ih =>
    obtain ⟨b, hb⟩ := h a List.mem_cons_self
    obtain ⟨bs, hbs⟩ := ih fun a' ha' ↦ h a' (List.mem_cons_of_mem _ ha')
    exact ⟨b :: bs, .cons hb hbs⟩

end

/-! ## Numbers to submit -/

/-- The first instance with a number is not on its way out. -/
def firstStays (instances : List Instance) (id : String) : Bool :=
  (instances.find? fun i ↦ i.instanceId = id).any fun i ↦ !i.state.isDeleting

/-- The numbers of instances without repetition, in the order in which they come first, but for
those of which the first instance is on its way out. -/
def numbersToDelete (instances : List Instance) : List String :=
  (instances.map Instance.instanceId).eraseDups.filter (firstStays instances)

theorem firstStays_cons_self (i : Instance) (is : List Instance) :
    firstStays (i :: is) i.instanceId = !i.state.isDeleting := by
  have hfound : (i :: is).find? (fun j ↦ j.instanceId = i.instanceId) = some i :=
    List.find?_cons_of_pos (decide_eq_true rfl)
  rw [firstStays, hfound]
  rfl

theorem firstStays_cons_of_ne {is : List Instance} {id : String} (hne : i.instanceId ≠ id) :
    firstStays (i :: is) id = firstStays is id := by
  rw [firstStays, List.find?_cons_of_neg (by simpa using hne), firstStays]

/-- What has had its turn is left out, the rest is as it would be without. -/
theorem deletable_eq_filter (seen : List String) (instances : List Instance) :
    deletable seen instances
      = ((instances.map Instance.instanceId).filter (· ∉ seen)).eraseDups.filter
        (firstStays instances) := by
  induction instances generalizing seen with
  | nil => rfl
  | cons i is ih =>
    have hothers : ∀ ids : List String, i.instanceId ∈ ids →
        ((is.map Instance.instanceId).filter (· ∉ ids)).eraseDups.filter (firstStays (i :: is))
          = deletable ids is := by
      intro ids hself
      rw [ih ids]
      refine List.filter_congr fun id hid ↦ firstStays_cons_of_ne ?_
      rintro rfl
      simpa [hself] using List.mem_eraseDups.mp hid
    rw [deletable, List.map_cons]
    by_cases hseen : i.instanceId ∈ seen
    · rw [if_pos hseen, List.filter_cons_of_neg (by simpa using hseen), hothers seen hseen]
    · have hrest : ((is.map Instance.instanceId).filter (· ∉ seen)).filter (!· == i.instanceId)
          = (is.map Instance.instanceId).filter (· ∉ i.instanceId :: seen) := by
        rw [List.filter_filter]
        refine List.filter_congr fun id _ ↦ ?_
        simp [beq_eq_decide]
      rw [if_neg hseen, List.filter_cons_of_pos (by simpa using hseen), List.eraseDups_cons, hrest,
        List.filter_cons, hothers _ List.mem_cons_self, firstStays_cons_self]
      cases i.state.isDeleting <;> rfl

theorem deletable_eq_numbersToDelete (instances : List Instance) :
    deletable [] instances = numbersToDelete instances := by
  have hall : (instances.map Instance.instanceId).filter (· ∉ [])
      = instances.map Instance.instanceId := List.filter_eq_self.mpr (by simp)
  rw [deletable_eq_filter, hall, numbersToDelete]

theorem length_numbersToDelete_le (instances : List Instance) :
    (numbersToDelete instances).length ≤ instances.length := by
  have hsub : deletable [] instances ⊆ instances.map Instance.instanceId := by
    intro id hid
    obtain ⟨-, i, hi, rfl, -⟩ := exists_of_mem_deletable hid
    exact List.mem_map_of_mem hi
  have hle := ((nodup_deletable [] instances).subperm hsub).length_le
  rwa [deletable_eq_numbersToDelete, List.length_map] at hle

/-! ## Plans -/

variable {s : State} {v : View} {instances : List Instance}

theorem fault?_delete_eq_none_iff : (Mutation.delete nodes).fault? = none
    ↔ ∀ n ∈ nodes, (ProviderId.parse? n.providerId).isSome := by
  rw [Mutation.fault?, Option.map_eq_none_iff, List.find?_eq_none]
  refine forall₂_congr fun n _ ↦ ?_
  cases ProviderId.parse? n.providerId <;> simp

theorem plan_delete_of_malformed {before after : List Node}
    (hbefore : ∀ n ∈ before, (ProviderId.parse? n.providerId).isSome)
    (hnode : ProviderId.parse? node.providerId = none) :
    Mutation.plan g s (.delete (before ++ node :: after))
      = .error (.malformedId node.providerId) := by
  have hfind : (before ++ node :: after).find?
      (fun n ↦ (ProviderId.parse? n.providerId).isNone) = some node := by
    refine List.find?_eq_some_iff_append.mpr ⟨by rw [hnode]; rfl, before, after, rfl, ?_⟩
    intro n hn
    rw [← Option.not_isSome, hbefore n hn]
    rfl
  rw [Mutation.plan, Mutation.fault?, hfind]
  rfl

theorem plan_of_unpopulated {m : Mutation} (hfault : m.fault? = none) (hview : s.view = none) :
    m.plan g s = .error (.notPopulated g.name) := by
  rw [Mutation.plan, hfault, State.requireView, hview]
  rfl

theorem plan_delete_of_unknown {before after : List Node}
    (hparse : ∀ n ∈ before ++ node :: after, (ProviderId.parse? n.providerId).isSome)
    (hview : s.view = some v) (hbefore : ∀ n ∈ before, ∃ i, g.HasInstance v.cache n i)
    (hnode : ∀ i, ¬ g.HasInstance v.cache node i) :
    Mutation.plan g s (.delete (before ++ node :: after))
      = .error (.unknownNode node.name g.name) := by
  have hresolve : (before ++ node :: after).mapM (g.resolve v.cache)
      = .error (.unknownNode node.name g.name) := by
    refine mapM_eq_error after (fun n hn ↦ ?_) (resolve_eq_error hnode)
    obtain ⟨i, hi⟩ := hbefore n hn
    exact ⟨i, resolve_eq_ok_iff.mpr hi⟩
  rw [plan_delete hview (fault?_delete_eq_none_iff.mpr hparse), planDelete, hresolve]
  rfl

theorem exists_of_plan_delete_eq_none (hplan : Mutation.plan g s (.delete nodes) = .ok none) :
    ∃ v instances, s.view = some v ∧ nodes.mapM (g.resolve v.cache) = .ok instances
      ∧ deletable [] instances = [] := by
  rw [Mutation.plan] at hplan
  split at hplan
  · cases hplan
  · obtain ⟨v, hview, hplan⟩ := bind_eq_ok_iff.mp hplan
    obtain ⟨instances, hresolve, hplan⟩ := bind_eq_ok_iff.mp hplan
    refine ⟨v, instances, requireView_eq_ok_iff.mp hview, hresolve, ?_⟩
    dsimp only at hplan
    split at hplan
    · next hnone => exact hnone
    · split at hplan <;> cases hplan

/-- With an instance under each node, the numbers decide. There are few enough nodes to count
them with 32 bits. -/
theorem plan_delete_of_resolved (hview : s.view = some v)
    (hinstances : List.Forall₂ (g.HasInstance v.cache) nodes instances)
    (hcount : nodes.length < 2 ^ 32) :
    let ids := numbersToDelete instances
    Mutation.plan g s (.delete nodes)
      = if ids = [] then .ok none
        else if v.target.toNat < ids.length + g.minSize.toNat then
          .error (.deletionBelowMinSize ids.length g.name g.minSize v.target)
        else .ok (some (.delete ids (.ofNat (v.target.toNat - ids.length)))) := by
  have hparse : ∀ n ∈ nodes, (ProviderId.parse? n.providerId).isSome := by
    intro n hn
    obtain ⟨i, -, hi⟩ := exists_mem_of_forall₂ hinstances hn
    exact hi.isSome_parse?
  have hlength : (numbersToDelete instances).length ≤ nodes.length :=
    hinstances.length_eq ▸ length_numbersToDelete_le instances
  have hsize : (clampSize (numbersToDelete instances).length).toNat
      = (numbersToDelete instances).length :=
    toNat_clampSize_of_lt (Nat.lt_of_le_of_lt hlength hcount)
  dsimp only
  rw [plan_delete hview (fault?_delete_eq_none_iff.mpr hparse), planDelete,
    mapM_resolve_eq_ok_iff.mpr hinstances]
  change (if deletable [] instances = [] then _ else if _ < (clampSize
    (deletable [] instances).length).toNat + _ then _ else _) = _
  rw [deletable_eq_numbersToDelete, hsize]

/-! ## Outcomes -/

/-- A request was refused for an error of a kind, and nothing came of it. -/
structure Refused (e : GroupError) (kind : ErrorKind) (account : Account) (left : State)
    (ending : Ending) : Prop where
  kind_eq : e.kind = kind
  ending_eq : ending = .answered (.error e)
  asked_eq : account.asked = []
  left_eq : left = account.found

/-- A request ended well, and there was nothing to do for it. -/
structure Spared (account : Account) (left : State) (ending : Ending) : Prop where
  ending_eq : ending = .answered (.ok .nothing)
  asked_eq : account.asked = []
  left_eq : left = account.found

/-- The deletion of instances was submitted in one call, after which the target size was to be
`target`: the client broke down on it, or the cloud accepted it, or the cloud refused it. -/
inductive Submitted (v : View) (ids : List String) (target : UInt32) :
    Account → State → Ending → Prop
  | broke {found : State} : Submitted v ids target ⟨found, [], []⟩ found .broke
  | accepted {found : State} :
      Submitted v ids target ⟨found, [.change (.delete ids target)], [.ok ()]⟩
        ⟨some { v.withDeleting ids with target }, found.mutations + 1⟩
        (.answered (.ok .nothing))
  | rejected {found : State} {e : CloudError} :
      Submitted v ids target ⟨found, [.change (.delete ids target)], [.error e]⟩ found
        (.answered (.error (.cloud e)))

/-- What comes of the deletion of some nodes, by the state in which it was checked. -/
structure Deletes (g : Group) (nodes : List Node) (account : Account) (left : State)
    (ending : Ending) : Prop where
  /-- A provider ID that cannot be read comes first, whether the group has a view or not. -/
  malformed : ∀ before node after, nodes = before ++ node :: after →
    (∀ n ∈ before, (ProviderId.parse? n.providerId).isSome) →
    ProviderId.parse? node.providerId = none →
    Refused (.malformedId node.providerId) .invalidArgument account left ending
  unpopulated : (∀ n ∈ nodes, (ProviderId.parse? n.providerId).isSome) →
    account.found.view = none →
    Refused (.notPopulated g.name) .stateNotReady account left ending
  /-- Of the nodes under which the view has no instance, the first decides about the error. -/
  unknown : ∀ v before node after, (∀ n ∈ nodes, (ProviderId.parse? n.providerId).isSome) →
    account.found.view = some v → nodes = before ++ node :: after →
    (∀ n ∈ before, ∃ i, g.HasInstance v.cache n i) → (∀ i, ¬ g.HasInstance v.cache node i) →
    Refused (.unknownNode node.name g.name) .notFound account left ending
  needless : ∀ v instances, account.found.view = some v →
    List.Forall₂ (g.HasInstance v.cache) nodes instances → numbersToDelete instances = [] →
    Spared account left ending
  below : ∀ v instances, account.found.view = some v →
    List.Forall₂ (g.HasInstance v.cache) nodes instances → numbersToDelete instances ≠ [] →
    (v.target.toNat : ℤ) - (numbersToDelete instances).length < g.minSize.toNat →
    Refused (.deletionBelowMinSize (numbersToDelete instances).length g.name g.minSize v.target)
      .invalidArgument account left ending
  submitted : ∀ v instances, account.found.view = some v →
    List.Forall₂ (g.HasInstance v.cache) nodes instances → numbersToDelete instances ≠ [] →
    (g.minSize.toNat : ℤ) ≤ v.target.toNat - (numbersToDelete instances).length →
    ∃ target : UInt32, (target.toNat : ℤ) = v.target.toNat - (numbersToDelete instances).length
      ∧ Submitted v (numbersToDelete instances) target account left ending

namespace Concluded

variable {m : Mutation} {account : Account} {left : State} {ending : Ending}

theorem refused_of_plan {e : GroupError} (h : Concluded g m account left ending)
    (hplan : m.plan g account.found = .error e) : Refused e e.kind account left ending := by
  cases h with
  | refused hplan' =>
    obtain rfl := Except.error.inj (hplan.symm.trans hplan')
    exact ⟨rfl, rfl, rfl, rfl⟩
  | needless hplan' => cases hplan.symm.trans hplan'
  | broke hplan' => cases hplan.symm.trans hplan'
  | rejected hplan' => cases hplan.symm.trans hplan'
  | completed hplan' => cases hplan.symm.trans hplan'

theorem spared_of_plan (h : Concluded g m account left ending)
    (hplan : m.plan g account.found = .ok none) : Spared account left ending := by
  cases h with
  | refused hplan' => cases hplan.symm.trans hplan'
  | needless hplan' => exact ⟨rfl, rfl, rfl⟩
  | broke hplan' => cases hplan.symm.trans hplan'
  | rejected hplan' => cases hplan.symm.trans hplan'
  | completed hplan' => cases hplan.symm.trans hplan'

theorem submitted_of_plan {ids : List String} {target : UInt32}
    (h : Concluded g m account left ending)
    (hplan : m.plan g account.found = .ok (some (.delete ids target)))
    (hview : account.found.view = some v) : Submitted v ids target account left ending := by
  cases h with
  | refused hplan' => cases hplan.symm.trans hplan'
  | needless hplan' => cases hplan.symm.trans hplan'
  | broke hplan' => exact .broke
  | rejected hplan' =>
    obtain rfl := Option.some.inj (Except.ok.inj (hplan.symm.trans hplan'))
    exact .rejected
  | completed hplan' =>
    obtain rfl := Option.some.inj (Except.ok.inj (hplan.symm.trans hplan'))
    rw [Change.commit, hview]
    exact .accepted

/-- A deletion that has ended has come to what the state says in which it was checked. -/
theorem deletes (h : Concluded g (.delete nodes) account left ending)
    (hcount : nodes.length < 2 ^ 32) : Deletes g nodes account left ending where
  malformed := by
    rintro before node after rfl hbefore hnode
    exact h.refused_of_plan (plan_delete_of_malformed hbefore hnode)
  unpopulated hparse hview :=
    h.refused_of_plan (plan_of_unpopulated (fault?_delete_eq_none_iff.mpr hparse) hview)
  unknown := by
    rintro v before node after hparse hview rfl hbefore hnode
    exact h.refused_of_plan (plan_delete_of_unknown hparse hview hbefore hnode)
  needless v instances hview hinstances hnil :=
    h.spared_of_plan ((plan_delete_of_resolved hview hinstances hcount).trans (if_pos hnil))
  below v instances hview hinstances hsome hbelow := by
    have hplan := plan_delete_of_resolved hview hinstances hcount
    dsimp only at hplan
    rw [if_neg hsome, if_pos (by omega)] at hplan
    exact h.refused_of_plan hplan
  submitted v instances hview hinstances hsome hmin := by
    have hplan := plan_delete_of_resolved hview hinstances hcount
    dsimp only at hplan
    rw [if_neg hsome, if_neg (by omega)] at hplan
    have hsize := toNat_ofNat_of_le
      (Nat.sub_le v.target.toNat (numbersToDelete instances).length)
    exact ⟨_, by omega, h.submitted_of_plan hplan hview⟩

end Concluded

/-! ## On the way out -/

/-- The view has an instance under each of some nodes, and they are all on their way out. -/
def OnWayOut (g : Group) (nodes : List Node) (view : Option View) : Prop :=
  ∃ v, view = some v ∧ ∀ n ∈ nodes, ∃ i, g.HasInstance v.cache n i ∧ i.state.isDeleting = true

/-- A number of an instance is submitted, or the instance that had its turn with it is on its way
out. -/
theorem mem_deletable_or {instances : List Instance} (hmem : i ∈ instances) (seen : List String) :
    i.instanceId ∈ seen ∨ i.instanceId ∈ deletable seen instances
      ∨ ∃ j ∈ instances, j.instanceId = i.instanceId ∧ j.state.isDeleting = true := by
  induction instances generalizing seen with
  | nil => cases hmem
  | cons k ks ih =>
    rw [deletable]
    by_cases hid : k.instanceId = i.instanceId
    · by_cases hseen : k.instanceId ∈ seen
      · exact .inl (hid ▸ hseen)
      · cases hdeleting : k.state.isDeleting with
        | true => exact .inr (.inr ⟨k, List.mem_cons_self, hid, hdeleting⟩)
        | false =>
          rw [if_neg hseen, if_neg Bool.false_ne_true, ← hid]
          exact .inr (.inl List.mem_cons_self)
    · have hrest : i ∈ ks := (List.mem_cons.mp hmem).resolve_left fun heq ↦ hid (heq ▸ rfl)
      have hlater : (∃ j ∈ ks, j.instanceId = i.instanceId ∧ j.state.isDeleting = true) →
          ∃ j ∈ k :: ks, j.instanceId = i.instanceId ∧ j.state.isDeleting = true := by
        rintro ⟨j, hj, hsame, hdeleting⟩
        exact ⟨j, List.mem_cons_of_mem _ hj, hsame, hdeleting⟩
      split
      · exact (ih hrest seen).imp_right (.imp_right hlater)
      · have hnext := ih hrest (k.instanceId :: seen)
        rw [List.mem_cons, or_iff_right (Ne.symm hid)] at hnext
        split
        · exact hnext.imp_right (.imp_right hlater)
        · exact hnext.imp_right (.imp (List.mem_cons_of_mem _) hlater)

/-- With distinct numbers, what is not submitted of the instances of a deletion is on its way out
already. -/
theorem mem_deletable_or_isDeleting {instances : List Instance} (hsub : instances ⊆ c.instances)
    (hdistinct : (c.instances.map Instance.instanceId).Nodup) (hmem : i ∈ instances) :
    i.instanceId ∈ deletable [] instances ∨ i.state.isDeleting = true := by
  rcases mem_deletable_or hmem [] with hseen | hsubmitted | ⟨j, hj, hid, hdeleting⟩
  · cases hseen
  · exact .inl hsubmitted
  · rw [← List.inj_on_of_nodup_map hdistinct (hsub hj) (hsub hmem) hid]
    exact .inr hdeleting

theorem HasInstance.updateView {v : View} (h : g.HasInstance v.cache node i) (change : Change) :
    ∃ j, g.HasInstance (change.updateView v).cache node j
      ∧ (i.instanceId ∈ change.submitted ∨ i.state.isDeleting = true →
        j.state.isDeleting = true) := by
  obtain ⟨id, hparse, hin, hget⟩ := h
  cases change with
  | resize target => exact ⟨i, ⟨id, hparse, hin, hget⟩, fun h ↦ h.resolve_left List.not_mem_nil⟩
  | delete ids target =>
    have hmarked := v.cache.get?_markDeleting ids id
    rw [hget, Option.map_some] at hmarked
    refine ⟨_, ⟨id, hparse, hin, hmarked⟩, fun hgone ↦ ?_⟩
    split
    · rfl
    · next hkept => exact hgone.resolve_left hkept

namespace OnWayOut

theorem mono {view : Option View} {nodes' : List Node} (h : OnWayOut g nodes view)
    (hsub : nodes' ⊆ nodes) : OnWayOut g nodes' view := by
  obtain ⟨v, hview, hall⟩ := h
  exact ⟨v, hview, fun n hn ↦ hall n (hsub hn)⟩

theorem step {event : Option (Event σ)} {view view' : Option View} (h : OnWayOut g nodes view)
    (hstep : ViewStep g view event view') (hquiet : ∀ e ∈ event, e.isInstallation = false) :
    OnWayOut g nodes view' := by
  cases hstep with
  | keep hinstallation hcompletion => exact h
  | install who cache now => cases hquiet _ rfl
  | @update v m change who hplanned =>
    obtain ⟨_, ⟨⟩, hall⟩ := h
    refine ⟨_, rfl, fun n hn ↦ ?_⟩
    obtain ⟨i, hi, hdeleting⟩ := hall n hn
    obtain ⟨j, hj, hgone⟩ := hi.updateView _
    exact ⟨j, hj, hgone (.inr hdeleting)⟩

theorem plan_delete {s : State} (h : OnWayOut g nodes s.view) :
    Mutation.plan g s (.delete nodes) = .ok none := by
  obtain ⟨v, hview, hall⟩ := h
  obtain ⟨instances, hinstances⟩ := exists_forall₂ hall
  have hresolved : List.Forall₂ (g.HasInstance v.cache) nodes instances :=
    hinstances.imp fun _ _ hi ↦ hi.1
  have hparse : ∀ n ∈ nodes, (ProviderId.parse? n.providerId).isSome := by
    intro n hn
    obtain ⟨i, hi, -⟩ := hall n hn
    exact hi.isSome_parse?
  have hnone : deletable [] instances = [] := by
    refine List.eq_nil_iff_forall_not_mem.mpr fun id hid ↦ ?_
    obtain ⟨-, i, hi, -, hstays⟩ := exists_of_mem_deletable hid
    obtain ⟨n, -, -, hdeleting⟩ := exists_mem_of_forall₂ hinstances.flip hi
    rw [hstays] at hdeleting
    cases hdeleting
  rw [Group.plan_delete hview (fault?_delete_eq_none_iff.mpr hparse), planDelete,
    mapM_resolve_eq_ok_iff.mpr hresolved]
  exact if_pos hnone

end OnWayOut

variable {m : Mutation} {account : Account} {left : State} {start t : Traffic σ} {who : Nat}
  {record : List (Event σ)}

theorem Concluded.onWayOut
    (h : Concluded g (.delete nodes) account left (.answered (.ok .nothing)))
    (hdistinct : ∀ v, account.found.view = some v →
      (v.cache.instances.map Instance.instanceId).Nodup) : OnWayOut g nodes left.view := by
  cases h with
  | needless hplan =>
    obtain ⟨v, instances, hview, hresolve, hnone⟩ := exists_of_plan_delete_eq_none hplan
    refine ⟨v, hview, fun n hn ↦ ?_⟩
    obtain ⟨i, hi, hinstance⟩ := exists_mem_of_forall₂ (mapM_resolve_eq_ok_iff.mp hresolve) hn
    have hgone := mem_deletable_or_isDeleting (subset_instances_of_resolve hresolve)
      (hdistinct v hview) hi
    rw [hnone] at hgone
    exact ⟨i, hinstance, hgone.resolve_left List.not_mem_nil⟩
  | @completed s change hplan =>
    obtain ⟨v, hview, hplanned⟩ := planned_of_plan hplan
    have hleft : (change.commit s).view = some (change.updateView v) := by
      rw [Change.commit, hview]
      rfl
    refine ⟨_, hleft, fun n hn ↦ ?_⟩
    cases hplanned with
    | @delete _ instances target hresolve hsome hdiff hmin =>
      obtain ⟨i, hi, hinstance⟩ := exists_mem_of_forall₂ (mapM_resolve_eq_ok_iff.mp hresolve) hn
      have hgone := mem_deletable_or_isDeleting (subset_instances_of_resolve hresolve)
        (hdistinct v hview) hi
      obtain ⟨j, hj, hmarked⟩ := hinstance.updateView _
      exact ⟨j, hj, hmarked hgone⟩

theorem Run.onWayOut (hrun : Run client g start record t) (hstart : Orderly g start)
    (h : OnWayOut g nodes start.cell.state.view)
    (hquiet : ∀ e ∈ record, e.isInstallation = false) : OnWayOut g nodes t.cell.state.view := by
  induction hrun with
  | refl => exact h
  | @tail record event t t' hrun hstep ih =>
    have hbefore := ih fun e he ↦ hquiet e (List.mem_append_right _ he)
    refine hbefore.step (ViewStep.of_step (hrun.orderly_of hstart) hstep) fun e he ↦ ?_
    exact hquiet e (List.mem_append_left _ (Option.mem_toList.mpr he))

/-- What is on its way out when a mutation comes in is so when the mutation is checked. -/
theorem Attempt.onWayOut_found (hattempt : Attempt client g who m start record account t)
    (hstart : Orderly g start) (h : OnWayOut g nodes start.cell.state.view)
    (hquiet : ∀ e ∈ record, e.isInstallation = false) : OnWayOut g nodes account.found.view := by
  obtain ⟨earlier, t₀, hrun, hfound, hsuffix⟩ := hattempt.exists_found
  rw [← hfound]
  exact hrun.onWayOut hstart h fun e he ↦ hquiet e (hsuffix.subset he)

/-- Deletions from end to end. Whatever state a deletion finds, whatever others do meanwhile and
whatever the cloud answers, it comes to what the state says in which it was checked. If the numbers
in the view were distinct and the deletion ended well, a later one of some of the same nodes ends
well with nothing done, as long as no view has been installed since. And a deletion that finds the
lock free does come to an end, unless it waits for an answer that never comes. -/
theorem Mutation.delete_end_to_end (client : Client σ) (g : Group) (nodes : List Node) (who : Nat)
    {start : Traffic σ} (hstart : Orderly g start) (hcount : nodes.length < 2 ^ 32) :
    (start.IsIdle who → start.cell.lock = .free → ComesToEnd client g who (.delete nodes) start)
    ∧ ∀ record account t ending, Attempt client g who (.delete nodes) start record account t →
      t.jobs who = some ⟨.mutate (.delete nodes), .ended ending⟩ →
      account.IsBorneOut client g start record ∧ Deletes g nodes account t.cell.state ending
      ∧ (ending = .answered (.ok .nothing) →
        (∀ v, account.found.view = some v →
          (v.cache.instances.map Instance.instanceId).Nodup) →
        ∀ between again later who' nodes' account' t' ending', Run client g t between again →
          nodes' ⊆ nodes → Attempt client g who' (.delete nodes') again later account' t' →
          (∀ e ∈ later ++ between, e.isInstallation = false) →
          t'.jobs who' = some ⟨.mutate (.delete nodes'), .ended ending'⟩ →
          Spared account' t'.cell.state ending') := by
  refine ⟨Attempt.comesToEnd client _ hstart, ?_⟩
  intro record account t ending hattempt hended
  have hconcluded := hattempt.concluded hstart hended
  refine ⟨hattempt.isBorneOut, hconcluded.deletes hcount, ?_⟩
  rintro rfl hdistinct between again later who' nodes' account' t' ending' hrun hsub hattempt'
    hquiet hended'
  have horderly := hattempt.run.orderly_of hstart
  have hagain := hrun.onWayOut horderly (hconcluded.onWayOut hdistinct) fun e he ↦
    hquiet e (List.mem_append_right _ he)
  have hfound := hattempt'.onWayOut_found (hrun.orderly_of horderly) hagain fun e he ↦
    hquiet e (List.mem_append_left _ he)
  exact (hattempt'.concluded (hrun.orderly_of horderly) hended').spared_of_plan
    (hfound.mono hsub).plan_delete

/-- A listing of two machines with different numbers. -/
def pairListing : List Instance := [Memory.record "rg" "pool" 1 .succeeded, poolMachine]

/-- A view in which five instances are wanted, and the cloud has listed those two. -/
def pairView : View := ⟨.build (.bare "pool" 5) pairListing, 5, 0⟩

def pairCloud : Memory := Memory.empty.setHolding "rg" "pool" ⟨.bare "pool" 5, pairListing⟩

theorem nodup_pairView : (pairView.cache.instances.map Instance.instanceId).Nodup := by
  have hids : pairView.cache.instances.map Instance.instanceId
      = pairListing.map Instance.instanceId := by
    rw [pairView, Cache.instances_build, List.map_map]
    exact List.map_congr_left fun i _ ↦ i.instanceId_normalized
  rw [hids]
  decide

theorem hasInstance_pairView :
    pool.HasInstance pairView.cache doubledNode poolMachine.normalized :=
  resolve_eq_ok_iff.mp (resolve_build_concat _ [_] parse?_poolMachine ⟨rfl, rfl⟩
    (Instance.key_eq parse?_poolMachine))

theorem onWayOut_pairView :
    OnWayOut pool [doubledNode] (some ((Change.delete ["0"] 4).updateView pairView)) := by
  obtain ⟨i, hi, hgone⟩ := hasInstance_pairView.updateView (.delete ["0"] 4)
  have hid : poolMachine.normalized.instanceId ∈ ["0"] := by
    rw [Instance.instanceId_normalized]
    exact List.mem_cons_self
  refine ⟨_, rfl, fun n hn ↦ ⟨i, ?_, hgone (.inl hid)⟩⟩
  rwa [List.mem_singleton.mp hn]

theorem fault?_delete_doubledNode : (Mutation.delete [doubledNode]).fault? = none := by
  refine fault?_delete_eq_none_iff.mpr fun n hn ↦ ?_
  rw [List.mem_singleton.mp hn]
  exact hasInstance_pairView.isSome_parse?

/-- The group when it has read what there is in the cloud. -/
def pairRead : Traffic Memory :=
  (Traffic.initial pairCloud .start).stage 0 .reload
    ⟨.answer (.ok .nothing), ⟨⟨some pairView, 0⟩, .free⟩,
      { pairCloud with log := [.list, .describe] }⟩

theorem run_pairRead : Run Memory.client pool (.initial pairCloud .start)
    [.installed 0 pairView.cache, .described 0, .counted 0] pairRead := by
  have hholding : pool.holding? pairCloud = some ⟨.bare "pool" 5, pairListing⟩ :=
    Memory.holding?_setHolding _ _ _ _
  have hstart : Run Memory.client pool (.initial pairCloud .start) [] (.initial pairCloud .start) :=
    .refl
  exact hstart.reload_alone (Traffic.isIdle_initial pairCloud .start 0) rfl
    (takesAtOnce_memory rfl rfl rfl) (Memory.describe_eq_ok_iff.mpr ⟨_, hholding, rfl⟩)
    (takesAtOnce_memory rfl rfl rfl) (Memory.list_eq_ok_iff.mpr ⟨_, hholding, rfl⟩)

theorem isIdle_pairRead {who : Nat} (hwho : who ≠ 0) : pairRead.IsIdle who :=
  Traffic.isIdle_stage (Traffic.isIdle_initial pairCloud .start who) hwho _ _

def pairTraffic : Traffic Memory := .resting ⟨some pairView, 0⟩ pairCloud .start

def pairDeleted (cloud : Memory) : Traffic Memory :=
  pairTraffic.stage 0 (.mutate (.delete [doubledNode, doubledNode]))
    ⟨.answer (.ok .nothing), ⟨(Change.delete ["0"] 4).commit ⟨some pairView, 0⟩, .free⟩, cloud⟩

theorem exists_attempt_pair : ∃ record cloud,
    Attempt Memory.client pool 0 (.delete [doubledNode, doubledNode]) pairTraffic record
      ⟨⟨some pairView, 0⟩, [.change (.delete ["0"] 4)], [.ok ()]⟩ (pairDeleted cloud) := by
  have hholding : pool.holding? pairCloud = some ⟨.bare "pool" 5, pairListing⟩ :=
    Memory.holding?_setHolding _ _ _ _
  have hdeletable : ∀ id ∈ ["0"], Memory.deletionFault? pairListing "pool" id = none := by
    decide +kernel
  have hplan := plan_doubled_of_concat (.bare "pool" 5) [Memory.record "rg" "pool" 1 .succeeded]
  exact ⟨_, _, Attempt.alone (Traffic.isIdle_resting ⟨some pairView, 0⟩ pairCloud .start 0) rfl
    fault?_doubled hplan (takesAtOnce_memory rfl rfl rfl)
    (Memory.delete_eq_ok_iff.mpr ⟨_, hholding, hdeletable, rfl⟩)⟩

/-- The deletion, and that of the same node again afterwards. -/
theorem Mutation.delete_end_to_end_of_pair : ∃ record account cloud account' t',
    Attempt Memory.client pool 0 (.delete [doubledNode, doubledNode]) pairTraffic record account
      (pairDeleted cloud)
    ∧ account.asked = [.change (.delete ["0"] 4)]
    ∧ Deletes pool [doubledNode, doubledNode] account (pairDeleted cloud).cell.state
      (.answered (.ok .nothing))
    ∧ Attempt Memory.client pool 1 (.delete [doubledNode]) (pairDeleted cloud) [] account' t'
    ∧ Spared account' t'.cell.state (.answered (.ok .nothing)) := by
  obtain ⟨record, cloud, hdeleted⟩ := exists_attempt_pair
  have hidle : (pairDeleted cloud).IsIdle 1 :=
    Traffic.isIdle_stage (Traffic.isIdle_resting _ _ _ 1) Nat.one_ne_zero _ _
  have hagain : Attempt Memory.client pool 1 (.delete [doubledNode]) (pairDeleted cloud) [] _ _ :=
    Attempt.alone_needless hidle rfl fault?_delete_doubledNode onWayOut_pairView.plan_delete
  obtain ⟨-, hdeletes, htwice⟩ := (delete_end_to_end Memory.client pool [doubledNode, doubledNode] 0
    (.resting _ _ _) (by decide)).2 _ _ _ _ hdeleted rfl
  refine ⟨_, _, cloud, _, _, hdeleted, rfl, hdeletes, hagain, ?_⟩
  refine htwice rfl ?_ _ _ _ _ _ _ _ _ .refl (by simp) hagain nofun rfl
  rintro v ⟨⟩
  exact nodup_pairView

end NodeGroups.Group
