import Mathlib
import NodeGroups.Group.Mutation
import NodeGroups.Proofs.Except

/-!
# What a plan comes down to

A mutation is planned with numbers of 32 bits, but nothing is lost by it: the checks see to it that
the new target size is the old one with the request's delta added or taken away, as integers. The
exception is a deletion of more instances than a size can count, which no scale set has.

The numbers of the instances that a deletion submits are distinct, and each belongs to an instance
of the view that is not on its way out. So there are never more of them than instances.
-/

namespace NodeGroups.Group

/-! ## The instances of a deletion -/

theorem exists_of_mem_deletable {id : String} {seen : List String} {instances : List Instance}
    (hmem : id ∈ deletable seen instances) :
    id ∉ seen ∧ ∃ i ∈ instances, i.instanceId = id ∧ i.state.isDeleting = false := by
  -- Those that were seen become more as the list goes on, so the claim is for any of them.
  induction instances generalizing seen with
  | nil => simp [deletable] at hmem
  | cons i is ih =>
    rw [deletable] at hmem
    split at hmem
    · obtain ⟨hseen, j, hj, hid, hstate⟩ := ih hmem
      exact ⟨hseen, j, List.mem_cons_of_mem _ hj, hid, hstate⟩
    · next hnew =>
      split at hmem
      · obtain ⟨hseen, j, hj, hid, hstate⟩ := ih hmem
        exact ⟨fun h ↦ hseen (List.mem_cons_of_mem _ h), j, List.mem_cons_of_mem _ hj, hid, hstate⟩
      · next hstays =>
        rcases List.mem_cons.mp hmem with rfl | hrest
        · exact ⟨hnew, i, List.mem_cons_self, rfl, Bool.eq_false_iff.mpr hstays⟩
        · obtain ⟨hseen, j, hj, hid, hstate⟩ := ih hrest
          exact ⟨fun h ↦ hseen (List.mem_cons_of_mem _ h), j, List.mem_cons_of_mem _ hj, hid,
            hstate⟩

theorem nodup_deletable (seen : List String) (instances : List Instance) :
    (deletable seen instances).Nodup := by
  induction instances generalizing seen with
  | nil => exact List.nodup_nil
  | cons i is ih =>
    rw [deletable]
    split
    · exact ih seen
    · split
      · exact ih _
      · refine List.nodup_cons.mpr ⟨fun hmem ↦ ?_, ih _⟩
        exact (exists_of_mem_deletable hmem).1 List.mem_cons_self

theorem mem_instances_of_resolve {g : Group} {c : Cache} {node : Node} {i : Instance}
    (hresolve : g.resolve c node = .ok i) : i ∈ c.instances := by
  rw [resolve] at hresolve
  split at hresolve
  · next j hj =>
    obtain ⟨id, -, hfind⟩ := Option.bind_eq_some_iff.mp hj
    rw [Cache.find?] at hfind
    split at hfind
    · obtain ⟨position, -, hget⟩ := Option.bind_eq_some_iff.mp hfind
      rw [← Except.ok.inj hresolve]
      exact List.mem_of_getElem? hget
    · cases hfind
  · cases hresolve

theorem subset_instances_of_resolve {g : Group} {c : Cache} {nodes : List Node}
    {instances : List Instance} (hresolve : nodes.mapM (g.resolve c) = .ok instances) :
    instances ⊆ c.instances := by
  intro i hi
  obtain ⟨k, hk, rfl⟩ := List.mem_iff_getElem.mp hi
  have hall := mapM_eq_ok_iff.mp hresolve
  exact mem_instances_of_resolve (hall.get (by rw [hall.length_eq]; exact hk) hk)

theorem length_deletable_le {g : Group} {c : Cache} {nodes : List Node}
    {instances : List Instance} (hresolve : nodes.mapM (g.resolve c) = .ok instances) :
    (deletable [] instances).length ≤ c.instances.length := by
  have hsub : deletable [] instances ⊆ c.instances.map Instance.instanceId := by
    intro id hid
    obtain ⟨-, i, hi, rfl, -⟩ := exists_of_mem_deletable hid
    exact List.mem_map_of_mem (subset_instances_of_resolve hresolve hi)
  calc (deletable [] instances).length
      ≤ (c.instances.map Instance.instanceId).length :=
        ((nodup_deletable [] instances).subperm hsub).length_le
    _ = c.instances.length := List.length_map _

/-! ## Plans -/

theorem toNat_ofNat_of_le {n : Nat} {size : UInt32} (hle : n ≤ size.toNat) :
    (UInt32.ofNat n).toNat = n :=
  UInt32.toNat_ofNat_of_lt' (Nat.lt_of_le_of_lt hle size.toNat_lt)

theorem toNat_clampSize (n : Nat) : (clampSize n).toNat = min n (2 ^ 32 - 1) := by
  have hsize : UInt32.size = 2 ^ 32 := rfl
  rw [clampSize, UInt32.toNat_ofNat']
  omega

theorem toNat_clampSize_of_lt {n : Nat} (hlt : n < 2 ^ 32) : (clampSize n).toNat = n := by
  rw [toNat_clampSize]
  omega

/-- A mutation, the view it is planned from, and the call it comes down to. The equations are those
of the request, free of subtraction and of overflow. -/
inductive Planned (g : Group) (v : View) : Mutation → Change → Prop
  | increase {delta target : UInt32} (hpos : delta ≠ 0)
      (hsum : target.toNat = v.target.toNat + delta.toNat) (hmax : target ≤ g.maxSize) :
      Planned g v (.increase delta) (.resize target)
  | decrease {delta target : UInt32} (hpos : delta ≠ 0)
      (hdiff : target.toNat + delta.toNat = v.target.toNat)
      (hlive : (clampSize v.cache.liveCount).toNat ≤ target.toNat) (hmin : g.minSize ≤ target) :
      Planned g v (.decrease delta) (.resize target)
  | delete {nodes : List Node} {instances : List Instance} {target : UInt32}
      (hresolve : nodes.mapM (g.resolve v.cache) = .ok instances)
      (hsome : deletable [] instances ≠ [])
      (hdiff : target.toNat + (clampSize (deletable [] instances).length).toNat
        = v.target.toNat)
      (hmin : g.minSize ≤ target) :
      Planned g v (.delete nodes) (.delete (deletable [] instances) target)

theorem planned_of_planIncrease {g : Group} {v : View} {delta : UInt32} {change : Change}
    (hpos : delta ≠ 0) (hplan : g.planIncrease v delta = .ok change) :
    Planned g v (.increase delta) change := by
  rw [planIncrease] at hplan
  split at hplan
  · next hle =>
    have hsum := toNat_ofNat_of_le hle
    rw [← Except.ok.inj hplan]
    exact .increase hpos hsum (UInt32.le_iff_toNat_le.mpr (by omega))
  · cases hplan

theorem planned_of_planDecrease {g : Group} {v : View} {delta : UInt32} {change : Change}
    (hpos : delta ≠ 0) (hplan : g.planDecrease v delta = .ok change) :
    Planned g v (.decrease delta) change := by
  rw [planDecrease] at hplan
  split at hplan
  · cases hplan
  · next hdelta =>
    dsimp only at hplan
    split at hplan
    · cases hplan
    · next hlive =>
      split at hplan
      · cases hplan
      · next hmin =>
        have hdelta := UInt32.le_iff_toNat_le.mp (UInt32.not_lt.mp hdelta)
        have hdiff := toNat_ofNat_of_le (Nat.sub_le v.target.toNat delta.toNat)
        rw [← Except.ok.inj hplan]
        exact .decrease hpos (by omega) (by omega) (UInt32.le_iff_toNat_le.mpr (by omega))

theorem planned_of_planDelete {g : Group} {v : View} {nodes : List Node} {change : Change}
    (hplan : g.planDelete v nodes = .ok (some change)) :
    Planned g v (.delete nodes) change := by
  obtain ⟨instances, hresolve, hplan⟩ := bind_eq_ok_iff.mp hplan
  dsimp only at hplan
  split at hplan
  · cases hplan
  · next hsome =>
    split at hplan
    · cases hplan
    · next hmin =>
      have hdiff := toNat_ofNat_of_le
        (Nat.sub_le v.target.toNat (clampSize (deletable [] instances).length).toNat)
      rw [← Option.some.inj (Except.ok.inj hplan)]
      exact .delete hresolve hsome (by omega) (UInt32.le_iff_toNat_le.mpr (by omega))

theorem requireView_eq_ok_iff {g : Group} {s : State} {v : View} :
    s.requireView g = .ok v ↔ s.view = some v := by
  rw [State.requireView]
  cases s.view <;> simp

/-- Whatever call a mutation comes down to, it was planned from the group's view. -/
theorem planned_of_plan {g : Group} {s : State} {m : Mutation} {change : Change}
    (hplan : m.plan g s = .ok (some change)) : ∃ v, s.view = some v ∧ Planned g v m change := by
  rw [Mutation.plan] at hplan
  split at hplan
  · cases hplan
  · next hfault =>
    obtain ⟨v, hview, hplan⟩ := bind_eq_ok_iff.mp hplan
    refine ⟨v, requireView_eq_ok_iff.mp hview, ?_⟩
    cases m with
    | increase delta =>
      obtain ⟨c, hc, hsome⟩ := map_eq_ok_iff.mp hplan
      rw [Option.some.inj hsome] at hc
      exact planned_of_planIncrease (by simpa [Mutation.fault?] using hfault) hc
    | decrease delta =>
      obtain ⟨c, hc, hsome⟩ := map_eq_ok_iff.mp hplan
      rw [Option.some.inj hsome] at hc
      exact planned_of_planDecrease (by simpa [Mutation.fault?] using hfault) hc
    | delete nodes => exact planned_of_planDelete hplan

/-! ## Refusals -/

section

variable {g : Group} {v : View} {s : State} {m : Mutation} {e : GroupError}

theorem Mutation.kind_of_fault? (hfault : m.fault? = some e) : e.kind = .invalidArgument := by
  cases m with
  | increase delta =>
    obtain ⟨-, hsome⟩ := Option.ite_none_right_eq_some.mp hfault
    rw [← Option.some.inj hsome]
    rfl
  | decrease delta =>
    obtain ⟨-, hsome⟩ := Option.ite_none_right_eq_some.mp hfault
    rw [← Option.some.inj hsome]
    rfl
  | delete nodes =>
    obtain ⟨node, -, rfl⟩ := Option.map_eq_some_iff.mp hfault
    rfl

/-- Why the group itself refuses a mutation: for its argument, for a node that is not the group's,
or for want of a view. -/
inductive Refusal (g : Group) (s : State) : GroupError → Prop
  | argument {e : GroupError} (hkind : e.kind = .invalidArgument) : Refusal g s e
  | stranger {node : String} : Refusal g s (.unknownNode node g.name)
  | unpopulated (hview : s.view = none) : Refusal g s (.notPopulated g.name)

theorem kind_of_planDecrease {delta : UInt32} (hplan : g.planDecrease v delta = .error e) :
    e.kind = .invalidArgument := by
  rw [planDecrease] at hplan
  split at hplan
  · obtain rfl := Except.error.inj hplan
    rfl
  · dsimp only at hplan
    split at hplan
    · obtain rfl := Except.error.inj hplan
      rfl
    · split at hplan
      · obtain rfl := Except.error.inj hplan
        rfl
      · cases hplan

theorem refusal_of_planDelete {nodes : List Node} (s : State)
    (hplan : g.planDelete v nodes = .error e) : Refusal g s e := by
  rcases bind_eq_error_iff.mp hplan with hresolve | ⟨instances, -, hplan⟩
  · obtain ⟨node, -, hunknown⟩ := exists_of_mapM_eq_error hresolve
    rw [resolve] at hunknown
    split at hunknown
    · cases hunknown
    · obtain rfl := Except.error.inj hunknown
      exact .stranger
  · dsimp only at hplan
    split at hplan
    · cases hplan
    · split at hplan
      · obtain rfl := Except.error.inj hplan
        exact .argument rfl
      · cases hplan

/-- The checks of a mutation refuse it for one of three reasons. -/
theorem Mutation.refusal_of_plan (hplan : m.plan g s = .error e) : Refusal g s e := by
  rw [Mutation.plan] at hplan
  split at hplan
  · next e' hfault =>
    obtain rfl := Except.error.inj hplan
    exact .argument (kind_of_fault? hfault)
  · rcases bind_eq_error_iff.mp hplan with hrequire | ⟨v, -, hplan⟩
    · rw [State.requireView] at hrequire
      split at hrequire
      · cases hrequire
      · next hview =>
        obtain rfl := Except.error.inj hrequire
        exact .unpopulated hview
    · cases m with
      | increase delta =>
        have hplan := map_eq_error_iff.mp hplan
        rw [planIncrease] at hplan
        split at hplan
        · cases hplan
        · obtain rfl := Except.error.inj hplan
          exact .argument rfl
      | decrease delta => exact .argument (kind_of_planDecrease (map_eq_error_iff.mp hplan))
      | delete nodes => exact refusal_of_planDelete s hplan

end

/-! ## Submitted instances -/

/-- The numbers of the instances whose deletion a call asks for. -/
def Change.submitted : Change → List String
  | .resize _ => []
  | .delete ids _ => ids

def Change.target : Change → UInt32
  | .resize target | .delete _ target => target

@[simp] theorem Change.target_updateView (change : Change) (v : View) :
    (change.updateView v).target = change.target := by
  cases change <;> rfl

theorem Change.instances_updateView (change : Change) (v : View) :
    (change.updateView v).cache.instances
      = markDeleting change.submitted v.cache.instances := by
  cases change with
  | resize target => exact (markDeleting_nil _).symm
  | delete ids target => rfl

/-- What is submitted are numbers of instances that the view has and that are not on their way
out. -/
theorem Planned.exists_of_mem_submitted {g : Group} {v : View} {m : Mutation} {change : Change}
    (hplanned : Planned g v m change) {id : String} (hid : id ∈ change.submitted) :
    ∃ i ∈ v.cache.instances, i.instanceId = id ∧ i.state.isDeleting = false := by
  cases hplanned with
  | increase hpos hsum hmax => cases hid
  | decrease hpos hdiff hlive hmin => cases hid
  | delete hresolve hsome hdiff hmin =>
    obtain ⟨-, i, hi, hid, hstays⟩ := exists_of_mem_deletable hid
    exact ⟨i, subset_instances_of_resolve hresolve hi, hid, hstays⟩

theorem Planned.nodup_submitted {g : Group} {v : View} {m : Mutation} {change : Change}
    (hplanned : Planned g v m change) : change.submitted.Nodup := by
  cases hplanned with
  | increase hpos hsum hmax => exact List.nodup_nil
  | decrease hpos hdiff hlive hmin => exact List.nodup_nil
  | delete hresolve hsome hdiff hmin => exact nodup_deletable [] _

end NodeGroups.Group
