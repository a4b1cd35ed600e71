import NodeGroups.Proofs.Balance
import NodeGroups.Proofs.Correspondence
import NodeGroups.Proofs.Memory

/-!
# Agreement of view and cloud

If nobody but the group itself changes its scale set, then the group knows how things are: the
target size is the capacity in the cloud, and the instances of the view are those of the cloud, in
their order, with their identifiers in written form. It holds whenever nobody has the lock to write,
in whatever order mutations and reloads proceed, and whatever calls fail, take time, or break the
client down.

A deletion lowers the target size by the number of instances as a size, and the capacity by their
number. These are the same as long as there are not more instances than a size can count.
-/

namespace NodeGroups.Group

/-- The view says what the cloud has. -/
def agreement (g : Group) : Correspondence Memory where
  cloud _ m := ∀ h, g.holding? m = some h → h.instances.length < 2 ^ 32
  description _ m d := ∃ h, g.holding? m = some h ∧ d = h.scaleSet
  view _ m cache target := ∃ h, g.holding? m = some h ∧ target = h.scaleSet.capacity
    ∧ cache.instances = h.instances.map Instance.normalized

/-- Nobody else changes the scale set. -/
def IsSoleOwner (g : Group) (record : List (Event Memory)) : Prop :=
  ∀ before after, .intervened before after ∈ record → g.holding? after = g.holding? before

variable {g : Group}

theorem agreement_carries {m m' : Memory} {record record' : List (Event Memory)}
    (hsame : g.holding? m' = g.holding? m) (h : g.agreement.cloud record m) :
    g.agreement.Carries record m record' m' where
  cloud := by
    intro holding hholding
    rw [hsame] at hholding
    exact h holding hholding
  description := by
    rintro d ⟨holding, hholding, hd⟩
    exact ⟨holding, hsame.trans hholding, hd⟩
  view := by
    rintro cache target ⟨holding, hholding, htarget, hinstances⟩
    exact ⟨holding, hsame.trans hholding, htarget, hinstances⟩

theorem map_normalized_markDeleting (ids : List String) (instances : List Instance) :
    (markDeleting ids instances).map Instance.normalized
      = markDeleting ids (instances.map Instance.normalized) := by
  rw [markDeleting, markDeleting, List.map_map, List.map_map]
  refine List.map_congr_left fun i _ ↦ ?_
  rw [Function.comp_apply, Function.comp_apply]
  have hsame : i.normalized.instanceId = i.instanceId := i.instanceId_normalized
  by_cases hid : i.instanceId ∈ ids
  · rw [if_pos hid, if_pos (hsame ▸ hid), Instance.normalized_withState]
  · rw [if_neg hid, if_neg (hsame ▸ hid)]

theorem target_eq_capacity_apply {m : Mutation} {v : View} {change : Change} {h : Holding}
    (hplanned : Planned g v m change) (hlength : v.cache.instances.length < 2 ^ 32)
    (htarget : v.target = h.scaleSet.capacity) :
    change.target = (change.apply h).scaleSet.capacity := by
  cases hplanned with
  | increase hpos hsum hmax => rfl
  | decrease hpos hdiff hlive hmin => rfl
  | @delete nodes instances target hresolve hsome hdiff hmin =>
    -- The cloud counts the numbers that are submitted, the group counts them as a size.
    have hlt : (deletable [] instances).length < UInt32.size :=
      Nat.lt_of_le_of_lt (length_deletable_le hresolve) hlength
    rw [toNat_clampSize_of_lt hlt, htarget] at hdiff
    rw [Change.apply, Memory.afterDeletion, Change.target, Nat.mod_eq_of_lt hlt, ← hdiff,
      Nat.add_sub_cancel]
    exact UInt32.ofNat_toNat.symm

/-- Agreement lasts as long as nobody else changes the scale set. -/
theorem agreement_lasting (g : Group) :
    g.agreement.Lasting Memory.client g g.IsSoleOwner where
  fair_of_cons hsole before after hmem := hsole before after (List.mem_cons_of_mem _ hmem)
  note _ h := agreement_carries rfl h
  sent hsent h := agreement_carries (holding?_of_sent hsent) h
  intervened hsole h := agreement_carries (hsole _ _ List.mem_cons_self) h
  described hdescribe _ := by
    obtain ⟨h, hholding, rfl⟩ := Memory.describe_eq_ok_iff.mp hdescribe
    exact ⟨h, hholding, rfl⟩
  listed := by
    rintro record m d listing hlist - ⟨h, hholding, rfl⟩
    obtain ⟨h', hholding', rfl⟩ := Memory.list_eq_ok_iff.mp hlist
    obtain rfl : h = h' := Option.some.inj (hholding.symm.trans hholding')
    exact ⟨h, hholding, rfl, rfl⟩
  executed := by
    rintro record m m' v mutation change who hplanned hexecute hcloud
      ⟨h, hholding, htarget, hinstances⟩
    obtain ⟨h', hholding', hafter⟩ := holding?_of_execute hexecute
    obtain rfl : h = h' := Option.some.inj (hholding.symm.trans hholding')
    have hlength := hcloud h hholding
    refine ⟨fun h' hholding' ↦ ?_, change.apply h, hafter, ?_, ?_⟩
    · obtain rfl : change.apply h = h' := Option.some.inj (hafter.symm.trans hholding')
      rwa [Change.instances_apply, length_markDeleting]
    · refine target_eq_capacity_apply hplanned ?_ htarget
      rwa [hinstances, List.length_map]
    · rw [Change.instances_updateView, Change.instances_apply, map_normalized_markDeleting,
        hinstances]

theorem Orderly.isSettled {t : Traffic Memory} (horderly : Orderly g t)
    (hfree : ∀ holder ∈ t.cell.lock.holders, holder.2 ≠ .exclusive) : t.IsSettled := by
  intro who
  cases hjob : t.jobs who with
  | none => rw [Traffic.accepted?, hjob, Option.bind_none]
  | some job =>
  rw [Traffic.accepted?_eq hjob]
  refine Activity.accepted?_of_isWriting ?_
  by_contra hwriting
  rw [Bool.not_eq_false] at hwriting
  obtain ⟨access, hmem⟩ := Lock.isHeldBy_iff.mp (horderly.held hjob hwriting)
  have hclaim := horderly.serves.mem_iff.mp (Lock.mem_members_of_mem_holders hmem)
  rw [Traffic.claim?_eq hjob, Activity.claim?_of_isWriting hwriting] at hclaim
  exact hfree _ hmem (Option.some.inj hclaim).symm

/-- Whenever nobody holds the lock to write, the target size of a group that is alone in changing
its scale set is the capacity in the cloud, and the instances of its view are those in the cloud. -/
theorem Run.view_agrees {cloud : Memory} {clock : Clock} {record : List (Event Memory)}
    {t : Traffic Memory} {v : View} (hrun : Run Memory.client g (.initial cloud clock) record t)
    (hsole : g.IsSoleOwner record)
    (hlength : ∀ h, g.holding? cloud = some h → h.instances.length < 2 ^ 32)
    (hbound : completions record < 2 ^ 64)
    (hfree : ∀ holder ∈ t.cell.lock.holders, holder.2 ≠ .exclusive)
    (hview : t.cell.state.view = some v) :
    ∃ h, g.holding? t.cloud = some h ∧ v.target = h.scaleSet.capacity
      ∧ v.cache.instances = h.instances.map Instance.normalized :=
  (hrun.corresponds g.agreement_lasting hlength hsole (.of_completions_lt hbound)).view
    (hrun.orderly.isSettled hfree) v hview

/-- A reload that is overtaken by an increase, for which the cloud takes its time. -/
def slowIncrease : List (Move Memory) :=
  Move.reload 0 ++ Move.request 1 .reload 1
    ++ .intervene ((cloudOf 3).delay .setCapacity "pool" 50)
    :: Move.request 2 (.mutate (.increase 1)) 2 ++ [.proceed 1, .proceed 1, .elapse 50]
    ++ List.replicate 2 (.proceed 2) ++ List.replicate 2 (.proceed 1)

/-- The group and the cloud both end with one machine more. -/
theorem Run.view_agrees_of_slow_increase : ∃ record t v h,
    Run Memory.client pool (.initial (cloudOf 3) .start) record t
    ∧ t.cell.state.view = some v ∧ v.target = 4
    ∧ pool.holding? t.cloud = some h ∧ v.target = h.scaleSet.capacity
    ∧ v.cache.instances = h.instances.map Instance.normalized := by
  have hsole : ((played 3 slowIncrease).1.all fun
      | .intervened before after => pool.holding? after = pool.holding? before
      | _ => true) = true := by decide +kernel
  have hlength : ∀ h ∈ pool.holding? (cloudOf 3), h.instances.length < 2 ^ 32 := by decide +kernel
  have hbound : completions (played 3 slowIncrease).1 < 2 ^ 64 := by decide +kernel
  have hfree : ∀ holder ∈ (played 3 slowIncrease).2.cell.lock.holders, holder.2 ≠ .exclusive := by
    decide +kernel
  obtain ⟨v, hview, htarget⟩ : ∃ v,
      (played 3 slowIncrease).2.cell.state.view = some v ∧ v.target = 4 :=
    Option.map_eq_some_iff.mp (by decide +kernel)
  have hrun := run_played 3 slowIncrease
  obtain ⟨h, hagrees⟩ := hrun.view_agrees
    (fun _ _ hmem ↦ of_decide_eq_true (List.all_eq_true.mp hsole _ hmem)) hlength hbound hfree hview
  exact ⟨_, _, v, h, hrun, hview, htarget, hagrees⟩

end NodeGroups.Group
