import Mathlib
import NodeGroups.Proofs.Bounds
import NodeGroups.Proofs.Lookup

/-!
# The target size covers the live instances

An instance is live as long as it is not on its way out. A target size below the number of live
instances would make the cloud pick some of them to delete, and this is what mutations must not lead
to. A decrease looks at the number itself. A deletion does not; it is a matter of counting. The
numbers that it submits are distinct, and each of them belongs to a live instance that is marked, so
at least as many instances are marked as the target size falls by. More may be marked if several
instances of a listing have one number, and nothing depends on how instances are found in the view.
-/

namespace NodeGroups

/-! ## Marked instances -/

/-- With each of some distinct numbers at least one live instance is marked. -/
theorem Cache.liveCount_markDeleting_add_length_le {c : Cache} {ids : List String}
    (hnodup : ids.Nodup)
    (hlive : ∀ id ∈ ids, ∃ i ∈ c.instances, i.instanceId = id ∧ i.state.isDeleting = false) :
    (c.markDeleting ids).liveCount + ids.length ≤ c.liveCount := by
  let live := c.instances.filter fun i ↦ !i.state.isDeleting
  have hcount : c.liveCount = live.length := List.countP_eq_length_filter
  have hrest : (c.markDeleting ids).liveCount = live.countP fun i ↦ i.instanceId ∉ ids := by
    rw [liveCount, markDeleting, NodeGroups.markDeleting, List.countP_map, List.countP_filter]
    refine List.countP_congr fun i _ ↦ ?_
    by_cases hid : i.instanceId ∈ ids <;> simp [hid]
  have hmarked : ids.length ≤ live.countP fun i ↦ i.instanceId ∈ ids := by
    have hsub : ids ⊆ (live.filter fun i ↦ i.instanceId ∈ ids).map Instance.instanceId := by
      intro id hid
      obtain ⟨i, hi, rfl, hstays⟩ := hlive id hid
      refine List.mem_map_of_mem (List.mem_filter.mpr ⟨List.mem_filter.mpr ⟨hi, ?_⟩, ?_⟩)
      · rw [hstays]
        rfl
      · exact decide_eq_true hid
    calc ids.length
        ≤ ((live.filter fun i ↦ i.instanceId ∈ ids).map Instance.instanceId).length :=
          (hnodup.subperm hsub).length_le
      _ = live.countP fun i ↦ i.instanceId ∈ ids := by
          rw [List.length_map, List.countP_eq_length_filter]
  have hsplit := List.length_eq_countP_add_countP (fun i ↦ decide (i.instanceId ∈ ids)) (l := live)
  simp only [decide_eq_true_eq, decide_not] at hsplit hrest
  omega

theorem Cache.liveCount_markDeleting_build (ids : List String) (scaleSet : ScaleSet)
    (listing : List Instance) : ((build scaleSet listing).markDeleting ids).liveCount
      = listing.countP fun i ↦ i.instanceId ∉ ids && !i.state.isDeleting := by
  rw [liveCount, markDeleting, instances_build, NodeGroups.markDeleting, List.countP_map,
    List.countP_map]
  refine List.countP_congr fun i _ ↦ ?_
  by_cases hid : i.instanceId ∈ ids <;> simp [hid]

namespace Group

variable {σ : Type}

/-! ## Single mutations -/

/-- The target size is not below the number of live instances. -/
def View.CoversLive (v : View) : Prop := v.cache.liveCount ≤ v.target.toNat

instance (v : View) : Decidable v.CoversLive :=
  inferInstanceAs (Decidable (v.cache.liveCount ≤ v.target.toNat))

namespace Planned

variable {g : Group} {v : View} {m : Mutation} {change : Change}

theorem coversLive (h : Planned g v m change) (hcovers : v.CoversLive) :
    (change.updateView v).CoversLive := by
  rw [View.CoversLive] at hcovers
  cases h with
  | @increase delta target hpos hsum hmax =>
    change v.cache.liveCount ≤ target.toNat
    omega
  | @decrease delta target hpos hdiff hlive hmin =>
    change v.cache.liveCount ≤ target.toNat
    have hlt := v.target.toNat_lt
    rw [toNat_clampSize_of_lt (Nat.lt_of_le_of_lt hcovers hlt)] at hlive
    exact hlive
  | @delete nodes instances target hresolve hsome hdiff hmin =>
    change (v.cache.markDeleting (deletable [] instances)).liveCount ≤ target.toNat
    have hmarked : (v.cache.markDeleting (deletable [] instances)).liveCount
        + (deletable [] instances).length ≤ v.cache.liveCount := by
      refine Cache.liveCount_markDeleting_add_length_le (nodup_deletable [] instances) ?_
      intro id hid
      obtain ⟨-, i, hi, hid, hstays⟩ := exists_of_mem_deletable hid
      exact ⟨i, subset_instances_of_resolve hresolve hi, hid, hstays⟩
    -- So few are submitted that their number is a size.
    have hlt := v.target.toNat_lt
    rw [toNat_clampSize_of_lt (by omega)] at hdiff
    omega

/-- A decrease covers the live instances, whether they were covered before or not. -/
theorem coversLive_of_decrease {delta : UInt32} (h : Planned g v (.decrease delta) change) :
    (change.updateView v).CoversLive := by
  cases h with
  | @decrease _ target hpos hdiff hlive hmin =>
    change v.cache.liveCount ≤ target.toNat
    -- The old target size is a size, so the new one is too small for what does not fit a size.
    have hlt := v.target.toNat_lt
    have hdelta : 0 < delta.toNat := by
      rw [Nat.pos_iff_ne_zero]
      exact fun hzero ↦ hpos (UInt32.toNat_inj.mp hzero)
    rw [toNat_clampSize] at hlive
    omega

end Planned

/-! ## Runs -/

variable {client : Client σ} {g : Group} {s : State} {cloud : σ} {clock : Clock}
  {record : List (Event σ)} {t : Traffic σ}

theorem Run.coversLive (hrun : Run client g (.resting s cloud clock) record t)
    (hstart : ∀ v, s.view = some v → v.CoversLive)
    (hinstalled : ∀ who cache, .installed who cache ∈ record →
      cache.liveCount ≤ cache.capacity.toNat)
    {v : View} (hview : t.cell.state.view = some v) : v.CoversLive := by
  induction hrun generalizing v with
  | refl => exact hstart v hview
  | @tail record event t t' hrun hstep ih =>
    have hviews := ViewStep.of_step (hrun.orderly_of (.resting s cloud clock)) hstep
    replace ih := fun v ↦ ih (v := v) fun who cache hmem ↦
      hinstalled who cache (List.mem_append_right _ hmem)
    generalize t.cell.state.view = before at hviews ih
    generalize t'.cell.state.view = after at hviews hview
    cases hviews with
    | keep hinstallation hcompletion => exact ih v hview
    | install who cache now =>
      obtain rfl := Option.some.inj hview
      exact hinstalled who cache List.mem_cons_self
    | @update v₀ m change who hplanned =>
      obtain rfl := Option.some.inj hview
      exact hplanned.coversLive (ih v₀ rfl)

/-- The target size never falls below the number of live instances by way of mutations. Whatever
the state is from which a run begins, and whatever the cloud answers: if the live instances are
covered in that state and in the views that reloads install, they are covered at any time, be it in
the middle of a mutation or after it ended, well or not. And after a decrease that ended well they
are covered in any case. -/
theorem Run.target_covers_live (hrun : Run client g (.resting s cloud clock) record t) :
    ((∀ v, s.view = some v → v.CoversLive) →
      (∀ who cache, .installed who cache ∈ record → cache.liveCount ≤ cache.capacity.toNat) →
      ∀ v, t.cell.state.view = some v → v.CoversLive)
    ∧ ∀ who delta change earlier, record = .completed who (.decrease delta) change :: earlier →
      ∃ v, t.cell.state.view = some v ∧ v.CoversLive := by
  constructor
  · intro hstart hinstalled v hview
    exact hrun.coversLive hstart hinstalled hview
  · rintro who delta change earlier rfl
    obtain ⟨v, hplanned, hview⟩ := hrun.exists_planned_of_completed (.resting s cloud clock)
    exact ⟨_, hview, hplanned.coversLive_of_decrease⟩

/-- A listing in which two machines have one number, and two one provider ID, which cannot be
read. -/
def doubledListing : List Instance :=
  [{ Memory.record "rg" "pool" 1 .succeeded with providerId := "unreadable" },
    { poolMachine with providerId := "unreadable" }, poolMachine]

def doubledView : View := ⟨.build (.bare "pool" 5) doubledListing, 5, 0⟩

def doubledCloud : Memory :=
  Memory.empty.setHolding "rg" "pool" ⟨.bare "pool" 5, doubledListing⟩

/-- A node on the machine that is listed last. -/
def doubledNode : Node := ⟨"node", poolMachine.providerId⟩

theorem fault?_doubled : (Mutation.delete [doubledNode, doubledNode]).fault? = none := by
  simp [Mutation.fault?, doubledNode, parse?_poolMachine]

theorem plan_doubled_of_concat (d : ScaleSet) (before : List Instance) :
    Mutation.plan pool ⟨some ⟨.build d (before ++ [poolMachine]), 5, 0⟩, 0⟩
        (.delete [doubledNode, doubledNode])
      = .ok (some (.delete ["0"] 4)) := by
  let v : View := ⟨.build d (before ++ [poolMachine]), 5, 0⟩
  have hresolve : pool.resolve v.cache doubledNode = .ok poolMachine.normalized :=
    resolve_build_concat d before parse?_poolMachine ⟨rfl, rfl⟩
      (Instance.key_eq parse?_poolMachine)
  have hids : deletable [] [poolMachine.normalized, poolMachine.normalized] = ["0"] := by
    rw [deletable, if_neg List.not_mem_nil, Instance.state_normalized,
      Instance.instanceId_normalized, deletable, Instance.instanceId_normalized,
      if_pos List.mem_cons_self]
    rfl
  have hinstances : [doubledNode, doubledNode].mapM (pool.resolve v.cache)
      = .ok [poolMachine.normalized, poolMachine.normalized] := by
    rw [List.mapM_cons, hresolve, List.mapM_cons, hresolve, List.mapM_nil]
    rfl
  have htarget : UInt32.ofNat (v.target.toNat - ["0"].length) = 4 := rfl
  have hmin : ["0"].length + pool.minSize.toNat ≤ v.target.toNat := Nat.le_succ 4
  have hplan := planDelete_eq hinstances
  rw [hids, htarget] at hplan
  rw [plan_delete rfl fault?_doubled]
  exact hplan (List.cons_ne_nil _ _) hmin

theorem plan_doubled : Mutation.plan pool ⟨some doubledView, 0⟩ (.delete [doubledNode, doubledNode])
    = .ok (some (.delete ["0"] 4)) :=
  plan_doubled_of_concat (.bare "pool" 5) [_, _]

/-- A deletion of one node that is named twice lowers the target size by one and marks two
instances, so that there is room for a decrease. -/
theorem Run.target_covers_live_of_doubled : ∃ record t v,
    Run Memory.client pool (.resting ⟨some doubledView, 0⟩ doubledCloud .start)
      (.completed 1 (.decrease 1) (.resize 3) :: record) t
    ∧ t.cell.state.view = some v ∧ v.target = 3 ∧ v.cache.liveCount = 1 ∧ v.CoversLive := by
  have hholding : pool.holding? doubledCloud = some ⟨.bare "pool" 5, doubledListing⟩ :=
    Memory.holding?_setHolding _ _ _ _
  have hdeletable : ∀ id ∈ ["0"], Memory.deletionFault? doubledListing "pool" id = none := by
    decide +kernel
  have hstart : Run Memory.client pool (.resting ⟨some doubledView, 0⟩ doubledCloud .start) []
      (.resting ⟨some doubledView, 0⟩ doubledCloud .start) := .refl
  have hdeleted := hstart.mutation_alone (Traffic.isIdle_resting _ _ _ 0) rfl fault?_doubled
    plan_doubled (takesAtOnce_memory rfl rfl rfl)
    (Memory.delete_eq_ok_iff.mpr ⟨_, hholding, hdeletable, rfl⟩)
  have hidle := Traffic.isIdle_resting ⟨some doubledView, 0⟩ doubledCloud .start 1
  have hleft : (doubledView.cache.markDeleting ["0"]).liveCount = 1 :=
    Cache.liveCount_markDeleting_build ["0"] _ doubledListing
  have hdecrease : pool.planDecrease ⟨doubledView.cache.markDeleting ["0"], 4, 0⟩ 1
      = .ok (.resize 3) := by
    rw [planDecrease, hleft]
    rfl
  have hplan : Mutation.plan pool ((Change.delete ["0"] 4).commit ⟨some doubledView, 0⟩)
      (.decrease 1) = .ok (some (.resize 3)) := by
    rw [plan_decrease rfl (by decide)]
    exact congrArg (Except.map some) hdecrease
  have hdecreased := hdeleted.mutation_alone (Traffic.isIdle_stage hidle Nat.one_ne_zero _ _)
    rfl rfl hplan (takesAtOnce_memory rfl rfl rfl)
    (Memory.setCapacity_eq_ok_iff.mpr ⟨_, Memory.holding?_setHolding _ _ _ _, rfl⟩)
  have hbefore : doubledView.CoversLive := by
    have hlive := Cache.liveCount_markDeleting_build [] (.bare "pool" 5) doubledListing
    rw [Cache.markDeleting, markDeleting_nil] at hlive
    exact hlive.trans_le (by decide)
  have hcovers := hdecreased.target_covers_live.1
    (fun v hview ↦ by
      obtain rfl := Option.some.inj hview
      exact hbefore)
    (fun who cache hmem ↦ by simp at hmem)
  let left : View := ⟨doubledView.cache.markDeleting ["0"], 3, 0⟩
  exact ⟨_, _, left, hdecreased, rfl, rfl, hleft, hcovers left rfl⟩

end Group

end NodeGroups
