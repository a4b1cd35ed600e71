import NodeGroups.Proofs.Alone
import NodeGroups.Proofs.History
import NodeGroups.Proofs.Memory
import NodeGroups.Proofs.Play

/-!
# Bounds on the target size

A mutation checks the bound that it moves towards: an increase the greatest size, a decrease and a
deletion the least. A reload checks neither. It takes the capacity as it is in the cloud, for the
group is to know how things are, whatever they are. So the target size can be out of bounds, also
after a mutation, if the capacity was. It is not further out than that, since a mutation that moves
away from a bound does not cross it.
-/

namespace NodeGroups.Group

variable {σ : Type} {client : Client σ} {g : Group}

/-- A target size that is out of bounds no further than a capacity is. -/
structure Bounded (g : Group) (capacity target : UInt32) : Prop where
  lower : min capacity.toNat g.minSize.toNat ≤ target.toNat
  upper : target.toNat ≤ max capacity.toNat g.maxSize.toNat

/-- The bound that a mutation moves towards, as a condition on the target size. -/
def Mutation.Keeps (g : Group) (target : UInt32) : Mutation → Prop
  | .increase _ => target ≤ g.maxSize
  | .decrease _ | .delete _ => g.minSize ≤ target

/-- A mutation asks for a target size beyond the bound that it moves towards. -/
def Mutation.Exceeds (g : Group) (v : View) : Mutation → Prop
  | .increase delta => g.maxSize.toNat < v.target.toNat + delta.toNat
  | .decrease delta => v.target.toNat < delta.toNat + g.minSize.toNat
  | .delete nodes => ∃ instances, nodes.mapM (g.resolve v.cache) = .ok instances
    ∧ deletable [] instances ≠ []
    ∧ v.target.toNat < (clampSize (deletable [] instances).length).toNat + g.minSize.toNat

/-! ## Plans -/

variable {v : View} {m : Mutation} {change : Change}

theorem Planned.keeps (hplanned : Planned g v m change) : m.Keeps g change.target := by
  cases hplanned with
  | increase hpos hsum hmax => exact hmax
  | decrease hpos hdiff hlive hmin => exact hmin
  | delete hresolve hsome hdiff hmin => exact hmin

theorem Bounded.installed (capacity : UInt32) : Bounded g capacity capacity :=
  ⟨Nat.min_le_left _ _, Nat.le_max_left _ _⟩

theorem Bounded.update {capacity : UInt32} (h : Bounded g capacity v.target)
    (hplanned : Planned g v m change) : Bounded g capacity change.target := by
  obtain ⟨hlower, hupper⟩ := h
  cases hplanned with
  | increase hpos hsum hmax =>
    have hmax := UInt32.le_iff_toNat_le.mp hmax
    constructor <;> rw [Change.target] <;> omega
  | decrease hpos hdiff hlive hmin =>
    have hmin := UInt32.le_iff_toNat_le.mp hmin
    constructor <;> rw [Change.target] <;> omega
  | delete hresolve hsome hdiff hmin =>
    have hmin := UInt32.le_iff_toNat_le.mp hmin
    constructor <;> rw [Change.target] <;> omega

theorem exists_planDecrease_error {delta : UInt32}
    (hexceeds : (Mutation.decrease delta).Exceeds g v) :
    ∃ e, g.planDecrease v delta = .error e ∧ e.kind = .invalidArgument := by
  rw [planDecrease]
  split
  · exact ⟨_, rfl, rfl⟩
  · next hle =>
    -- More instances may live than would be left over; that, too, is a matter of the argument.
    have hlt : v.target.toNat - delta.toNat < g.minSize.toNat := by
      have hle := UInt32.le_iff_toNat_le.mp (UInt32.not_lt.mp hle)
      rw [Mutation.Exceeds] at hexceeds
      omega
    dsimp only
    rw [if_pos hlt]
    split
    · exact ⟨_, rfl, rfl⟩
    · exact ⟨_, rfl, rfl⟩

/-- A mutation that goes beyond the bound that it moves towards is refused for its argument. -/
theorem Mutation.exists_plan_error {s : State} (hview : s.view = some v)
    (hexceeds : m.Exceeds g v) : ∃ e, m.plan g s = .error e ∧ e.kind = .invalidArgument := by
  have hrequire : s.requireView g = .ok v := by rw [State.requireView, hview]
  rw [Mutation.plan]
  split
  · next e hfault => exact ⟨e, rfl, kind_of_fault? hfault⟩
  · rw [hrequire]
    cases m with
    | increase delta =>
      have hplan : g.planIncrease v delta
          = .error (.increaseTooLarge (v.target.toNat + delta.toNat) g.maxSize) :=
        if_neg (Nat.not_le.mpr hexceeds)
      exact ⟨_, congrArg (Except.map some) hplan, rfl⟩
    | decrease delta =>
      obtain ⟨e, hplan, hkind⟩ := exists_planDecrease_error hexceeds
      exact ⟨e, congrArg (Except.map some) hplan, hkind⟩
    | delete nodes =>
      obtain ⟨instances, hresolve, hsome, hlt⟩ := hexceeds
      refine ⟨.deletionBelowMinSize (clampSize (deletable [] instances).length).toNat g.name
        g.minSize v.target, ?_, rfl⟩
      change g.planDelete v nodes = _
      rw [planDelete, hresolve]
      exact (if_neg hsome).trans (if_pos hlt)

/-! ## Runs -/

variable {cloud : σ} {clock : Clock} {record : List (Event σ)} {t : Traffic σ}

/-- The target size is out of bounds no further than the capacity that was installed last. -/
theorem Run.bounded (hrun : Run client g (.initial cloud clock) record t)
    (hview : t.cell.state.view = some v) :
    ∃ cache later, LastInstalled cache later record ∧ Bounded g cache.capacity v.target := by
  refine hrun.view_history (p := fun cache _ v ↦ Bounded g cache.capacity v.target)
    (fun cache _ ↦ .installed cache.capacity) (fun _ _ _ _ _ h ↦ h) ?_ hview
  intro cache later v who m change hplanned h
  rw [Change.target_updateView]
  exact h.update hplanned

theorem Run.exists_planned_of_completed {start : Traffic σ} {who : Nat}
    (hrun : Run client g start (.completed who m change :: record) t) (hstart : Orderly g start) :
    ∃ v, Planned g v m change ∧ t.cell.state.view = some (change.updateView v) := by
  generalize hrecord : Event.completed who m change :: record = record' at hrun
  induction hrun with
  | refl => cases hrecord
  | @tail earlier event t t' hrun hstep ih =>
    -- What came after the completion left no record, so it left the view alone.
    have hviews := ViewStep.of_step (hrun.orderly_of hstart) hstep
    generalize t.cell.state.view = before at hviews ih
    generalize t'.cell.state.view = after at hviews
    cases hviews with
    | @keep _ event _ hcompletion =>
      cases event with
      | none => exact ih hrecord
      | some e =>
        obtain ⟨rfl, -⟩ := List.cons.inj hrecord
        have hnone := hcompletion _ rfl
        cases hnone
    | install who' cache now => cases hrecord
    | @update v m' change' who' hplanned =>
      obtain ⟨hevent, -⟩ := List.cons.inj hrecord
      cases hevent
      exact ⟨v, hplanned, rfl⟩

theorem step_of_exceeds {who order : Nat} {s : Scene σ}
    (hactivity : s.activity = .queued (.mutate m))
    (hheld : s.cell.lock.isHeldBy who = true) (hview : s.cell.state.view = some v)
    (hexceeds : m.Exceeds g v) :
    ∃ e, e.kind = .invalidArgument ∧ s.step client g who clock order
      = some ⟨.refuse e, s.cell.withdraw who, s.cloud⟩ := by
  obtain ⟨e, hplan, hkind⟩ := Mutation.exists_plan_error hview hexceeds
  refine ⟨e, hkind, ?_⟩
  rw [Scene.step, hactivity]
  dsimp only
  rw [if_pos hheld, Scene.fulfil, hplan]
  rfl

/-- The bounds of a group. After a mutation the target size keeps the bound that the mutation moved
towards, and it is never further out of bounds than the capacity that was installed last. What would
go beyond the bound that it moves towards is refused for its argument, without a call. -/
theorem Run.bounds (hrun : Run client g (.initial cloud clock) record t) :
    (∀ v, t.cell.state.view = some v →
      ∃ cache later, LastInstalled cache later record ∧ Bounded g cache.capacity v.target)
    ∧ (∀ who m change earlier, record = .completed who m change :: earlier →
      ∃ v, t.cell.state.view = some v ∧ m.Keeps g v.target)
    ∧ ∀ who job m v order, t.jobs who = some job → job.activity = .queued (.mutate m) →
      t.cell.lock.isHeldBy who = true → t.cell.state.view = some v → m.Exceeds g v →
      ∃ e, e.kind = .invalidArgument
        ∧ Scene.step client g who t.clock order ⟨job.activity, t.cell, t.cloud⟩
          = some ⟨.refuse e, t.cell.withdraw who, t.cloud⟩ := by
  refine ⟨fun v hview ↦ hrun.bounded hview, ?_, ?_⟩
  · rintro who m change earlier rfl
    obtain ⟨v, hplanned, hview⟩ := hrun.exists_planned_of_completed (.initial cloud clock)
    refine ⟨_, hview, ?_⟩
    rw [Change.target_updateView]
    exact hplanned.keeps
  · intro who job m v order _ hactivity hheld hview hexceeds
    exact step_of_exceeds (s := ⟨job.activity, t.cell, t.cloud⟩) hactivity hheld hview hexceeds

theorem exists_increase_of_one : ∃ record t v,
    Run Memory.client pool (.initial (cloudOf 1) .start)
      (.completed 1 (.increase 1) (.resize 2) :: record) t
    ∧ t.cell.state.view = some v ∧ v.target = 2 := by
  have hholding : pool.holding? (cloudOf 1)
      = some ⟨.bare "pool" 1, [Memory.record "rg" "pool" 0 .succeeded]⟩ := by decide +kernel
  have hstart : Run Memory.client pool (.initial (cloudOf 1) .start) []
      (.initial (cloudOf 1) .start) := .refl
  have hreloaded := hstart.reload_alone (Traffic.isIdle_initial _ _ 0) rfl
    (takesAtOnce_memory rfl rfl rfl) (Memory.describe_eq_ok_iff.mpr ⟨_, hholding, rfl⟩)
    (takesAtOnce_memory rfl rfl rfl) (Memory.list_eq_ok_iff.mpr ⟨_, hholding, rfl⟩)
  have hincreased := hreloaded.mutation_alone (m := .increase 1)
    (Traffic.isIdle_put _ (Traffic.isIdle_initial _ _ 1) (by decide)) rfl rfl rfl
    (takesAtOnce_memory rfl rfl rfl) (Memory.setCapacity_eq_ok_iff.mpr ⟨_, hholding, rfl⟩)
  exact ⟨_, _, _, hincreased, rfl, rfl⟩

/-- The bounds that are kept by the increase. -/
theorem Run.bounds_of_one : ∃ record t v cache later,
    Run Memory.client pool (.initial (cloudOf 1) .start)
      (.completed 1 (.increase 1) (.resize 2) :: record) t
    ∧ t.cell.state.view = some v ∧ v.target = 2 ∧ (Mutation.increase 1).Keeps pool v.target
    ∧ LastInstalled cache later (.completed 1 (.increase 1) (.resize 2) :: record)
    ∧ Bounded pool cache.capacity v.target := by
  obtain ⟨record, t, v, hrun, hview, htarget⟩ := exists_increase_of_one
  obtain ⟨hbounded, hcompleted, -⟩ := hrun.bounds
  obtain ⟨cache, later, hlast, hbounded⟩ := hbounded v hview
  obtain ⟨v', hview', hkeeps⟩ := hcompleted 1 (.increase 1) (.resize 2) record rfl
  obtain rfl : v = v' := Option.some.inj (hview.symm.trans hview')
  exact ⟨record, t, v, cache, later, hrun, hview, htarget, hkeeps, hlast, hbounded⟩

/-- A mutation that ends well can leave the target size below the least size. -/
theorem exists_completed_below_min : ∃ record t v,
    Run Memory.client pool (.initial (cloudOf 1) .start)
      (.completed 1 (.increase 1) (.resize 2) :: record) t
    ∧ t.cell.state.view = some v ∧ v.target < pool.minSize := by
  obtain ⟨record, t, v, hrun, hview, htarget⟩ := exists_increase_of_one
  exact ⟨record, t, v, hrun, hview, by rw [htarget]; decide⟩

end NodeGroups.Group
