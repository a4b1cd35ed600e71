import NodeGroups.Proofs.Attempt
import NodeGroups.Proofs.Cover

/-!
# All or nothing

A mutation asks one thing of the cloud at most. If it ends with an error, or with a breakdown of the
client, the group is as the mutation found it, and if it was its own checks that refused it, nothing
was asked of the cloud. If it ends well after a call, it is counted, and nothing has changed but the
target size and, after a deletion, the instances that were submitted.

A resize is asked for exactly if the new size is within the bound that it moves towards and, for a
decrease, leaves room for the live instances. That is so over the integers, although sizes are
counted with 32 bits and the number of live instances is cut to a size.
-/

namespace NodeGroups.Group

variable {σ : Type} {client : Client σ} {g : Group}

/-! ## Outcomes -/

/-- The view after some instances were submitted for deletion, which are on their way out then. -/
def View.withDeleting (v : View) (ids : List String) : View :=
  { v with
    cache.instances := v.cache.instances.map fun i ↦
      if i.instanceId ∈ ids then { i with state := .deleting } else i }

/-- What a mutation that ended well made of the state that it found, by what it asked of the
cloud. -/
inductive Brought (found : State) : List Plea → State → Prop
  | nothing : Brought found [] found
  | resized {v : View} {target : UInt32} (hview : found.view = some v) :
      Brought found [.change (.resize target)] ⟨some { v with target }, found.mutations + 1⟩
  | deleted {v : View} {ids : List String} {target : UInt32} (hview : found.view = some v) :
      Brought found [.change (.delete ids target)]
        ⟨some { v.withDeleting ids with target }, found.mutations + 1⟩

/-- What a mutation left of the state that it found, and what it had asked of the cloud, by the way
in which it ended. -/
structure AllOrNothing (account : Account) (left : State) (ending : Ending) : Prop where
  /-- An error leaves everything as it was. -/
  left_of_error : ∀ e, ending = .answered (.error e) → left = account.found
  /-- What is refused by checks of the group's own is not brought before the cloud. -/
  asked_of_error : ∀ e, ending = .answered (.error e) → (∀ error, e ≠ .cloud error) →
    account.asked = []
  /-- An error of the cloud is what the cloud answered. -/
  answers_of_error : ∀ error, ending = .answered (.error (.cloud error)) →
    account.answers = [.error error]
  /-- If the client breaks down, nothing has come of the call. -/
  broke : ending = .broke → account.asked = [] ∧ left = account.found
  /-- A good end leaves what the cloud accepted, and nothing else. -/
  brought : ∀ finding, ending = .answered (.ok finding) → Brought account.found account.asked left

/-- A resize is asked for exactly if it is allowed in the view that it found, and to the size that
is wanted; and it ends well exactly if the cloud accepts it. A call that the client breaks down on
counts as asked for. -/
structure ResizesIf (allowed : View → Prop) (wanted : View → ℤ) (account : Account)
    (ending : Ending) : Prop where
  asked_iff : (account.asked ≠ [] ∨ ending = .broke)
    ↔ ∃ v, account.found.view = some v ∧ allowed v
  asked : ∀ plea ∈ account.asked, ∃ v target, account.found.view = some v
    ∧ plea = .change (.resize target) ∧ (target.toNat : ℤ) = wanted v
  ok_iff : ending = .answered (.ok .nothing) ↔ account.answers = [.ok ()]

/-! ## Refusals -/

variable {m : Mutation} {s left : State} {account : Account} {ending : Ending}

theorem Mutation.plan_ne_cloud {e : GroupError} (hplan : m.plan g s = .error e)
    (error : CloudError) : e ≠ .cloud error := by
  rintro rfl
  cases refusal_of_plan hplan with
  | argument hkind => cases error <;> cases hkind

/-! ## Resizes -/

theorem plan_ne_none (hresize : ∀ nodes, m ≠ .delete nodes) (s : State) :
    m.plan g s ≠ .ok none := by
  intro hplan
  rw [Mutation.plan] at hplan
  split at hplan
  · cases hplan
  · obtain ⟨v, -, hplan⟩ := bind_eq_ok_iff.mp hplan
    cases m with
    | increase delta =>
      obtain ⟨change, -, hnone⟩ := map_eq_ok_iff.mp hplan
      cases hnone
    | decrease delta =>
      obtain ⟨change, -, hnone⟩ := map_eq_ok_iff.mp hplan
      cases hnone
    | delete nodes => exact hresize nodes rfl

def View.AllowsIncrease (g : Group) (delta : UInt32) (v : View) : Prop :=
  0 < delta ∧ (v.target.toNat : ℤ) + delta.toNat ≤ g.maxSize.toNat

def View.AllowsDecrease (g : Group) (delta : UInt32) (v : View) : Prop :=
  0 < delta ∧ (v.cache.liveCount : ℤ) ≤ v.target.toNat - delta.toNat
    ∧ (g.minSize.toNat : ℤ) ≤ v.target.toNat - delta.toNat

variable {v : View} {delta : UInt32}

theorem exists_plan_increase (hview : s.view = some v) (hallows : v.AllowsIncrease g delta) :
    ∃ change, Mutation.plan g s (.increase delta) = .ok (some change) := by
  obtain ⟨hpos, hmax⟩ := hallows
  have hfault : (Mutation.increase delta).fault? = none := if_neg (UInt32.pos_iff_ne_zero.mp hpos)
  have hle : v.target.toNat + delta.toNat ≤ g.maxSize.toNat := by omega
  refine ⟨.resize (.ofNat (v.target.toNat + delta.toNat)), ?_⟩
  rw [Mutation.plan, hfault, State.requireView, hview]
  exact congrArg (Except.map some) (if_pos hle)

theorem exists_plan_decrease (hview : s.view = some v) (hallows : v.AllowsDecrease g delta) :
    ∃ change, Mutation.plan g s (.decrease delta) = .ok (some change) := by
  obtain ⟨hpos, hlive, hmin⟩ := hallows
  have hcut := toNat_clampSize v.cache.liveCount
  have hdelta : ¬ v.target < delta := by
    rw [UInt32.lt_iff_toNat_lt]
    omega
  refine ⟨.resize (.ofNat (v.target.toNat - delta.toNat)), ?_⟩
  rw [plan_decrease hview (UInt32.pos_iff_ne_zero.mp hpos), planDecrease, if_neg hdelta,
    if_neg (by omega), if_neg (by omega)]
  rfl

theorem allowsIncrease_of_planned {change : Change}
    (hplanned : Planned g v (.increase delta) change) :
    v.AllowsIncrease g delta ∧ ∃ target, change = .resize target
      ∧ (target.toNat : ℤ) = v.target.toNat + delta.toNat := by
  cases hplanned with
  | @increase _ target hpos hsum hmax =>
    have hmax := UInt32.le_iff_toNat_le.mp hmax
    exact ⟨⟨UInt32.pos_iff_ne_zero.mpr hpos, by omega⟩, target, rfl, by omega⟩

/-- What is planned for a decrease was allowed: a target size that would be below the number of live
instances is also below that number cut to a size, since the old one was a size. -/
theorem allowsDecrease_of_planned {change : Change}
    (hplanned : Planned g v (.decrease delta) change) :
    v.AllowsDecrease g delta ∧ ∃ target, change = .resize target
      ∧ (target.toNat : ℤ) = v.target.toNat - delta.toNat := by
  cases hplanned with
  | @decrease _ target hpos hdiff hlive hmin =>
    have hmin := UInt32.le_iff_toNat_le.mp hmin
    have hlt := v.target.toNat_lt
    have hpos := UInt32.pos_iff_ne_zero.mpr hpos
    have hdelta : 0 < delta.toNat := UInt32.lt_iff_toNat_lt.mp hpos
    rw [toNat_clampSize] at hlive
    exact ⟨⟨hpos, by omega, by omega⟩, target, rfl, by omega⟩

/-! ## Conclusions -/

theorem Underway.length_asked_le {activity : Activity} (h : Underway g m s account activity) :
    account.asked.length ≤ 1 := by
  cases h with
  | started => exact Nat.zero_le 1
  | queued => exact Nat.zero_le 1
  | changing hplan => exact Nat.le_refl 1
  | accepted hplan => exact Nat.le_refl 1
  | ended hconcluded =>
    cases hconcluded with
    | refused hplan => exact Nat.zero_le 1
    | needless hplan => exact Nat.zero_le 1
    | broke hplan => exact Nat.zero_le 1
    | rejected hplan => exact Nat.le_refl 1
    | completed hplan => exact Nat.le_refl 1

namespace Concluded

theorem allOrNothing (h : Concluded g m account left ending) :
    AllOrNothing account left ending := by
  cases h with
  | @refused s e hplan =>
    refine ⟨fun _ _ ↦ rfl, fun _ _ _ ↦ rfl, ?_, nofun, nofun⟩
    rintro error ⟨⟩
    exact absurd rfl (Mutation.plan_ne_cloud hplan error)
  | needless hplan => exact ⟨nofun, nofun, nofun, nofun, fun _ _ ↦ .nothing⟩
  | broke hplan => exact ⟨nofun, nofun, nofun, fun _ ↦ ⟨rfl, rfl⟩, nofun⟩
  | @rejected s change error hplan =>
    refine ⟨fun _ _ ↦ rfl, ?_, ?_, nofun, nofun⟩
    · rintro e ⟨⟩ howned
      exact absurd rfl (howned error)
    · rintro error ⟨⟩
      rfl
  | @completed s change hplan =>
    obtain ⟨v, hview, -⟩ := planned_of_plan hplan
    refine ⟨nofun, nofun, nofun, nofun, fun _ _ ↦ ?_⟩
    rw [Change.commit, hview]
    cases change with
    | resize target => exact .resized hview
    | delete ids target => exact .deleted hview

/-- The resizes of a kind are asked for as they are allowed and wanted, if whatever is allowed is
planned, and whatever is planned is allowed and wanted. -/
theorem resizesIf {allowed : View → Prop} {wanted : View → ℤ}
    (h : Concluded g m account left ending) (hresize : ∀ nodes, m ≠ .delete nodes)
    (hplanned : ∀ {v change}, Planned g v m change → allowed v ∧ ∃ target, change = .resize target
      ∧ (target.toNat : ℤ) = wanted v)
    (hexists : ∀ {s v}, State.view s = some v → allowed v →
      ∃ change, m.plan g s = .ok (some change)) :
    ResizesIf allowed wanted account ending := by
  have hasked : ∀ {s change}, m.plan g s = .ok (some change) → (∃ v, s.view = some v ∧ allowed v)
      ∧ ∃ v target, s.view = some v ∧ change = .resize target ∧ (target.toNat : ℤ) = wanted v := by
    intro s change hplan
    obtain ⟨v, hview, hchange⟩ := planned_of_plan hplan
    obtain ⟨hallowed, target, heq, hwanted⟩ := hplanned hchange
    exact ⟨⟨v, hview, hallowed⟩, v, target, hview, heq, hwanted⟩
  cases h with
  | @refused s e hplan =>
    refine ⟨⟨?_, ?_⟩, nofun, ⟨nofun, nofun⟩⟩
    · rintro (hsome | hbroke)
      · exact absurd rfl hsome
      · cases hbroke
    · rintro ⟨v, hview, hallowed⟩
      obtain ⟨change, hplan'⟩ := hexists hview hallowed
      rw [hplan] at hplan'
      cases hplan'
  | needless hplan => exact absurd hplan (plan_ne_none hresize _)
  | broke hplan =>
    exact ⟨⟨fun _ ↦ (hasked hplan).1, fun _ ↦ .inr rfl⟩, nofun, ⟨nofun, nofun⟩⟩
  | rejected hplan =>
    obtain ⟨hallowed, v, target, hview, rfl, hwanted⟩ := hasked hplan
    refine ⟨⟨fun _ ↦ hallowed, fun _ ↦ .inl (List.cons_ne_nil _ _)⟩, ?_, ⟨nofun, nofun⟩⟩
    intro plea hplea
    exact ⟨v, target, hview, List.mem_singleton.mp hplea, hwanted⟩
  | completed hplan =>
    obtain ⟨hallowed, v, target, hview, rfl, hwanted⟩ := hasked hplan
    refine ⟨⟨fun _ ↦ hallowed, fun _ ↦ .inl (List.cons_ne_nil _ _)⟩, ?_, fun _ ↦ rfl, fun _ ↦ rfl⟩
    intro plea hplea
    exact ⟨v, target, hview, List.mem_singleton.mp hplea, hwanted⟩

end Concluded

/-- Mutations are atomic. In whatever state a mutation finds the group, whatever others do meanwhile
and whatever the cloud answers: it asks the cloud for one change at most, as the run bears out, and
leaves all or nothing of it. An increase is asked for exactly if it keeps to the greatest size, and
a decrease exactly if it keeps to the least size and to the number of live instances; each ends well
exactly if the cloud accepts it. And a mutation that finds the lock free does come to an end, unless
it waits for an answer that never comes. -/
theorem Mutation.all_or_nothing (client : Client σ) (g : Group) (m : Mutation) (who : Nat)
    {start : Traffic σ} (hstart : Orderly g start) :
    (start.IsIdle who → start.cell.lock = .free → ComesToEnd client g who m start)
    ∧ ∀ record account t, Attempt client g who m start record account t →
      account.asked.length ≤ 1 ∧ account.IsBorneOut client g start record
      ∧ ∀ ending, t.jobs who = some ⟨.mutate m, .ended ending⟩ →
        AllOrNothing account t.cell.state ending
        ∧ (∀ delta, m = .increase delta → ResizesIf (View.AllowsIncrease g delta)
            (fun v ↦ v.target.toNat + delta.toNat) account ending)
        ∧ ∀ delta, m = .decrease delta → ResizesIf (View.AllowsDecrease g delta)
            (fun v ↦ v.target.toNat - delta.toNat) account ending := by
  refine ⟨Attempt.comesToEnd client m hstart, fun record account t hattempt ↦
    ⟨?_, hattempt.isBorneOut, ?_⟩⟩
  · obtain ⟨activity, -, hunderway⟩ := hattempt.exists_underway hstart
    exact hunderway.length_asked_le
  · intro ending hended
    have hconcluded := hattempt.concluded hstart hended
    refine ⟨hconcluded.allOrNothing, ?_, ?_⟩
    · rintro delta rfl
      exact hconcluded.resizesIf nofun allowsIncrease_of_planned exists_plan_increase
    · rintro delta rfl
      exact hconcluded.resizesIf nofun allowsDecrease_of_planned exists_plan_decrease

/-- A decrease to the least size, which is also the number of the live instances. -/
theorem Mutation.all_or_nothing_of_doubled : ∃ record account t,
    Attempt Memory.client pool 0 (.decrease 2) (.resting ⟨some doubledView, 0⟩ doubledCloud .start)
      record account t
    ∧ t.jobs 0 = some ⟨.mutate (.decrease 2), .ended (.answered (.ok .nothing))⟩
    ∧ account.asked = [.change (.resize 3)]
    ∧ t.cell.state = ⟨some { doubledView with target := 3 }, 1⟩
    ∧ Brought account.found account.asked t.cell.state
    ∧ ∃ v, account.found.view = some v ∧ v.AllowsDecrease pool 2 := by
  have hholding : pool.holding? doubledCloud = some ⟨.bare "pool" 5, doubledListing⟩ :=
    Memory.holding?_setHolding _ _ _ _
  have hlive : doubledView.cache.liveCount = 3 := by
    have hcount := Cache.liveCount_markDeleting_build [] (.bare "pool" 5) doubledListing
    rw [Cache.markDeleting, markDeleting_nil] at hcount
    exact hcount
  have hplan : Mutation.plan pool ⟨some doubledView, 0⟩ (.decrease 2) = .ok (some (.resize 3)) := by
    rw [plan_decrease rfl (by decide), planDecrease, hlive]
    rfl
  have hidle := Traffic.isIdle_resting ⟨some doubledView, 0⟩ doubledCloud .start 0
  have hattempt := Attempt.alone hidle rfl rfl hplan (takesAtOnce_memory rfl rfl rfl)
    (Memory.setCapacity_eq_ok_iff.mpr ⟨_, hholding, rfl⟩)
  obtain ⟨-, -, hended⟩ := (all_or_nothing Memory.client pool (.decrease 2) 0
    (.resting ⟨some doubledView, 0⟩ doubledCloud .start)).2 _ _ _ hattempt
  obtain ⟨hall, -, hresizes⟩ := hended (.answered (.ok .nothing)) rfl
  exact ⟨_, _, _, hattempt, rfl, rfl, rfl, hall.brought _ rfl,
    (hresizes 2 rfl).asked_iff.mp (.inl (List.cons_ne_nil _ _))⟩

end NodeGroups.Group
