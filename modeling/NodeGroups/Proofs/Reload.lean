import NodeGroups.Proofs.Manner
import NodeGroups.Simulation.World

/-!
# A reload on its own

What a reload found when it started settles how it ends, if nothing else acts on its group and its
scale set: the view that it installs or the error that it ends with, and the moment. While it is
under way it is in one of six phases, each of which says how far it is and what it has left as it
was. A step takes it from one phase to the next, time passes only while it waits for the cloud, and
if its time limit is over while it waits, the limit is what it was bound to end with.
-/

namespace NodeGroups.Simulation

variable {σ : Type} {client : Client σ}

/-- A reload with a time limit, and what it found when it started. -/
structure Reload where
  who : Nat
  handle : Handle
  limit : Duration
  moment : Nat
  /-- The state of the group. -/
  before : Group.State
  /-- The manner of the cloud towards the group. -/
  manner : Manner

namespace Reload

/-- How a reload is bound to end: with a view after a number of milliseconds, or with an error. -/
def outcome (r : Reload) : Except GroupError (Cache × Nat) :=
  r.manner.outcome r.handle.group r.limit

def result (r : Reload) : Result :=
  match r.outcome with
  | .ok _ => .ok .nothing
  | .error e => .error (.group e)

/-- The state in which a reload is bound to leave the group. Without a view from the cloud, it is
the state that it was in before. -/
def after (r : Reload) : Group.State :=
  match r.outcome with
  | .ok (cache, spent) => { r.before with view := some ⟨cache, cache.capacity, r.moment + spent⟩ }
  | .error _ => r.before

variable {r : Reload}

theorem result_of_ok {view : Cache × Nat} (houtcome : r.outcome = .ok view) :
    r.result = .ok .nothing := by
  rw [result, houtcome]

theorem result_of_error {e : GroupError} (houtcome : r.outcome = .error e) :
    r.result = .error (.group e) := by
  rw [result, houtcome]

theorem after_of_ok {cache : Cache} {spent : Nat} (houtcome : r.outcome = .ok (cache, spent)) :
    r.after = { r.before with view := some ⟨cache, cache.capacity, r.moment + spent⟩ } := by
  rw [after, houtcome]

theorem after_of_error {e : GroupError} (houtcome : r.outcome = .error e) :
    r.after = r.before := by
  rw [after, houtcome]

/-! ## Phases -/

/-- How far a reload is: what it does, how it has left the cell of the group, and what it still
knows about the manner of the cloud. -/
inductive Phase (r : Reload) (now : Nat) : Manner → Group.Activity → Group.Cell → Prop
  | started (hnow : now = r.moment) :
      Phase r now r.manner (.started .reload) ⟨r.before, .free⟩
  | describing {m receipt pending} (hmanner : m = { r.manner with described := m.described })
      (hreceipt : r.manner.described = some receipt)
      (hsent : pending.IsSent receipt r.moment now) :
      Phase r now m (.describing (some r.before.mutations) pending) ⟨r.before, .free⟩
  | listing {m receipt pending description spent} (hlisting : m.listing = r.manner.listing)
      (hdescription : Manner.await r.handle.group r.limit 0 r.manner.described
        r.manner.description = .ok (description, spent))
      (hreceipt : r.manner.listed = some receipt)
      (hsent : pending.IsSent receipt (r.moment + spent) now) :
      Phase r now m (.listing r.before.mutations description pending) ⟨r.before, .free⟩
  | fetched {m cache spent} (houtcome : r.outcome = .ok (cache, spent))
      (hnow : now = r.moment + spent) :
      Phase r now m (.fetched r.before.mutations cache) ⟨r.before, .free⟩
  | queued {m cache spent} (houtcome : r.outcome = .ok (cache, spent))
      (hnow : now = r.moment + spent) :
      Phase r now m (.queued (.install r.before.mutations cache))
        ⟨r.before, ⟨[(r.who, .exclusive)], []⟩⟩
  | ended {m ending} (hresult : World.resultOf ending = r.result) :
      Phase r now m (.ended ending) ⟨r.after, .free⟩

theorem withdraw_free (who : Nat) (s : Group.State) :
    Group.Cell.withdraw who ⟨s, .free⟩ = ⟨s, .free⟩ := rfl

theorem isHeldBy_sole (who : Nat) : Lock.isHeldBy who ⟨[(who, .exclusive)], []⟩ = true := by
  simp [Lock.isHeldBy]

theorem Phase.of_error {now : Nat} {m : Manner} {e : GroupError} {ending : Group.Ending}
    (houtcome : r.outcome = .error e) (hending : World.resultOf ending = .error (.group e)) :
    Phase r now m (.ended ending) ⟨r.before, .free⟩ := by
  rw [← after_of_error houtcome]
  exact .ended (hending.trans (result_of_error houtcome).symm)

/-! ## Steps -/

section

variable {g : Group} {who order : Nat} {clock : Clock} {call : Call}

theorem send_of_none (s : Group.Scene σ) (next : Pending → Group.Activity)
    (hnone : (client.submit call g.resourceGroup g.name s.cloud).map Prod.fst = none) :
    s.send client g who clock order call next = s.leaveFor who (.ended .broke) := by
  rw [Group.Scene.send, Option.map_eq_none_iff.mp hnone]

theorem send_of_some {receipt : Receipt} (s : Group.Scene σ) (next : Pending → Group.Activity)
    (hsome : (client.submit call g.resourceGroup g.name s.cloud).map Prod.fst = some receipt) :
    ∃ cloud, Group.Sent client g call s.cloud cloud
      ∧ s.send client g who clock order call next
        = ⟨next (.ofReceipt receipt clock order), s.cell, cloud⟩ := by
  obtain ⟨⟨receipt', cloud⟩, hsubmit, rfl⟩ := Option.map_eq_some_iff.mp hsome
  refine ⟨cloud, ⟨receipt', hsubmit⟩, ?_⟩
  rw [Group.Scene.send, hsubmit]

end

/-- The cloud is as it was, or it took a call for a description or a listing of a group. -/
def Asked (client : Client σ) (g : Group) (cloud cloud' : σ) : Prop :=
  cloud' = cloud ∨ ∃ call ∈ [Call.describe, .list], Group.Sent client g call cloud cloud'

section

variable {groups : List Group} {order : Nat} {clock : Clock} {cloud : σ} {scene : Group.Scene σ}

theorem phase_of_start (hdiscreet : client.Discreet groups) (hgroup : r.handle.group ∈ groups)
    (hmanner : client.manner r.handle.group cloud = r.manner) (hnow : clock.now = r.moment)
    (hscene : Group.Scene.send client r.handle.group r.who clock order .describe
      (.describing (some r.before.mutations)) ⟨.started .reload, ⟨r.before, .free⟩, cloud⟩
        = scene) :
    r.Phase clock.now (client.manner r.handle.group scene.cloud) scene.activity scene.cell
      ∧ Asked client r.handle.group cloud scene.cloud := by
  have hdescribed : (client.submit .describe r.handle.group.resourceGroup r.handle.group.name
      cloud).map Prod.fst = r.manner.described := by
    rw [← hmanner]
    rfl
  cases hreceipt : r.manner.described with
  | none =>
    obtain rfl := (send_of_none _ _ (hdescribed.trans hreceipt)).symm.trans hscene
    refine ⟨.of_error (e := .brokeDown) (Manner.outcome_of_description ?_) rfl, .inl rfl⟩
    rw [hreceipt]
    rfl
  | some receipt =>
    obtain ⟨cloud', hsent, heq⟩ := send_of_some ⟨.started .reload, ⟨r.before, .free⟩, cloud⟩
      (.describing (some r.before.mutations)) (hdescribed.trans hreceipt)
    obtain rfl := heq.symm.trans hscene
    refine ⟨.describing ?_ hreceipt ?_, .inr ⟨.describe, .head _, hsent⟩⟩
    · rw [← hmanner]
      exact hdiscreet.describe hgroup hsent
    · rw [← hnow]
      exact .ofReceipt receipt clock order

theorem phase_of_description (hdiscreet : client.Discreet groups)
    (hgroup : r.handle.group ∈ groups) {receipt : Receipt} {pending : Pending}
    (hmanner : client.manner r.handle.group cloud
      = { r.manner with described := (client.manner r.handle.group cloud).described })
    (hreceipt : r.manner.described = some receipt)
    (hsent : pending.IsSent receipt r.moment clock.now) {ms : Nat}
    (hms : receipt.latency.ms? = some ms) (hnow : clock.now = r.moment + ms)
    (htime : ms ≤ r.limit.ms)
    (hscene : Group.Scene.finishDescription client r.handle.group r.who clock order
      ⟨.describing (some r.before.mutations) pending, ⟨r.before, .free⟩, cloud⟩
      (some r.before.mutations) pending = scene) :
    r.Phase clock.now (client.manner r.handle.group scene.cloud) scene.activity scene.cell
      ∧ Asked client r.handle.group cloud scene.cloud := by
  have hanswer : client.describe r.handle.group.resourceGroup r.handle.group.name cloud
      = r.manner.description := congrArg Manner.description hmanner
  have hlisted : (client.submit .list r.handle.group.resourceGroup r.handle.group.name
      cloud).map Prod.fst = r.manner.listed := congrArg Manner.listed hmanner
  have hawait : Manner.await r.handle.group r.limit 0 r.manner.described r.manner.description
      = ((receipt.settle r.manner.description).mapError .cloud).map
        fun d ↦ (d, 0 + ms) := by
    rw [hreceipt]
    exact Manner.await_of_le hms (by rwa [Nat.zero_add])
  unfold Group.Scene.finishDescription at hscene
  rw [hsent.outcome_eq, hanswer] at hscene
  cases hsettle : receipt.settle r.manner.description with
  | error e =>
    rw [hsettle] at hawait hscene
    subst hscene
    exact ⟨.of_error (Manner.outcome_of_description hawait) rfl, .inl rfl⟩
  | ok d =>
    rw [hsettle] at hawait hscene
    cases hnext : r.manner.listed with
    | none =>
      obtain rfl := (send_of_none _ _ (hlisted.trans hnext)).symm.trans hscene
      refine ⟨.of_error (e := .brokeDown) ?_ rfl, .inl rfl⟩
      rw [outcome, Manner.outcome_of_listing hawait, hnext]
      rfl
    | some receipt' =>
      obtain ⟨cloud', hsent', heq⟩ := send_of_some
        ⟨.describing (some r.before.mutations) pending, ⟨r.before, .free⟩, cloud⟩
        (.listing r.before.mutations d) (hlisted.trans hnext)
      obtain rfl := heq.symm.trans hscene
      refine ⟨.listing ?_ hawait hnext ?_, .inr ⟨.list, .tail _ (.head _), hsent'⟩⟩
      · rw [hdiscreet.list hgroup hsent', hmanner]
      · rw [Nat.zero_add, ← hnow]
        exact .ofReceipt receipt' clock order

theorem phase_of_listing {receipt : Receipt} {pending : Pending} {description : ScaleSet}
    {spent : Nat} (hlisting : (client.manner r.handle.group cloud).listing = r.manner.listing)
    (hdescription : Manner.await r.handle.group r.limit 0 r.manner.described
      r.manner.description = .ok (description, spent))
    (hreceipt : r.manner.listed = some receipt)
    (hsent : pending.IsSent receipt (r.moment + spent) clock.now) {ms : Nat}
    (hms : receipt.latency.ms? = some ms) (hnow : clock.now = r.moment + spent + ms)
    (htime : spent + ms ≤ r.limit.ms)
    (hscene : Group.Scene.finishListing client r.handle.group
      ⟨.listing r.before.mutations description pending, ⟨r.before, .free⟩, cloud⟩
      r.before.mutations description pending = scene) :
    r.Phase clock.now (client.manner r.handle.group scene.cloud) scene.activity scene.cell
      ∧ Asked client r.handle.group cloud scene.cloud := by
  have hanswer : client.list r.handle.group.resourceGroup r.handle.group.name cloud
      = r.manner.listing := hlisting
  have houtcome : r.outcome = (((receipt.settle r.manner.listing).mapError .cloud).map
      fun l ↦ (l, spent + ms)).map fun l ↦ (.build description l.1, l.2) := by
    rw [outcome, Manner.outcome_of_listing hdescription, hreceipt, Manner.await_of_le hms htime]
  rw [Group.Scene.finishListing, hsent.outcome_eq, hanswer] at hscene
  cases hsettle : receipt.settle r.manner.listing with
  | error e =>
    rw [hsettle] at houtcome hscene
    subst hscene
    exact ⟨.of_error houtcome rfl, .inl rfl⟩
  | ok listing =>
    rw [hsettle] at houtcome hscene
    subst hscene
    exact ⟨.fetched houtcome (by rw [hnow, Nat.add_assoc]), .inl rfl⟩

/-- A step takes a reload from one phase to the next. -/
theorem Phase.step {activity : Group.Activity} {cell : Group.Cell}
    (h : r.Phase clock.now (client.manner r.handle.group cloud) activity cell)
    (hdiscreet : client.Discreet groups) (hgroup : r.handle.group ∈ groups)
    (hrung : clock.rung ≤ clock.now) (htime : clock.now ≤ r.moment + r.limit.ms)
    (hstep : Group.Scene.step client r.handle.group r.who clock order ⟨activity, cell, cloud⟩
      = some scene) :
    r.Phase clock.now (client.manner r.handle.group scene.cloud) scene.activity scene.cell
      ∧ Asked client r.handle.group cloud scene.cloud := by
  -- The manner is an index of the phase, so the cases need a variable for it.
  generalize hm : client.manner r.handle.group cloud = m at h
  cases h with
  | started hnow => exact phase_of_start hdiscreet hgroup hm hnow (Option.some.inj hstep)
  | describing hmanner hreceipt hsent =>
    obtain ⟨hover, hscene⟩ := Option.ite_none_right_eq_some.mp hstep
    obtain ⟨ms, hms, hnow⟩ := hsent.now_eq hrung hover
    subst hm
    exact phase_of_description hdiscreet hgroup hmanner hreceipt hsent hms hnow (by omega)
      (Option.some.inj hscene)
  | listing hlisting hdescription hreceipt hsent =>
    obtain ⟨hover, hscene⟩ := Option.ite_none_right_eq_some.mp hstep
    obtain ⟨ms, hms, hnow⟩ := hsent.now_eq hrung hover
    subst hm
    exact phase_of_listing hlisting hdescription hreceipt hsent hms hnow (by omega)
      (Option.some.inj hscene)
  | fetched houtcome hnow =>
    obtain rfl := Option.some.inj hstep
    exact ⟨.queued houtcome hnow, .inl rfl⟩
  | @queued _ cache spent houtcome hnow =>
    obtain ⟨-, hscene⟩ := Option.ite_none_right_eq_some.mp hstep
    obtain rfl := Option.some.inj hscene
    refine ⟨?_, .inl rfl⟩
    -- No mutation came between, so the view is installed, and the lock is free again.
    have hcell : (⟨r.after, .free⟩ : Group.Cell) = Group.Cell.withdraw r.who
        ⟨r.before.install r.before.mutations cache clock.now, ⟨[(r.who, .exclusive)], []⟩⟩ := by
      rw [Group.State.install_of_eq rfl, after_of_ok houtcome, ← hnow]
      simp [Group.Cell.withdraw, Lock.leave, Lock.settle, Lock.free]
    have hended : r.Phase clock.now (client.manner r.handle.group cloud)
        (.answer (.ok .nothing)) ⟨r.after, .free⟩ := .ended (result_of_ok houtcome).symm
    rw [hcell] at hended
    exact hended
  | ended hresult => cases hstep

/-! ## Waiting -/

/-- A reload waits for nothing but a call to the cloud, and its view is not there yet. -/
theorem Phase.waits {m : Manner} {activity : Group.Activity} {cell : Group.Cell} {now : Nat}
    (h : r.Phase now m activity cell)
    (hwaits : Group.Scene.step client r.handle.group r.who clock order ⟨activity, cell, cloud⟩
      = none) (hactive : ∀ ending, activity ≠ .ended ending) :
    cell = ⟨r.before, .free⟩
      ∧ (∀ timer ∈ activity.timer?, clock.rung < timer.due)
      ∧ (r.moment + r.limit.ms ≤ clock.rung →
        r.outcome = .error (.timedOut r.handle.group.name r.limit)) := by
  cases h with
  | started hnow => cases hwaits
  | describing hmanner hreceipt hsent =>
    have hopen : ¬ Pending.isOver _ clock = true := fun hover ↦
      nomatch ite_eq_right_iff.mp hwaits hover
    refine ⟨rfl, Pending.rung_lt hopen, fun hpast ↦ Manner.outcome_of_description ?_⟩
    rw [hreceipt]
    refine Manner.await_of_lt fun ms hms ↦ ?_
    have hlt := hsent.lt_of_waits hopen hms
    omega
  | @listing _ receipt _ _ spent hlisting hdescription hreceipt hsent =>
    have hopen : ¬ Pending.isOver _ clock = true := fun hover ↦
      nomatch ite_eq_right_iff.mp hwaits hover
    refine ⟨rfl, Pending.rung_lt hopen, fun hpast ↦ ?_⟩
    have hlate : ∀ ms, receipt.latency.ms? = some ms → r.limit.ms < spent + ms := by
      intro ms hms
      have hlt := hsent.lt_of_waits hopen hms
      omega
    rw [outcome, Manner.outcome_of_listing hdescription, hreceipt, Manner.await_of_lt hlate]
    rfl
  | fetched houtcome hnow => cases hwaits
  | queued houtcome hnow => cases ite_eq_right_iff.mp hwaits (isHeldBy_sole r.who)
  | ended hresult => exact absurd rfl (hactive _)

/-- Time passes while a reload waits, but not beyond the timer that it waits for. -/
theorem Phase.pass {m : Manner} {activity : Group.Activity} {cell : Group.Cell} {now now' : Nat}
    (h : r.Phase now m activity cell)
    (hwaits : Group.Scene.step client r.handle.group r.who clock order ⟨activity, cell, cloud⟩
      = none) (hle : now ≤ now') (htimers : ∀ timer ∈ activity.timer?, now' ≤ timer.due) :
    r.Phase now' m activity cell := by
  cases h with
  | started hnow => cases hwaits
  | describing hmanner hreceipt hsent =>
    have hopen : ¬ Pending.isOver _ clock = true := fun hover ↦
      nomatch ite_eq_right_iff.mp hwaits hover
    exact .describing hmanner hreceipt (hsent.pass hle hopen htimers)
  | listing hlisting hdescription hreceipt hsent =>
    have hopen : ¬ Pending.isOver _ clock = true := fun hover ↦
      nomatch ite_eq_right_iff.mp hwaits hover
    exact .listing hlisting hdescription hreceipt (hsent.pass hle hopen htimers)
  | fetched houtcome hnow => cases hwaits
  | queued houtcome hnow => cases ite_eq_right_iff.mp hwaits (isHeldBy_sole r.who)
  | ended hresult => exact .ended hresult

end

end Reload

end NodeGroups.Simulation
