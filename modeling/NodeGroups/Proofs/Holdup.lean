import NodeGroups.Proofs.Custody
import NodeGroups.Proofs.Refresh

/-!
# What holds up a refresh

A refresh asks one group after another whether it needs a new view, and to be answered it has to get
into the lock of the group. So when none of the tasks can go on, one that selects waits behind
somebody who holds the lock of a registered group and does not go on either. Whoever asks a group
something, or brings it a view, goes on as soon as he has the lock. Only a change keeps the lock
while the cloud works on it. Hence a refresh is held up by changes under way and by nothing else.
-/

namespace NodeGroups.Simulation

variable {σ : Type}

/-- The moment of the refresh for which a task selects groups, if it does. -/
def Stage.passMoment? : Stage σ → Option Nat
  | .entering (.select now _) => some now
  | .visiting _ _ _ (.select now ..) => some now
  | _ => none

theorem Stage.isSelecting_iff {stage : Stage σ} :
    stage.isSelecting = true ↔ ∃ now, stage.passMoment? = some now := by
  cases stage with
  | entering entry =>
    cases entry with
    | select now after => exact ⟨fun _ ↦ ⟨now, rfl⟩, fun _ ↦ rfl⟩
    | _ => exact ⟨nofun, nofun⟩
  | visiting h a d next =>
    cases next with
    | select now stale rest after => exact ⟨fun _ ↦ ⟨now, rfl⟩, fun _ ↦ rfl⟩
    | _ => exact ⟨nofun, nofun⟩
  | _ => exact ⟨nofun, nofun⟩

namespace World

/-- The moment at which the refresh was accepted for which a task selects groups. -/
def passMoment? (w : World σ) (who : Nat) : Option Nat := w.tell Stage.passMoment? who

/-- None of the tasks can go on before a timer goes off. -/
def AllWait (client : Client σ) (w : World σ) : Prop :=
  ∀ {who stage}, w.stage? who = some stage → w.stepTask client who stage = none

/-- Somebody holds the lock of a registered group while the cloud works on a change of the group. -/
def IsHeldUp (w : World σ) : Prop :=
  ∃ h ∈ w.registry.handles, ∃ who handle change p d next,
    handle.place = h.place ∧ (w.lockAt h.place).isHeldBy who = true
    ∧ w.stage? who = some (.visiting handle (.changing change p) d next)
    ∧ ¬ p.isOver w.clock = true

variable {client : Client σ} {start w w' : World σ} {record : List Note} {who now : Nat}

/-! ## Who holds up a selection -/

theorem stepActivity_ne_none {h : Handle} {activity : Group.Activity} {scene : Group.Scene σ}
    {cell : Group.Cell} (hcell : w.cells[h.place]? = some cell)
    (hscene : Group.Scene.step client h.group who w.clock w.steps ⟨activity, cell, w.cloud⟩
      = some scene) (deadline : Option Deadline) (next : Next) :
    w.stepActivity client who h activity deadline next ≠ none := by
  have hactive : ∀ ending, activity ≠ .ended ending := by
    rintro ending rfl
    cases hscene
  rw [stepActivity_eq hactive, hcell, Option.bind_some, hscene]
  nofun

/-- Whoever holds the lock of a group and does not go on waits for the cloud with a change. -/
theorem exists_change (hwaits : w.AllWait client) {h : Handle} {cell : Group.Cell}
    (hcell : w.cells[h.place]? = some cell) {other : Nat} {access : Access}
    (hclaim : w.tell (Stage.claim? h.place) other = some access)
    (hheld : cell.lock.isHeldBy other = true) :
    ∃ handle change p d next, handle.place = h.place
      ∧ w.stage? other = some (.visiting handle (.changing change p) d next)
      ∧ ¬ p.isOver w.clock = true := by
  obtain ⟨stage, hstage, hstageClaim⟩ := Option.bind_eq_some_iff.mp hclaim
  cases stage with
  | visiting handle activity d next =>
    rw [Stage.claim?] at hstageClaim
    obtain ⟨hplace, hactivity⟩ := Option.ite_none_right_eq_some.mp hstageClaim
    have hcell' : w.cells[handle.place]? = some cell := by
      rw [hplace, hcell]
    have hgoesOn : ∀ {scene}, Group.Scene.step client handle.group other w.clock w.steps
        ⟨activity, cell, w.cloud⟩ = some scene → False := fun hscene ↦
      stepActivity_ne_none hcell' hscene d next (hwaits hstage)
    cases activity with
    | queued wish => exact (hgoesOn (if_pos hheld)).elim
    | accepted change => exact (hgoesOn rfl).elim
    | changing change p =>
      refine ⟨handle, change, p, d, next, hplace, hstage, ?_⟩
      intro hover
      exact hgoesOn (if_pos hover)
    | _ => cases hactivity
  | _ => cases hstageClaim

theorem isHeldUp_of_asking (hcustody : Custody w) (hwaits : w.AllWait client) {h : Handle}
    (hregistered : h ∈ w.registry.handles) {activity : Group.Activity} {stale rest : List Handle}
    {after : AfterPass} (hasking : Asking now activity)
    (hstage : w.stage? who = some (.visiting h activity none (.select now stale rest after))) :
    w.IsHeldUp := by
  obtain ⟨cell, hcell⟩ : ∃ cell, w.cells[h.place]? = some cell :=
    ⟨_, List.getElem?_eq_getElem (hcustody.registered h hregistered)⟩
  have htended := hcustody.cells h.place
  rw [lockAt_eq hcell] at htended
  have hgoesOn : ∀ {scene}, Group.Scene.step client h.group who w.clock w.steps
      ⟨activity, cell, w.cloud⟩ = some scene → False := fun hscene ↦
    stepActivity_ne_none hcell hscene none _ (hwaits hstage)
  cases hasking with
  | started => exact (hgoesOn rfl).elim
  | answered needed => cases hwaits hstage
  | queued =>
    have hclaim : w.tell (Stage.claim? h.place) who = some .shared :=
      (tell_eq hstage).trans (if_pos rfl)
    have hblocked : ¬ cell.lock.isHeldBy who = true := fun hheld ↦ hgoesOn (if_pos hheld)
    obtain ⟨other, access, hother, hheld⟩ := htended.exists_holder hclaim hblocked
    obtain ⟨handle, change, p, d, next, hplace, hchanging, hgoing⟩ :=
      exists_change hwaits hcell hother hheld
    refine ⟨h, hregistered, other, handle, change, p, d, next, hplace, ?_, hchanging, hgoing⟩
    rwa [lockAt_eq hcell]

theorem asking_of_recorded (h : Recorded start record w) {handle : Handle}
    {activity : Group.Activity} {d : Option Deadline} {stale rest : List Handle} {after : AfterPass}
    (hstage : w.stage? who = some (.visiting handle activity d (.select now stale rest after))) :
    handle ∈ w.registry.handles ∧ d = none ∧ Asking now activity := by
  obtain ⟨call, admitted, asked, -, -, huntil, hall, -, hlimit, hasking, -⟩ := h.tasks hstage
  refine ⟨?_, hlimit, hasking⟩
  rw [h.handles]
  refine registered_subset huntil ?_
  rw [← hall]
  exact List.mem_append_right _ List.mem_cons_self

/-- When none of the tasks can go on though one of them selects, it is held up by a change. -/
theorem isHeldUp_of_selecting (hcustody : Custody w) (hrecorded : Recorded start record w)
    (hwaits : w.AllWait client) (hselects : w.passMoment? who = some now) : w.IsHeldUp := by
  have hvisiting : ∀ {other stage moment handle a d stale rest after},
      w.stage? other = some stage → stage = .visiting handle a d (.select moment stale rest after) →
      w.IsHeldUp := by
    rintro other stage moment handle a d stale rest after hstage rfl
    obtain ⟨hregistered, rfl, hasking⟩ := asking_of_recorded hrecorded hstage
    exact isHeldUp_of_asking hcustody hwaits hregistered hasking hstage
  obtain ⟨stage, hstage, hmoment⟩ := Option.bind_eq_some_iff.mp hselects
  cases stage with
  | entering entry =>
    -- It waits for the registry. Whoever holds that without going on is selecting as well.
    have hclaim : w.tell Stage.gateClaim? who = some entry.access := tell_eq hstage
    have hblocked : ∀ {other entry}, w.stage? other = some (.entering entry) →
        ¬ w.gate.isHeldBy other = true := by
      intro other entry hentering hheld
      cases (hwaits hentering).symm.trans (if_pos hheld)
    obtain ⟨other, access, hother, hheld⟩ :=
      hcustody.gate.exists_holder hclaim (hblocked hstage)
    obtain ⟨stage', hstage', hclaim'⟩ := Option.bind_eq_some_iff.mp hother
    cases stage' with
    | entering entry' => exact (hblocked hstage' hheld).elim
    | visiting handle a d next =>
      cases next with
      | select moment stale rest after => exact hvisiting hstage' rfl
      | _ => cases hclaim'
    | _ => cases hclaim'
  | visiting handle a d next =>
    cases next with
    | select moment stale rest after => exact hvisiting hstage rfl
    | _ => cases hmoment
  | _ => cases hmoment

/-! ## The moments of refreshes -/

theorem passMoment?_eq_none (hidle : ∀ {stage}, w.stage? who = some stage →
    stage.isSelecting = false) : w.passMoment? who = none := by
  rw [Option.eq_none_iff_forall_ne_some]
  intro now hmoment
  obtain ⟨stage, hstage, hselects⟩ := Option.bind_eq_some_iff.mp hmoment
  have htrue := Stage.isSelecting_iff.mpr ⟨now, hselects⟩
  rw [hidle hstage] at htrue
  cases htrue

theorem Calm.passMoment? (h : Calm who w w') {other : Nat} (hne : other ≠ who)
    (hmoment : w'.passMoment? other = some now) : w.passMoment? other = some now := by
  obtain ⟨stage, hstage, hselects⟩ := Option.bind_eq_some_iff.mp hmoment
  rcases h.others hne hstage with hsame | hidle
  · exact (tell_eq hsame).trans hselects
  · have htrue := Stage.isSelecting_iff.mpr ⟨now, hselects⟩
    rw [hidle] at htrue
    cases htrue

theorem Selects.passMoment? {moment : Nat} {stale rest : List Handle} {note : Option Note}
    (h : Selects who moment w' stale rest note) (hmoment : w'.passMoment? who = some now) :
    now = moment := by
  cases h with
  | next hstage =>
    rw [World.passMoment?, tell_eq hstage] at hmoment
    exact (Option.some.inj hmoment).symm
  | done hidle =>
    rw [passMoment?_eq_none hidle] at hmoment
    cases hmoment

theorem Stride.passMoment? {note : Option Note} (h : Stride who w w' note) {other : Nat}
    (hmoment : w'.passMoment? other = some now) :
    w.passMoment? other = some now ∨ now = w.clock.now := by
  -- What is said of the task itself is added to what its calm says of the others.
  have hcases : ∀ {r : World σ}, Calm who r w' → r.tasks = w.tasks →
      (w'.passMoment? who = some now → w.passMoment? who = some now ∨ now = w.clock.now) →
      w.passMoment? other = some now ∨ now = w.clock.now := by
    intro r hcalm htasks hself
    by_cases hother : other = who
    · subst hother
      exact hself hmoment
    · have hsame : r.passMoment? other = w.passMoment? other := by
        rw [World.passMoment?, World.passMoment?, tell, tell, stage?, stage?, htasks]
      exact .inl (hsame ▸ hcalm.passMoment? hother hmoment)
  have hquiet : ∀ {r : World σ}, Quiet who r w' → r.tasks = w.tasks →
      w.passMoment? other = some now ∨ now = w.clock.now := by
    intro r hquiet htasks
    refine hcases hquiet.toCalm htasks fun hself ↦ ?_
    rw [passMoment?_eq_none hquiet.idle] at hself
    cases hself
  cases h with
  | quiet h => exact hquiet h rfl
  | dropped hsoon h hsame => exact hquiet h rfl
  | passed hsoon hregistry hcalm hstage =>
    refine hcases hcalm rfl fun hself ↦ .inr ?_
    rw [World.passMoment?, tell_eq hstage] at hself
    exact (Option.some.inj hself).symm
  | passedAll hregistry h => exact hquiet h rfl
  | registered hregister h => exact hquiet h rfl
  | installed hstage hcell hstage' hlast hothers h => exact hquiet h rfl
  | entered hstage hcalm hnext =>
    refine hcases hcalm rfl fun hself ↦ .inl ?_
    rw [hnext.passMoment? hself]
    exact tell_eq hstage
  | asked hstage hcalm hstage' hanswer =>
    refine hcases hcalm rfl fun hself ↦ .inl ?_
    rw [World.passMoment?, tell_eq hstage'] at hself
    exact (tell_eq hstage).trans hself
  | told hstage hcalm hnext =>
    refine hcases hcalm rfl fun hself ↦ .inl ?_
    rw [hnext.passMoment? hself]
    exact tell_eq hstage

/-! ## Handing over -/

theorem exists_reload {h : Handle} (hmem : h ∈ w.reloadsSince w') :
    ∃ other d next, w'.stage? other = some (.visiting h (.started .reload) d next) := by
  obtain ⟨task, htask, hreload⟩ := List.mem_filterMap.mp hmem
  obtain ⟨other, hother⟩ := List.getElem?_of_mem (List.mem_of_mem_drop htask)
  split at hreload
  · next handle d next hstage =>
    obtain rfl := Option.some.inj hreload
    refine ⟨other, d, next, ?_⟩
    rw [stage?, hother, Option.map_some, hstage]
  · cases hreload

theorem selectionNote?_eq_handed {moment : Nat} {who' : Nat} {handles : List Handle}
    (hnote : w.selectionNote? who moment w' = some (.handed who' now handles)) :
    moment = now ∧ handles = w.reloadsSince w' := by
  obtain ⟨-, heq⟩ := Option.ite_none_left_eq_some.mp hnote
  obtain ⟨-, hmoment, hhandles⟩ := Note.handed.inj (Option.some.inj heq)
  exact ⟨hmoment, hhandles.symm⟩

/-- Groups are handed over by a task that selected them, and their reloads are started. -/
theorem handed_cases {who' : Nat} {handles : List Handle}
    (hnote : w.note? who w' = some (.handed who' now handles)) :
    w.passMoment? who = some now ∧ handles = w.reloadsSince w' := by
  have hpass : w.passNote? who w' ≠ some (.handed who' now handles) := by
    rw [passNote?]
    split
    all_goals
      intro hother
      cases hother
  have hrequest : ∀ request, w.requestNote? who w' request ≠ some (.handed who' now handles) := by
    intro request
    cases request with
    | refresh => exact hpass
    | _ =>
      intro hother
      cases hother
  have hactivity : ∀ place a, w.activityNote? who place a ≠ some (.handed who' now handles) := by
    intro place a
    unfold activityNote?
    split
    · intro hinstalled
      obtain ⟨cell, -, hinstalled⟩ := Option.bind_eq_some_iff.mp hinstalled
      obtain ⟨-, heq⟩ := Option.ite_none_right_eq_some.mp hinstalled
      cases heq
    · intro hother
      cases hother
  rw [note?] at hnote
  split at hnote
  · exact (hrequest _ hnote).elim
  · exact (hrequest _ hnote).elim
  · exact (hpass hnote).elim
  · obtain ⟨-, heq⟩ := Option.ite_none_right_eq_some.mp hnote
    cases heq
  · next moment after hstage =>
    obtain ⟨rfl, hhandles⟩ := selectionNote?_eq_handed hnote
    exact ⟨tell_eq hstage, hhandles⟩
  · next h a d next hstage =>
    split at hnote
    · obtain ⟨rfl, hhandles⟩ := selectionNote?_eq_handed hnote
      exact ⟨tell_eq hstage, hhandles⟩
    · exact (hactivity _ _ hnote).elim
  · cases hnote

end World

end NodeGroups.Simulation
