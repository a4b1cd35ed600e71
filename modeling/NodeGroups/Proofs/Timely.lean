import NodeGroups.Proofs.Holdup

/-!
# When only waiting takes time

What tasks do takes no time by itself: time passes only when none of them can go on, as each waits
for a timer, for a lock, or for its children. In a course of that kind one can tell what happens
between the moment at which a refresh is accepted and the moment at which it starts the reloads:
time passes only while it is held up by changes under way. It is held up by the change of any group,
even if the groups to be reloaded are others, of which the locks are free.
-/

namespace NodeGroups.Simulation

variable {σ : Type}

namespace World

variable {w : World σ}

/-- Nothing is under way, and every group has its place. -/
structure IsFresh (w : World σ) : Prop where
  tasks : w.tasks = []
  gate : w.gate = .free
  cells : ∀ cell ∈ w.cells, cell.lock = .free
  registered : ∀ h ∈ w.registry.handles, h.place < w.cells.length
  held : ∀ e ∈ w.held.entries, e.2.place < w.cells.length

theorem isFresh_initial (cloud : σ) {registry : Registry}
    (hplaces : ∀ h ∈ registry.handles, h.place < registry.handles.length) :
    (initial cloud registry).IsFresh where
  tasks := rfl
  gate := rfl
  cells cell hmem := by
    obtain ⟨h, -, rfl⟩ := List.mem_map.mp hmem
    rfl
  registered h hmem := by
    rw [initial, List.length_map]
    exact hplaces h hmem
  held := nofun

theorem IsFresh.custody (h : w.IsFresh) : Custody w := by
  have htell : ∀ {α : Type} (f : Stage σ → Option α), w.tell f = fun _ ↦ none := by
    intro α f
    funext who
    rw [tell, stage?, h.tasks]
    rfl
  refine ⟨⟨h.registered, h.held, fun {who handle} hnew ↦ ?_⟩, ?_, fun place ↦ ?_⟩
  · rw [htell] at hnew
    cases hnew
  · rw [h.gate, htell]
    exact .initial
  · have hfree : w.lockAt place = .free := by
      rw [lockAt]
      cases hcell : w.cells[place]? with
      | none => rfl
      | some cell => exact h.cells cell (List.mem_of_getElem? hcell)
    rw [hfree, htell]
    exact .initial

theorem Custody.arrive (h : Custody w) (request : Request σ) :
    Custody { w with tasks := w.tasks ++ [⟨.launching none request, none⟩] } := by
  refine h.of_tasks fun hnone ↦ tell_append ?_ w
  intro task htask
  rw [List.mem_singleton.mp htask]
  exact hnone (.elsewhere rfl)

end World

/-! ## Timely courses -/

/-- A course in which only waiting takes time, with the worlds in which time passed, the latest
first. -/
inductive Timely (client : Client σ) (start : World σ) :
    List Note → List (World σ) → World σ → Prop
  | refl : Timely client start [] [] start
  | arrive {record : List Note} {stops : List (World σ)} {w : World σ} (request : Request σ)
      (h : Timely client start record stops w) : Timely client start record stops
        { w with tasks := w.tasks ++ [⟨.launching none request, none⟩] }
  | step {record : List Note} {stops : List (World σ)} {w w' : World σ} {who : Nat}
      (h : Timely client start record stops w) (hsteps : w.Steps client who w')
      (hclock : w'.clock = w.clock) :
      Timely client start ((w.note? who w').toList ++ record) stops w'
  /-- The timers that are due go off. -/
  | ring {record : List Note} {stops : List (World σ)} {w : World σ}
      (h : Timely client start record stops w) :
      Timely client start record stops { w with clock := w.clock.ring }
  | pass {record : List Note} {stops : List (World σ)} {w : World σ} {ms : Nat}
      (h : Timely client start record stops w) (hms : 0 < ms) (hwaits : w.AllWait client) :
      Timely client start record (w :: stops) (w.pass ms)
  /-- It is settled who has his turn and who waits for the clock. -/
  | arrange {record : List Note} {stops : List (World σ)} {w : World σ}
      (h : Timely client start record stops w) (woken deferred : List Nat) (turns taken : Nat) :
      Timely client start record stops { w with woken, deferred, turns, taken }
  /-- The tasks are forgotten when all of them are finished. -/
  | forget {record : List Note} {stops : List (World σ)} {w : World σ}
      (h : Timely client start record stops w) (hfinished : ∀ task ∈ w.tasks, task.result? ≠ none) :
      Timely client start record stops { w with tasks := [] }

variable {client : Client σ} {start w w' : World σ} {record : List Note} {stops : List (World σ)}
  {who now : Nat}

namespace Timely

theorem course (h : Timely client start record stops w) : Course client start record w := by
  induction h with
  | refl => exact .refl
  | arrive request h ih => exact ih.arrive request
  | step h hsteps hclock ih => exact ih.step hsteps
  | ring h ih => exact ih.elapse _ (Nat.le_refl _)
  | pass h hms hwaits ih => exact ih.elapse _ (Nat.le_add_right _ _)
  | arrange h woken deferred turns taken ih => exact ih.arrange woken deferred turns taken
  | forget h hfinished ih => exact ih.forget

theorem custody (h : Timely client start record stops w) (hfresh : start.IsFresh) :
    World.Custody w := by
  induction h with
  | refl => exact hfresh.custody
  | arrive request h ih => exact ih.arrive request
  | step h hsteps hclock ih => exact ih.steps hsteps
  | ring h ih => exact ih.congr rfl rfl rfl rfl rfl
  | pass h hms hwaits ih => exact ih.congr rfl rfl rfl rfl rfl
  | arrange h woken deferred turns taken ih => exact ih.congr rfl rfl rfl rfl rfl
  | @forget record stops w h hfinished ih =>
    refine ih.of_tasks fun {α f} hnone ↦ ?_
    funext who
    -- Whoever is forgotten is finished, and so has nothing to tell.
    have hgone : World.tell f { w with tasks := [] } who = none := rfl
    rw [hgone, World.tell, World.stage?]
    cases htask : w.tasks[who]? with
    | none => rfl
    | some task =>
      obtain ⟨result, hresult⟩ :=
        Option.ne_none_iff_exists'.mp (hfinished task (List.mem_of_getElem? htask))
      rw [Task.result?] at hresult
      split at hresult
      · next result moment hstage =>
        rw [Option.map_some, Option.bind_some, hstage]
        exact (hnone (.elsewhere rfl)).symm
      · cases hresult

theorem lt_of_mem (h : Timely client start record stops w) {v : World σ} (hv : v ∈ stops) :
    v.clock.now < w.clock.now := by
  induction h with
  | refl => cases hv
  | arrive request h ih => exact ih hv
  | step h hsteps hclock ih =>
    rw [hclock]
    exact ih hv
  | ring h ih => exact ih hv
  | @pass record stops w ms h hms hwaits ih =>
    have hpasses : w.clock.now < w.clock.now + ms := Nat.lt_add_of_pos_right hms
    rcases List.mem_cons.mp hv with rfl | hv
    · exact hpasses
    · exact Nat.lt_trans (ih hv) hpasses
  | arrange h woken deferred turns taken ih => exact ih hv
  | forget h hfinished ih => exact ih hv

/-- Time does not pass while a task selects, unless it is held up by a change. -/
theorem isHeldUp_of_mem (h : Timely client start record stops w) (hfresh : start.IsFresh)
    {v : World σ} (hv : v ∈ stops) (hselects : v.passMoment? who = some now) : v.IsHeldUp := by
  induction h with
  | refl => cases hv
  | arrive request h ih => exact ih hv
  | step h hsteps hclock ih => exact ih hv
  | ring h ih => exact ih hv
  | pass h hms hwaits ih =>
    rcases List.mem_cons.mp hv with rfl | hv
    · exact World.isHeldUp_of_selecting (h.custody hfresh) (h.course.recorded hfresh.tasks) hwaits
        hselects
    · exact ih hv
  | arrange h woken deferred turns taken ih => exact ih hv
  | forget h hfinished ih => exact ih hv

/-- A task that selects has done so ever since its refresh was accepted, and if there was no stop
since, no time has passed. -/
theorem selects_since (h : Timely client start record stops w) (hfresh : start.IsFresh)
    (hselects : w.passMoment? who = some now) : now ≤ w.clock.now
      ∧ (∀ v ∈ stops, now ≤ v.clock.now → v.passMoment? who = some now)
      ∧ ((∀ v ∈ stops, v.clock.now < now) → w.clock.now = now) := by
  induction h with
  | refl =>
    rw [World.passMoment?, World.tell, World.stage?, hfresh.tasks] at hselects
    cases hselects
  | @arrive record stops w request h ih =>
    have hsame : World.tell Stage.passMoment?
        { w with tasks := w.tasks ++ [⟨.launching none request, none⟩] }
          = w.tell Stage.passMoment? := by
      refine World.tell_append ?_ w
      intro task htask
      rw [List.mem_singleton.mp htask]
      rfl
    rw [World.passMoment?, hsame] at hselects
    exact ih hselects
  | step h hsteps hclock ih =>
    have hrecorded := h.course.recorded hfresh.tasks
    have hstride := hsteps.stride fun hs ↦ (hrecorded.tasks hs).isSound
    rw [hclock]
    rcases hstride.passMoment? hselects with hbefore | rfl
    · exact ih hbefore
    · -- The refresh is accepted just now, and all stops were before.
      refine ⟨Nat.le_refl _, fun v hv hle ↦ ?_, fun _ ↦ rfl⟩
      exact absurd (h.lt_of_mem hv) (Nat.not_lt.mpr hle)
  | ring h ih => exact ih hselects
  | pass h hms hwaits ih =>
    obtain ⟨hle, hstops, hpresent⟩ := ih hselects
    refine ⟨Nat.le_trans hle (Nat.le_add_right _ _), ?_, ?_⟩
    · intro v hv hsince
      rcases List.mem_cons.mp hv with rfl | hv
      · exact hselects
      · exact hstops v hv hsince
    · intro hbefore
      exact absurd hle (Nat.not_le.mpr (hbefore _ List.mem_cons_self))
  | arrange h woken deferred turns taken ih => exact ih hselects
  | forget h hfinished ih => cases hselects

/-- **A refresh is held up by changes only.** When time passes between the acceptance of a refresh
and the start of its reloads, somebody holds the lock of a registered group for a change on which
the cloud is at work. If this is never so, the moment at which the reloads are started is that of
the acceptance. They are started all at once, for each group that was stale at the call and has got
no view since. -/
theorem refresh_prompt (h : Timely client start record stops w) (hfresh : start.IsFresh) :
    (∀ {v who now}, v ∈ stops → v.passMoment? who = some now → v.IsHeldUp)
    ∧ (∀ {who now}, w.passMoment? who = some now →
      (∀ v ∈ stops, now ≤ v.clock.now → v.passMoment? who = some now)
      ∧ ((∀ v ∈ stops, now ≤ v.clock.now → ¬ v.IsHeldUp) → w.clock.now = now))
    ∧ ∀ {who w' now handles}, w.Steps client who w' →
      w.note? who w' = some (.handed who now handles) →
        w.passMoment? who = some now
        ∧ (∀ h ∈ handles, ∃ other d next,
          w'.stage? other = some (.visiting h (.started .reload) d next))
        ∧ ∀ {call h}, lastCall? who record = some (now, call) → h ∈ registered start call →
          IsUninstalled h.place call record → (h ∈ handles ↔ isStale start call now h = true) := by
  refine ⟨fun hv hselects ↦ h.isHeldUp_of_mem hfresh hv hselects, ?_, ?_⟩
  · intro who now hselects
    obtain ⟨hle, hstops, hpresent⟩ := h.selects_since hfresh hselects
    refine ⟨hstops, fun hfree ↦ hpresent fun v hv ↦ Nat.lt_of_not_le fun hsince ↦ ?_⟩
    exact hfree v hv hsince (h.isHeldUp_of_mem hfresh hv (hstops v hv hsince))
  · intro who w' now handles hsteps hnote
    obtain ⟨hselects, rfl⟩ := World.handed_cases hnote
    refine ⟨hselects, fun handle hmem ↦ World.exists_reload hmem, ?_⟩
    intro call handle hcall hregistered hnone
    have hlawful := ((h.course.step hsteps).recorded hfresh.tasks).lawful
    rw [hnote] at hlawful
    have hselected : Selected start record who now (w.reloadsSince w') :=
      hlawful.follows (List.suffix_refl _)
    exact hselected.mem_iff hcall hregistered hnone

end Timely

/-! ## A refresh that is held up -/

namespace World

def allWait (client : Client σ) (w : World σ) : Bool :=
  w.tasks.zipIdx.all fun t ↦ (w.stepTask client t.2 t.1.stage).isNone

theorem allWait_of_eq_true (hall : w.allWait client = true) : w.AllWait client := by
  intro who stage hstage
  obtain ⟨task, htask, rfl⟩ := Option.map_eq_some_iff.mp hstage
  have hmem : (task, who) ∈ w.tasks.zipIdx := List.mem_zipIdx_iff_getElem?.mpr htask
  exact Option.isNone_iff_eq_none.mp (List.all_eq_true.mp hall _ hmem)

/-- Lets something happen, unless it takes time that it must not take. The worlds in which time
passes are kept. -/
def happenInTime (client : Client σ) (now : List (World σ) × List Note × World σ)
    (happening : Happening σ) : Option (List (World σ) × List Note × World σ) :=
  let w := now.2.2
  (happen client now.2 happening).bind fun next ↦
    match happening with
    | .arrive _ => some (now.1, next)
    | .go _ => if next.2.clock = w.clock then some (now.1, next) else none
    | .elapse ms => if 0 < ms ∧ w.allWait client = true then some (w :: now.1, next) else none

/-- What comes of it when some things happen in time. -/
def rehearseInTime (client : Client σ) (happenings : List (Happening σ)) (start : World σ) :
    Option (List (World σ) × List Note × World σ) :=
  happenings.foldlM (happenInTime client) ([], [], start)

end World

namespace Timely

theorem happen {now now' : List (World σ) × List Note × World σ} {happening : Happening σ}
    (h : Timely client start now.2.1 now.1 now.2.2)
    (hhappen : World.happenInTime client now happening = some now') :
    Timely client start now'.2.1 now'.1 now'.2.2 := by
  obtain ⟨next, hnext, hchecked⟩ := Option.bind_eq_some_iff.mp hhappen
  cases happening with
  | arrive request =>
    obtain rfl := Option.some.inj hchecked
    obtain rfl := Option.some.inj hnext
    exact .arrive request h
  | go who =>
    obtain ⟨hclock, heq⟩ := Option.ite_none_right_eq_some.mp hchecked
    obtain rfl := Option.some.inj heq
    obtain ⟨w, hstep, rfl⟩ := Option.map_eq_some_iff.mp hnext
    exact .step h (.step hstep) hclock
  | elapse ms =>
    obtain ⟨⟨hms, hwaits⟩, heq⟩ := Option.ite_none_right_eq_some.mp hchecked
    obtain rfl := Option.some.inj heq
    obtain rfl := Option.some.inj hnext
    exact .ring (.pass h hms (World.allWait_of_eq_true hwaits))

theorem rehearse {happenings : List (Happening σ)}
    (hrehearse : World.rehearseInTime client happenings start = some (stops, record, w)) :
    Timely client start record stops w := by
  let p (now : List (World σ) × List Note × World σ) : Prop :=
    Timely client start now.2.1 now.1 now.2.2
  have hstart : p ([], [], start) := .refl
  exact of_foldlM (fun h hnext ↦ Timely.happen h hnext) hstart hrehearse

end Timely

/-- Two groups; the cloud takes its time for resizes of the first. -/
def slowPool : World Memory := .initial (cloudOfPair.delay .setCapacity "pool" 100) pair

theorem isFresh_slowPool : slowPool.IsFresh := World.isFresh_initial _ (by decide)

/-- A refresh is accepted while a mutation of the first group is under way, and waits to ask the
group. -/
def refreshDuringResize : List (Happening Memory) :=
  .arrive (.reloadGroup "pool") :: Happening.steps 0 8
    ++ .arrive (.visit (.registered "pool") (.errand (.mutate (.increase 1))))
      :: Happening.steps 1 4
    ++ .elapse 10 :: .arrive .refresh :: Happening.steps 2 3

/-- The mutation ends, and the refresh goes on until it is about to start the reloads. -/
def refreshAfterResize : List (Happening Memory) :=
  refreshDuringResize ++ .elapse 90 :: Happening.steps 1 2 ++ Happening.steps 2 4

/-- The refresh that was accepted at ten milliseconds was held up, and starts the reload of the
second group after the mutation of the first. -/
theorem Timely.refresh_prompt_of_slowPool : slowPool.IsFresh ∧ ∃ record stops w v w',
    Timely Memory.client slowPool record stops w
    ∧ v ∈ stops ∧ v.passMoment? 2 = some 10 ∧ v.IsHeldUp
    ∧ w.step Memory.client 2 = some w' ∧ w.note? 2 w' = some (.handed 2 10 [⟨spare, 1⟩])
    ∧ ∃ other d next, w'.stage? other = some (.visiting ⟨spare, 1⟩ (.started .reload) d next) := by
  have hplayed : (World.rehearseInTime Memory.client refreshAfterResize slowPool).map (fun r ↦
      (r.1.map fun v ↦ v.passMoment? 2,
        (r.2.2.step Memory.client 2).map fun w' ↦ r.2.2.note? 2 w'))
      = some ([some 10, none], some (some (.handed 2 10 [⟨spare, 1⟩]))) := by decide +kernel
  obtain ⟨⟨stops, record, w⟩, hrehearse, hfacts⟩ := Option.map_eq_some_iff.mp hplayed
  obtain ⟨hmoments, hnext⟩ := Prod.mk.inj hfacts
  obtain ⟨v, earlier, rfl, hmoment, -⟩ := List.map_eq_cons_iff.mp hmoments
  obtain ⟨w', hstep, hnote⟩ := Option.map_eq_some_iff.mp hnext
  have htimely : Timely Memory.client slowPool record (v :: earlier) w := .rehearse hrehearse
  obtain ⟨hheld, -, hhanded⟩ := htimely.refresh_prompt isFresh_slowPool
  obtain ⟨-, hreloads, -⟩ := hhanded (.step hstep) hnote
  exact ⟨isFresh_slowPool, record, v :: earlier, w, v, w', htimely, List.mem_cons_self, hmoment,
    hheld List.mem_cons_self hmoment, hstep, hnote, hreloads _ List.mem_cons_self⟩

def Stage.visits {σ : Type} (place : Nat) : Stage σ → Bool
  | .visiting h .. => h.place = place
  | _ => false

/-- Time may pass while a refresh selects, though there is a stale group of which the lock is free
and nobody reloads it. -/
theorem exists_free_held_up : ∃ start record stops w v h,
    World.IsFresh start ∧ Timely Memory.client start record stops w ∧ v ∈ stops
    ∧ v.passMoment? 2 = some 10 ∧ h ∈ v.registry.handles ∧ v.lockAt h.place = .free
    ∧ v.needs h 10 = true ∧ ∀ {other a d next}, v.stage? other ≠ some (.visiting h a d next) := by
  have hplayed : (World.rehearseInTime Memory.client refreshDuringResize slowPool).map (fun r ↦
      (r.2.2.allWait Memory.client, r.2.2.passMoment? 2, r.2.2.registry.handles, r.2.2.lockAt 1,
        r.2.2.needs ⟨spare, 1⟩ 10, r.2.2.tasks.all fun t ↦ !t.stage.visits 1))
      = some (true, some 10, pair.handles, .free, true, true) := by decide +kernel
  obtain ⟨⟨stops, record, v⟩, hrehearse, hfacts⟩ := Option.map_eq_some_iff.mp hplayed
  simp only [Prod.mk.injEq] at hfacts
  obtain ⟨hwaits, hmoment, hhandles, hlock, hneeds, hnobody⟩ := hfacts
  have htimely : Timely Memory.client slowPool record stops v := .rehearse hrehearse
  have hregistered : ⟨spare, 1⟩ ∈ v.registry.handles := by
    rw [hhandles]
    exact List.mem_cons_of_mem _ List.mem_cons_self
  refine ⟨slowPool, record, v :: stops, v.pass 90, v, ⟨spare, 1⟩, isFresh_slowPool,
    htimely.pass (by decide) (World.allWait_of_eq_true hwaits), List.mem_cons_self, hmoment,
    hregistered, hlock, hneeds, ?_⟩
  intro other a d next hstage
  obtain ⟨task, htask, hvisiting⟩ := Option.map_eq_some_iff.mp hstage
  have hother := List.all_eq_true.mp hnobody task (List.mem_of_getElem? htask)
  rw [hvisiting] at hother
  exact Bool.false_ne_true hother

end NodeGroups.Simulation
