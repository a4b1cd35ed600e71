import NodeGroups.Proofs.Crew
import NodeGroups.Proofs.Rehearsal
import NodeGroups.Proofs.Report

/-!
# Refresh passes

A pass reloads some of the registered groups side by side and reports on them. As long as nobody
else acts on the groups and their scale sets, each reload ends as it would end alone, so the report
and the states of the groups do not depend on the order in which the tasks of the pass go on. The
groups that are not refreshed are left as they were.
-/

namespace NodeGroups.Simulation

open World Relation

variable {σ : Type} {client : Client σ}

namespace World

variable {w w' : World σ} {who : Nat} {handles : List Handle} {h : Handle}

/-! ## A reload alone -/

/-- The reload of a group as a task may start it now. -/
def reload (client : Client σ) (w : World σ) (h : Handle) (who : Nat) : Reload where
  who := who
  handle := h
  limit := w.registry.groupTimeout
  moment := w.clock.now
  before := ((w.cells[h.place]?).map Group.Cell.state).getD .initial
  manner := client.manner h.group w.cloud

/-- A task comes into the world that reloads a group with the registry's time limit. -/
def launch (h : Handle) (w : World σ) : World σ :=
  { w with tasks := w.tasks ++ [⟨w.boundedReload h .reply, none⟩] }

/-- A reload of a group, alone and undisturbed, can end with a result. -/
def EndsAlone (client : Client σ) (w : World σ) (h : Handle) (result : Result) : Prop :=
  ∃ w' moment, ReflTransGen (Undisturbed client [w.tasks.length] [h]) (w.launch h) w'
    ∧ w'.stage? w.tasks.length = some (.finished result moment)

theorem underway_reload {start : World σ} {state : Group.State}
    (hstage : start.stage? who = some (w.boundedReload h .reply)) (hclock : start.clock = w.clock)
    (hcells : start.cells = w.cells) (hcloud : start.cloud = w.cloud)
    (hcell : w.cells[h.place]? = some ⟨state, .free⟩) :
    (w.reload client h who).Underway client start := by
  have hbefore : (w.reload client h who).before = state := by
    rw [reload, hcell]
    rfl
  refine .visiting hstage (hcells ▸ hcell) ?_ ⟨rfl, fun _ ↦ ?_, nofun⟩
  · rw [hcloud, ← hbefore]
    exact .started (congrArg Clock.now hclock)
  · exact congrArg Clock.now hclock

theorem stage?_launch (h : Handle) (w : World σ) :
    (w.launch h).stage? w.tasks.length = some (w.boundedReload h .reply) := by
  rw [stage?, launch, List.getElem?_concat_length]
  rfl

theorem crew_of_alone (hcrew : Crew client [w.reload client h who] w')
    {w'' : World σ} (hpath : ReflTransGen (Undisturbed client [who] [h]) w' w'') :
    Crew client [w.reload client h who] w'' := by
  induction hpath with
  | refl => exact hcrew
  | tail _ hlast ih =>
    refine ih.undisturbed hlast ?_ ?_
    · intro r hr
      obtain rfl := List.mem_singleton.mp hr
      exact ⟨.head _, .head _⟩
    · exact fun other hother hne ↦ absurd hother hne

/-- A reload that is alone ends as it was bound to, and with nothing else. -/
theorem endsAlone_iff {state : Group.State} (hcell : w.cells[h.place]? = some ⟨state, .free⟩)
    (hdiscreet : client.Discreet [h.group]) (hrung : w.clock.rung ≤ w.clock.now) {result : Result} :
    w.EndsAlone client h result ↔ result = (w.reload client h who).result := by
  have hcrew : Crew client [w.reload client h w.tasks.length] (w.launch h) := by
    refine ⟨List.pairwise_singleton _ _, hdiscreet, hrung, fun r hr ↦ ?_⟩
    obtain rfl := List.mem_singleton.mp hr
    exact underway_reload (stage?_launch h w) rfl rfl rfl hcell
  constructor
  · rintro ⟨w', moment, hpath, hstage⟩
    obtain ⟨⟨_, hfinished⟩, -⟩ :=
      ((crew_of_alone hcrew hpath).underway _ (.head _)).isDone hstage
    exact (Stage.finished.inj (Option.some.inj (hstage.symm.trans hfinished))).1
  · rintro rfl
    have hmem : ∀ r ∈ [w.reload client h w.tasks.length], r.who ∈ [w.tasks.length] :=
      fun r hr ↦ List.mem_map.mpr ⟨r, hr, rfl⟩
    obtain ⟨w', hpath, -, hdone, -⟩ :=
      hcrew.exists_done [h] hmem (fun other hother hne ↦ absurd hother hne)
    obtain ⟨⟨moment, hstage⟩, -⟩ := hdone _ (.head _)
    exact ⟨w', moment, hpath, hstage⟩

/-! ## The reloads of a pass -/

/-- A task may start a pass over some registered groups. Each of them has a state of its own, and
nobody is at work on it. -/
structure IsReady (client : Client σ) (who : Nat) (handles : List Handle) (w : World σ) : Prop where
  registered : handles.Sublist w.registry.handles
  places : (handles.map Handle.place).Nodup
  free : ∀ h ∈ handles, ∃ state, w.cells[h.place]? = some ⟨state, .free⟩
  task : who < w.tasks.length
  rung : w.clock.rung ≤ w.clock.now
  discreet : client.Discreet (handles.map Handle.group)

/-- The tasks of a pass: the one that starts it, and those that it starts. -/
def passTasks (who : Nat) (handles : List Handle) (w : World σ) : List Nat :=
  who :: List.range' w.tasks.length handles.length

/-- A pass over some groups has come to a world, in one order or another. -/
def Passes (client : Client σ) (who : Nat) (handles : List Handle) (w w' : World σ) : Prop :=
  ReflTransGen (Undisturbed client (w.passTasks who handles) handles)
    (w.startReloads who handles .reply) w'

def reloads (client : Client σ) (handles : List Handle) (w : World σ) : List Reload :=
  (handles.zipIdx w.tasks.length).map fun h ↦ w.reload client h.1 h.2

/-- The report with which a pass is bound to end. -/
def report (client : Client σ) (handles : List Handle) (w : World σ) : Report :=
  .ofResults ((w.reloads client handles).map fun r ↦ (r.handle.group.name, reloadResult r.result))

theorem map_who_reloads (client : Client σ) (handles : List Handle) (w : World σ) :
    (w.reloads client handles).map Reload.who = List.range' w.tasks.length handles.length := by
  rw [reloads, List.map_map]
  exact List.zipIdx_map_snd _ _

theorem map_handle_reloads (client : Client σ) (handles : List Handle) (w : World σ) :
    (w.reloads client handles).map Reload.handle = handles := by
  rw [reloads, List.map_map]
  exact List.zipIdx_map_fst _ _

theorem map_reloads {α : Type} (f : Handle → α) (client : Client σ) (handles : List Handle)
    (w : World σ) : (w.reloads client handles).map (fun r ↦ f r.handle) = handles.map f := by
  have hmap := congrArg (List.map f) (map_handle_reloads client handles w)
  rwa [List.map_map] at hmap

theorem mem_reloads {r : Reload} :
    r ∈ w.reloads client handles ↔
      ∃ h i, handles[i]? = some h ∧ r = w.reload client h (w.tasks.length + i) := by
  rw [reloads, List.mem_map]
  constructor
  · rintro ⟨⟨h, other⟩, hmem, rfl⟩
    obtain ⟨i, hi⟩ := List.mem_iff_getElem?.mp hmem
    rw [List.getElem?_zipIdx] at hi
    obtain ⟨h', hget, heq⟩ := Option.map_eq_some_iff.mp hi
    obtain ⟨rfl, rfl⟩ := Prod.mk.inj heq
    exact ⟨h', i, hget, rfl⟩
  · rintro ⟨h, i, hget, rfl⟩
    refine ⟨(h, w.tasks.length + i), List.mem_iff_getElem?.mpr ⟨i, ?_⟩, rfl⟩
    rw [List.getElem?_zipIdx, hget]
    rfl

theorem handle_mem_of_mem_reloads {r : Reload} (hr : r ∈ w.reloads client handles) :
    r.handle ∈ handles := by
  have hmem := List.mem_map_of_mem (f := Reload.handle) hr
  rwa [map_handle_reloads] at hmem

theorem who_mem_passTasks {r : Reload} (hr : r ∈ w.reloads client handles) :
    r.who ∈ w.passTasks who handles := by
  rw [passTasks, ← map_who_reloads client]
  exact .tail _ (List.mem_map_of_mem hr)

theorem eq_of_mem_passTasks {other : Nat} (hother : other ∈ w.passTasks who handles)
    (hne : other ∉ (w.reloads client handles).map Reload.who) : other = who := by
  rw [map_who_reloads] at hne
  exact (List.mem_cons.mp hother).resolve_right hne

theorem stage?_startReloads {i : Nat} (hi : handles[i]? = some h) (htask : who < w.tasks.length)
    (after : AfterPass) :
    (w.startReloads who handles after).stage? (w.tasks.length + i)
      = some (w.boundedReload h .reply) := by
  have hne : w.tasks.length + i ≠ who := by omega
  have hsome : handles.isEmpty = false := by
    cases handles with
    | nil => cases hi
    | cons => rfl
  rw [startReloads, hsome]
  refine (stage?_setStage_of_ne hne _ _).trans ?_
  rw [stage?, List.getElem?_append_right (Nat.le_add_right _ _), Nat.add_sub_cancel_left]
  simp [hi]

theorem stage?_startReloads_self (hsome : handles ≠ []) (htask : who < w.tasks.length)
    (after : AfterPass) :
    (w.startReloads who handles after).stage? who
      = some (.gathering (List.range' w.tasks.length handles.length)
          (.pass (handles.map fun h ↦ h.group.name) after)) := by
  rw [startReloads, if_neg (by simpa using hsome)]
  have hstage : ∀ tasks,
      ({ w with tasks := w.tasks ++ tasks } : World σ).stage? who = some w.tasks[who].stage := by
    intro tasks
    rw [stage?, List.getElem?_append_left htask, List.getElem?_eq_getElem htask]
    rfl
  refine (stage?_setStage_self (hstage _) _).trans ?_
  rw [List.length_map]

namespace IsReady

variable (hready : IsReady client who handles w)

include hready

theorem nodup_names : (handles.map fun h ↦ h.group.name).Nodup := by
  refine List.pairwise_map.mpr ?_
  refine (w.registry.distinct.sublist hready.registered).imp fun hdistinct heq ↦ hdistinct ?_
  rw [heq]
  exact .refl _

theorem apart : (w.reloads client handles).Pairwise Reload.Apart := by
  have hwhos : (w.reloads client handles).Pairwise fun r r' ↦ r.who ≠ r'.who := by
    rw [← List.pairwise_map, map_who_reloads]
    exact List.nodup_range'
  have hplaces : (w.reloads client handles).Pairwise
      fun r r' ↦ r.handle.place ≠ r'.handle.place := by
    rw [← List.pairwise_map, map_reloads Handle.place]
    exact hready.places
  have hnames : (w.reloads client handles).Pairwise
      fun r r' ↦ r.handle.group.name ≠ r'.handle.group.name := by
    rw [← List.pairwise_map, map_reloads fun h ↦ h.group.name]
    exact hready.nodup_names
  exact ((hwhos.and hplaces).and hnames).imp fun h ↦ ⟨h.1.1, h.1.2, h.2⟩

theorem who_notMem : who ∉ (w.reloads client handles).map Reload.who := by
  rw [map_who_reloads, List.mem_range'_1]
  exact fun hmem ↦ absurd hready.task (Nat.not_lt.mpr hmem.1)

/-- The reloads of a pass are under way when it starts. -/
theorem crew (hsome : handles ≠ []) :
    Crew client (w.reloads client handles) (w.startReloads who handles .reply) := by
  have hstart : w.startReloads who handles .reply = w.spawn who
      (handles.map fun h ↦ w.boundedReload h .reply)
      (.pass (handles.map fun h ↦ h.group.name) .reply) := by
    rw [startReloads, if_neg (by simpa using hsome)]
  refine ⟨hready.apart, ?_, ?_, fun r hr ↦ ?_⟩
  · rw [map_reloads Handle.group]
    exact hready.discreet
  · rw [hstart]
    exact hready.rung
  · obtain ⟨h, i, hi, rfl⟩ := mem_reloads.mp hr
    obtain ⟨state, hcell⟩ := hready.free h (List.mem_of_getElem? hi)
    have hstage := stage?_startReloads hi hready.task .reply
    rw [hstart] at hstage ⊢
    exact underway_reload hstage rfl rfl rfl hcell

end IsReady

/-! ## The course of a pass -/

/-- How far a pass is: its reloads are under way and the task that started them waits for them, or
they are done and it has reported. -/
inductive PassState (client : Client σ) (who : Nat) (handles : List Handle) (w w' : World σ) : Prop
  | going (hcrew : Crew client (w.reloads client handles) w')
      (hstage : w'.stage? who = some (.gathering ((w.reloads client handles).map Reload.who)
        (.pass (handles.map fun h ↦ h.group.name) .reply)))
  | reported {moment} (hdone : ∀ r ∈ w.reloads client handles, r.IsDone w')
      (hstage : w'.stage? who
        = some (.finished (.ok (.report (w.report client handles))) moment))

theorem not_steps_of_finished {result : Result} {moment : Nat}
    (hstage : w.stage? who = some (.finished result moment)) : ¬ w.Steps client who w' := by
  intro hsteps
  obtain ⟨stage, next, hstage', hnext, -⟩ := step_cases (hsteps.step_of_not_idling hstage nofun)
  obtain rfl := Option.some.inj (hstage.symm.trans hstage')
  cases hnext

theorem zip_results {results : List (Result × Nat)}
    (hdone : ∀ r ∈ w.reloads client handles, r.IsDone w')
    (hresults : ((w.reloads client handles).map Reload.who).mapM
      (fun child ↦ w'.tasks[child]?.bind Task.result?) = some results) :
    ((handles.map fun h ↦ h.group.name).zip (results.map fun r ↦ reloadResult r.1))
      = (w.reloads client handles).map fun r ↦ (r.handle.group.name, reloadResult r.result) := by
  have hresult : ∀ r ∈ w.reloads client handles,
      (w'.tasks[r.who]?.bind Task.result?).map (fun r ↦ reloadResult r.1)
        = some (reloadResult r.result) := by
    intro r hr
    obtain ⟨⟨moment, hstage⟩, -⟩ := hdone r hr
    rw [result?_eq_some_iff.mpr hstage]
    rfl
  have hmap := congrArg (List.map (Option.map fun r : Result × Nat ↦ reloadResult r.1))
    (map_of_mapM hresults)
  rw [List.map_map, List.map_map, List.map_map] at hmap
  have hresults' : (results.map fun r ↦ reloadResult r.1)
      = (w.reloads client handles).map fun r ↦ reloadResult r.result := by
    refine List.map_injective_iff.mpr (Option.some_injective _) ?_
    rw [List.map_map, List.map_map]
    exact hmap.symm.trans (List.map_congr_left hresult)
  rw [hresults', ← map_reloads (fun h ↦ h.group.name) client, List.zip_map']

theorem steps_of_gathering {w'' : World σ} (hcrew : Crew client (w.reloads client handles) w')
    (hstage : w'.stage? who = some (.gathering ((w.reloads client handles).map Reload.who)
      (.pass (handles.map fun h ↦ h.group.name) .reply)))
    (hsteps : w'.Steps client who w'') :
    (∀ r ∈ w.reloads client handles, r.IsDone w')
      ∧ w'' = { w'.finish who (.ok (.report (w.report client handles))) with
          steps := w'.steps + 1 } := by
  obtain ⟨stage, next, hstage', hnext, rfl⟩ :=
    step_cases (hsteps.step_of_not_idling hstage nofun)
  obtain rfl := Option.some.inj (hstage.symm.trans hstage')
  obtain ⟨results, hresults, rfl⟩ := Option.map_eq_some_iff.mp hnext
  have hdone : ∀ r ∈ w.reloads client handles, r.IsDone w' := by
    intro r hr
    obtain ⟨result, moment, hfinished⟩ := finished_of_mapM hresults (List.mem_map_of_mem hr)
    exact (hcrew.underway r hr).isDone hfinished
  refine ⟨hdone, ?_⟩
  rw [gather, zip_results hdone hresults]
  rfl

/-- Whatever happens next, as long as nobody disturbs it, a pass stays in its course. -/
theorem PassState.undisturbed {w'' : World σ} (hready : IsReady client who handles w)
    (h : PassState client who handles w w')
    (hnext : Undisturbed client (w.passTasks who handles) handles w' w'') :
    PassState client who handles w w'' := by
  cases h with
  | going hcrew hstage =>
    have hspares : ∀ other ∈ w.passTasks who handles,
        other ∉ (w.reloads client handles).map Reload.who → w'.Steps client other w'' →
        Spares client ((w.reloads client handles).map Reload.who)
          ((w.reloads client handles).map Reload.handle) w' w'' := by
      intro other hother hne hsteps
      obtain rfl := eq_of_mem_passTasks hother hne
      obtain ⟨-, rfl⟩ := steps_of_gathering hcrew hstage hsteps
      exact (Spares.finish hne _ w').trans (.count _ _)
    have hcrew' := hcrew.undisturbed hnext
      (fun r hr ↦ ⟨who_mem_passTasks hr, handle_mem_of_mem_reloads hr⟩) hspares
    cases hnext with
    | @step other _ _ hother hsteps =>
      by_cases hown : other ∈ (w.reloads client handles).map Reload.who
      · obtain ⟨r, hr, rfl⟩ := List.mem_map.mp hown
        exact .going hcrew' ((hcrew.stage?_of_notMem hr hsteps hready.who_notMem).trans hstage)
      · obtain rfl := eq_of_mem_passTasks hother hown
        have hleft := hspares other hother hown hsteps
        obtain ⟨hdone, rfl⟩ := steps_of_gathering hcrew hstage hsteps
        exact .reported (fun r hr ↦ (hdone r hr).of_spares
          (Reload.spares_of_mem hleft (List.mem_map_of_mem hr) (List.mem_map_of_mem hr)))
          (stage?_finish_self hstage _)
    | elapse hwaits => exact .going hcrew' hstage
    | elsewhere hspares' => exact .going hcrew' ((hspares'.stage _ (.head _)).trans hstage)
  | reported hdone hstage =>
    cases hnext with
    | @step other _ _ hother hsteps =>
      by_cases hown : other ∈ (w.reloads client handles).map Reload.who
      · obtain ⟨r, hr, rfl⟩ := List.mem_map.mp hown
        obtain ⟨⟨moment, hfinished⟩, -⟩ := hdone r hr
        exact absurd hsteps (not_steps_of_finished hfinished)
      · obtain rfl := eq_of_mem_passTasks hother hown
        exact absurd hsteps (not_steps_of_finished hstage)
    | elapse hwaits => exact .reported hdone hstage
    | elsewhere hspares =>
      exact .reported (fun r hr ↦ (hdone r hr).of_spares
        (Reload.spares_of_mem hspares (who_mem_passTasks hr) (handle_mem_of_mem_reloads hr)))
        ((hspares.stage _ (.head _)).trans hstage)

theorem PassState.start (hready : IsReady client who handles w) :
    PassState client who handles w (w.startReloads who handles .reply) := by
  by_cases hsome : handles = []
  · subst hsome
    have htask := hready.task
    have hstage : w.stage? who = some w.tasks[who].stage := by
      rw [stage?, List.getElem?_eq_getElem htask]
      rfl
    have hreport : w.report client [] = .empty := Report.ofResults_nil
    have hfinished : (w.startReloads who [] .reply).stage? who
        = some (.finished (.ok (.report (w.report client []))) w.clock.now) := by
      rw [hreport]
      exact stage?_finish_self hstage _
    exact .reported (fun r hr ↦ absurd hr List.not_mem_nil) hfinished
  · refine .going (hready.crew hsome) ?_
    rw [map_who_reloads]
    exact stage?_startReloads_self hsome hready.task .reply

theorem Passes.state (hready : IsReady client who handles w)
    (hpasses : Passes client who handles w w') : PassState client who handles w w' := by
  induction hpasses with
  | refl => exact .start hready
  | tail _ hlast ih => exact ih.undisturbed hready hlast

/-- A pass can be brought to its end from wherever it is. -/
theorem PassState.exists_reported (hready : IsReady client who handles w)
    (h : PassState client who handles w w') :
    ∃ w'' moment, ReflTransGen (Undisturbed client (w.passTasks who handles) handles) w' w''
      ∧ w''.stage? who = some (.finished (.ok (.report (w.report client handles))) moment) := by
  cases h with
  | reported hdone hstage => exact ⟨w', _, .refl, hstage⟩
  | going hcrew hstage =>
    have hattends : ∀ other ∈ w.passTasks who handles,
        other ∉ (w.reloads client handles).map Reload.who →
        Crew.Attends (w.reloads client handles) w' other := by
      intro other hother hne
      obtain rfl := eq_of_mem_passTasks hother hne
      exact ⟨_, _, hstage, fun r hr ↦ List.mem_map_of_mem hr⟩
    obtain ⟨w₁, hpath, hcrew₁, hdone, hstages⟩ :=
      hcrew.exists_done handles (fun r hr ↦ who_mem_passTasks hr) hattends
    have hstage₁ := (hstages who hready.who_notMem).trans hstage
    -- The task may have been put off until the clock rings.
    have hcrew₂ : Crew client (w.reloads client handles) (w₁.pass 0).ring := hcrew₁.elapse nofun
    obtain ⟨results, hresults⟩ : ∃ results,
        ((w.reloads client handles).map Reload.who).mapM
          (fun child ↦ (w₁.pass 0).ring.tasks[child]?.bind Task.result?) = some results := by
      refine exists_mapM fun child hchild ↦ ?_
      obtain ⟨r, hr, rfl⟩ := List.mem_map.mp hchild
      obtain ⟨⟨moment, hfinished⟩, -⟩ := hdone r hr
      exact ⟨_, result?_eq_some_iff.mpr hfinished⟩
    obtain ⟨w₂, hstep⟩ : ∃ w₂, (w₁.pass 0).ring.step client who = some w₂ :=
      World.exists_step hstage₁ (congrArg (Option.map _) hresults) rfl
    obtain ⟨-, rfl⟩ := steps_of_gathering hcrew₂ hstage₁ (.step hstep)
    have hring : Undisturbed client (w.passTasks who handles) handles w₁ (w₁.pass 0).ring :=
      .elapse fun hpos ↦ absurd hpos (Nat.lt_irrefl 0)
    exact ⟨_, _, (hpath.tail hring).tail (.step (.head _) (.step hstep)),
      stage?_finish_self (w := (w₁.pass 0).ring) hstage₁ _⟩

/-! ## The order in which tasks are joined -/

/-- The results of tasks as they come in, with the names of their groups. The names are known by the
numbers of the tasks. -/
def joined (names : List (Nat × String)) (order : List Nat) (w : World σ) :
    List (String × Except GroupError Unit) :=
  order.filterMap fun child ↦ (names.lookup child).bind fun name ↦
    (w.tasks[child]?.bind Task.result?).map fun r ↦ (name, reloadResult r.1)

theorem joined_zip {children : List Nat} {names : List String} {results : List (Result × Nat)}
    (hchildren : children.Nodup) (hlength : names.length = children.length)
    (hresults : (children.mapM fun child ↦ w.tasks[child]?.bind Task.result?) = some results) :
    w.joined (children.zip names) children
      = names.zip (results.map fun r ↦ reloadResult r.1) := by
  induction children generalizing names results with
  | nil =>
    obtain rfl := List.eq_nil_of_length_eq_zero hlength
    rfl
  | cons child children ih =>
    obtain ⟨name, names, rfl⟩ := List.exists_cons_of_length_eq_add_one hlength
    obtain ⟨hnew, hchildren⟩ := List.nodup_cons.mp hchildren
    rw [List.mapM_cons] at hresults
    obtain ⟨result, hresult, hresults⟩ := Option.bind_eq_some_iff.mp hresults
    obtain ⟨results, hrest, heq⟩ := Option.bind_eq_some_iff.mp hresults
    obtain rfl := Option.some.inj heq
    have hskip : ∀ other ∈ children,
        ((child, name) :: children.zip names).lookup other = (children.zip names).lookup other :=
      fun other hother ↦ by
        rw [List.lookup_cons, beq_eq_false_iff_ne.mpr (ne_of_mem_of_not_mem hother hnew)]
    have htail := ih hchildren (Nat.succ.inj hlength) hrest
    rw [joined] at htail ⊢
    rw [List.zip_cons_cons, List.filterMap_cons, List.lookup_cons_self, hresult,
      List.filterMap_congr fun other hother ↦ congrArg (Option.bind · _) (hskip other hother),
      htail]
    rfl

/-- It does not matter for the report of a pass in which order its tasks are joined. -/
theorem gather_of_order {children order : List Nat} {names : List String}
    {results : List (Result × Nat)} (hchildren : children.Nodup) (hnames : names.Nodup)
    (hlength : names.length = children.length)
    (hresults : (children.mapM fun child ↦ w.tasks[child]?.bind Task.result?) = some results)
    (horder : order.Perm children) (after : AfterPass) :
    w.gather who results (.pass names after)
      = w.endPass who (.ofResults (w.joined (children.zip names) order)) after := by
  have hjoined : (w.joined (children.zip names) children).Perm
      (w.joined (children.zip names) order) := (horder.filterMap _).symm
  have hnodup : ((w.joined (children.zip names) children).map Prod.fst).Nodup := by
    have hsame : children.length = results.length := by
      simpa using congrArg List.length (map_of_mapM hresults)
    have hlength' : names.length ≤ (results.map fun r ↦ reloadResult r.1).length := by
      rw [List.length_map, hlength, hsame]
    rw [joined_zip hchildren hlength hresults, List.map_fst_zip hlength']
    exact hnames
  rw [gather, ← joined_zip hchildren hlength hresults, Report.ofResults_perm hnodup hjoined]

/-! ## The outcome of a pass -/

/-- A pass over some groups has come to a world in which it has ended with a report. -/
def Ends (client : Client σ) (who : Nat) (handles : List Handle) (w w' : World σ)
    (report : Report) : Prop :=
  Passes client who handles w w'
    ∧ ∃ moment, w'.stage? who = some (.finished (.ok (.report report)) moment)

/-- A report is that of a pass in which each group has fared as it would have alone, and the states
of the groups are as the report has it. -/
structure Concludes (client : Client σ) (handles : List Handle) (w w' : World σ)
    (report : Report) : Prop where
  names : (report.refreshed ++ report.failed.map Prod.fst).Perm
    (handles.map fun h ↦ h.group.name)
  once : (report.refreshed ++ report.failed.map Prod.fst).Nodup
  refreshed_sorted : report.refreshed.Pairwise (· < ·)
  failed_sorted : (report.failed.map Prod.fst).Pairwise (· < ·)
  refreshed : ∀ h ∈ handles,
    h.group.name ∈ report.refreshed ↔ w.EndsAlone client h (.ok .nothing)
  failed : ∀ h ∈ handles, ∀ e,
    (h.group.name, e) ∈ report.failed ↔ w.EndsAlone client h (.error (.group e))
  /-- A group that was refreshed has a view of what the cloud told about it. -/
  view : ∀ h ∈ handles, h.group.name ∈ report.refreshed → ∃ description listing before moment,
    client.describe h.group.resourceGroup h.group.name w.cloud = .ok description
    ∧ client.list h.group.resourceGroup h.group.name w.cloud = .ok listing
    ∧ w.cells[h.place]? = some before
    ∧ w'.cells[h.place]? = some { before with
        state.view := some ⟨.build description listing, description.capacity, moment⟩ }
  /-- A group that was not refreshed is as it was. -/
  untouched : ∀ h ∈ handles, h.group.name ∉ report.refreshed →
    w'.cells[h.place]? = w.cells[h.place]?

theorem reloadResult_eq_ok_iff {r : Reload} :
    reloadResult r.result = .ok () ↔ r.result = .ok .nothing := by
  rw [Reload.result]
  split <;> simp [reloadResult]

theorem reloadResult_eq_error_iff {r : Reload} {e : GroupError} :
    reloadResult r.result = .error e ↔ r.result = .error (.group e) := by
  rw [Reload.result]
  split <;> simp [reloadResult]

theorem mem_results_iff (hready : IsReady client who handles w) (hh : h ∈ handles)
    {result : Except GroupError Unit} :
    (h.group.name, result) ∈ ((w.reloads client handles).map fun r ↦
        (r.handle.group.name, reloadResult r.result))
      ↔ reloadResult (w.reload client h who).result = result := by
  rw [List.mem_map]
  constructor
  · rintro ⟨r, hr, heq⟩
    obtain ⟨h', i, hi, rfl⟩ := mem_reloads.mp hr
    obtain ⟨hname, rfl⟩ := Prod.mk.inj heq
    obtain rfl : h' = h := List.inj_on_of_nodup_map hready.nodup_names
      (List.mem_of_getElem? hi) hh hname
    rfl
  · rintro rfl
    obtain ⟨i, hi⟩ := List.mem_iff_getElem?.mp hh
    exact ⟨_, mem_reloads.mpr ⟨h, i, hi, rfl⟩, rfl⟩

theorem map_fst_results (client : Client σ) (handles : List Handle) (w : World σ) :
    ((w.reloads client handles).map fun r ↦ (r.handle.group.name, reloadResult r.result)).map
      Prod.fst = handles.map fun h ↦ h.group.name := by
  rw [List.map_map]
  exact map_reloads (fun h ↦ h.group.name) client handles w

theorem cell_of_done (hdone : ∀ r ∈ w.reloads client handles, r.IsDone w') (hh : h ∈ handles) :
    w'.cells[h.place]? = some ⟨(w.reload client h who).after, .free⟩ := by
  obtain ⟨i, hi⟩ := List.mem_iff_getElem?.mp hh
  exact (hdone _ (mem_reloads.mpr ⟨h, i, hi, rfl⟩)).2

namespace IsReady

variable (hready : IsReady client who handles w)

include hready

theorem endsAlone_iff_result (hh : h ∈ handles) {result : Result} :
    w.EndsAlone client h result ↔ result = (w.reload client h who).result := by
  obtain ⟨state, hcell⟩ := hready.free h hh
  refine endsAlone_iff hcell (hready.discreet.of_subset ?_) hready.rung
  exact List.cons_subset.mpr ⟨List.mem_map_of_mem hh, List.nil_subset _⟩

theorem mem_refreshed_iff (hh : h ∈ handles) :
    h.group.name ∈ (w.report client handles).refreshed
      ↔ (w.reload client h who).result = .ok .nothing :=
  Report.mem_refreshed.trans ((mem_results_iff hready hh).trans reloadResult_eq_ok_iff)

theorem mem_failed_iff (hh : h ∈ handles) {e : GroupError} :
    (h.group.name, e) ∈ (w.report client handles).failed
      ↔ (w.reload client h who).result = .error (.group e) :=
  Report.mem_failed.trans ((mem_results_iff hready hh).trans reloadResult_eq_error_iff)

/-- A pass whose reloads are done concludes. -/
theorem concludes (hdone : ∀ r ∈ w.reloads client handles, r.IsDone w') :
    Concludes client handles w w' (w.report client handles) := by
  have hcell : ∀ {h}, h ∈ handles →
      w'.cells[h.place]? = some ⟨(w.reload client h who).after, .free⟩ := cell_of_done hdone
  have hnames := map_fst_results client handles w
  have hnodup := hready.nodup_names
  rw [← hnames] at hnodup
  refine ⟨hnames ▸ Report.perm_names _, Report.nodup_names hnodup, Report.pairwise_refreshed hnodup,
    Report.pairwise_failed hnodup, fun h hh ↦ ?_, fun h hh e ↦ ?_, fun h hh hmem ↦ ?_,
    fun h hh hmem ↦ ?_⟩
  case refine_1 =>
    rw [hready.mem_refreshed_iff hh, hready.endsAlone_iff_result hh, eq_comm]
  case refine_2 =>
    rw [hready.mem_failed_iff hh, hready.endsAlone_iff_result hh, eq_comm]
  case refine_3 =>
    obtain ⟨state, hbefore⟩ := hready.free h hh
    rw [hready.mem_refreshed_iff hh] at hmem
    cases houtcome : (w.reload client h who).outcome with
    | error e => cases (Reload.result_of_error houtcome).symm.trans hmem
    | ok view =>
      obtain ⟨cache, spent⟩ := view
      obtain ⟨description, listing, hdescription, hlisting, rfl⟩ := Manner.outcome_eq_ok houtcome
      refine ⟨description, listing, ⟨state, .free⟩, w.clock.now + spent, hdescription, hlisting,
        hbefore, ?_⟩
      rw [hcell hh, Reload.after_of_ok houtcome, reload, hbefore]
      rfl
  case refine_4 =>
    obtain ⟨state, hbefore⟩ := hready.free h hh
    rw [hready.mem_refreshed_iff hh] at hmem
    cases houtcome : (w.reload client h who).outcome with
    | ok view => exact absurd (Reload.result_of_ok houtcome) hmem
    | error e =>
      rw [hcell hh, Reload.after_of_error houtcome, reload, hbefore]
      rfl

end IsReady

theorem Ends.state (hready : IsReady client who handles w) {report : Report}
    (hends : Ends client who handles w w' report) :
    report = w.report client handles ∧ ∀ r ∈ w.reloads client handles, r.IsDone w' := by
  obtain ⟨hpasses, moment, hfinished⟩ := hends
  cases hpasses.state hready with
  | going hcrew hstage => cases hstage.symm.trans hfinished
  | reported hdone hstage =>
    cases hstage.symm.trans hfinished
    exact ⟨rfl, hdone⟩

/-- **Refresh passes do not depend on scheduling.** A pass over some groups that nobody disturbs can
be brought to its end from wherever it is, and it ends with a report and nothing else. The report
has each of the groups once, in the order of their names; a group is refreshed just if a reload of
it alone would succeed, and then its view is of its own description and listing; otherwise the
report has the error of a reload of it alone, and the group is as it was before. So all orders of
steps lead to the same report and to the same states. -/
theorem IsReady.pass_deterministic (hready : IsReady client who handles w) :
    (∀ w', Passes client who handles w w' → ∃ w'' report,
      ReflTransGen (Undisturbed client (w.passTasks who handles) handles) w' w''
        ∧ Ends client who handles w w'' report)
    ∧ (∀ w' result moment, Passes client who handles w w' →
      w'.stage? who = some (.finished result moment) → ∃ report, result = .ok (.report report))
    ∧ (∀ w' report, Ends client who handles w w' report →
      Concludes client handles w w' report)
    ∧ ∀ w₁ w₂ report₁ report₂, Ends client who handles w w₁ report₁ →
      Ends client who handles w w₂ report₂ →
      report₁ = report₂ ∧ ∀ h ∈ handles, w₁.cells[h.place]? = w₂.cells[h.place]? := by
  refine ⟨fun w' hpasses ↦ ?_, fun w' result moment hpasses hfinished ↦ ?_,
    fun w' report hends ↦ ?_, fun w₁ w₂ report₁ report₂ hends₁ hends₂ ↦ ?_⟩
  · obtain ⟨w'', moment, hpath, hstage⟩ := (hpasses.state hready).exists_reported hready
    exact ⟨w'', _, hpath, hpasses.trans hpath, moment, hstage⟩
  · cases hpasses.state hready with
    | going hcrew hstage => cases hstage.symm.trans hfinished
    | reported hdone hstage =>
      cases hstage.symm.trans hfinished
      exact ⟨_, rfl⟩
  · obtain ⟨rfl, hdone⟩ := hends.state hready
    exact hready.concludes hdone
  · obtain ⟨rfl, hdone₁⟩ := hends₁.state hready
    obtain ⟨rfl, hdone₂⟩ := hends₂.state hready
    refine ⟨rfl, fun h hh ↦ ?_⟩
    have hcell : w₁.cells[h.place]? = some ⟨(w.reload client h who).after, .free⟩ :=
      cell_of_done hdone₁ hh
    exact hcell.trans (cell_of_done hdone₂ hh).symm

/-! ## A pass with failures -/

def quartet : Registry where
  handles := [⟨Group.pool, 0⟩, ⟨spare, 1⟩,
    ⟨poolNamed "slow" (not_isBlank_of_mem (by simp : 's' ∈ _) rfl), 2⟩,
    ⟨poolNamed "broken" (not_isBlank_of_mem (by simp : 'b' ∈ _) rfl), 3⟩]
  groupTimeout := .defaultGroupTimeout
  minInterval := .defaultMinInterval
  lastPass := none
  distinct := by decide +kernel

/-- Their cloud. It refuses the listing of the second, gives that of the third too late, and the
client breaks down on the fourth. -/
def cloudOfQuartet : Memory :=
  ((((cloudOfPair.put "rg" (.bare "slow" 1)).put "rg" (.bare "broken" 1)).delay .list "slow"
    3600000).fail .list "spare" (.unavailable "maintenance")).breakDown "broken"

/-- A world in which a task is about to start a pass over the four groups. -/
def mixed : World Memory :=
  { World.initial cloudOfQuartet quartet with tasks := [⟨.launching none .reloadAll, none⟩] }

theorem isReady_mixed : IsReady Memory.client 0 quartet.handles mixed where
  registered := .refl _
  places := by decide
  free h hh := by
    have hcells : ∀ place < 4, mixed.cells[place]? = some .initial := by decide
    refine ⟨.initial, hcells _ ?_⟩
    revert h
    decide
  task := Nat.one_pos
  rung := Nat.le_refl _
  discreet := Memory.discreet_client _

theorem IsReady.pass_deterministic_of_mixed : ∃ w' report,
    Ends Memory.client 0 quartet.handles mixed w' report
      ∧ Concludes Memory.client quartet.handles mixed w' report
      ∧ "pool" ∈ report.refreshed
      ∧ ("spare", .cloud (.unavailable "maintenance")) ∈ report.failed
      ∧ ("slow", .timedOut "slow" .defaultGroupTimeout) ∈ report.failed
      ∧ ("broken", .brokeDown) ∈ report.failed := by
  obtain ⟨hfinishes, -, hconcludes, -⟩ := isReady_mixed.pass_deterministic
  obtain ⟨w', report, -, hends⟩ := hfinishes _ .refl
  have hconcluded := hconcludes w' report hends
  obtain ⟨rfl, -⟩ := hends.state isReady_mixed
  refine ⟨w', _, hends, hconcluded, (isReady_mixed.mem_refreshed_iff (.head _)).mpr ?_,
    (isReady_mixed.mem_failed_iff (.tail _ (.head _))).mpr ?_,
    (isReady_mixed.mem_failed_iff (.tail _ (.tail _ (.head _)))).mpr ?_,
    (isReady_mixed.mem_failed_iff (.tail _ (.tail _ (.tail _ (.head _))))).mpr ?_⟩
  all_goals with_unfolding_all rfl

end World

end NodeGroups.Simulation
