import Mathlib
import NodeGroups.Proofs.Undisturbed

/-!
# Reloads side by side

Reloads of different groups that nobody disturbs go on side by side, each in its own phases, since
a step of one leaves the others alone. There is always one of them that can go on, at once or when
the next timer has gone off, and with each step there are fewer to come. So all of them can be
brought to their ends from wherever they are.
-/

namespace NodeGroups.Simulation

open World

variable {σ : Type} {client : Client σ}

/-- Two reloads have nothing in common. -/
structure Reload.Apart (r r' : Reload) : Prop where
  who : r.who ≠ r'.who
  place : r.handle.place ≠ r'.handle.place
  name : r.handle.group.name ≠ r'.handle.group.name

instance : Std.Symm Reload.Apart where
  symm _ _ h := ⟨h.who.symm, h.place.symm, h.name.symm⟩

namespace World

variable {w : World σ} {who : Nat}

theorem exists_step {stage : Stage σ} {next : World σ} (hstage : w.stage? who = some stage)
    (hnext : w.stepTask client who stage = some next) (hdeferred : w.deferred = []) :
    ∃ w', w.step client who = some w' := by
  refine ⟨_, step_of_stepTask hstage hnext ?_⟩
  rw [hdeferred]
  exact List.not_mem_nil

theorem result?_eq_some_iff {result : Result} {moment : Nat} :
    w.tasks[who]?.bind Task.result? = some (result, moment)
      ↔ w.stage? who = some (.finished result moment) := by
  rw [stage?]
  cases w.tasks[who]? with
  | none => simp
  | some task =>
    obtain ⟨stage, parent⟩ := task
    rw [Option.bind_some, Option.map_some, Task.result?]
    cases stage <;> simp

theorem finished_of_mapM {children : List Nat} {results : List (Result × Nat)}
    (hresults : (children.mapM fun child ↦ w.tasks[child]?.bind Task.result?) = some results)
    {child : Nat} (hchild : child ∈ children) :
    ∃ result moment, w.stage? child = some (.finished result moment) := by
  have hmem := List.mem_map_of_mem (f := fun child ↦ w.tasks[child]?.bind Task.result?) hchild
  rw [map_of_mapM hresults] at hmem
  obtain ⟨⟨result, moment⟩, -, heq⟩ := List.mem_map.mp hmem
  exact ⟨result, moment, result?_eq_some_iff.mp heq.symm⟩

theorem waits_of_gathering {children : List Nat} {gathering : Gathering}
    (hstage : w.stage? who = some (.gathering children gathering)) {child : Nat}
    (hchild : child ∈ children)
    (hopen : ∀ result moment, w.stage? child ≠ some (.finished result moment)) (moment : Nat) :
    w.Waits client who moment := by
  intro stage hstage'
  obtain rfl := Option.some.inj (hstage.symm.trans hstage')
  refine ⟨?_, nofun⟩
  rw [stepTask, Option.map_eq_none_iff, Option.eq_none_iff_forall_ne_some]
  intro results hresults
  obtain ⟨result, moment, hfinished⟩ := finished_of_mapM hresults hchild
  exact hopen _ _ hfinished

end World

/-- Reloads with nothing in common are under way, and the clients' calls have no side effects. -/
structure Crew (client : Client σ) (rs : List Reload) (w : World σ) : Prop where
  apart : rs.Pairwise Reload.Apart
  discreet : client.Discreet (rs.map fun r ↦ r.handle.group)
  rung : w.clock.rung ≤ w.clock.now
  underway : ∀ r ∈ rs, r.Underway client w

def World.left (rs : List Reload) (w : World σ) : Nat := (rs.map fun r ↦ w.stepsLeft r.who).sum

namespace Crew

variable {rs : List Reload} {w w' : World σ} {r : Reload}

theorem of_spares (h : Crew client rs w)
    (hspares : Spares client (rs.map Reload.who) (rs.map Reload.handle) w w') :
    Crew client rs w' where
  apart := h.apart
  discreet := h.discreet
  rung := by
    rw [hspares.clock]
    exact h.rung
  underway r hr := (h.underway r hr).of_spares
    (Reload.spares_of_mem hspares (List.mem_map_of_mem hr) (List.mem_map_of_mem hr))

theorem elapse (h : Crew client rs w) {ms : Nat}
    (hwaits : 0 < ms → ∀ r ∈ rs, w.Waits client r.who (w.clock.now + ms)) :
    Crew client rs (w.pass ms).ring where
  apart := h.apart
  discreet := h.discreet
  rung := Nat.le_refl _
  underway r hr := (h.underway r hr).elapse fun hpos ↦ hwaits hpos r hr

theorem goesOn (h : Crew client rs w) (hr : r ∈ rs) (hsteps : w.Steps client r.who w') :
    r.GoesOn client (rs.map fun r ↦ r.handle.group) w w' :=
  (h.underway r hr).step h.discreet (List.mem_map_of_mem hr) h.rung hsteps

theorem spares_of_ne (h : Crew client rs w) (hr : r ∈ rs) (hsteps : w.Steps client r.who w')
    {other : Reload} (hother : other ∈ rs) (hne : other ≠ r) :
    Spares client [other.who] [other.handle] w w' := by
  have hapart : other.Apart r := h.apart.forall hother hr hne
  refine (h.goesOn hr hsteps).spares ?_ ?_
  · exact fun hmem ↦ hapart.who (List.mem_singleton.mp hmem).symm
  · intro handle hmem
    obtain rfl := List.mem_singleton.mp hmem
    exact ⟨List.mem_map.mpr ⟨other, hother, rfl⟩, hapart.place, hapart.name⟩

theorem step (h : Crew client rs w) (hr : r ∈ rs) (hsteps : w.Steps client r.who w') :
    Crew client rs w' where
  apart := h.apart
  discreet := h.discreet
  rung := by
    have hspares : Spares client [] [] w w' :=
      (h.goesOn hr hsteps).spares List.not_mem_nil (fun _ hmem ↦ absurd hmem List.not_mem_nil)
    rw [hspares.clock]
    exact h.rung
  underway other hother := by
    by_cases heq : other = r
    · rw [heq]
      exact (h.goesOn hr hsteps).underway
    · exact (h.underway other hother).of_spares (h.spares_of_ne hr hsteps hother heq)

theorem stage?_of_notMem (h : Crew client rs w) (hr : r ∈ rs)
    (hsteps : w.Steps client r.who w') {who : Nat} (hwho : who ∉ rs.map Reload.who) :
    w'.stage? who = w.stage? who := by
  have hne : r.who ∉ [who] := fun hmem ↦
    hwho ((List.mem_singleton.mp hmem) ▸ List.mem_map_of_mem hr)
  have hspares : Spares client [who] [] w w' :=
    (h.goesOn hr hsteps).spares hne (fun _ hmem ↦ absurd hmem List.not_mem_nil)
  exact hspares.stage who (.head _)

theorem left_lt (h : Crew client rs w) (hr : r ∈ rs) (hsteps : w.Steps client r.who w') :
    w'.left rs < w.left rs := by
  refine List.sum_lt_sum _ _ (fun other hother ↦ ?_) ⟨r, hr, (h.goesOn hr hsteps).closer⟩
  by_cases heq : other = r
  · rw [heq]
    exact (h.goesOn hr hsteps).closer.le
  · rw [stepsLeft, stepsLeft, (h.spares_of_ne hr hsteps hother heq).stage _ (.head _)]

/-- Whatever happens, as long as nobody disturbs the reloads, they stay under way. -/
theorem undisturbed (h : Crew client rs w) {whos : List Nat} {handles : List Handle}
    (hundisturbed : Undisturbed client whos handles w w')
    (hmem : ∀ r ∈ rs, r.who ∈ whos ∧ r.handle ∈ handles)
    (hothers : ∀ who ∈ whos, who ∉ rs.map Reload.who → w.Steps client who w' →
      Spares client (rs.map Reload.who) (rs.map Reload.handle) w w') : Crew client rs w' := by
  cases hundisturbed with
  | @step who _ _ hwho hsteps =>
    by_cases hown : who ∈ rs.map Reload.who
    · obtain ⟨r, hr, rfl⟩ := List.mem_map.mp hown
      exact h.step hr hsteps
    · exact h.of_spares (hothers who hwho hown hsteps)
  | elapse hwaits => exact h.elapse fun hpos r hr ↦ hwaits hpos r.who (hmem r hr).1
  | elsewhere hspares =>
    refine h.of_spares (hspares.of_subset ?_ ?_)
    · intro who hwho
      obtain ⟨r, hr, rfl⟩ := List.mem_map.mp hwho
      exact (hmem r hr).1
    · intro handle hhandle
      obtain ⟨r, hr, rfl⟩ := List.mem_map.mp hhandle
      exact (hmem r hr).2

/-! ## Progress -/

theorem exists_first (h : Crew client rs w)
    (hidle : ∀ r ∈ rs, ∀ stage, w.stage? r.who = some stage →
      w.stepTask client r.who stage = none) (hr : r ∈ rs) (hopen : ¬ r.IsDone w) :
    ∃ owner ∈ rs, ∃ stage first, w.stage? owner.who = some stage ∧ first ∈ stage.timers
      ∧ ∀ r ∈ rs, w.Waits client r.who first.due := by
  -- Of all timers that the reloads wait for, the next is one that is due the earliest.
  let timers := rs.flatMap fun r ↦ ((w.stage? r.who).map Stage.timers).getD []
  have hmem : ∀ {timer}, timer ∈ timers ↔
      ∃ r ∈ rs, ∃ stage, w.stage? r.who = some stage ∧ timer ∈ stage.timers := by
    intro timer
    refine List.mem_flatMap.trans (exists_congr fun r ↦ and_congr_right fun _ ↦ ?_)
    cases w.stage? r.who with
    | none => simp
    | some stage => simp
  have hsome : timers ≠ [] := by
    cases h.underway r hr with
    | done hdone => exact absurd hdone hopen
    | visiting hstage =>
      obtain ⟨hne, -⟩ := (h.underway r hr).timers hstage (hidle r hr _ hstage) hopen
      obtain ⟨timer, htimer⟩ := List.exists_mem_of_ne_nil _ hne
      exact List.ne_nil_of_mem (hmem.mpr ⟨r, hr, _, hstage, htimer⟩)
  obtain ⟨first, hfirst⟩ := Option.ne_none_iff_exists'.mp fun hnone ↦
    hsome (List.argmin_eq_none.mp (hnone : timers.argmin Timer.due = none))
  obtain ⟨owner, howner, stage, hstage, hfirst'⟩ := hmem.mp (List.argmin_mem hfirst)
  refine ⟨owner, howner, stage, first, hstage, hfirst', fun r hr stage hstage ↦ ?_⟩
  exact ⟨hidle r hr stage hstage, fun timer htimer ↦
    List.le_of_mem_argmin (hmem.mpr ⟨r, hr, stage, hstage, htimer⟩) hfirst⟩

theorem not_isDone_of_timer {stage : Stage σ} {timer : Timer} (hstage : w.stage? r.who = some stage)
    (htimer : timer ∈ stage.timers) : ¬ r.IsDone w := by
  rintro ⟨⟨moment, hfinished⟩, -⟩
  obtain rfl := Option.some.inj (hfinished.symm.trans hstage)
  exact absurd htimer List.not_mem_nil

theorem exists_step_of_timer (h : Crew client rs w) (hr : r ∈ rs) {stage : Stage σ} {timer : Timer}
    (hstage : w.stage? r.who = some stage) (htimer : timer ∈ stage.timers)
    (hpast : timer.due ≤ w.clock.rung) (hdeferred : w.deferred = []) :
    ∃ w', w.step client r.who = some w' := by
  cases hnext : w.stepTask client r.who stage with
  | some next => exact World.exists_step hstage hnext hdeferred
  | none =>
    obtain ⟨-, hlt⟩ := (h.underway r hr).timers hstage hnext (not_isDone_of_timer hstage htimer)
    exact absurd hpast (Nat.not_le.mpr (hlt timer htimer))

/-- When the clock has rung, a reload can go on at once, or all of them wait, and one can go on when
the next timer has gone off. -/
theorem exists_awake (h : Crew client rs w) (hrung : w.clock.rung = w.clock.now)
    (hdeferred : w.deferred = []) (hr : r ∈ rs) (hopen : ¬ r.IsDone w) :
    (∃ r ∈ rs, ∃ w', w.step client r.who = some w')
      ∨ ∃ ms, (∀ r ∈ rs, w.Waits client r.who (w.clock.now + ms))
        ∧ ∃ r ∈ rs, ∃ w', (w.pass ms).ring.step client r.who = some w' := by
  by_cases hidle : ∀ r ∈ rs, ∀ stage, w.stage? r.who = some stage →
      w.stepTask client r.who stage = none
  · right
    obtain ⟨owner, howner, stage, first, hstage, hfirst, hwaits⟩ := h.exists_first hidle hr hopen
    have hlt : w.clock.now < first.due := by
      rw [← hrung]
      exact ((h.underway owner howner).timers hstage (hidle owner howner stage hstage)
        (not_isDone_of_timer hstage hfirst)).2 first hfirst
    obtain ⟨ms, hms⟩ := Nat.exists_eq_add_of_le hlt.le
    rw [hms] at hwaits
    exact ⟨ms, hwaits, owner, howner,
      (h.elapse fun _ ↦ hwaits).exists_step_of_timer howner hstage hfirst hms.le rfl⟩
  · left
    push Not at hidle
    obtain ⟨r, hr, stage, hstage, hnext⟩ := hidle
    obtain ⟨next, hnext⟩ := Option.ne_none_iff_exists'.mp hnext
    exact ⟨r, hr, World.exists_step hstage hnext hdeferred⟩

variable {whos : List Nat}

/-- A task waits for all of the reloads. -/
def Attends (rs : List Reload) (w : World σ) (who : Nat) : Prop :=
  ∃ children gathering, w.stage? who = some (.gathering children gathering)
    ∧ ∀ r ∈ rs, r.who ∈ children

/-- Unless all of the reloads are done, one of them takes a step, if need be after some time. The
other tasks wait meanwhile. -/
theorem exists_nearer (handles : List Handle) (h : Crew client rs w) (hmem : ∀ r ∈ rs, r.who ∈ whos)
    (hothers : ∀ who ∈ whos, who ∉ rs.map Reload.who → Attends rs w who) (hr : r ∈ rs)
    (hopen : ¬ r.IsDone w) :
    ∃ w', Relation.ReflTransGen (Undisturbed client whos handles) w w' ∧ Crew client rs w'
      ∧ w'.left rs < w.left rs ∧ ∀ who ∉ rs.map Reload.who, w'.stage? who = w.stage? who := by
  -- The clock rings first, so that nobody is put off any longer.
  have hnow : 0 < 0 → ∀ who ∈ whos, w.Waits client who (w.clock.now + 0) := nofun
  have h₁ : Crew client rs (w.pass 0).ring := h.elapse nofun
  have hfirst : Relation.ReflTransGen (Undisturbed client whos handles) w (w.pass 0).ring :=
    .single (.elapse hnow)
  rcases h₁.exists_awake rfl rfl hr hopen with
    ⟨other, hother, w', hstep⟩ | ⟨ms, hwaits, other, hother, w', hstep⟩
  · have hsteps : (w.pass 0).ring.Steps client other.who w' := .step hstep
    exact ⟨w', hfirst.tail (.step (hmem other hother) hsteps), h₁.step hother hsteps,
      h₁.left_lt hother hsteps, fun who hwho ↦ h₁.stage?_of_notMem hother hsteps hwho⟩
  · have h₂ := h₁.elapse fun _ ↦ hwaits
    have hall : ∀ who ∈ whos,
        (w.pass 0).ring.Waits client who ((w.pass 0).ring.clock.now + ms) := by
      intro who hwho
      by_cases hown : who ∈ rs.map Reload.who
      · obtain ⟨own, howner, rfl⟩ := List.mem_map.mp hown
        exact hwaits own howner
      · obtain ⟨children, gathering, hstage, hchildren⟩ := hothers who hwho hown
        have hstage₁ : (w.pass 0).ring.stage? who = some (.gathering children gathering) := hstage
        exact waits_of_gathering hstage₁ (hchildren r hr)
          (fun result moment hfinished ↦ hopen ((h.underway r hr).isDone hfinished)) _
    have hsteps : ((w.pass 0).ring.pass ms).ring.Steps client other.who w' := .step hstep
    exact ⟨w', (hfirst.tail (.elapse fun _ ↦ hall)).tail (.step (hmem other hother) hsteps),
      h₂.step hother hsteps, h₂.left_lt hother hsteps,
      fun who hwho ↦ h₂.stage?_of_notMem hother hsteps hwho⟩

/-- All of the reloads can be brought to their ends. -/
theorem exists_done (handles : List Handle) (h : Crew client rs w) (hmem : ∀ r ∈ rs, r.who ∈ whos)
    (hothers : ∀ who ∈ whos, who ∉ rs.map Reload.who → Attends rs w who) :
    ∃ w', Relation.ReflTransGen (Undisturbed client whos handles) w w' ∧ Crew client rs w'
      ∧ (∀ r ∈ rs, r.IsDone w') ∧ ∀ who ∉ rs.map Reload.who, w'.stage? who = w.stage? who := by
  induction hleft : w.left rs using Nat.strong_induction_on generalizing w with
  | _ left ih =>
    by_cases hdone : ∀ r ∈ rs, r.IsDone w
    · exact ⟨w, .refl, h, hdone, fun _ _ ↦ rfl⟩
    · push Not at hdone
      obtain ⟨r, hr, hopen⟩ := hdone
      obtain ⟨w₁, hfirst, h₁, hlt, hstages⟩ := h.exists_nearer handles hmem hothers hr hopen
      have hothers₁ : ∀ who ∈ whos, who ∉ rs.map Reload.who → Attends rs w₁ who := by
        intro who hwho hown
        rw [Attends, hstages who hown]
        exact hothers who hwho hown
      obtain ⟨w', hrest, h', hdone, hstages'⟩ := ih _ (hleft ▸ hlt) h₁ hothers₁ rfl
      exact ⟨w', hfirst.trans hrest, h', hdone,
        fun who hwho ↦ (hstages' who hwho).trans (hstages who hwho)⟩

end Crew

end NodeGroups.Simulation
