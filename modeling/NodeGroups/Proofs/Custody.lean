import NodeGroups.Proofs.Parts

/-!
# Who is in which lock

A task is in the lock of the registry from the time it asks for it until it has got what it wanted,
and for as long as it selects the groups that need a refresh. It is in the lock of a group as the
activity says with which it visits the group. What a task waits for tells all this, and the locks
agree with it: that is the custody of the locks, which every step keeps.

In the middle of a step a task may have left a lock without having gone on to wait for something
else. The locks then agree with the tasks but for this one, which is apart from them.
-/

namespace NodeGroups.Simulation

variable {σ : Type}

namespace World

variable {w w' : World σ} {who : Nat}

/-! ## What the tasks tell -/

section

variable {α : Type} {f : Stage σ → Option α}

/-- What a task tells by what it waits for. -/
def tell (f : Stage σ → Option α) (w : World σ) (who : Nat) : Option α := (w.stage? who).bind f

theorem tell_eq {stage : Stage σ} (hstage : w.stage? who = some stage) :
    w.tell f who = f stage := by
  rw [tell, hstage, Option.bind_some]

theorem tell_congr (htasks : w'.tasks = w.tasks) : w'.tell f = w.tell f := by
  funext other
  rw [tell, tell, stage?, stage?, htasks]

theorem tell_setStage {s : Stage σ} (hstage : w.stage? who = some s) (stage : Stage σ) :
    (w.setStage who stage).tell f = Function.update (w.tell f) who (f stage) := by
  funext other
  by_cases hother : other = who
  · subst hother
    rw [tell_eq (stage?_setStage_self hstage _), Function.update_self]
  · rw [tell, stage?_setStage_of_ne hother, Function.update_of_ne hother, tell]

theorem tell_setStage_of_eq {s stage : Stage σ} (hstage : w.stage? who = some s)
    (heq : f stage = f s) : (w.setStage who stage).tell f = w.tell f := by
  rw [tell_setStage hstage, heq]
  exact Function.update_eq_self_iff.mpr (tell_eq hstage).symm

theorem tell_append {tasks : List (Task σ)} (hnone : ∀ task ∈ tasks, f task.stage = none)
    (w : World σ) : tell f { w with tasks := w.tasks ++ tasks } = w.tell f := by
  funext other
  by_cases hlt : other < w.tasks.length
  · rw [tell, stage?, List.getElem?_append_left hlt, tell, stage?]
  · have hgone : w.stage? other = none := by
      rw [stage?, List.getElem?_eq_none (Nat.le_of_not_lt hlt)]
      rfl
    rw [tell, tell, hgone, stage?, List.getElem?_append_right (Nat.le_of_not_lt hlt)]
    cases htask : tasks[other - w.tasks.length]? with
    | none => rfl
    | some task => exact hnone task (List.mem_of_getElem? htask)

end

/-! ## Places -/

/-- Every group that somebody can visit has its place. -/
structure Housed (w : World σ) : Prop where
  registered : ∀ h ∈ w.registry.handles, h.place < w.cells.length
  held : ∀ e ∈ w.held.entries, e.2.place < w.cells.length
  newcomers : ∀ {who h}, w.tell Stage.newcomer? who = some h → h.place < w.cells.length

theorem Housed.grow (h : Housed w) {w' : World σ} (hcells : w.cells.length ≤ w'.cells.length)
    (htasks : w'.tasks = w.tasks) (hregistry : w'.registry.handles = w.registry.handles)
    (hheld : w'.held = w.held) : Housed w' where
  registered handle hmem := Nat.lt_of_lt_of_le (h.registered handle (hregistry ▸ hmem)) hcells
  held entry hmem := Nat.lt_of_lt_of_le (h.held entry (hheld ▸ hmem)) hcells
  newcomers hnew := by
    rw [tell_congr htasks] at hnew
    exact Nat.lt_of_lt_of_le (h.newcomers hnew) hcells

theorem Housed.setStage (h : Housed w) {s stage : Stage σ} (hstage : w.stage? who = some s)
    (hnew : ∀ handle, stage.newcomer? = some handle → handle.place < w.cells.length) :
    Housed (w.setStage who stage) where
  registered := h.registered
  held := h.held
  newcomers {other handle} hother := by
    rw [tell_setStage hstage] at hother
    by_cases heq : other = who
    · rw [heq, Function.update_self] at hother
      exact hnew handle hother
    · rw [Function.update_of_ne heq] at hother
      exact h.newcomers hother

theorem Housed.addGroup (h : Housed w) (group : Group) :
    Housed (w.addGroup group).2
      ∧ (w.addGroup group).1.place < (w.addGroup group).2.cells.length := by
  have hlength : (w.addGroup group).2.cells.length = w.cells.length + 1 := List.length_append
  refine ⟨h.grow ?_ rfl rfl rfl, ?_⟩
  · rw [hlength]
    exact Nat.le_succ _
  · rw [hlength]
    exact Nat.lt_succ_self _

/-! ## Custody -/

/-- The lock of the group at a place. Where there is no group, nobody is in its lock. -/
def lockAt (w : World σ) (place : Nat) : Lock := (w.cells[place]?.map Group.Cell.lock).getD .free

/-- Every lock has in it just the tasks that wait for it or hold it, and every group that somebody
can visit has its place. -/
structure Custody (w : World σ) : Prop extends Housed w where
  gate : w.gate.Tended (w.tell Stage.gateClaim?)
  cells : ∀ place, (w.lockAt place).Tended (w.tell (Stage.claim? place))

/-- The custody of the locks in the middle of a step of a task, which is in the lock of the registry
as claimed, whatever it waits for, and in that of no group. -/
structure Apart (who : Nat) (claim : Option Access) (w : World σ) : Prop extends Housed w where
  gate : w.gate.Tended (Function.update (w.tell Stage.gateClaim?) who claim)
  cells : ∀ place,
    (w.lockAt place).Tended (Function.update (w.tell (Stage.claim? place)) who none)
  task : ∃ stage, w.stage? who = some stage

/-- A task that is in no group's lock is apart from the locks of the groups. -/
theorem Custody.apart (h : Custody w) {stage : Stage σ} (hstage : w.stage? who = some stage)
    (hout : ∀ place, stage.claim? place = none) : Apart who stage.gateClaim? w where
  toHoused := h.toHoused
  gate := h.gate.keep (tell_eq hstage)
  cells place := (h.cells place).keep ((tell_eq hstage).trans (hout place))
  task := ⟨stage, hstage⟩

/-- What is neither a lock nor a task nor a known group may change. -/
theorem Custody.congr (h : Custody w) (hcells : w'.cells = w.cells) (hgate : w'.gate = w.gate)
    (htasks : w'.tasks = w.tasks) (hregistry : w'.registry = w.registry)
    (hheld : w'.held = w.held) : Custody w' where
  toHoused := h.toHoused.grow (hcells ▸ Nat.le_refl _) htasks (by rw [hregistry]) hheld
  gate := by
    rw [hgate, tell_congr htasks]
    exact h.gate
  cells place := by
    rw [lockAt, hcells, tell_congr htasks]
    exact h.cells place

theorem Custody.of_tasks (h : Custody w) {tasks : List (Task σ)}
    (htell : ∀ {α : Type} {f : Stage σ → Option α}, (∀ {stage : Stage σ}, stage.IsIdle →
      f stage = none) → tell f { w with tasks } = w.tell f) :
    Custody { w with tasks } where
  registered := h.registered
  held := h.held
  newcomers hnew := by
    rw [htell fun hidle ↦ hidle.newcomer?] at hnew
    exact h.newcomers hnew
  gate := by
    rw [htell fun hidle ↦ hidle.gateClaim?]
    exact h.gate
  cells place := by
    rw [htell fun hidle ↦ hidle.claim? place]
    exact h.cells place

/-! ## On the way -/

variable {client : Client σ} {t : Topic} {claim claim' : Option Access}

namespace Apart

theorem congr (h : Apart who claim w) (hhoused : Housed w') (hlocks : w'.lockAt = w.lockAt)
    (hgate : w'.gate = w.gate) (htasks : w'.tasks = w.tasks) : Apart who claim w' where
  toHoused := hhoused
  gate := by
    rw [hgate, tell_congr htasks]
    exact h.gate
  cells place := by
    rw [hlocks, tell_congr htasks]
    exact h.cells place
  task := by
    rw [stage?, htasks]
    exact h.task

theorem leaveGate (h : Apart who claim w) : Apart who none (w.leaveGate who) where
  toHoused := h.toHoused.grow (Nat.le_refl _) rfl rfl rfl
  gate := by
    have hleft : (w.gate.leave who).Tended
        (Function.update (Function.update (w.tell Stage.gateClaim?) who claim) who none) :=
      h.gate.leave
    rwa [Function.update_idem] at hleft
  cells := h.cells
  task := h.task

/-- Nobody is in the lock of a new group, as nobody was before there was the place. -/
theorem addGroup (h : Apart who claim w) (group : Group) :
    Apart who claim (w.addGroup group).2 := by
  refine h.congr (h.toHoused.addGroup group).1 (funext fun place ↦ ?_) rfl rfl
  change ((w.cells ++ [.initial])[place]?.map _).getD _ = (w.cells[place]?.map _).getD _
  rcases Nat.lt_trichotomy place w.cells.length with hlt | rfl | hgt
  · rw [List.getElem?_append_left hlt]
  · rw [List.getElem?_concat_length, List.getElem?_eq_none (Nat.le_refl _)]
    rfl
  · rw [List.getElem?_eq_none (Nat.le_of_lt hgt), List.getElem?_eq_none]
    rw [List.length_append]
    exact hgt

theorem setStage {stage : Stage σ} (h : Apart who claim w) (hgate : stage.gateClaim? = claim)
    (hout : stage.IsOutside) : Custody (w.setStage who stage) := by
  obtain ⟨s, hstage⟩ := h.task
  constructor
  · refine h.toHoused.setStage hstage fun handle hnew ↦ ?_
    rw [hout.newcomer?] at hnew
    cases hnew
  · rw [tell_setStage hstage, hgate]
    exact h.gate
  · intro place
    rw [tell_setStage hstage, hout.claim? place]
    exact h.cells place

theorem rest {stage : Stage σ} (h : Apart who none w) (hidle : stage.IsIdle) :
    Custody (w.setStage who stage) :=
  h.setStage hidle.gateClaim? hidle.toIsOutside

theorem enter {entry : Entry} (h : Apart who none w)
    (hnew : ∀ handle, (Stage.entering entry : Stage σ).newcomer? = some handle →
      handle.place < w.cells.length) : Custody (w.enter who entry) := by
  obtain ⟨s, hstage⟩ := h.task
  constructor
  · exact (h.toHoused.setStage hstage hnew).grow (Nat.le_refl _) rfl rfl rfl
  · have hfree : Function.update (w.tell Stage.gateClaim?) who none who = none :=
      Function.update_self ..
    have hasked := h.gate.request hfree entry.access
    rw [Function.update_idem] at hasked
    have htell := tell_setStage (f := Stage.gateClaim?) hstage (.entering entry)
    exact htell ▸ hasked
  · intro place
    have htell := tell_setStage (f := Stage.claim? place) hstage (.entering entry)
    exact htell ▸ h.cells place

theorem append (h : Apart who claim w) {tasks : List (Task σ)}
    (hidle : ∀ task ∈ tasks, task.stage.IsIdle) :
    Apart who claim { w with tasks := w.tasks ++ tasks } where
  registered := h.registered
  held := h.held
  newcomers hnew := by
    rw [tell_append fun task htask ↦ (hidle task htask).newcomer?] at hnew
    exact h.newcomers hnew
  gate := by
    rw [tell_append fun task htask ↦ (hidle task htask).gateClaim?]
    exact h.gate
  cells place := by
    rw [tell_append fun task htask ↦ (hidle task htask).claim? place]
    exact h.cells place
  task := by
    obtain ⟨s, hstage⟩ := h.task
    exact ⟨s, stage?_append hstage tasks⟩

theorem spawn {stages : List (Stage σ)} (h : Apart who none w) (gathering : Gathering)
    (hidle : ∀ stage ∈ stages, stage.IsIdle) : Custody (w.spawn who stages gathering) := by
  have hidle' : ∀ task ∈ stages.map fun stage ↦ Task.mk stage (some who), task.stage.IsIdle := by
    intro task htask
    obtain ⟨stage, hstage, rfl⟩ := List.mem_map.mp htask
    exact hidle stage hstage
  have hwaits : (Stage.gathering (σ := σ) (List.range' w.tasks.length stages.length)
      gathering).IsIdle := .elsewhere rfl
  exact ((h.append hidle').rest hwaits).congr rfl rfl rfl rfl rfl

end Apart

theorem Effect.apart (h : Effect who t claim claim' w w') (hapart : Apart who claim w) :
    Apart who claim' w' := by
  have hsame : ∀ {w' : World σ}, w'.cells = w.cells → w'.gate = w.gate → w'.tasks = w.tasks →
      w'.registry.handles = w.registry.handles → w'.held = w.held → Apart who claim w' := by
    intro w' hcells hgate htasks hregistry hheld
    have hhoused := hapart.toHoused.grow (hcells ▸ Nat.le_refl _) htasks hregistry hheld
    refine hapart.congr hhoused (funext fun place ↦ ?_) hgate htasks
    rw [lockAt, hcells, lockAt]
  cases h with
  | cloud cloud => exact hsame rfl rfl rfl rfl rfl
  | elapse ms => exact hsame rfl rfl rfl rfl rfl
  | hold key group =>
    obtain ⟨hhoused, hplace⟩ := hapart.toHoused.addGroup group
    refine (hapart.addGroup group).congr ⟨hhoused.registered, ?_, hhoused.newcomers⟩ rfl rfl rfl
    intro entry hmem
    rcases Dict.mem_insertEntry hmem with rfl | hold
    · exact hplace
    · exact hhoused.held entry hold
  | leaveGate => exact hapart.leaveGate
  | note => exact hsame rfl rfl rfl rfl rfl
  | @register _ _ handle registry hstage hregister =>
    refine hapart.congr ⟨?_, hapart.held, hapart.newcomers⟩ rfl rfl rfl
    intro other hmem
    rw [Registry.handles_of_register? hregister] at hmem
    rcases List.mem_append.mp hmem with hold | hlast
    · exact hapart.registered other hold
    · rw [List.mem_singleton.mp hlast]
      exact hapart.newcomers (tell_eq hstage)
  | count => exact hsame rfl rfl rfl rfl rfl

theorem Settles.custody (h : Settles who t claim w w') (hapart : Apart who claim w) :
    Custody w' := by
  cases h with
  | finish result =>
    have hidle : (Stage.finished (σ := σ) result w.clock.now).IsIdle := .elsewhere rfl
    exact (hapart.rest hidle).congr rfl rfl rfl rfl rfl
  | rest hidle => exact hapart.rest hidle
  | enter hnone htopic =>
    refine hapart.enter fun handle hnew ↦ ?_
    rw [hnone] at hnew
    cases hnew
  | enterNew group =>
    refine (hapart.addGroup group).enter fun handle hnew ↦ ?_
    rw [← Option.some.inj hnew]
    exact (hapart.toHoused.addGroup group).2
  | @enterHeld _ _ key handle hheld =>
    obtain ⟨before, after, hentries, -⟩ := List.lookup_eq_some_iff.mp hheld
    have hmem : (key, handle) ∈ w.held.entries := by
      rw [hentries]
      exact List.mem_append_right _ List.mem_cons_self
    have hhoused : Housed { w with held := w.held.erase key } :=
      ⟨hapart.registered, fun e he ↦ hapart.held e (List.mem_filter.mp he).1, hapart.newcomers⟩
    have herased : Apart who none { w with held := w.held.erase key } :=
      hapart.congr hhoused rfl rfl rfl
    refine herased.enter fun other hnew ↦ ?_
    rw [← Option.some.inj hnew]
    exact hapart.held _ hmem
  | spawn gathering hidle => exact hapart.spawn gathering hidle
  | ask h now stale rest after => exact hapart.setStage rfl (.visiting rfl h none _)

theorem Does.custody (h : Does who t claim w w') (hapart : Apart who claim w) : Custody w' := by
  induction h with
  | settle h => exact h.custody hapart
  | after heffect h ih => exact ih (heffect.apart hapart)

/-! ## Activities of groups -/

theorem lockAt_eq {place : Nat} {cell : Group.Cell} (hcell : w.cells[place]? = some cell) :
    w.lockAt place = cell.lock := by
  rw [lockAt, hcell]
  rfl

theorem lockAt_setCell_self {place : Nat} {before : Group.Cell}
    (hcell : w.cells[place]? = some before) (cell : Group.Cell) :
    (w.setCell place cell).lockAt place = cell.lock := by
  obtain ⟨hlt, -⟩ := List.getElem?_eq_some_iff.mp hcell
  exact lockAt_eq (List.getElem?_set_self hlt)

theorem lockAt_setCell_of_ne {place other : Nat} (hne : other ≠ place) (cell : Group.Cell)
    (w : World σ) : (w.setCell place cell).lockAt other = w.lockAt other := by
  change ((w.cells.set place cell)[other]?.map _).getD _ = _
  rw [List.getElem?_set_ne hne.symm]
  rfl

theorem Housed.setCell (h : Housed w) (place : Nat) (cell : Group.Cell) :
    Housed (w.setCell place cell) :=
  h.grow (Nat.le_of_eq List.length_set.symm) rfl rfl rfl

/-- An activity does to the lock of its group what it says. -/
theorem tended_of_advance {g : Group} {clock : Clock} {s s' : Group.Scene σ}
    (hadvance : Group.Advance client g who clock s s') {claims : Nat → Option Access}
    (h : s.cell.lock.Tended claims) (hclaim : claims who = s.activity.claim?) :
    s'.cell.lock.Tended (Function.update claims who s'.activity.claim?) := by
  rcases hadvance.lock_cases with ⟨hsame, hstays⟩ | ⟨hleft, hout⟩ | ⟨access, hout, hasked, hin⟩
  · rw [hsame, hstays]
    exact h.keep hclaim
  · rw [hleft, hout]
    exact h.leave
  · rw [hasked, hin]
    exact h.request (hclaim.trans hout) access

section

variable {handle : Handle} {activity : Group.Activity} {deadline : Option Deadline} {next : Next}
  {cell : Group.Cell}

theorem claim?_visiting_self :
    (Stage.visiting handle activity deadline next : Stage σ).claim? handle.place
      = activity.claim? := if_pos rfl

theorem claim?_visiting_of_ne {place : Nat} (hplace : handle.place ≠ place) :
    (Stage.visiting handle activity deadline next : Stage σ).claim? place = none := if_neg hplace

theorem Custody.carryOn {scene : Group.Scene σ} (h : Custody w)
    (hstage : w.stage? who = some (.visiting handle activity deadline next))
    (hcell : w.cells[handle.place]? = some cell)
    (hadvance : Group.Advance client handle.group who w.clock ⟨activity, cell, w.cloud⟩ scene) :
    Custody (w.carryOn who handle scene deadline next) := by
  let moved : World σ := World.setCell handle.place scene.cell { w with cloud := scene.cloud }
  have hmoved : moved.stage? who = some (.visiting handle activity deadline next) := hstage
  have htell : ∀ {α : Type} (f : Stage σ → Option α),
      (w.carryOn who handle scene deadline next).tell f
        = Function.update (w.tell f) who (f (.visiting handle scene.activity deadline next)) :=
    fun f ↦ tell_setStage hmoved _
  have hhoused : Housed { w with cloud := scene.cloud } :=
    h.toHoused.grow (Nat.le_refl _) rfl rfl rfl
  constructor
  · exact (hhoused.setCell handle.place scene.cell).setStage hmoved nofun
  · have hin : w.tell Stage.gateClaim? who = next.gateClaim? := tell_eq hstage
    rw [htell]
    exact h.gate.keep hin
  · intro place
    rw [htell]
    by_cases hplace : handle.place = place
    · subst hplace
      have hlock : (w.carryOn who handle scene deadline next).lockAt handle.place
          = scene.cell.lock := lockAt_setCell_self (w := { w with cloud := scene.cloud }) hcell _
      have hbefore := h.cells handle.place
      rw [lockAt_eq hcell] at hbefore
      rw [hlock, claim?_visiting_self]
      exact tended_of_advance hadvance hbefore ((tell_eq hstage).trans claim?_visiting_self)
    · have hlock : (w.carryOn who handle scene deadline next).lockAt place = w.lockAt place :=
        lockAt_setCell_of_ne (Ne.symm hplace) scene.cell { w with cloud := scene.cloud }
      rw [hlock, claim?_visiting_of_ne hplace]
      exact (h.cells place).keep ((tell_eq hstage).trans (claim?_visiting_of_ne hplace))

theorem Custody.setLimit (h : Custody w)
    (hstage : w.stage? who = some (.visiting handle activity deadline next))
    (deadline' : Option Deadline) :
    Custody (w.setStage who (.visiting handle activity deadline' next)) where
  toHoused := h.toHoused.setStage hstage nofun
  gate := by
    have hsame : (w.setStage who (.visiting handle activity deadline' next)).tell Stage.gateClaim?
        = w.tell Stage.gateClaim? := tell_setStage_of_eq hstage rfl
    exact hsame ▸ h.gate
  cells place := by
    have hsame : (w.setStage who (.visiting handle activity deadline' next)).tell
        (Stage.claim? place) = w.tell (Stage.claim? place) := tell_setStage_of_eq hstage rfl
    exact hsame ▸ h.cells place

theorem Custody.withdraw (h : Custody w)
    (hstage : w.stage? who = some (.visiting handle activity deadline next))
    (hcell : w.cells[handle.place]? = some cell) :
    Apart who next.gateClaim? (w.setCell handle.place (cell.withdraw who)) where
  toHoused := h.toHoused.setCell _ _
  gate := h.gate.keep (tell_eq hstage)
  cells place := by
    by_cases hplace : handle.place = place
    · subst hplace
      rw [lockAt_setCell_self hcell]
      have hbefore := h.cells handle.place
      rw [lockAt_eq hcell] at hbefore
      exact hbefore.leave
    · rw [lockAt_setCell_of_ne (Ne.symm hplace)]
      exact (h.cells place).keep ((tell_eq hstage).trans (claim?_visiting_of_ne hplace))
  task := ⟨_, hstage⟩

end

/-! ## Steps -/

theorem Goes.custody {stage : Stage σ} (h : Goes client who w stage w') (hcustody : Custody w)
    (hstage : w.stage? who = some stage) : Custody w' := by
  cases h with
  | does hout h => exact h.custody (hcustody.apart hstage (Stage.claim?_of_isVisiting hout))
  | ends h ending d next =>
    exact (does_proceed h ending next).custody (hcustody.apart hstage fun _ ↦ ite_self none)
  | carries hcell hscene => exact hcustody.carryOn hstage hcell (Group.advance_of_step hscene)
  | limits hcell hwaits hunset => exact hcustody.setLimit hstage _
  | givesUp hcell hwaits htimer hpast =>
    exact (does_proceed _ _ _).custody (hcustody.withdraw hstage hcell)

/-- Every step keeps the custody of the locks. -/
theorem Custody.steps (h : Custody w) (hsteps : w.Steps client who w') : Custody w' := by
  obtain ⟨stage, next, hstage, hgoes, rfl⟩ := hsteps.goes
  exact (hgoes.custody h hstage).congr rfl rfl rfl rfl rfl

end World

end NodeGroups.Simulation
