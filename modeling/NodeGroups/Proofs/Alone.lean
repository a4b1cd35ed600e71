import NodeGroups.Cloud.Memory
import NodeGroups.Proofs.Line
import NodeGroups.Proofs.Traffic

/-!
# Requests that nobody interferes with

A request that finds the lock free and a cloud that answers at once goes through: a reload installs
what it reads, and a mutation brings the change that it was planned to be into the state. Runs of
requests one after another are put together from these, and of mutations that stand in line.
-/

namespace NodeGroups

namespace Group

variable {σ : Type} {client : Client σ} {g : Group} {start t : Traffic σ}
  {record : List (Event σ)} {who : Nat}

/-! ## Runs of one -/

/-- The cloud takes a call that takes no time and is not bound to fail. -/
def TakesAtOnce (client : Client σ) (g : Group) (call : Call) (cloud cloud' : σ) : Prop :=
  client.submit call g.resourceGroup g.name cloud = some (⟨.immediate, none⟩, cloud')

theorem takesAtOnce_memory {call : Call} {m : Memory} (hbroken : m.broken = [])
    (hdelays : m.delays = []) (hfailures : m.failures = []) :
    TakesAtOnce Memory.client g call m { m with log := call :: m.log } := by
  simp [TakesAtOnce, Memory.client, Memory.submit, Memory.latency, hbroken, hdelays, hfailures]

theorem send_of_takesAtOnce {call : Call} {cloud cloud' : σ} {clock : Clock} {order : Nat}
    (hsent : TakesAtOnce client g call cloud cloud') (activity : Activity) (cell : Cell)
    (next : Pending → Activity) :
    Scene.send client g who clock order call next ⟨activity, cell, cloud⟩
      = ⟨next ⟨.nothing, none⟩, cell, cloud'⟩ := by
  rw [Scene.send, hsent]
  rfl

/-- The traffic when one is where a scene has him, and everybody else stays where he is. -/
def Traffic.stage (who : Nat) (errand : Errand) (s : Scene σ) (t : Traffic σ) : Traffic σ :=
  { t.put who ⟨errand, s.activity⟩ with cell := s.cell, cloud := s.cloud }

theorem Traffic.isIdle_stage {other : Nat} (hidle : t.IsIdle other) (hne : other ≠ who)
    (errand : Errand) (s : Scene σ) : (t.stage who errand s).IsIdle other :=
  isIdle_put _ hidle hne

theorem Run.come_in (hrun : Run client g start record t) (errand : Errand)
    (hidle : t.IsIdle who) :
    Run client g start record (t.stage who errand ⟨.started errand, t.cell, t.cloud⟩) :=
  hrun.tail (.arrive errand hidle)

theorem Run.resume {errand : Errand} {activity : Activity} {s : Scene σ}
    (hrun : Run client g start record t) (who : Nat)
    (hstep : Scene.step client g who t.clock 0 ⟨activity, t.cell, t.cloud⟩ = some s)
    (hjob : t.jobs who = some ⟨errand, activity⟩) :
    Run client g start
      ((Job.event? who t.cell.state ⟨errand, activity⟩ s.activity).toList ++ record)
      (t.stage who errand s) :=
  hrun.tail (.proceed 0 hjob hstep)

theorem Run.go_on {errand : Errand} {s s' : Scene σ}
    (hrun : Run client g start record (t.stage who errand s))
    (hstep : s.step client g who t.clock 0 = some s') :
    Run client g start
      ((Job.event? who s.cell.state ⟨errand, s.activity⟩ s'.activity).toList ++ record)
      (t.stage who errand s') := by
  have hnext := hrun.resume who hstep (Function.update_self ..)
  rwa [Traffic.stage, Traffic.put, Traffic.stage, Traffic.put, Function.update_idem] at hnext

/-! ## Mutations -/

section

variable {m : Mutation} {change : Change} {state : State} {cloud cloud' : σ} {clock : Clock}

theorem step_started_of_line (hfault : m.fault? = none) (whos : List Nat) :
    Scene.step client g who clock 0 ⟨.started (.mutate m), ⟨state, .line whos⟩, cloud⟩
      = some ⟨.queued (.mutate m), ⟨state, .line (whos ++ [who])⟩, cloud⟩ := by
  simp only [Scene.step, Scene.start, hfault, Scene.queueFor, Wish.access, Lock.request_line]

theorem step_started_of_free (hfault : m.fault? = none) :
    Scene.step client g who clock 0 ⟨.started (.mutate m), ⟨state, .free⟩, cloud⟩
      = some ⟨.queued (.mutate m), ⟨state, .heldBy who .exclusive⟩, cloud⟩ :=
  step_started_of_line hfault []

theorem step_queued_of_takesAtOnce (hplan : m.plan g state = .ok (some change))
    (hsent : TakesAtOnce client g change.call cloud cloud') :
    Scene.step client g who clock 0
      ⟨.queued (.mutate m), ⟨state, .heldBy who .exclusive⟩, cloud⟩
      = some ⟨.changing change ⟨.nothing, none⟩, ⟨state, .heldBy who .exclusive⟩, cloud'⟩ := by
  simp [Scene.step, Scene.fulfil, hplan, send_of_takesAtOnce hsent]

theorem step_queued_of_needless (hplan : m.plan g state = .ok none) :
    Scene.step client g who clock 0
      ⟨.queued (.mutate m), ⟨state, .heldBy who .exclusive⟩, cloud⟩
      = some ⟨.answer (.ok .nothing), ⟨state, .free⟩, cloud⟩ := by
  simp [Scene.step, Scene.fulfil, hplan, Scene.leaveFor, Cell.withdraw]

theorem step_changing_of_execute (cell : Cell)
    (hexecute : change.execute client g cloud = .ok cloud') :
    Scene.step client g who clock 0 ⟨.changing change ⟨.nothing, none⟩, cell, cloud⟩
      = some ⟨.accepted change, cell, cloud'⟩ := by
  simp [Scene.step, Scene.finishChange, Pending.isOver, Pending.outcome, hexecute]

theorem step_accepted_of_line {whos : List Nat} (hnew : who ∉ whos) :
    Scene.step client g who clock 0 ⟨.accepted change, ⟨state, .line (who :: whos)⟩, cloud⟩
      = some ⟨.answer (.ok .nothing), ⟨change.commit state, .line whos⟩, cloud⟩ := by
  simp only [Scene.step, Scene.leaveFor, Cell.withdraw, Lock.leave_line hnew]

theorem step_accepted_of_heldBy :
    Scene.step client g who clock 0
      ⟨.accepted change, ⟨state, .heldBy who .exclusive⟩, cloud⟩
      = some ⟨.answer (.ok .nothing), ⟨change.commit state, .free⟩, cloud⟩ :=
  step_accepted_of_line List.not_mem_nil

end

/-- A mutation that is alone is brought into the state. -/
theorem Run.mutation_alone {m : Mutation} {change : Change} {cloud' cloud'' : σ}
    (hrun : Run client g start record t) (hidle : t.IsIdle who) (hfree : t.cell.lock = .free)
    (hfault : m.fault? = none) (hplan : m.plan g t.cell.state = .ok (some change))
    (hsent : TakesAtOnce client g change.call t.cloud cloud')
    (hexecute : change.execute client g cloud' = .ok cloud'') :
    Run client g start (.completed who m change :: .accepted who change :: record)
      (t.stage who (.mutate m)
        ⟨.answer (.ok .nothing), ⟨change.commit t.cell.state, .free⟩, cloud''⟩) := by
  obtain ⟨⟨state, lock⟩, cloud, clock, jobs⟩ := t
  obtain rfl : lock = .free := hfree
  have hqueued := (hrun.come_in (.mutate m) hidle).go_on (step_started_of_free hfault)
  have hcalled := hqueued.go_on (step_queued_of_takesAtOnce hplan hsent)
  have haccepted := hcalled.go_on (step_changing_of_execute _ hexecute)
  exact haccepted.go_on step_accepted_of_heldBy

/-! ## Reloads -/

/-- A reload that is alone installs the description and the listing that he reads. -/
theorem Run.reload_alone {cloud' cloud'' : σ} {d : ScaleSet} {listing : List Instance}
    (hrun : Run client g start record t) (hidle : t.IsIdle who) (hfree : t.cell.lock = .free)
    (hasked : TakesAtOnce client g .describe t.cloud cloud')
    (hdescribe : client.describe g.resourceGroup g.name cloud' = .ok d)
    (hasked' : TakesAtOnce client g .list cloud' cloud'')
    (hlist : client.list g.resourceGroup g.name cloud'' = .ok listing) :
    Run client g start
      (.installed who (.build d listing) :: .described who :: .counted who :: record)
      (t.stage who .reload ⟨.answer (.ok .nothing),
        ⟨⟨some ⟨.build d listing, d.capacity, t.clock.now⟩, t.cell.state.mutations⟩, .free⟩,
        cloud''⟩) := by
  obtain ⟨⟨state, lock⟩, cloud, clock, jobs⟩ := t
  obtain rfl : lock = .free := hfree
  dsimp only at hasked ⊢
  have hstarted := hrun.come_in .reload hidle
  have hcounted : Scene.step client g who clock 0 ⟨.started .reload, ⟨state, .free⟩, cloud⟩
      = some ⟨.describing (some state.mutations) ⟨.nothing, none⟩, ⟨state, .free⟩, cloud'⟩ := by
    simp [Scene.step, Scene.start, send_of_takesAtOnce hasked]
  have hdescribed : Scene.step client g who clock 0
      ⟨.describing (some state.mutations) ⟨.nothing, none⟩, ⟨state, .free⟩, cloud'⟩
      = some ⟨.listing state.mutations d ⟨.nothing, none⟩, ⟨state, .free⟩, cloud''⟩ := by
    simp [Scene.step, Scene.finishDescription, Pending.isOver, Pending.outcome, hdescribe,
      send_of_takesAtOnce hasked']
  have hlisted : Scene.step client g who clock 0
      ⟨.listing state.mutations d ⟨.nothing, none⟩, ⟨state, .free⟩, cloud''⟩
      = some ⟨.fetched state.mutations (.build d listing), ⟨state, .free⟩, cloud''⟩ := by
    simp [Scene.step, Scene.finishListing, Pending.isOver, Pending.outcome, hlist]
  have hqueued : Scene.step client g who clock 0
      ⟨.fetched state.mutations (.build d listing), ⟨state, .free⟩, cloud''⟩
      = some ⟨.queued (.install state.mutations (.build d listing)),
        ⟨state, .heldBy who .exclusive⟩, cloud''⟩ := by
    simp [Scene.step, Scene.queueFor, Wish.access]
  have hinstalled : Scene.step client g who clock 0
      ⟨.queued (.install state.mutations (.build d listing)),
        ⟨state, .heldBy who .exclusive⟩, cloud''⟩
      = some ⟨.answer (.ok .nothing),
        ⟨⟨some ⟨.build d listing, d.capacity, clock.now⟩, state.mutations⟩, .free⟩, cloud''⟩ := by
    simp [Scene.step, Scene.fulfil, Scene.leaveFor, Cell.withdraw, State.install_of_eq]
  have hended :=
    ((((hstarted.go_on hcounted).go_on hdescribed).go_on hlisted).go_on hqueued).go_on hinstalled
  rw [Job.event?_install, if_pos rfl] at hended
  exact hended

end Group

end NodeGroups
