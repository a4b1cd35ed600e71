import NodeGroups.Proofs.Memory

/-!
# The turn of a mutation

A mutation has its turn while it holds the lock of its group. What comes of it is a function of the
state and the cloud at the beginning of the turn, `Mutation.serve`: whatever the calls take, and
whatever others do to the cloud that is of no concern to the group, the turn ends with that answer,
that state and that cloud.
-/

namespace NodeGroups.Group

/-! ## Clouds that are the same for a group -/

def failure? (g : Group) (m : Memory) (call : Call) : Option CloudError :=
  m.failures.lookup (call, Text.foldCase g.name)

/-- A mutation of the group finds the same in two clouds: the scale set, the failures that its calls
are bound to, and the deletions that were accepted. -/
structure SameFor (g : Group) (m m' : Memory) : Prop where
  holding : g.holding? m' = g.holding? m
  failures : g.failure? m' = g.failure? m
  deletions : m'.deletions = m.deletions

variable {g : Group}

namespace SameFor

variable {m m' m'' : Memory}

theorem refl (g : Group) (m : Memory) : g.SameFor m m := ⟨rfl, rfl, rfl⟩

theorem symm (h : g.SameFor m m') : g.SameFor m' m :=
  ⟨h.holding.symm, h.failures.symm, h.deletions.symm⟩

theorem trans (h : g.SameFor m m') (h' : g.SameFor m' m'') : g.SameFor m m'' :=
  ⟨h'.holding.trans h.holding, h'.failures.trans h.failures, h'.deletions.trans h.deletions⟩

theorem find (h : g.SameFor m m') :
    m'.find g.resourceGroup g.name = m.find g.resourceGroup g.name := by
  have hholding : m'.holding? g.resourceGroup g.name = m.holding? g.resourceGroup g.name :=
    h.holding
  rw [Memory.find, Memory.find, hholding]

theorem setHolding (h : g.SameFor m m') (holding : Holding) :
    g.SameFor (m.setHolding g.resourceGroup g.name holding)
      (m'.setHolding g.resourceGroup g.name holding) where
  holding := by
    rw [holding?, holding?, Memory.holding?_setHolding, Memory.holding?_setHolding]
  failures := h.failures
  deletions := h.deletions

/-- A change does the same to both clouds, if it is not refused by both. -/
theorem execute (h : g.SameFor m m') (change : Change) :
    (∃ e, change.execute Memory.client g m = .error e
      ∧ change.execute Memory.client g m' = .error e)
    ∨ ∃ after after', change.execute Memory.client g m = .ok after
      ∧ change.execute Memory.client g m' = .ok after' ∧ g.SameFor after after' := by
  cases change with
  | resize target =>
    change (∃ e, Memory.setCapacity _ _ target m = _ ∧ Memory.setCapacity _ _ target m' = _)
      ∨ ∃ after after', Memory.setCapacity _ _ target m = _
        ∧ Memory.setCapacity _ _ target m' = _ ∧ _
    rw [Memory.setCapacity, Memory.setCapacity, h.find]
    cases m.find g.resourceGroup g.name with
    | error e => exact .inl ⟨e, rfl, rfl⟩
    | ok holding => exact .inr ⟨_, _, rfl, rfl, h.setHolding _⟩
  | delete ids target =>
    change (∃ e, Memory.delete _ _ ids m = _ ∧ Memory.delete _ _ ids m' = _)
      ∨ ∃ after after', Memory.delete _ _ ids m = _ ∧ Memory.delete _ _ ids m' = _ ∧ _
    rw [Memory.delete, Memory.delete, h.find]
    cases m.find g.resourceGroup g.name with
    | error e => exact .inl ⟨e, rfl, rfl⟩
    | ok holding =>
      dsimp only [Except.bind]
      cases ids.findSome? (Memory.deletionFault? holding.instances g.name) with
      | some e => exact .inl ⟨e, rfl, rfl⟩
      | none =>
        have hset := h.setHolding (Memory.afterDeletion ids holding)
        exact .inr ⟨_, _, rfl, rfl, hset.holding, hset.failures, congrArg (· ++ [ids]) h.deletions⟩

end SameFor

theorem submit_change (g : Group) (change : Change) (m : Memory) :
    ∃ latency m', Memory.client.submit change.call g.resourceGroup g.name m
      = some (⟨latency, g.failure? m change.call⟩, m') ∧ g.SameFor m m' := by
  have hcall : change.call ≠ .describe := by cases change <;> nofun
  refine ⟨Memory.latency (m.delays.lookup (change.call, Text.foldCase g.name)),
    { m with log := change.call :: m.log }, ?_, ⟨rfl, rfl, rfl⟩⟩
  change Memory.submit change.call g.resourceGroup g.name m = _
  rw [Memory.submit, if_neg fun h ↦ hcall h.1, failure?]

/-! ## Turns -/

/-- What comes of a mutation that has the group and its cloud to itself. -/
def Mutation.serve (g : Group) (m : Mutation) (s : State) (cloud : Memory) :
    Except GroupError Finding × State × Memory :=
  match m.plan g s with
  | .error e => (.error e, s, cloud)
  | .ok none => (.ok .nothing, s, cloud)
  | .ok (some change) =>
    match g.failure? cloud change.call, change.execute Memory.client g cloud with
    | some e, _ | none, .error e => (.error (.cloud e), s, cloud)
    | none, .ok cloud => (.ok .nothing, change.commit s, cloud)

/-- How far a mutation is in its turn, which began with a state and a cloud, and what has become of
these by now. -/
inductive Turn (g : Group) (m : Mutation) (s : State) (cloud : Memory) :
    Activity → State → Memory → Prop
  | begun {now : Memory} (hsame : g.SameFor cloud now) :
      Turn g m s cloud (.queued (.mutate m)) s now
  | changing {now : Memory} {change : Change} {pending : Pending}
      (hplan : m.plan g s = .ok (some change))
      (hfailure : pending.failure = g.failure? cloud change.call) (hsame : g.SameFor cloud now) :
      Turn g m s cloud (.changing change pending) s now
  | accepted {now after : Memory} {change : Change} (hplan : m.plan g s = .ok (some change))
      (hfailure : g.failure? cloud change.call = none)
      (hexecute : change.execute Memory.client g cloud = .ok after) (hsame : g.SameFor after now) :
      Turn g m s cloud (.accepted change) s now
  | ended {now after : Memory} {answer : Except GroupError Finding} {s' : State}
      (hserve : m.serve g s cloud = (answer, s', after)) (hsame : g.SameFor after now) :
      Turn g m s cloud (.answer answer) s' now

namespace Turn

variable {m : Mutation} {s state : State} {cloud now now' : Memory} {activity : Activity}
  {who order : Nat} {clock : Clock} {lock : Lock} {scene : Scene Memory}

theorem carry (h : Turn g m s cloud activity state now) (hsame : g.SameFor now now') :
    Turn g m s cloud activity state now' := by
  cases h with
  | begun h => exact .begun (h.trans hsame)
  | changing hplan hfailure h => exact .changing hplan hfailure (h.trans hsame)
  | accepted hplan hfailure hexecute h => exact .accepted hplan hfailure hexecute (h.trans hsame)
  | ended hserve h => exact .ended hserve (h.trans hsame)

/-- In one step the turn goes on and the lock is kept, or it ends and the lock is left. -/
inductive Continues (g : Group) (m : Mutation) (s : State) (cloud : Memory) (who : Nat)
    (lock : Lock) : Scene Memory → Prop
  | goes {activity : Activity} {state : State} {now : Memory} (hwriting : activity.isWriting = true)
      (hturn : Turn g m s cloud activity state now) :
      Continues g m s cloud who lock ⟨activity, ⟨state, lock⟩, now⟩
  | ends {answer : Except GroupError Finding} {state : State} {now : Memory}
      (hturn : Turn g m s cloud (.answer answer) state now) :
      Continues g m s cloud who lock ⟨.answer answer, ⟨state, lock.leave who⟩, now⟩

theorem fulfil (hsame : g.SameFor cloud now) :
    Continues g m s cloud who lock (Scene.fulfil Memory.client g who clock order
      ⟨.queued (.mutate m), ⟨s, lock⟩, now⟩ (.mutate m)) := by
  rw [Scene.fulfil]
  cases hplan : m.plan g s with
  | error e =>
    have hserve : m.serve g s cloud = (.error e, s, cloud) := by rw [Mutation.serve, hplan]
    exact .ends (.ended hserve hsame)
  | ok planned =>
    cases planned with
    | none =>
      have hserve : m.serve g s cloud = (.ok .nothing, s, cloud) := by rw [Mutation.serve, hplan]
      exact .ends (.ended hserve hsame)
    | some change =>
      obtain ⟨latency, now', hsubmit, hsame'⟩ := submit_change g change now
      dsimp only
      rw [Scene.send, hsubmit]
      have hfailure : g.failure? now change.call = g.failure? cloud change.call :=
        congrFun hsame.failures change.call
      exact .goes rfl (.changing hplan hfailure (hsame.trans hsame'))

theorem finishChange {change : Change} {pending : Pending} (hplan : m.plan g s = .ok (some change))
    (hfailure : pending.failure = g.failure? cloud change.call) (hsame : g.SameFor cloud now) :
    Continues g m s cloud who lock (Scene.finishChange Memory.client g who
      ⟨.changing change pending, ⟨s, lock⟩, now⟩ change pending) := by
  rw [Scene.finishChange, Pending.outcome, hfailure]
  cases hbound : g.failure? cloud change.call with
  | some e =>
    have hserve : m.serve g s cloud = (.error (.cloud e), s, cloud) := by
      rw [Mutation.serve, hplan]
      dsimp only
      rw [hbound]
    exact .ends (.ended hserve hsame)
  | none =>
    rcases hsame.execute change with ⟨e, hexecute, hnow⟩ | ⟨after, now', hexecute, hnow, hafter⟩
    · have hserve : m.serve g s cloud = (.error (.cloud e), s, cloud) := by
        rw [Mutation.serve, hplan]
        dsimp only
        rw [hbound, hexecute]
      rw [hnow]
      exact .ends (.ended hserve hsame)
    · rw [hnow]
      exact .goes rfl (.accepted hplan hbound hexecute hafter)

theorem commit {change : Change} {after : Memory} (hplan : m.plan g s = .ok (some change))
    (hfailure : g.failure? cloud change.call = none)
    (hexecute : change.execute Memory.client g cloud = .ok after) (hsame : g.SameFor after now) :
    Continues g m s cloud who lock
      ⟨.answer (.ok .nothing), ⟨change.commit s, lock.leave who⟩, now⟩ := by
  have hserve : m.serve g s cloud = (.ok .nothing, change.commit s, after) := by
    rw [Mutation.serve, hplan]
    dsimp only
    rw [hfailure, hexecute]
  exact .ends (.ended hserve hsame)

/-- A turn goes on as it should. -/
theorem step (h : Turn g m s cloud activity state now)
    (hstep : Scene.step Memory.client g who clock order ⟨activity, ⟨state, lock⟩, now⟩
      = some scene) : Continues g m s cloud who lock scene := by
  cases h with
  | begun hsame =>
    obtain ⟨-, hnext⟩ := Option.ite_none_right_eq_some.mp hstep
    rw [← Option.some.inj hnext]
    exact fulfil hsame
  | changing hplan hfailure hsame =>
    obtain ⟨-, hnext⟩ := Option.ite_none_right_eq_some.mp hstep
    rw [← Option.some.inj hnext]
    exact finishChange hplan hfailure hsame
  | accepted hplan hfailure hexecute hsame =>
    rw [← Option.some.inj hstep]
    exact commit hplan hfailure hexecute hsame
  | ended hserve hsame => cases hstep

end Turn

end NodeGroups.Group
