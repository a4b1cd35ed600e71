import NodeGroups.Cloud.Memory
import NodeGroups.Proofs.Traffic

/-!
# Playing a run

A run can take any order, and so runs are a relation. One order is played from a list of moves,
each of which is made if it can be made. What is played is a run, so that a claim about all runs
can be tried out on one.
-/

namespace NodeGroups.Group

variable {σ : Type}

/-- Something to happen in the traffic at a group. -/
inductive Move (σ : Type)
  | arrive (who : Nat) (errand : Errand)
  | proceed (who : Nat)
  | giveUp (who : Nat) (e : GroupError)
  /-- Time passes, and timers go off. -/
  | elapse (ms : Nat)
  | intervene (cloud : σ)

namespace Move

def request (who : Nat) (errand : Errand) (steps : Nat) : List (Move σ) :=
  .arrive who errand :: List.replicate steps (.proceed who)

def reload (who : Nat) : List (Move σ) := request who .reload 5

def mutation (who : Nat) (m : Mutation) : List (Move σ) := request who (.mutate m) 4

end Move

namespace Traffic

/-- Makes a move, if it can be made. -/
def move (client : Client σ) (g : Group) (t : Traffic σ) :
    Move σ → Option (Option (Event σ) × Traffic σ)
  | .arrive who errand =>
    match t.jobs who with
    | none | some ⟨_, .ended _⟩ => some (none, t.put who ⟨errand, .started errand⟩)
    | some _ => none
  | .proceed who => do
    let job ← t.jobs who
    let scene ← Scene.step client g who t.clock 0 ⟨job.activity, t.cell, t.cloud⟩
    some (job.event? who t.cell.state scene.activity,
      { t.put who { job with activity := scene.activity } with
        cell := scene.cell, cloud := scene.cloud })
  | .giveUp who e => do
    let job ← t.jobs who
    if job.activity.isReload then
      some (none, { t.put who { job with activity := .refuse e } with
        cell := t.cell.withdraw who })
    else none
  | .elapse ms => some (none, { t with clock := (t.clock.pass ms).ring })
  | .intervene cloud => some (some (.intervened t.cloud cloud), { t with cloud })

/-- Makes moves, one after another, and keeps the record. -/
def play (client : Client σ) (g : Group) :
    List (Move σ) → List (Event σ) × Traffic σ → Option (List (Event σ) × Traffic σ)
  | [], now => some now
  | m :: ms, (record, t) => do
    let (event, t') ← t.move client g m
    play client g ms (event.toList ++ record, t')

end Traffic

variable {client : Client σ} {g : Group}

theorem step_of_move {t t' : Traffic σ} {m : Move σ} {event : Option (Event σ)}
    (hmove : t.move client g m = some (event, t')) : Step client g t event t' := by
  cases m with
  | arrive who errand =>
    rw [Traffic.move] at hmove
    split at hmove
    · next hnone =>
      cases hmove
      exact .arrive errand fun job hjob ↦ by rw [hnone] at hjob; cases hjob
    · next ending hsome =>
      cases hmove
      exact .arrive errand fun job hjob ↦ ⟨ending, by rw [hsome] at hjob; cases hjob; rfl⟩
    · cases hmove
  | proceed who =>
    obtain ⟨job, hjob, hmove⟩ := Option.bind_eq_some_iff.mp hmove
    obtain ⟨scene, hscene, hmove⟩ := Option.bind_eq_some_iff.mp hmove
    cases hmove
    exact .proceed 0 hjob hscene
  | giveUp who e =>
    obtain ⟨job, hjob, hmove⟩ := Option.bind_eq_some_iff.mp hmove
    obtain ⟨hreload, hmove⟩ := Option.ite_none_right_eq_some.mp hmove
    cases hmove
    exact .giveUp e hjob hreload
  | elapse ms =>
    cases hmove
    exact .elapse _ (Nat.le_add_right _ _)
  | intervene cloud =>
    cases hmove
    exact .intervene cloud

/-- What is played is a run. -/
theorem Run.play {start t t' : Traffic σ} {record record' : List (Event σ)} {moves : List (Move σ)}
    (hrun : Run client g start record t)
    (hplay : Traffic.play client g moves (record, t) = some (record', t')) :
    Run client g start record' t' := by
  induction moves generalizing record t with
  | nil =>
    cases hplay
    exact hrun
  | cons m ms ih =>
    obtain ⟨⟨event, next⟩, hmove, hrest⟩ := Option.bind_eq_some_iff.mp hplay
    exact ih (.tail hrun (step_of_move hmove)) hrest

/-! ## A group to play with -/

/-- A group of three to ten machines. -/
def pool : Group where
  name := "pool"
  resourceGroup := "rg"
  minSize := 3
  maxSize := 10
  refreshPeriod := .defaultRefreshPeriod
  named hblank := by
    have hletter : Text.isBlank 'p' = true := hblank 'p' (by simp)
    cases hletter
  min_le_max := by decide

def poolMachine : Instance := Memory.record "rg" "pool" 0 .succeeded

theorem parse?_poolMachine : ProviderId.parse? poolMachine.providerId
    = some (Memory.machine "rg" "pool" 0) := by decide +kernel

/-- A cloud with the scale set of the group, of some capacity, and with as many machines. -/
def cloudOf (size : Nat) : Memory :=
  (List.range size).foldl
    (fun m index ↦ m.add "rg" "pool" (Memory.record "rg" "pool" (.ofNat index) .succeeded))
    (Memory.empty.put "rg" (.bare "pool" (.ofNat size)))

/-- What comes of some moves: the record, and the group with its cloud. If one of the moves cannot
be made, nothing happens at all. -/
def played (size : Nat) (moves : List (Move Memory)) : List (Event Memory) × Traffic Memory :=
  let start := ([], .initial (cloudOf size) .start)
  (Traffic.play Memory.client pool moves start).getD start

theorem run_played (size : Nat) (moves : List (Move Memory)) :
    Run Memory.client pool (.initial (cloudOf size) .start)
      (played size moves).1 (played size moves).2 := by
  rw [played]
  cases hplay : Traffic.play Memory.client pool moves ([], .initial (cloudOf size) .start) with
  | none => exact .refl
  | some result => exact Run.refl.play hplay

end NodeGroups.Group
