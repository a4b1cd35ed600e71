import NodeGroups.Cloud.Pending
import NodeGroups.Group.Mutation
import NodeGroups.Lock

/-!
# Activities of a group

How a request to a group proceeds while others are under way. A group's state is behind a fair
lock. Questions hold it to read. A mutation holds it to write from its plan until its call to the
cloud is over, so that no two mutations start from the same target size. A reload makes its two
calls without the lock and takes it only to install what it got; that its view is not older than
a mutation, it knows from the counter of mutations.

An activity is what it waits for and what it needs to know when it goes on. `Scene.step` is all
that one does between two waits, with two exceptions. Between the moment at which the cloud accepts
a change and the moment at which the state says so there is nothing to wait for, but these are two
steps all the same, since a reload may look at the cloud in between. Neither is there between the
answer to the last call of a reload and its request for the lock, but others may ask for the lock
in between.
-/

namespace NodeGroups.Group

/-- What is behind the lock of a group, and the lock. -/
structure Cell where
  state : State
  lock : Lock
  deriving DecidableEq

def Cell.initial : Cell := ⟨.initial, .free⟩

/-- The cell after an activity was given up, whether it held the lock, waited for it or neither. -/
def Cell.withdraw (who : Nat) (c : Cell) : Cell := { c with lock := c.lock.leave who }

/-- What can be asked of a group. -/
inductive Errand
  | query (q : Query)
  | mutate (m : Mutation)
  /-- Get a new view from the cloud. -/
  | reload
  /-- Get the description of the scale set, from the cloud if there is no view. -/
  | describe

/-- What an activity needs the lock for. -/
inductive Wish
  | query (q : Query)
  | mutate (m : Mutation)
  | describe
  /-- Install a view, with what the counter of mutations was before it was fetched. -/
  | install (generation : UInt64) (cache : Cache)

def Wish.access : Wish → Access
  | .query _ | .describe => .shared
  | .mutate _ | .install .. => .exclusive

/-- How an activity ends. -/
inductive Ending
  | answered (result : Except GroupError Finding)
  /-- The client of the cloud broke down. -/
  | broke

/-- A request to a group on its way. -/
inductive Activity
  | started (errand : Errand)
  /-- In the queue for the lock, or admitted just now. -/
  | queued (wish : Wish)
  /-- Holding the lock, while the cloud works on a change. -/
  | changing (change : Change) (pending : Pending)
  /-- Holding the lock, after the cloud accepted a change. -/
  | accepted (change : Change)
  /-- Waiting for a description of the scale set; a reload keeps what the counter of mutations
  was. -/
  | describing (generation : Option UInt64) (pending : Pending)
  /-- Waiting for a listing of the instances. -/
  | listing (generation : UInt64) (scaleSet : ScaleSet) (pending : Pending)
  /-- Back from the cloud with a view, before asking for the lock. -/
  | fetched (generation : UInt64) (cache : Cache)
  | ended (ending : Ending)

namespace Activity

def answer (result : Except GroupError Finding) : Activity := .ended (.answered result)

def refuse (e : GroupError) : Activity := answer (.error e)

def refuseFor (e : CloudError) : Activity := refuse (.cloud e)

def timer? : Activity → Option Timer
  | .changing _ p | .describing _ p | .listing _ _ p => p.timer?
  | _ => none

end Activity

/-- An activity with all that it can see and change. -/
structure Scene (σ : Type) where
  activity : Activity
  cell : Cell
  cloud : σ

namespace Scene

variable {σ : Type}

/-- The activity ends, or goes on without the lock. -/
def leaveFor (who : Nat) (next : Activity) (s : Scene σ) : Scene σ :=
  { s with activity := next, cell := s.cell.withdraw who }

/-- The activity joins the queue for the lock. -/
def queueFor (who : Nat) (wish : Wish) (s : Scene σ) : Scene σ :=
  { s with activity := .queued wish, cell.lock := s.cell.lock.request who wish.access }

/-- The activity sends a call and goes on to wait for it. -/
def send (client : Client σ) (g : Group) (who : Nat) (clock : Clock) (order : Nat) (call : Call)
    (next : Pending → Activity) (s : Scene σ) : Scene σ :=
  match client.submit call g.resourceGroup g.name s.cloud with
  | none => s.leaveFor who (.ended .broke)
  | some (receipt, cloud) =>
    { s with activity := next (.ofReceipt receipt clock order), cloud }

/-- An activity starts: it is answered at once, or sends a call, or needs the lock. -/
def start (client : Client σ) (g : Group) (who : Nat) (clock : Clock) (order : Nat)
    (s : Scene σ) : Errand → Scene σ
  | .query q =>
    match q.answerAtOnce? g with
    | some r => { s with activity := .answer r }
    | none => s.queueFor who (.query q)
  | .mutate m =>
    match m.fault? with
    | some e => { s with activity := .refuse e }
    | none => s.queueFor who (.mutate m)
  | .reload =>
    s.send client g who clock order .describe (.describing (some s.cell.state.mutations))
  | .describe => s.queueFor who .describe

/-- An activity has the lock. -/
def fulfil (client : Client σ) (g : Group) (who : Nat) (clock : Clock) (order : Nat)
    (s : Scene σ) : Wish → Scene σ
  | .query q => s.leaveFor who (.answer (q.answer g s.cell.state))
  | .mutate m =>
    match m.plan g s.cell.state with
    | .error e => s.leaveFor who (.refuse e)
    | .ok none => s.leaveFor who (.answer (.ok .nothing))
    | .ok (some change) => s.send client g who clock order change.call (.changing change)
  | .describe =>
    match s.cell.state.view with
    | some v => s.leaveFor who (.answer (.ok (.scaleSet v.cache.scaleSet)))
    | none =>
      (s.leaveFor who s.activity).send client g who clock order .describe (.describing none)
  | .install generation cache =>
    ({ s with cell.state := s.cell.state.install generation cache clock.now }).leaveFor who
      (.answer (.ok .nothing))

/-- The call of an activity for a change is over. -/
def finishChange (client : Client σ) (g : Group) (who : Nat) (s : Scene σ) (change : Change)
    (p : Pending) : Scene σ :=
  match p.outcome (change.execute client g s.cloud) with
  | .error e => s.leaveFor who (.refuseFor e)
  | .ok cloud => { s with activity := .accepted change, cloud }

/-- The call of an activity for a description is over. A reload goes on to the listing. -/
def finishDescription (client : Client σ) (g : Group) (who : Nat) (clock : Clock) (order : Nat)
    (s : Scene σ) (generation : Option UInt64) (p : Pending) : Scene σ :=
  match p.outcome (client.describe g.resourceGroup g.name s.cloud), generation with
  | .error e, _ => { s with activity := .refuseFor e }
  | .ok d, none => { s with activity := .answer (.ok (.scaleSet d)) }
  | .ok d, some generation => s.send client g who clock order .list (.listing generation d)

/-- The call of an activity for a listing is over. -/
def finishListing (client : Client σ) (g : Group) (s : Scene σ) (generation : UInt64)
    (d : ScaleSet) (p : Pending) : Scene σ :=
  match p.outcome (client.list g.resourceGroup g.name s.cloud) with
  | .error e => { s with activity := .refuseFor e }
  | .ok listing => { s with activity := .fetched generation (.build d listing) }

/-- What an activity does until it waits again, if it does not have to wait now. The number `who`
is that of the activity in the lock, and `order` marks a timer that is set. -/
def step (client : Client σ) (g : Group) (who : Nat) (clock : Clock) (order : Nat)
    (s : Scene σ) : Option (Scene σ) :=
  match s.activity with
  | .started errand => some (s.start client g who clock order errand)
  | .queued wish =>
    if s.cell.lock.isHeldBy who then some (s.fulfil client g who clock order wish) else none
  | .changing change p =>
    if p.isOver clock then some (s.finishChange client g who change p) else none
  | .accepted change =>
    some (({ s with cell.state := change.commit s.cell.state }).leaveFor who
      (.answer (.ok .nothing)))
  | .describing generation p =>
    if p.isOver clock then some (s.finishDescription client g who clock order generation p)
    else none
  | .listing generation d p =>
    if p.isOver clock then some (s.finishListing client g generation d p) else none
  | .fetched generation cache => some (s.queueFor who (.install generation cache))
  | .ended _ => none

end Scene

end NodeGroups.Group
