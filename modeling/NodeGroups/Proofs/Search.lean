import NodeGroups.Proofs.Crew

/-!
# Searches for a node's group

A search for the group of a node asks the group that the node's ID names whether its view has the
node. If it has not, and is not too new to be replaced, the group is reloaded once and asked again.
Whatever the cloud does, the search has an answer in the end, as long as nobody else acts on the
group. It is put off by nothing but the reload, and a reload that fails does not matter to it.

A trail is kept of the calls that are sent in the search, of what is heard of them, and of the end
of the time limit. The search is in one phase after another, each of which says how the trail is and
how the cell of the group has been left. So the trail tells what the reload has come to: the view
that is installed is made of the answers on it, and without both of them the group is left as it
was.
-/

namespace NodeGroups

variable {σ : Type} {client : Client σ}

/-! ## Records of machines -/

namespace Group

def State.record? (s : State) (id : ProviderId) : Option Instance :=
  s.view.bind fun v ↦ v.cache.get? id

theorem State.record?_of_view {s : State} {v : View} (hview : s.view = some v) (id : ProviderId) :
    s.record? id = v.cache.get? id := by
  rw [record?, hview, Option.bind_some]

theorem isMember_belongs {g : Group} {node : Node} {id : ProviderId}
    (hparse : ProviderId.parse? node.providerId = some id)
    (hin : id.IsIn g.resourceGroup g.name) (s : State) :
    Simulation.World.isMember (.answered ((Query.belongs node).answer g s))
      = .ok (s.record? id).isSome := by
  rw [Query.answer, State.requireView, State.record?]
  cases s.view with
  | none => rfl
  | some v =>
    have hinstance : g.instanceOf? v.cache node = v.cache.get? id := by
      rw [instanceOf?, hparse, Option.bind_some, Cache.find?, if_pos hin]
    rw [Option.bind_some, ← hinstance]
    rfl

theorem answerAtOnce?_belongs {g : Group} {node : Node} {id : ProviderId}
    (hparse : ProviderId.parse? node.providerId = some id)
    (hin : id.IsIn g.resourceGroup g.name) : (Query.belongs node).answerAtOnce? g = none := by
  rw [Query.answerAtOnce?, ProviderId.parse_eq_ok_iff_parse?.mpr hparse]
  exact if_pos hin

/-! ## Calls -/

def Activity.call? : Activity → Option Call
  | .changing change _ => some change.call
  | .describing .. => some .describe
  | .listing .. => some .list
  | _ => none

/-- A call that was not under way before has been sent. -/
def newCall? (before after : Option Call) : Option Call := if after = before then none else after

theorem newCall?_none (before : Option Call) : newCall? before none = none := by
  rw [newCall?, ite_self]

/-- What a call, or none, does to the cloud when it is sent. -/
def Uses (client : Client σ) (g : Group) (cloud cloud' : σ) : Option Call → Prop
  | none => cloud' = cloud
  | some call => Sent client g call cloud cloud'

/-- What is on the trail of a task: a call that it sends, what it hears of one, or that there is no
more time for it. -/
inductive Signal
  | sent (call : Call)
  | described (answer : Except CloudError ScaleSet)
  | listed (answer : Except CloudError (List Instance))
  | expired
  deriving DecidableEq

/-- What is heard of a call: the answer when it is over, and that it is too late if it is not. -/
def heard? (p : Pending) (clock : Clock) (late : Bool) (answer : Signal) : Option Signal :=
  if p.isOver clock then some answer else if late then some .expired else none

/-- What an activity hears of the call that it waits for. -/
def Activity.heard? (client : Client σ) (g : Group) (clock : Clock) (late : Bool) (cloud : σ) :
    Activity → Option Signal
  | .describing _ p => Group.heard? p clock late
      (.described (p.outcome (client.describe g.resourceGroup g.name cloud)))
  | .listing _ _ p => Group.heard? p clock late
      (.listed (p.outcome (client.list g.resourceGroup g.name cloud)))
  | _ => none

/-- What a step of an activity adds to its trail: what it sends, and before that, what it hears. -/
def signals (client : Client σ) (g : Group) (clock : Clock) (late : Bool) (cloud : σ)
    (a a' : Activity) : List Signal :=
  ((newCall? a.call? a'.call?).map .sent).toList ++ (a.heard? client g clock late cloud).toList

end Group

/-- A client would not break down on a call for a group. -/
def Client.IsSteady (client : Client σ) (g : Group) (cloud : σ) : Prop :=
  ∀ call, client.submit call g.resourceGroup g.name cloud ≠ none

/-- A client would not break down on calls for a group, however many there are. -/
def Client.StaysSteady (client : Client σ) (g : Group) (cloud : σ) : Prop :=
  ∀ cloud', Relation.ReflTransGen (fun before after ↦ ∃ call, Group.Sent client g call before after)
    cloud cloud' → client.IsSteady g cloud'

theorem Client.StaysSteady.of_uses {g : Group} {cloud cloud' : σ} {call : Option Call}
    (h : client.StaysSteady g cloud) (huses : Group.Uses client g cloud cloud' call) :
    client.StaysSteady g cloud' := by
  cases call with
  | none => exact huses.symm ▸ h
  | some call => exact fun cloud'' hsent ↦ h cloud'' (.head ⟨call, huses⟩ hsent)

namespace Group

/-! ## Questions -/

/-- A question is on its way to a group that nobody else asks anything. -/
inductive Asks (g : Group) (who : Nat) (q : Query) (s : State) : Activity → Cell → Prop
  | started : Asks g who q s (.started (.query q)) ⟨s, .free⟩
  | queued : Asks g who q s (.queued (.query q)) ⟨s, .heldBy who .shared⟩
  | answered : Asks g who q s (.answer (q.answer g s)) ⟨s, .free⟩

namespace Asks

variable {g : Group} {who order : Nat} {clock : Clock} {q : Query} {s : State} {a : Activity}
  {cell : Cell} {cloud : σ}

theorem call?_eq (h : Asks g who q s a cell) : a.call? = none := by
  cases h <;> rfl

theorem heard?_eq (h : Asks g who q s a cell) (late : Bool) :
    a.heard? client g clock late cloud = none := by
  cases h <;> rfl

theorem ended_eq {ending : Ending} (h : Asks g who q s (.ended ending) cell) :
    ending = .answered (q.answer g s) ∧ cell = ⟨s, .free⟩ := by
  cases h
  exact ⟨rfl, rfl⟩

theorem step_started (hask : q.answerAtOnce? g = none) :
    Scene.step client g who clock order ⟨.started (.query q), ⟨s, .free⟩, cloud⟩
      = some ⟨.queued (.query q), ⟨s, .heldBy who .shared⟩, cloud⟩ := by
  simp only [Scene.step, Scene.start, hask]
  rfl

theorem step_queued :
    Scene.step client g who clock order ⟨.queued (.query q), ⟨s, .heldBy who .shared⟩, cloud⟩
      = some ⟨.answer (q.answer g s), ⟨s, .free⟩, cloud⟩ := by
  have hleft : Cell.withdraw who ⟨s, .heldBy who .shared⟩ = ⟨s, .free⟩ := by
    rw [Cell.withdraw, Lock.leave_heldBy]
  rw [Scene.step]
  refine (if_pos (Lock.isHeldBy_heldBy who .shared)).trans ?_
  rw [Scene.fulfil, Scene.leaveFor, hleft]

theorem exists_step (h : Asks g who q s a cell) (hask : q.answerAtOnce? g = none)
    (hactive : ∀ ending, a ≠ .ended ending) :
    ∃ scene, Scene.step client g who clock order ⟨a, cell, cloud⟩ = some scene
      ∧ Asks g who q s scene.activity scene.cell ∧ scene.cloud = cloud := by
  cases h with
  | started => exact ⟨_, step_started hask, .queued, rfl⟩
  | queued => exact ⟨_, step_queued, .answered, rfl⟩
  | answered => exact absurd rfl (hactive _)

end Asks

end Group

namespace Simulation

open World

/-! ## A search -/

/-- A search for the group of a node, when it has been given the group that the node's ID names. -/
structure Search where
  who : Nat
  handle : Handle
  node : Node
  id : ProviderId
  /-- When it was given the group. -/
  moment : Nat
  /-- How long a reload of the group may take. -/
  limit : Duration
  /-- How old a view is at least that is replaced. -/
  interval : Duration
  /-- The state of the group. -/
  before : Group.State
  parse : ProviderId.parse? node.providerId = some id
  named : id.IsIn handle.group.resourceGroup handle.group.name

namespace Search

/-- The view that a search finds settles it: it has the node, or is too new to be replaced. -/
def IsSettled (s : Search) : Prop :=
  (s.before.record? s.id).isSome = true
    ∨ ∃ last, s.before.lastRefresh = some last ∧ s.moment - last < s.interval.ms

/-- The answer of a search that ends in a state of the group. -/
def answer (s : Search) (state : Group.State) : Result :=
  .ok (.maybeName (if (state.record? s.id).isSome then some s.handle.group.name else none))

theorem answer_of_isSome {s : Search} {state : Group.State}
    (hfound : (state.record? s.id).isSome = true) :
    s.answer state = .ok (.maybeName (some s.handle.group.name)) := by
  rw [answer, if_pos hfound]

/-- What comes of the reload of a search that is over at a moment: the trail, the latest first, and
the state of the group. The view is made of what was heard. A reload that is told of an error, or
has no more time, leaves the state as it was. -/
inductive Reloaded (s : Search) (moment : Nat) : List Group.Signal → Group.State → Prop
  | undescribed {e} : Reloaded s moment [.described (.error e), .sent .describe] s.before
  | unlisted {d e} :
      Reloaded s moment [.listed (.error e), .sent .list, .described (.ok d), .sent .describe]
        s.before
  | expired {trail}
      (htrail : trail = [.sent .describe]
        ∨ ∃ d, trail = [.sent .list, .described (.ok d), .sent .describe])
      (hmoment : moment = s.moment + s.limit.ms) :
      Reloaded s moment (.expired :: trail) s.before
  | installed {d listing cache} (hcache : cache = .build d listing) :
      Reloaded s moment [.listed (.ok listing), .sent .list, .described (.ok d), .sent .describe]
        { s.before with view := some ⟨cache, cache.capacity, moment⟩ }

/-- What is installed is made of the answers. -/
theorem Reloaded.of_listed {s : Search} {moment : Nat} {state : Group.State} {d : ScaleSet}
    {listing : List Instance} {earlier : List Group.Signal}
    (h : s.Reloaded moment (.listed (.ok listing) :: .sent .list :: .described (.ok d) :: earlier)
      state) :
    state = { s.before with
      view := some ⟨.build d listing, (Cache.build d listing).capacity, moment⟩ } := by
  cases h with
  | installed hcache => rw [hcache]

/-- How a search has ended at a moment: the trail, the latest first, and the state of the group. -/
inductive Concludes (s : Search) (moment : Nat) : List Group.Signal → Group.State → Prop
  | settled (hsettled : s.IsSettled) (hmoment : moment = s.moment) :
      Concludes s moment [] s.before
  | reloaded {trail state} (hopen : ¬ s.IsSettled) (hreloaded : s.Reloaded moment trail state)
      (hbegun : s.moment ≤ moment) (hlimit : moment ≤ s.moment + s.limit.ms) :
      Concludes s moment trail state

/-! ## Phases -/

/-- How far the reload of a search is at a moment, what is on its trail, and how it has left the
cell of the group. -/
inductive Reloads (s : Search) (now : Nat) :
    List Group.Signal → Group.Activity → Group.Cell → Prop
  | started : Reloads s now [] (.started .reload) ⟨s.before, .free⟩
  | describing {pending} :
      Reloads s now [.sent .describe] (.describing (some s.before.mutations) pending)
        ⟨s.before, .free⟩
  | listing {d pending} :
      Reloads s now [.sent .list, .described (.ok d), .sent .describe]
        (.listing s.before.mutations d pending) ⟨s.before, .free⟩
  | fetched {d listing cache} (hcache : cache = .build d listing) :
      Reloads s now [.listed (.ok listing), .sent .list, .described (.ok d), .sent .describe]
        (.fetched s.before.mutations cache) ⟨s.before, .free⟩
  | queued {d listing cache} (hcache : cache = .build d listing) :
      Reloads s now [.listed (.ok listing), .sent .list, .described (.ok d), .sent .describe]
        (.queued (.install s.before.mutations cache)) ⟨s.before, .heldBy s.who .exclusive⟩
  | ended {trail state ending} (hreloaded : s.Reloaded now trail state) :
      Reloads s now trail (.ended ending) ⟨state, .free⟩

/-- How far a search is. -/
inductive Phase (s : Search) (now : Nat) :
    List Group.Signal → Stage σ → Group.Cell → Prop
  | member {a cell} (hnow : now = s.moment)
      (hasks : Group.Asks s.handle.group s.who (.belongs s.node) s.before a cell) :
      Phase s now [] (.visiting s.handle a none (.route s.node .member)) cell
  | age {a cell} (hnow : now = s.moment) (hmissing : (s.before.record? s.id).isSome = false)
      (hasks : Group.Asks s.handle.group s.who .lastRefresh s.before a cell) :
      Phase s now [] (.visiting s.handle a none (.route s.node .age)) cell
  | reload {trail a d cell} (hopen : ¬ s.IsSettled) (hreloads : s.Reloads now trail a cell)
      (hbegun : s.moment ≤ now) (hlimit : d.Counts s.limit s.moment now) :
      Phase s now trail (.visiting s.handle a (some d) (.route s.node .reload)) cell
  | memberAgain {trail state a cell} (hopen : ¬ s.IsSettled)
      (hreloaded : s.Reloaded now trail state) (hbegun : s.moment ≤ now)
      (hlimit : now ≤ s.moment + s.limit.ms)
      (hasks : Group.Asks s.handle.group s.who (.belongs s.node) state a cell) :
      Phase s now trail (.visiting s.handle a none (.route s.node .memberAgain)) cell
  | finished {trail state moment} (hconcludes : s.Concludes moment trail state) :
      Phase s now trail (.finished (s.answer state) moment) ⟨state, .free⟩

variable {s : Search} {trail : List Group.Signal} {a : Group.Activity} {cell : Group.Cell}
  {cloud : σ} {clock : Clock} {order : Nat} {scene : Group.Scene σ}

/-! ## Steps of the reload -/

theorem reloads_of_start
    (hsteady : client.IsSteady s.handle.group cloud)
    (hstep : Group.Scene.step client s.handle.group s.who clock order
      ⟨.started .reload, ⟨s.before, .free⟩, cloud⟩ = some scene) :
    (∃ pending, scene.activity = .describing (some s.before.mutations) pending)
      ∧ scene.cell = ⟨s.before, .free⟩
      ∧ Group.Sent client s.handle.group .describe cloud scene.cloud := by
  obtain ⟨⟨receipt, cloud'⟩, hsubmit⟩ := Option.ne_none_iff_exists'.mp (hsteady .describe)
  have hsend : scene = ⟨.describing (some s.before.mutations) (.ofReceipt receipt clock order),
      ⟨s.before, .free⟩, cloud'⟩ := by
    rw [← Option.some.inj hstep, Group.Scene.start, Group.Scene.send, hsubmit]
  rw [hsend]
  exact ⟨⟨_, rfl⟩, rfl, receipt, hsubmit⟩

theorem reloads_of_description {pending : Pending} {late : Bool}
    (hsteady : client.IsSteady s.handle.group cloud) (hover : pending.isOver clock = true)
    (hscene : Group.Scene.finishDescription client s.handle.group s.who clock order
      ⟨.describing (some s.before.mutations) pending, ⟨s.before, .free⟩, cloud⟩
      (some s.before.mutations) pending = scene) :
    s.Reloads clock.now (Group.signals client s.handle.group clock late cloud
        (.describing (some s.before.mutations) pending) scene.activity ++ [.sent .describe])
        scene.activity scene.cell
      ∧ Group.Uses client s.handle.group cloud scene.cloud
        (Group.newCall? (some .describe) scene.activity.call?) := by
  unfold Group.Scene.finishDescription at hscene
  rw [Group.signals, Group.Activity.heard?, Group.heard?, if_pos hover]
  cases houtcome : pending.outcome
    (client.describe s.handle.group.resourceGroup s.handle.group.name cloud) with
  | error e =>
    rw [houtcome] at hscene
    subst hscene
    exact ⟨.ended .undescribed, rfl⟩
  | ok d =>
    rw [houtcome] at hscene
    obtain ⟨⟨receipt, cloud'⟩, hsubmit⟩ := Option.ne_none_iff_exists'.mp (hsteady .list)
    simp only [Group.Scene.send, hsubmit] at hscene
    subst hscene
    exact ⟨.listing, receipt, hsubmit⟩

theorem reloads_of_listing {pending : Pending} {late : Bool} {d : ScaleSet}
    (hover : pending.isOver clock = true)
    (hscene : Group.Scene.finishListing client s.handle.group
      ⟨.listing s.before.mutations d pending, ⟨s.before, .free⟩, cloud⟩
      s.before.mutations d pending = scene) :
    s.Reloads clock.now (Group.signals client s.handle.group clock late cloud
        (.listing s.before.mutations d pending) scene.activity
        ++ [.sent .list, .described (.ok d), .sent .describe]) scene.activity scene.cell
      ∧ Group.Uses client s.handle.group cloud scene.cloud
        (Group.newCall? (some .list) scene.activity.call?) := by
  rw [Group.Scene.finishListing] at hscene
  rw [Group.signals, Group.Activity.heard?, Group.heard?, if_pos hover]
  cases houtcome : pending.outcome
    (client.list s.handle.group.resourceGroup s.handle.group.name cloud) with
  | error e =>
    rw [houtcome] at hscene
    subst hscene
    exact ⟨.ended .unlisted, rfl⟩
  | ok listing =>
    rw [houtcome] at hscene
    subst hscene
    exact ⟨.fetched rfl, rfl⟩

/-- A step takes a reload on. -/
theorem Reloads.step {late : Bool} (h : s.Reloads clock.now trail a cell)
    (hsteady : client.IsSteady s.handle.group cloud)
    (hstep : Group.Scene.step client s.handle.group s.who clock order ⟨a, cell, cloud⟩
      = some scene) :
    s.Reloads clock.now
        (Group.signals client s.handle.group clock late cloud a scene.activity ++ trail)
        scene.activity scene.cell
      ∧ Group.Uses client s.handle.group cloud scene.cloud
        (Group.newCall? a.call? scene.activity.call?) := by
  cases h with
  | started =>
    obtain ⟨⟨pending, hactivity⟩, hcell, hsent⟩ := reloads_of_start hsteady hstep
    rw [hactivity, hcell]
    exact ⟨.describing, hsent⟩
  | describing =>
    obtain ⟨hover, hscene⟩ := Option.ite_none_right_eq_some.mp hstep
    exact reloads_of_description hsteady hover (Option.some.inj hscene)
  | listing =>
    obtain ⟨hover, hscene⟩ := Option.ite_none_right_eq_some.mp hstep
    exact reloads_of_listing hover (Option.some.inj hscene)
  | fetched hcache =>
    obtain rfl := Option.some.inj hstep
    exact ⟨.queued hcache, rfl⟩
  | @queued d listing cache hcache =>
    obtain ⟨-, hscene⟩ := Option.ite_none_right_eq_some.mp hstep
    obtain rfl := Option.some.inj hscene
    -- No mutation came between, so the view is installed, and the lock is free again.
    have hcell : Group.Cell.withdraw s.who
          ⟨s.before.install s.before.mutations cache clock.now, .heldBy s.who .exclusive⟩
        = ⟨{ s.before with view := some ⟨cache, cache.capacity, clock.now⟩ }, .free⟩ := by
      rw [Group.State.install_of_eq rfl, Group.Cell.withdraw, Lock.leave_heldBy]
    have hended : s.Reloads clock.now
        [.listed (.ok listing), .sent .list, .described (.ok d), .sent .describe]
        (.answer (.ok .nothing))
        ⟨{ s.before with view := some ⟨cache, cache.capacity, clock.now⟩ }, .free⟩ :=
      .ended (.installed hcache)
    rw [← hcell] at hended
    exact ⟨hended, rfl⟩
  | ended hreloaded => cases hstep

theorem Reloads.waits {now : Nat} (h : s.Reloads now trail a cell)
    (hwaits : Group.Scene.step client s.handle.group s.who clock order ⟨a, cell, cloud⟩ = none)
    (hactive : ∀ ending, a ≠ .ended ending) :
    cell = ⟨s.before, .free⟩ ∧ (∀ now, s.Reloads now trail a cell)
      ∧ (trail = [.sent .describe]
        ∨ ∃ d, trail = [.sent .list, .described (.ok d), .sent .describe])
      ∧ (∀ timer ∈ a.timer?, clock.rung < timer.due)
      ∧ ∀ late, a.heard? client s.handle.group clock late cloud
        = if late then some .expired else none := by
  cases h with
  | started => cases hwaits
  | @describing pending =>
    have hopen : ¬ pending.isOver clock = true := fun hover ↦
      nomatch ite_eq_right_iff.mp hwaits hover
    exact ⟨rfl, fun _ ↦ .describing, .inl rfl, Pending.rung_lt hopen, fun _ ↦ if_neg hopen⟩
  | @listing d pending =>
    have hopen : ¬ pending.isOver clock = true := fun hover ↦
      nomatch ite_eq_right_iff.mp hwaits hover
    exact ⟨rfl, fun _ ↦ .listing, .inr ⟨d, rfl⟩, Pending.rung_lt hopen, fun _ ↦ if_neg hopen⟩
  | fetched hcache => cases hwaits
  | queued hcache => cases ite_eq_right_iff.mp hwaits (Lock.isHeldBy_heldBy s.who .exclusive)
  | ended hreloaded => exact absurd rfl (hactive _)

end Search

/-! ## Steps of the search -/

def Stage.call? : Stage σ → Option Call
  | .remote _ _ call _ => some call.call
  | .visiting _ a _ _ => a.call?
  | _ => none

/-- What a task that visits a group hears when it goes on. -/
def Stage.heard? (client : Client σ) (clock : Clock) (cloud : σ) : Stage σ → Option Group.Signal
  | .visiting h a d _ =>
    a.heard? client h.group clock ((d.bind Deadline.timer).any clock.isPast) cloud
  | _ => none

/-- How many steps may be left to a search when it has come to a part of its way. -/
def Routing.rank : Routing → Nat
  | .member => 24
  | .age => 16
  | .reload => 8
  | .memberAgain => 0

def Stage.left : Stage σ → Nat
  | .visiting _ a d (.route _ routing) =>
    routing.rank + a.stepsLeft + if (d.bind Deadline.timer).isSome then 1 else 2
  | _ => 0

theorem Stage.rank_lt_left (h : Handle) (a : Group.Activity) (d : Option Deadline) (node : Node)
    (routing : Routing) : routing.rank < (visiting h a d (.route node routing) : Stage σ).left := by
  rw [left]
  split <;> omega

namespace World

/-- The call that a task sends in a step, if it sends one: it waits for it then, and did not
before. -/
def sent? (who : Nat) (w w' : World σ) : Option Call :=
  Group.newCall? ((w.stage? who).bind Stage.call?) ((w'.stage? who).bind Stage.call?)

/-- What a task that visits a group hears in a step. -/
def heard? (client : Client σ) (who : Nat) (w : World σ) : Option Group.Signal :=
  (w.stage? who).bind (Stage.heard? client w.clock w.cloud)

/-- What a step adds to the trail of a task that visits a group: what it sends, and before that,
what it hears. -/
def signals (client : Client σ) (who : Nat) (w w' : World σ) : List Group.Signal :=
  ((w.sent? who w').map .sent).toList ++ (w.heard? client who).toList

end World

namespace Search

variable {s : Search} {w w' : World σ} {stage stage' : Stage σ} {trail : List Group.Signal}
  {a : Group.Activity} {cell cell' : Group.Cell}

/-- A search is in one of its phases. -/
structure Underway (s : Search) (trail : List Group.Signal) (w : World σ) : Prop where
  limit : w.registry.groupTimeout = s.limit
  interval : w.registry.minInterval = s.interval
  rung : w.clock.rung ≤ w.clock.now
  phase : ∃ stage cell, w.stage? s.who = some stage ∧ w.cells[s.handle.place]? = some cell
    ∧ s.Phase w.clock.now trail stage cell

/-- A search goes on to be under way and comes closer to its end. The cloud has taken the call that
was sent, and is as it was if none was. -/
structure GoesOn (client : Client σ) (s : Search) (trail : List Group.Signal) (w w' : World σ) :
    Prop where
  underway : s.Underway (w.signals client s.who w' ++ trail) w'
  closer : ∀ {stage stage'}, w.stage? s.who = some stage → w'.stage? s.who = some stage' →
    stage'.left < stage.left
  uses : Group.Uses client s.handle.group w.cloud w'.cloud (w.sent? s.who w')

theorem GoesOn.count (h : s.GoesOn client trail w w') (steps : Nat) :
    s.GoesOn client trail w { w' with steps } :=
  ⟨⟨h.underway.limit, h.underway.interval, h.underway.rung, h.underway.phase⟩, h.closer, h.uses⟩

/-- A search goes on from one phase to the next. What it sent and heard is added to its trail. -/
theorem goesOn_of_phase (h : s.Underway trail w) (signals : List Group.Signal)
    (hregistry : w'.registry = w.registry) (hclock : w'.clock = w.clock)
    (hstage : w.stage? s.who = some stage) (hstage' : w'.stage? s.who = some stage')
    (hsignals : ((Group.newCall? stage.call? stage'.call?).map .sent).toList
      ++ (stage.heard? client w.clock w.cloud).toList = signals)
    (hcell' : w'.cells[s.handle.place]? = some cell')
    (hphase : s.Phase w.clock.now (signals ++ trail) stage' cell')
    (hcloser : stage'.left < stage.left)
    (huses : Group.Uses client s.handle.group w.cloud w'.cloud
      (Group.newCall? stage.call? stage'.call?)) : s.GoesOn client trail w w' := by
  have hsent : w.sent? s.who w' = Group.newCall? stage.call? stage'.call? := by
    rw [sent?, hstage, hstage']
    rfl
  have hadded : w.signals client s.who w' = signals := by
    rw [World.signals, hsent, heard?, hstage, Option.bind_some, hsignals]
  refine ⟨⟨?_, ?_, ?_, stage', cell', hstage', hcell', ?_⟩, ?_, hsent ▸ huses⟩
  · rw [hregistry]
    exact h.limit
  · rw [hregistry]
    exact h.interval
  · rw [hclock]
    exact h.rung
  · rw [hadded, hclock]
    exact hphase
  · intro before after hbefore hafter
    obtain rfl := Option.some.inj (hstage.symm.trans hbefore)
    obtain rfl := Option.some.inj (hstage'.symm.trans hafter)
    exact hcloser

theorem goesOn_of_silence (h : s.Underway trail w) (hregistry : w'.registry = w.registry)
    (hclock : w'.clock = w.clock) (hstage : w.stage? s.who = some stage)
    (hstage' : w'.stage? s.who = some stage')
    (hcall : Group.newCall? stage.call? stage'.call? = none)
    (hheard : stage.heard? client w.clock w.cloud = none)
    (hcell' : w'.cells[s.handle.place]? = some cell')
    (hphase : s.Phase w.clock.now trail stage' cell')
    (hcloser : stage'.left < stage.left) (hcloud : w'.cloud = w.cloud) :
    s.GoesOn client trail w w' := by
  refine goesOn_of_phase h [] hregistry hclock hstage hstage' ?_ hcell' hphase hcloser
    (hcall ▸ hcloud)
  rw [hcall, hheard]
  rfl

theorem goesOn_of_told {ending : Group.Ending} {d : Option Deadline} {routing : Routing}
    (h : s.Underway trail w)
    (hstage : w.stage? s.who
      = some (.visiting s.handle (.ended ending) d (.route s.node routing)))
    (hregistry : w'.registry = w.registry) (hclock : w'.clock = w.clock)
    (hstage' : w'.stage? s.who = some stage')
    (hcell' : w'.cells[s.handle.place]? = some cell')
    (hphase : s.Phase w.clock.now trail stage' cell') (hcall : stage'.call? = none)
    (hcloser : stage'.left ≤ routing.rank) (hcloud : w'.cloud = w.cloud) :
    s.GoesOn client trail w w' := by
  refine goesOn_of_silence h hregistry hclock hstage hstage' ?_ rfl hcell' hphase
    (Nat.lt_of_le_of_lt hcloser (Stage.rank_lt_left ..)) hcloud
  rw [hcall, Group.newCall?_none]

theorem goesOn_of_asks {q : Group.Query} {state : Group.State} {routing : Routing}
    (h : s.Underway trail w) (hask : q.answerAtOnce? s.handle.group = none)
    (hasks : Group.Asks s.handle.group s.who q state a cell)
    (hactive : ∀ ending, a ≠ .ended ending)
    (hstage : w.stage? s.who = some (.visiting s.handle a none (.route s.node routing)))
    (hcell : w.cells[s.handle.place]? = some cell)
    (hphase : ∀ {a cell}, Group.Asks s.handle.group s.who q state a cell →
      s.Phase w.clock.now trail
        (.visiting s.handle a none (.route s.node routing) : Stage σ) cell)
    (hstep : w.stepActivity client s.who s.handle a none (.route s.node routing) = some w') :
    s.GoesOn client trail w w' := by
  obtain ⟨cell', hcell', ⟨scene, hscene, rfl⟩ | ⟨d, hd, -⟩⟩ := stepActivity_cases hstep hactive
  · obtain rfl := Option.some.inj (hcell.symm.trans hcell')
    obtain ⟨scene', hscene', hasks', hcloud⟩ := hasks.exists_step hask hactive
    obtain rfl := Option.some.inj (hscene.symm.trans hscene')
    have hcloser := (Group.advance_of_step hscene).stepsLeft_lt hactive
    refine goesOn_of_silence h rfl rfl hstage
      (stage?_carryOn_self hstage s.handle scene none (.route s.node routing)) ?_
      (hasks.heard?_eq ..)
      (getElem?_setCell hcell scene.cell) (hphase hasks') ?_ hcloud
    · exact (congrArg (Group.newCall? a.call?) hasks'.call?_eq).trans (Group.newCall?_none _)
    · exact Nat.add_lt_add_right (Nat.add_lt_add_left hcloser _) _
  · cases hd

theorem goesOn_of_member (h : s.Underway trail w) (hnow : w.clock.now = s.moment)
    (htrail : trail = [])
    (hstage : w.stage? s.who = some (.visiting s.handle
      (.answer ((Group.Query.belongs s.node).answer s.handle.group s.before)) none
      (.route s.node .member)))
    (hcell : w.cells[s.handle.place]? = some ⟨s.before, .free⟩) :
    s.GoesOn client trail w (w.proceed s.who s.handle
      (.answered ((Group.Query.belongs s.node).answer s.handle.group s.before))
      (.route s.node .member)) := by
  subst htrail
  have hmember := Group.isMember_belongs s.parse s.named s.before
  simp only [proceed, routeOn, hmember]
  cases hfound : (s.before.record? s.id).isSome with
  | true =>
    refine goesOn_of_told h hstage rfl rfl (stage?_finish_self hstage _) hcell ?_ rfl
      (Nat.zero_le _) rfl
    exact answer_of_isSome hfound ▸ .finished (.settled (.inl hfound) hnow)
  | false =>
    refine goesOn_of_told h hstage rfl rfl (stage?_setStage_self hstage _) hcell ?_ rfl ?_ rfl
    · exact .age hnow hfound .started
    · exact Nat.le_of_ble_eq_true rfl

theorem goesOn_of_age (h : s.Underway trail w) (hnow : w.clock.now = s.moment)
    (htrail : trail = []) (hmissing : (s.before.record? s.id).isSome = false)
    (hstage : w.stage? s.who = some (.visiting s.handle
      (.answer (Group.Query.lastRefresh.answer s.handle.group s.before)) none
      (.route s.node .age)))
    (hcell : w.cells[s.handle.place]? = some ⟨s.before, .free⟩) :
    s.GoesOn client trail w (w.proceed s.who s.handle
      (.answered (Group.Query.lastRefresh.answer s.handle.group s.before))
      (.route s.node .age)) := by
  subst htrail
  by_cases hfresh : ∃ last, s.before.lastRefresh = some last ∧ s.moment - last < s.interval.ms
  · have hanswer : s.answer s.before = .ok (.maybeName none) := by
      rw [answer, hmissing]
      rfl
    have hproceed : w.proceed s.who s.handle
        (.answered (Group.Query.lastRefresh.answer s.handle.group s.before)) (.route s.node .age)
          = w.finish s.who (.ok (.maybeName none)) := by
      obtain ⟨last, hlast, hlt⟩ := hfresh
      rw [← hnow, ← h.interval] at hlt
      simp only [proceed, routeOn, Group.Query.answer, hlast, if_pos hlt]
      rfl
    rw [hproceed]
    refine goesOn_of_told h hstage rfl rfl (stage?_finish_self hstage _) hcell ?_ rfl
      (Nat.zero_le _) rfl
    exact hanswer ▸ .finished (.settled (.inr hfresh) hnow)
  · have hproceed : w.proceed s.who s.handle
        (.answered (Group.Query.lastRefresh.answer s.handle.group s.before)) (.route s.node .age)
          = w.setStage s.who (w.boundedReload s.handle (.route s.node .reload)) := by
      simp only [proceed, routeOn, Group.Query.answer]
      cases hlast : s.before.lastRefresh with
      | none => rfl
      | some last =>
        have hold : ¬ w.clock.now - last < w.registry.minInterval.ms := by
          rw [hnow, h.interval]
          exact fun hlt ↦ hfresh ⟨last, hlast, hlt⟩
        exact if_neg hold
    have hopen : ¬ s.IsSettled := by
      rintro (hfound | hnew)
      · rw [hmissing] at hfound
        cases hfound
      · exact hfresh hnew
    rw [hproceed]
    refine goesOn_of_told h hstage rfl rfl (stage?_setStage_self hstage _) hcell ?_ rfl ?_ rfl
    · exact .reload hopen .started hnow.ge ⟨h.limit, fun _ ↦ hnow, fun _ htimer ↦ by cases htimer⟩
    · exact Nat.le_of_ble_eq_true rfl

theorem goesOn_of_reloaded {ending : Group.Ending} {d : Option Deadline} {state : Group.State}
    {w₁ : World σ} (h : s.Underway trail w) (hopen : ¬ s.IsSettled) (signals : List Group.Signal)
    (hsignals : ((Stage.visiting s.handle a d (.route s.node .reload)).heard? client w.clock
      w.cloud).toList = signals)
    (hreloaded : s.Reloaded w.clock.now (signals ++ trail) state) (hbegun : s.moment ≤ w.clock.now)
    (hlimit : w.clock.now ≤ s.moment + s.limit.ms)
    (hstage : w.stage? s.who = some (.visiting s.handle a d (.route s.node .reload)))
    (hstage₁ : w₁.stage? s.who = w.stage? s.who) (hregistry : w₁.registry = w.registry)
    (hcell : w₁.cells[s.handle.place]? = some ⟨state, .free⟩) (hclock : w₁.clock = w.clock)
    (hcloud : w₁.cloud = w.cloud) :
    s.GoesOn client trail w (w₁.proceed s.who s.handle ending (.route s.node .reload)) := by
  have hstage' := stage?_setStage_self (hstage₁.trans hstage)
    (.visiting s.handle (.started (.query (.belongs s.node))) none (.route s.node .memberAgain))
  have hnone : Group.newCall? a.call? none = none := Group.newCall?_none _
  refine goesOn_of_phase h signals hregistry hclock hstage hstage' ?_ hcell
    (.memberAgain hopen hreloaded hbegun hlimit .started) ?_ (hnone ▸ hcloud)
  · rw [← hsignals]
    exact congrArg (fun call? : Option Call ↦ (call?.map Group.Signal.sent).toList ++ _) hnone
  · exact Nat.lt_of_le_of_lt (Nat.le_of_ble_eq_true rfl) (Stage.rank_lt_left ..)

/-- The time limit of a search's reload is set, or is over. -/
theorem goesOn_of_expire {d : Deadline} (h : s.Underway trail w) (hopen : ¬ s.IsSettled)
    (hreloads : s.Reloads w.clock.now trail a cell) (hbegun : s.moment ≤ w.clock.now)
    (hlimit : d.Counts s.limit s.moment w.clock.now) (hactive : ∀ ending, a ≠ .ended ending)
    (hstage : w.stage? s.who = some (.visiting s.handle a (some d) (.route s.node .reload)))
    (hcell : w.cells[s.handle.place]? = some cell)
    (hwaits : Group.Scene.step client s.handle.group s.who w.clock w.steps ⟨a, cell, w.cloud⟩
      = none)
    (hexpire : w.expire s.who s.handle a d (.route s.node .reload) = some w') :
    s.GoesOn client trail w w' := by
  obtain ⟨rfl, -, htrail, -, hheard⟩ := hreloads.waits hwaits hactive
  rcases expire_cases hcell hexpire with ⟨hunset, rfl⟩ | ⟨timer, htimer, hpast, rfl⟩
  · have hsilent : (Stage.visiting s.handle a (some d) (.route s.node .reload)).heard? client
        w.clock w.cloud = none := by
      refine (hheard _).trans (if_neg ?_)
      simp [hunset]
    refine goesOn_of_silence h rfl rfl hstage (stage?_setStage_self hstage _) (if_pos rfl) hsilent
      hcell ?_ ?_ rfl
    · have hdue : (w.timer d.limit.ms).due = s.moment + s.limit.ms := by
        rw [← hlimit.unset hunset, ← hlimit.same]
        rfl
      refine .reload hopen hreloads hbegun ⟨hlimit.same, nofun, ?_⟩
      rintro timer htimer
      obtain rfl := Option.some.inj htimer
      exact ⟨hdue, Nat.le_add_right _ _⟩
    · simp [Stage.left, hunset]
  · have hlate : (Stage.visiting s.handle a (some d) (.route s.node .reload)).heard? client w.clock
        w.cloud = some .expired := by
      refine (hheard _).trans (if_pos ?_)
      simp [htimer, hpast]
    obtain ⟨hdue, hle⟩ := hlimit.due timer htimer
    have hnow : w.clock.now = s.moment + s.limit.ms := by
      have hdue' : timer.due ≤ w.clock.rung := of_decide_eq_true hpast
      have hrung := h.rung
      omega
    refine goesOn_of_reloaded h hopen _ (congrArg Option.toList hlate) (.expired htrail hnow) hbegun
      hnow.le hstage rfl rfl ?_ rfl rfl
    rw [Reload.withdraw_free]
    exact getElem?_setCell hcell _

theorem goesOn_of_reload {d : Deadline} (h : s.Underway trail w)
    (hsteady : client.IsSteady s.handle.group w.cloud)
    (hopen : ¬ s.IsSettled) (hreloads : s.Reloads w.clock.now trail a cell)
    (hbegun : s.moment ≤ w.clock.now)
    (hlimit : d.Counts s.limit s.moment w.clock.now) (hactive : ∀ ending, a ≠ .ended ending)
    (hstage : w.stage? s.who = some (.visiting s.handle a (some d) (.route s.node .reload)))
    (hcell : w.cells[s.handle.place]? = some cell)
    (hstep : w.stepActivity client s.who s.handle a (some d) (.route s.node .reload) = some w') :
    s.GoesOn client trail w w' := by
  obtain ⟨cell', hcell', hcases⟩ := stepActivity_cases hstep hactive
  obtain rfl := Option.some.inj (hcell.symm.trans hcell')
  rcases hcases with ⟨scene, hscene, rfl⟩ | ⟨d', hd, hwaits, hexpire⟩
  · obtain ⟨hreloads', huses⟩ := hreloads.step hsteady hscene
    have hcloser := (Group.advance_of_step hscene).stepsLeft_lt hactive
    refine goesOn_of_phase h _ rfl rfl hstage
      (stage?_carryOn_self hstage s.handle scene (some d) (.route s.node .reload)) rfl
      (getElem?_setCell hcell scene.cell) (.reload hopen hreloads' hbegun hlimit) ?_ huses
    exact Nat.add_lt_add_right (Nat.add_lt_add_left hcloser _) _
  · obtain rfl := Option.some.inj hd
    exact goesOn_of_expire h hopen hreloads hbegun hlimit hactive hstage hcell hwaits hexpire

theorem goesOn_of_memberAgain {state : Group.State} (h : s.Underway trail w)
    (hopen : ¬ s.IsSettled) (hreloaded : s.Reloaded w.clock.now trail state)
    (hbegun : s.moment ≤ w.clock.now) (hlimit : w.clock.now ≤ s.moment + s.limit.ms)
    (hstage : w.stage? s.who = some (.visiting s.handle
      (.answer ((Group.Query.belongs s.node).answer s.handle.group state)) none
      (.route s.node .memberAgain)))
    (hcell : w.cells[s.handle.place]? = some ⟨state, .free⟩) :
    s.GoesOn client trail w (w.proceed s.who s.handle
      (.answered ((Group.Query.belongs s.node).answer s.handle.group state))
      (.route s.node .memberAgain)) := by
  have hmember := Group.isMember_belongs s.parse s.named state
  simp only [proceed, routeOn, hmember]
  exact goesOn_of_told h hstage rfl rfl (stage?_finish_self hstage _) hcell
    (.finished (.reloaded hopen hreloaded hbegun hlimit)) rfl (Nat.zero_le _) rfl

/-- A search stays under way with every step of its task. -/
theorem Underway.step (h : s.Underway trail w)
    (hsteady : client.IsSteady s.handle.group w.cloud)
    (hstep : w.step client s.who = some w') : s.GoesOn client trail w w' := by
  obtain ⟨stage, next, hstage, hnext, rfl⟩ := step_cases hstep
  suffices hgoes : s.GoesOn client trail w next from hgoes.count _
  obtain ⟨stage', cell, hstage', hcell, hphase⟩ := h.phase
  obtain rfl := Option.some.inj (hstage'.symm.trans hstage)
  have hbelongs := Group.answerAtOnce?_belongs s.parse s.named
  cases hphase with
  | @member a _ hnow hasks =>
    by_cases hended : ∃ ending, a = .ended ending
    · obtain ⟨ending, rfl⟩ := hended
      obtain ⟨rfl, rfl⟩ := hasks.ended_eq
      obtain rfl := Option.some.inj hnext
      exact goesOn_of_member h hnow rfl hstage hcell
    · exact goesOn_of_asks h hbelongs hasks (fun ending heq ↦ hended ⟨ending, heq⟩) hstage hcell
        (.member hnow) hnext
  | @age a _ hnow hmissing hasks =>
    by_cases hended : ∃ ending, a = .ended ending
    · obtain ⟨ending, rfl⟩ := hended
      obtain ⟨rfl, rfl⟩ := hasks.ended_eq
      obtain rfl := Option.some.inj hnext
      exact goesOn_of_age h hnow rfl hmissing hstage hcell
    · exact goesOn_of_asks h rfl hasks (fun ending heq ↦ hended ⟨ending, heq⟩) hstage hcell
        (.age hnow hmissing) hnext
  | @reload _ a d _ hopen hreloads hbegun hlimit =>
    by_cases hended : ∃ ending, a = .ended ending
    · obtain ⟨ending, rfl⟩ := hended
      obtain rfl := Option.some.inj hnext
      cases hreloads with
      | ended hreloaded =>
        exact goesOn_of_reloaded h hopen [] rfl hreloaded hbegun hlimit.now_le hstage rfl rfl hcell
          rfl
          rfl
    · exact goesOn_of_reload h hsteady hopen hreloads hbegun hlimit
        (fun ending heq ↦ hended ⟨ending, heq⟩) hstage hcell hnext
  | @memberAgain _ state a _ hopen hreloaded hbegun hlimit hasks =>
    by_cases hended : ∃ ending, a = .ended ending
    · obtain ⟨ending, rfl⟩ := hended
      obtain ⟨rfl, rfl⟩ := hasks.ended_eq
      obtain rfl := Option.some.inj hnext
      exact goesOn_of_memberAgain h hopen hreloaded hbegun hlimit hstage hcell
    · exact goesOn_of_asks h hbelongs hasks (fun ending heq ↦ hended ⟨ending, heq⟩) hstage hcell
        (.memberAgain hopen hreloaded hbegun hlimit) hnext
  | finished hconcludes => cases hnext

end Search

end Simulation

end NodeGroups
