import NodeGroups.Proofs.Loop

/-!
# Refresh loops as their turns tell

From the turns of its task one can tell when a refresh loop began, when its passes began and ended,
what they did, and when the loop ended. Here it is shown that in a punctual course this is so, and
what is known of the passes.

## The invariant

Between two passes the moment of the last rest is known, and the clock has not passed the shutdown
or not moved on since that moment. As the interval is not over before the clock has moved on, a
pass that begins does so before the shutdown or just at it. In a pass, what it has asked and what it
still has to ask make up the groups that were registered when it got the registry, and the reloads
that it has started are within their time limit.
-/

namespace NodeGroups.Simulation

open World

variable {σ : Type} {client : Client σ} {start w w' : World σ} {who moment : Nat} {l : Loop}
  {limit : Duration}

/-! ## Passes and loops, as their turns tell -/

/-- A pass of a refresh loop. -/
structure Round where
  began : Nat
  /-- The groups that were registered when it got the registry. -/
  groups : List Handle
  /-- The groups that have answered whether they need a refresh. -/
  asked : List Handle
  /-- Those of them that need one. -/
  stale : List Handle
  /-- When it handed groups over, if it did. -/
  handed : Option Nat
  /-- The names of the groups that it handed over, with the tasks that reload them. -/
  reloads : List (String × Nat)
  ended : Option Nat
  deriving DecidableEq

namespace Round

def begin (moment : Nat) : Round := ⟨moment, [], [], [], none, [], none⟩

/-- What a pass learns in a turn: which groups there are, or whether one needs a refresh. -/
def hear (t : Turn σ) (p : Round) : Round :=
  match t.before with
  | some (.entering _) => { p with groups := t.handles }
  | some (.visiting h (.ended (.answered (.ok (.flag needed)))) _ _) =>
    { p with asked := p.asked ++ [h], stale := if needed then p.stale ++ [h] else p.stale }
  | _ => p

/-- What a pass does in a turn: it may hand groups over, or end. -/
def settle (t : Turn σ) (p : Round) : Round :=
  match t.after with
  | some (.gathering children (.pass names _)) =>
    { p with handed := some t.moment, reloads := names.zip children }
  | some (.idling ..) => { p with ended := some t.moment }
  | _ => p

end Round

/-- A refresh loop with its passes, the latest first. -/
structure Rounds where
  interval : Nat
  /-- When it is told to stop. -/
  stop : Nat
  began : Nat
  passes : List Round
  ended : Option Nat
  deriving DecidableEq

namespace Rounds

/-- The loop that a turn begins, if it does. -/
def ofTurn? (t : Turn σ) : Option Rounds :=
  match t.before with
  | some (.launching none (.loop interval duration))
  | some (.pausing _ (.loop interval duration)) =>
    some ⟨interval, t.moment + duration, t.moment, [], none⟩
  | _ => none

/-- A loop after a turn of its task. A pass that comes too soon ends as it begins. -/
def next (t : Turn σ) (r : Rounds) : Rounds :=
  match t.before with
  | some (.idling ..) =>
    match t.after with
    | some (.finished ..) => { r with ended := some t.moment }
    | _ => { r with passes := (Round.begin t.moment).settle t :: r.passes }
  | _ => { r with passes := r.passes.modifyHead fun p ↦ (p.hear t).settle t }

end Rounds

/-- The loop of a task, as the turns tell. -/
def rounds? (who : Nat) : List (Turn σ) → Option Rounds
  | [] => none
  | t :: earlier =>
    match rounds? who earlier with
    | some r => some (if t.who = who then r.next t else r)
    | none => if t.who = who then Rounds.ofTurn? t else none

/-! ## What is known of passes -/

/-- A pass that has ended asked all groups, handed over those that need a refresh, and saw the ends
of their reloads within the time limit. -/
structure Round.IsSound (limit : Duration) (w : World σ) (p : Round) : Prop where
  began : p.began ≤ w.clock.now
  ended : ∀ e, p.ended = some e → p.began ≤ e ∧ e ≤ w.clock.now
  asked : p.ended ≠ none → p.asked = p.groups
  handed : p.ended ≠ none → p.reloads.map Prod.fst = p.stale.map fun h ↦ h.group.name
  finished : p.ended ≠ none → ∀ reload ∈ p.reloads, w.IsOver reload.2
  bounded : ∀ e m, p.ended = some e → p.handed = some m → e ≤ m + limit.ms

/-- Nothing was handed over yet. -/
structure Round.IsOpen (p : Round) : Prop where
  ended : p.ended = none
  handed : p.handed = none
  reloads : p.reloads = []

theorem Round.isSound_of_ended_eq_none {p : Round} (hbegan : p.began ≤ w.clock.now)
    (hopen : p.ended = none) : p.IsSound limit w where
  began := hbegan
  ended e hended := by cases hopen.symm.trans hended
  asked hended := absurd hopen hended
  handed hended := absurd hopen hended
  finished hended := absurd hopen hended
  bounded e m hended := by cases hopen.symm.trans hended

theorem Round.IsSound.lasts {p : Round} (h : p.IsSound limit w) (hlasts : Lasts limit w w') :
    p.IsSound limit w' where
  began := h.began.trans hlasts.clock
  ended e hended := ⟨(h.ended e hended).1, (h.ended e hended).2.trans hlasts.clock⟩
  asked := h.asked
  handed := h.handed
  finished hended reload hmem := hlasts.ended (h.finished hended reload hmem)
  bounded := h.bounded

namespace Rounds

/-- The passes of a loop keep its intervals and begin before its shutdown. -/
structure IsSound (limit : Duration) (w : World σ) (r : Rounds) : Prop where
  began : r.began ≤ w.clock.now
  stop : r.began ≤ r.stop
  passes : ∀ p ∈ r.passes, p.IsSound limit w
  after : ∀ p ∈ r.passes, r.began + r.interval ≤ p.began
  before : ∀ p ∈ r.passes, p.began ≤ r.stop
  spaced : r.passes.Pairwise fun later earlier ↦
    ∃ e, earlier.ended = some e ∧ e + r.interval ≤ later.began

variable {r : Rounds} {p p' : Round} {earlier : List Round}

theorem IsSound.lasts (h : r.IsSound limit w) (hlasts : Lasts limit w w') :
    r.IsSound limit w' where
  began := h.began.trans hlasts.clock
  stop := h.stop
  passes p hp := (h.passes p hp).lasts hlasts
  after := h.after
  before := h.before
  spaced := h.spaced

theorem IsSound.begin (h : r.IsSound limit w) (hp : p.IsSound limit w)
    (hafter : r.began + r.interval ≤ p.began) (hbefore : p.began ≤ r.stop)
    (hspaced : ∀ earlier ∈ r.passes, ∃ e, earlier.ended = some e ∧ e + r.interval ≤ p.began) :
    { r with passes := p :: r.passes }.IsSound limit w where
  began := h.began
  stop := h.stop
  passes := List.forall_mem_cons.mpr ⟨hp, h.passes⟩
  after := List.forall_mem_cons.mpr ⟨hafter, h.after⟩
  before := List.forall_mem_cons.mpr ⟨hbefore, h.before⟩
  spaced := List.pairwise_cons.mpr ⟨hspaced, h.spaced⟩

theorem IsSound.revise (h : r.IsSound limit w) (hpasses : r.passes = p :: earlier)
    (hp : p'.IsSound limit w) (hbegan : p'.began = p.began) :
    { r with passes := p' :: earlier }.IsSound limit w := by
  have hafter := h.after
  have hbefore := h.before
  have hpassed := h.passes
  have hspaced := h.spaced
  rw [hpasses] at hafter hbefore hpassed hspaced
  rw [List.forall_mem_cons] at hafter hbefore hpassed
  rw [List.pairwise_cons] at hspaced
  exact
    { began := h.began
      stop := h.stop
      passes := List.forall_mem_cons.mpr ⟨hp, hpassed.2⟩
      after := List.forall_mem_cons.mpr ⟨hbegan ▸ hafter.1, hafter.2⟩
      before := List.forall_mem_cons.mpr ⟨hbegan ▸ hbefore.1, hbefore.2⟩
      spaced := List.pairwise_cons.mpr ⟨fun p hp ↦ hbegan ▸ hspaced.1 p hp, hspaced.2⟩ }

/-! ## Where the task of a loop is -/

/-- A loop is that of a task that goes on with it. -/
structure IsOf (l : Loop) (r : Rounds) : Prop where
  interval : l.interval = r.interval
  stop : l.stop.due = r.stop
  going : r.ended = none

theorem IsOf.withPasses (h : r.IsOf l) (passes : List Round) : { r with passes }.IsOf l :=
  ⟨h.interval, h.stop, h.going⟩

def EndedBy (moment : Nat) (r : Rounds) : Prop :=
  ∀ p ∈ r.passes, ∃ e, p.ended = some e ∧ e ≤ moment

def LastEnded (moment : Nat) (r : Rounds) : Prop :=
  ∃ p earlier, r.passes = p :: earlier ∧ p.ended = some moment

/-- The task of a loop is where the turns say that it is. -/
inductive Stands (limit : Duration) (who : Nat) (w : World σ) (r : Rounds) : Prop
  | rests {l : Loop} {since : Nat} (hof : r.IsOf l) (hrests : w.Rests who l since)
      (hsince : since = r.began ∧ r.passes = [] ∨ r.LastEnded since) (hended : r.EndedBy since)
      (hnow : w.clock.now ≤ r.stop ∨ w.clock.now = since)
  | enters {l : Loop} {p : Round} {earlier : List Round} (hof : r.IsOf l)
      (henters : w.Enters who l) (hpasses : r.passes = p :: earlier) (hopen : p.IsOpen)
      (hasked : p.asked = []) (hstale : p.stale = [])
  | asks {l : Loop} {p : Round} {earlier : List Round} {h : Handle} {rest : List Handle}
      (hof : r.IsOf l) (hasks : w.Asks who l p.stale h rest) (hpasses : r.passes = p :: earlier)
      (hopen : p.IsOpen) (hgroups : p.groups = p.asked ++ h :: rest)
  | hands {l : Loop} {p : Round} {earlier : List Round} {moment : Nat} {children : List Nat}
      (hof : r.IsOf l) (hhands : w.Hands who l p.stale limit moment children)
      (hpasses : r.passes = p :: earlier) (hopen : p.ended = none)
      (hhanded : p.handed = some moment)
      (hreloads : p.reloads = (p.stale.map fun h ↦ h.group.name).zip children)
      (hasked : p.asked = p.groups) (hnow : w.clock.now ≤ moment + limit.ms)
  | ended {e : Nat} (hover : w.IsOver who) (hend : r.ended = some e) (hended : r.EndedBy e)
      (hlast : e = r.stop ∨ r.stop ≤ e ∧ r.LastEnded e)

/-- What the turns say of a loop is so. -/
structure Fits (limit : Duration) (who : Nat) (w : World σ) (r : Rounds) : Prop where
  sound : r.IsSound limit w
  stands : r.Stands limit who w

theorem Stands.keep (h : r.Stands limit who w) (hclock : w'.clock.now = w.clock.now)
    (hlasts : Lasts limit w w')
    (hstage : ∀ {stage}, w.stage? who = some stage → w'.stage? who = some stage) :
    r.Stands limit who w' := by
  cases h with
  | rests hof hrests hsince hended hnow =>
    obtain ⟨next, hidling, hdue⟩ := hrests
    exact .rests hof ⟨next, hstage hidling, hdue⟩ hsince hended (hclock ▸ hnow)
  | enters hof henters hpasses hopen hasked hstale =>
    obtain ⟨moment, hentering⟩ := henters
    exact .enters hof ⟨moment, hstage hentering⟩ hpasses hopen hasked hstale
  | asks hof hasks hpasses hopen hgroups =>
    obtain ⟨activity, d, moment, hvisiting⟩ := hasks
    exact .asks hof ⟨activity, d, moment, hstage hvisiting⟩ hpasses hopen hgroups
  | hands hof hhands hpasses hopen hhanded hreloads hasked hnow =>
    obtain ⟨hgathering, hlength, hchildren⟩ := hhands
    exact .hands hof ⟨hstage hgathering, hlength, fun child hchild ↦
      hlasts.inLimit (hchildren child hchild)⟩ hpasses hopen hhanded hreloads hasked (hclock ▸ hnow)
  | ended hover hend hended hlast => exact .ended (hlasts.ended hover) hend hended hlast

theorem Fits.keep (h : r.Fits limit who w) (hclock : w'.clock.now = w.clock.now)
    (hlasts : Lasts limit w w')
    (hstage : ∀ {stage}, w.stage? who = some stage → w'.stage? who = some stage) :
    r.Fits limit who w' :=
  ⟨h.sound.lasts hlasts, h.stands.keep hclock hlasts hstage⟩

/-- Time passes for a loop: not beyond its shutdown while it rests, nor beyond the time limit while
it waits for reloads. -/
theorem Fits.elapse {ms : Nat} (h : r.Fits limit who w) (hpass : w.MayPass client ms)
    (hrung : w.clock.rung = w.clock.now) : r.Fits limit who (w.pass ms).ring := by
  have hlasts : Lasts limit w (w.pass ms).ring := .elapse hpass hrung
  rcases Nat.eq_zero_or_pos ms with rfl | hms
  · exact h.keep rfl hlasts id
  · refine ⟨h.sound.lasts hlasts, ?_⟩
    cases h.stands with
    | @rests l since hof hrests hsince hended hnow =>
      obtain ⟨next, hidling, hdue⟩ := hrests
      -- The loop waits for its shutdown too, so time does not pass beyond it.
      have hfuture := not_isPast_of_rests hidling (hpass hms).1
      have hmem : l.stop ∈ (Stage.idling l next : Stage σ).timers := .tail _ (.head _)
      have hlate := hpass.le_due hrung hidling hmem hfuture
      rw [hof.stop] at hlate
      exact .rests hof ⟨next, hidling, hdue⟩ hsince hended (.inl hlate)
    | enters hof henters hpasses hopen hasked hstale =>
      exact .enters hof henters hpasses hopen hasked hstale
    | asks hof hasks hpasses hopen hgroups => exact .asks hof hasks hpasses hopen hgroups
    | hands hof hhands hpasses hopen hhanded hreloads hasked hnow =>
      obtain ⟨child, hchild, hgoing⟩ := exists_open hhands (hpass hms).1
      obtain ⟨hgathering, hlength, hchildren⟩ := hhands
      refine .hands hof ⟨hgathering, hlength, fun child hchild ↦
        hlasts.inLimit (hchildren child hchild)⟩ hpasses hopen hhanded hreloads hasked ?_
      -- The limit of a reload that is not finished is not over.
      cases hlasts.inLimit (hchildren child hchild) with
      | going hstage hplace hlimit => exact hlimit.now_le
      | ended hover => exact absurd hover hgoing
    | ended hover hend hended hlast => exact .ended hover hend hended hlast

/-! ## Turns of the task -/

variable {t : Turn σ}

theorem next_of_busy {stage : Stage σ} (hbefore : t.before = some stage)
    (hbusy : ∀ l next, stage ≠ .idling l next) (hpasses : r.passes = p :: earlier) :
    r.next t = { r with passes := (p.hear t).settle t :: earlier } := by
  rw [next, hbefore]
  split
  · next heq => exact absurd (Option.some.inj heq) (hbusy _ _)
  · rw [hpasses]
    rfl

theorem next_of_idling {timer : Timer} (hbefore : t.before = some (.idling l timer))
    (hgoing : ∀ result moment, t.after ≠ some (.finished result moment)) :
    r.next t = { r with passes := (Round.begin t.moment).settle t :: r.passes } := by
  rw [next, hbefore]
  split
  · split
    · next heq => exact absurd heq (hgoing _ _)
    · rfl
  · next hother => exact absurd rfl (hother _ _)

theorem Fits.endPass (hsound : r.IsSound limit w) (hof : r.IsOf l)
    (hpasses : r.passes = p :: earlier) (hbegan : p'.began = p.began)
    (hasked : p'.asked = p'.groups)
    (hhanded : p'.reloads.map Prod.fst = p'.stale.map fun h ↦ h.group.name)
    (hfinished : ∀ reload ∈ p'.reloads, w.IsOver reload.2)
    (hbounded : ∀ m, p'.handed = some m → w.clock.now ≤ m + limit.ms)
    (hrests : w.Rests who l w.clock.now) (hafter : t.after = w.stage? who)
    (hmoment : t.moment = w.clock.now) :
    { r with passes := p'.settle t :: earlier }.Fits limit who w := by
  have hsettle : p'.settle t = { p' with ended := some w.clock.now } := by
    obtain ⟨next, hidling, -⟩ := hrests
    rw [Round.settle, hafter, hidling, hmoment]
  have hmem : ∀ q ∈ p :: earlier, q.IsSound limit w := hpasses ▸ hsound.passes
  have hbefore : p'.began ≤ w.clock.now := hbegan ▸ (hmem p (.head _)).began
  rw [hsettle]
  refine ⟨hsound.revise hpasses ?_ hbegan, .rests (hof.withPasses _) hrests
    (.inr ⟨_, _, rfl, rfl⟩) ?_ (.inr rfl)⟩
  · exact
      { began := hbefore
        ended := fun e hended ↦ Option.some.inj hended ▸ ⟨hbefore, Nat.le_refl _⟩
        asked := fun _ ↦ hasked
        handed := fun _ ↦ hhanded
        finished := fun _ ↦ hfinished
        bounded := fun e m hended hhanded ↦ Option.some.inj hended ▸ hbounded m hhanded }
  · intro q hq
    rcases List.mem_cons.mp hq with rfl | hq
    · exact ⟨_, rfl, Nat.le_refl _⟩
    · have hspaced := hsound.spaced
      rw [hpasses, List.pairwise_cons] at hspaced
      obtain ⟨e, hended, -⟩ := hspaced.1 q hq
      exact ⟨e, hended, ((hmem q (.tail _ hq)).ended e hended).2⟩

theorem Fits.picksUp {rest : List Handle} (hsound : r.IsSound limit w) (hof : r.IsOf l)
    (hpasses : r.passes = p :: earlier) (hbegan : p'.began = p.began) (hopen : p'.IsOpen)
    (hgroups : p'.groups = p'.asked ++ rest) (hpicks : PicksUp limit who l w p'.stale rest)
    (hafter : t.after = w.stage? who) (hmoment : t.moment = w.clock.now) :
    { r with passes := p'.settle t :: earlier }.Fits limit who w := by
  have hbefore : p'.began ≤ w.clock.now :=
    hbegan ▸ (hsound.passes p (hpasses ▸ List.mem_cons_self)).began
  cases hpicks with
  | asks hasks =>
    have hsettle : p'.settle t = p' := by
      obtain ⟨activity, d, moment, hstage⟩ := hasks
      rw [Round.settle, hafter, hstage]
    rw [hsettle]
    have hp' : p'.IsSound limit w := Round.isSound_of_ended_eq_none hbefore hopen.ended
    exact ⟨hsound.revise hpasses hp' hbegan,
      .asks (hof.withPasses _) hasks rfl hopen hgroups⟩
  | rests hnone hrests =>
    refine endPass hsound hof hpasses hbegan ?_ ?_ ?_ ?_ hrests hafter hmoment
    · rw [hgroups, List.append_nil]
    · rw [hopen.reloads, hnone]
      rfl
    · rw [hopen.reloads]
      exact List.forall_mem_nil _
    · intro m hhanded
      cases hopen.handed.symm.trans hhanded
  | @hands children hhands =>
    let handed : Round := { p' with
      handed := some w.clock.now
      reloads := (p'.stale.map fun h ↦ h.group.name).zip children }
    have hsettle : p'.settle t = handed := by
      rw [Round.settle, hafter, hhands.1, hmoment]
    have hhanded : handed.IsSound limit w := Round.isSound_of_ended_eq_none hbefore hopen.ended
    have hasked : handed.asked = handed.groups := (hgroups.trans (List.append_nil _)).symm
    rw [hsettle]
    exact ⟨hsound.revise hpasses hhanded hbegan,
      .hands (p := handed) (hof.withPasses _) hhands rfl hopen.ended rfl rfl hasked
        (Nat.le_add_right _ _)⟩

/-- A loop rests since it began or since the end of its latest pass. -/
theorem IsSound.since_bounds {since : Nat} (h : r.IsSound limit w)
    (hsince : since = r.began ∧ r.passes = [] ∨ r.LastEnded since) :
    r.began ≤ since ∧ since ≤ w.clock.now := by
  rcases hsince with ⟨rfl, -⟩ | ⟨p, earlier, hpasses, hended⟩
  · exact ⟨Nat.le_refl _, h.began⟩
  · have hmem : p ∈ r.passes := hpasses ▸ .head _
    obtain ⟨hle, hnow⟩ := (h.passes p hmem).ended since hended
    exact ⟨((Nat.le_add_right _ _).trans (h.after p hmem)).trans hle, hnow⟩

theorem Fits.stop {since : Nat} (h : r.IsSound limit w) (hover : w.IsOver who)
    (hreached : r.stop ≤ w.clock.now)
    (hsince : since = r.began ∧ r.passes = [] ∨ r.LastEnded since) (hended : r.EndedBy since)
    (hnow : w.clock.now ≤ r.stop ∨ w.clock.now = since) :
    { r with ended := some w.clock.now }.Fits limit who w := by
  obtain ⟨-, hbefore⟩ := h.since_bounds hsince
  refine ⟨⟨h.began, h.stop, h.passes, h.after, h.before, h.spaced⟩,
    .ended hover rfl (fun p hp ↦ ?_) ?_⟩
  · obtain ⟨e, hend, hle⟩ := hended p hp
    exact ⟨e, hend, hle.trans hbefore⟩
  · -- The shutdown is just reached, or it came in the pass that has ended just now.
    rcases hnow with hnow | rfl
    · exact .inl (hnow.antisymm hreached)
    · rcases hsince with ⟨heq, -⟩ | hlast
      · exact .inl ((heq.le.trans h.stop).antisymm hreached)
      · exact .inr ⟨hreached, hlast⟩

theorem IsSound.beginRound {since : Nat} (h : r.IsSound limit w) (hinterval : 0 < r.interval)
    (hsince : since = r.began ∧ r.passes = [] ∨ r.LastEnded since) (hended : r.EndedBy since)
    (hnow : w.clock.now ≤ r.stop ∨ w.clock.now = since)
    (hrested : since + r.interval ≤ w.clock.now) :
    { r with passes := Round.begin w.clock.now :: r.passes }.IsSound limit w := by
  obtain ⟨hbegan, -⟩ := h.since_bounds hsince
  -- The interval takes time, so the clock has moved on since the last rest began.
  have hearly : w.clock.now ≤ r.stop := hnow.resolve_right (by omega)
  have hfirst : r.began + r.interval ≤ w.clock.now := (Nat.add_le_add_right hbegan _).trans hrested
  refine h.begin (Round.isSound_of_ended_eq_none (Nat.le_refl _) rfl) hfirst hearly fun p hp ↦ ?_
  obtain ⟨e, hend, hle⟩ := hended p hp
  exact ⟨e, hend, (Nat.add_le_add_right hle _).trans hrested⟩

theorem Fits.turn_of_rests {since : Nat} (h : r.IsSound limit w) (hof : r.IsOf l)
    (hrests : w.Rests who l since) (hsince : since = r.began ∧ r.passes = [] ∨ r.LastEnded since)
    (hended : r.EndedBy since) (hnow : w.clock.now ≤ r.stop ∨ w.clock.now = since)
    (hrung : w.clock.rung = w.clock.now) (hinterval : 0 < r.interval)
    (hturn : w.Turns client who w') : (r.next (w.turn who w')).Fits limit who w' := by
  obtain ⟨timer, hidling, hdue⟩ := hrests
  have hsound : r.IsSound limit w' := h.lasts (.turns hturn)
  have hclock : w.clock = w'.clock := hturn.clock.symm
  rw [hclock] at hnow hrung
  rcases hturn.of_rests hidling with ⟨hstop, hover⟩ | ⟨hpast, hbegun⟩
  · have hreached : r.stop ≤ w'.clock.now := by
      rw [← hof.stop, ← hrung, ← hclock]
      exact of_decide_eq_true hstop
    have hnext : r.next (w.turn who w') = { r with ended := some w'.clock.now } := by
      obtain ⟨result, moment, hfinished⟩ := hover
      rw [next, World.turn, hidling, hfinished, hclock]
    rw [hnext]
    exact .stop hsound hover hreached hsince hended hnow
  · have hrested : since + r.interval ≤ w'.clock.now := by
      rw [← hof.interval, ← hdue, ← hrung, ← hclock]
      exact of_decide_eq_true hpast
    let begun : Rounds := { r with passes := Round.begin w'.clock.now :: r.passes }
    have hbegins : begun.IsSound limit w' :=
      hsound.beginRound hinterval hsince hended hnow hrested
    have hof' : begun.IsOf l := hof.withPasses _
    have hmoment : (w.turn who w').moment = w'.clock.now := congrArg Clock.now hclock
    rcases hbegun with hrests' | henters
    · rw [next_of_idling hidling ?_, hmoment]
      · rw [hclock] at hrests'
        exact endPass (r := begun) hbegins hof' rfl rfl rfl rfl (List.forall_mem_nil _) nofun
          hrests' rfl hmoment
      · obtain ⟨timer', hidling', -⟩ := hrests'
        intro result moment hfinished
        cases hidling'.symm.trans hfinished
    · obtain ⟨moment, hentering⟩ := henters
      have hsettle : (Round.begin w'.clock.now).settle (w.turn who w')
          = Round.begin w'.clock.now := by
        rw [Round.settle, World.turn, hentering]
      rw [next_of_idling hidling ?_, hmoment, hsettle]
      · exact ⟨hbegins, .enters hof' ⟨moment, hentering⟩ rfl ⟨rfl, rfl, rfl⟩ rfl rfl⟩
      · intro result moment hfinished
        cases hentering.symm.trans hfinished

theorem Fits.turn_of_enters (hsound : r.IsSound w.registry.groupTimeout w') (hof : r.IsOf l)
    (henters : w.Enters who l) (hpasses : r.passes = p :: earlier) (hopen : p.IsOpen)
    (hasked : p.asked = []) (hstale : p.stale = []) (hturn : w.Turns client who w') :
    (r.next (w.turn who w')).Fits w.registry.groupTimeout who w' := by
  have hpicks := hturn.of_enters henters
  obtain ⟨moment, hentering⟩ := henters
  have hhear : p.hear (w.turn who w') = { p with groups := w.registry.handles } := by
    rw [Round.hear, World.turn, hentering]
  rw [next_of_busy (t := w.turn who w') hentering nofun hpasses, hhear]
  rw [← hstale] at hpicks
  refine picksUp hsound hof hpasses rfl ⟨hopen.ended, hopen.handed, hopen.reloads⟩ ?_ hpicks rfl
    (congrArg Clock.now hturn.clock).symm
  exact (congrArg (· ++ w.registry.handles) hasked).symm

theorem Fits.turn_of_asks {record : List Note} {h : Handle} {rest : List Handle}
    (hsound : r.IsSound w.registry.groupTimeout w') (hof : r.IsOf l)
    (hasks : w.Asks who l p.stale h rest) (hpasses : r.passes = p :: earlier) (hopen : p.IsOpen)
    (hgroups : p.groups = p.asked ++ h :: rest) (hcustody : Custody w)
    (hrecorded : Recorded start record w) (hturn : w.Turns client who w') :
    (r.next (w.turn who w')).Fits w.registry.groupTimeout who w' := by
  obtain ⟨activity, moment, hvisiting, hcases⟩ := hturn.of_asks hcustody hrecorded hasks
  rw [next_of_busy (t := w.turn who w') hvisiting nofun hpasses]
  rcases hcases with ⟨hactive, hasks'⟩ | ⟨needed, rfl, hpicks⟩
  · have hhear : p.hear (w.turn who w') = p := by
      rw [Round.hear, World.turn, hvisiting]
      split
      · next heq => cases heq
      · next heq =>
        obtain ⟨-, hended, -⟩ := Stage.visiting.inj (Option.some.inj heq)
        exact absurd hended (hactive _)
      · rfl
    have hsettle : p.settle (w.turn who w') = p := by
      obtain ⟨activity', d, moment', hvisiting'⟩ := hasks'
      rw [Round.settle, World.turn, hvisiting']
    have hp : p.IsSound w.registry.groupTimeout w' :=
      hsound.passes p (hpasses ▸ List.mem_cons_self)
    rw [hhear, hsettle]
    exact ⟨hsound.revise hpasses hp rfl,
      .asks (hof.withPasses _) hasks' rfl hopen hgroups⟩
  · have hhear : p.hear (w.turn who w') = { p with
        asked := p.asked ++ [h]
        stale := if needed then p.stale ++ [h] else p.stale } := by
      rw [Round.hear, World.turn, hvisiting]
      rfl
    rw [hhear]
    refine picksUp hsound hof hpasses rfl ⟨hopen.ended, hopen.handed, hopen.reloads⟩ ?_ hpicks rfl
      (congrArg Clock.now hturn.clock).symm
    exact hgroups.trans (List.append_cons _ _ _)

theorem Fits.turn_of_hands {children : List Nat} (h : r.IsSound limit w) (hof : r.IsOf l)
    (hhands : w.Hands who l p.stale limit moment children) (hpasses : r.passes = p :: earlier)
    (hhanded : p.handed = some moment)
    (hreloads : p.reloads = (p.stale.map fun h ↦ h.group.name).zip children)
    (hasked : p.asked = p.groups) (hnow : w.clock.now ≤ moment + limit.ms)
    (hturn : w.Turns client who w') : (r.next (w.turn who w')).Fits limit who w' := by
  have hlasts : Lasts limit w w' := .turns hturn
  have hclock : w.clock = w'.clock := hturn.clock.symm
  obtain ⟨hfinished, hrests⟩ := hturn.of_hands hhands
  obtain ⟨hgathering, hlength, -⟩ := hhands
  have hhear : p.hear (w.turn who w') = p := by
    rw [Round.hear, World.turn, hgathering]
  rw [hclock] at hnow hrests
  rw [next_of_busy (t := w.turn who w') hgathering nofun hpasses, hhear]
  refine endPass (h.lasts hlasts) hof hpasses rfl hasked ?_ (fun reload hmem ↦ ?_) (fun m hm ↦ ?_)
    hrests rfl (congrArg Clock.now hclock)
  · rw [hreloads]
    exact List.map_fst_zip (by rw [List.length_map, hlength])
  · rw [hreloads] at hmem
    exact hlasts.ended (hfinished _ (List.of_mem_zip hmem).2)
  · obtain rfl := Option.some.inj (hhanded.symm.trans hm)
    exact hnow

/-- The turns of its task say of a loop what is so. -/
theorem Fits.turn {record : List Note} (h : r.Fits w.registry.groupTimeout who w)
    (hcustody : Custody w) (hrecorded : Recorded start record w)
    (hrung : w.clock.rung = w.clock.now) (hinterval : 0 < r.interval)
    (hturn : w.Turns client who w') :
    (r.next (w.turn who w')).Fits w.registry.groupTimeout who w' := by
  have hsound := h.sound.lasts (.turns hturn)
  cases h.stands with
  | rests hof hrests hsince hended hnow =>
    exact .turn_of_rests h.sound hof hrests hsince hended hnow hrung hinterval hturn
  | enters hof henters hpasses hopen hasked hstale =>
    exact .turn_of_enters hsound hof henters hpasses hopen hasked hstale hturn
  | asks hof hasks hpasses hopen hgroups =>
    exact .turn_of_asks hsound hof hasks hpasses hopen hgroups hcustody hrecorded hturn
  | hands hof hhands hpasses hopen hhanded hreloads hasked hnow =>
    exact .turn_of_hands h.sound hof hhands hpasses hhanded hreloads hasked hnow hturn
  | ended hover => exact absurd hover hturn.not_isOver

theorem Fits.begun (hturn : w.Turns client who w')
    (hbegun : ofTurn? (w.turn who w') = some r) : r.Fits limit who w' := by
  obtain ⟨stage, hstage, interval, duration, hrequest⟩ : ∃ stage, w.stage? who = some stage
      ∧ ∃ interval duration, (stage = .launching none (.loop interval duration)
        ∨ ∃ timer, stage = .pausing timer (.loop interval duration))
      ∧ r = ⟨interval, w.clock.now + duration, w.clock.now, [], none⟩ := by
    rw [ofTurn?] at hbegun
    split at hbegun
    · next interval duration heq =>
      exact ⟨_, heq, interval, duration, .inl rfl, (Option.some.inj hbegun).symm⟩
    · next timer interval duration heq =>
      exact ⟨_, heq, interval, duration, .inr ⟨timer, rfl⟩, (Option.some.inj hbegun).symm⟩
    · cases hbegun
  obtain ⟨hrequest, rfl⟩ := hrequest
  have hbusy : ∀ l next, stage ≠ .idling l next := by
    rintro l next rfl
    rcases hrequest with heq | ⟨timer, heq⟩ <;> cases heq
  obtain ⟨next, steps, hnext, rfl⟩ := hturn.exists_next hstage hbusy
  have hbegins : next = w.begin client who (.loop interval duration) := by
    rcases hrequest with rfl | ⟨timer, rfl⟩
    · exact (Option.some.inj hnext).symm
    · exact (Option.some.inj (Option.ite_none_right_eq_some.mp hnext).2).symm
  subst hbegins
  exact ⟨⟨Nat.le_refl _, Nat.le_add_right _ _, List.forall_mem_nil _, List.forall_mem_nil _,
    List.forall_mem_nil _, List.Pairwise.nil⟩, .rests ⟨rfl, rfl, rfl⟩
      (rests_setStage hstage ⟨interval, w.timer duration⟩) (.inl ⟨rfl, rfl⟩)
      (List.forall_mem_nil _) (.inr rfl)⟩

theorem interval_next (t : Turn σ) (r : Rounds) : (r.next t).interval = r.interval := by
  rw [next]
  split
  · split <;> rfl
  · rfl

end Rounds

namespace Punctual

variable {trail : List (Turn σ)} {r : Rounds}

/-- In a punctual course the turns say of each loop what is so. -/
theorem fits (h : Punctual client start trail w) (hfresh : start.IsFresh)
    (hrung : start.clock.rung = start.clock.now) (hrounds : rounds? who trail = some r)
    (hinterval : 0 < r.interval) : r.Fits start.registry.groupTimeout who w := by
  -- Only turns of the loop's own task tell of it; in all others it stands where it stood.
  induction h generalizing r with
  | refl => cases hrounds
  | arrive request h ih =>
    exact (ih hrounds hinterval).keep rfl
      (.of_stages rfl rfl fun hstage ↦ stage?_append hstage _) fun hstage ↦ stage?_append hstage _
  | @turn trail w w' other h hturn ih =>
    rw [rounds?] at hrounds
    split at hrounds
    · next earlier hearlier =>
      obtain rfl := Option.some.inj hrounds
      have hpositive : 0 < earlier.interval := by
        split at hinterval
        · rwa [Rounds.interval_next] at hinterval
        · exact hinterval
      have hfits := ih hearlier hpositive
      split
      · next hown =>
        obtain rfl : other = who := hown
        obtain ⟨record, hrecorded⟩ := h.recorded hfresh
        rw [← h.groupTimeout hfresh] at hfits ⊢
        exact hfits.turn (h.custody hfresh) hrecorded (h.rung_eq hrung) hpositive hturn
      · next hother =>
        have hne : who ≠ other := fun heq ↦ hother heq.symm
        exact hfits.keep (congrArg Clock.now hturn.clock) (.turns hturn) (hturn.beside.stage hne)
    · obtain ⟨hown, hbegun⟩ := Option.ite_none_right_eq_some.mp hrounds
      obtain rfl : other = who := hown
      exact .begun hturn hbegun
  | elapse h hpass ih => exact (ih hrounds hinterval).elapse hpass (h.rung_eq hrung)
  | arrange h woken deferred turns taken ih =>
    exact (ih hrounds hinterval).keep rfl (.of_stages rfl rfl id) id

end Punctual

end NodeGroups.Simulation
