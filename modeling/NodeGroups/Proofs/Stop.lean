import NodeGroups.Proofs.Rounds

/-!
# How a refresh loop stops

In a punctual course a refresh loop keeps its intervals, and it begins no pass after its shutdown. A
pass that has begun asks all groups, and all reloads that it starts are finished when it ends,
whether or not the shutdown has come meanwhile. The loop ends at its shutdown or, if a pass is going
then, at the end of this pass.

When the interval and the shutdown come at the same moment, the loop may take either, so a pass may
begin just at the shutdown.

A reload is given up when its time limit is over, even if the cloud never tells of the call that it
waits for. A change has no time limit. A pass that asks the group meanwhile goes on when the change
is over, and if the cloud never tells of it, neither the pass nor the loop comes to an end.
-/

namespace NodeGroups.Simulation

open World

variable {σ : Type} {client : Client σ} {start w : World σ} {who : Nat} {limit : Duration}

namespace Rounds

variable {r : Rounds} {p p' : Round} {earlier : List Round}

/-- Only the latest pass can be going. -/
theorem IsSound.eq_of_going (h : r.IsSound limit w) (hpasses : r.passes = p :: earlier)
    (hmem : p' ∈ r.passes) (hopen : p'.ended = none) : p' = p := by
  have hspaced := h.spaced
  rw [hpasses] at hmem hspaced
  rcases List.mem_cons.mp hmem with heq | hearlier
  · exact heq
  · obtain ⟨e, hended, -⟩ := (List.pairwise_cons.mp hspaced).1 p' hearlier
    cases hopen.symm.trans hended

theorem Fits.bounded (h : r.Fits limit who w) (hmem : p ∈ r.passes) {m : Nat}
    (hhanded : p.handed = some m) : p.ended.getD w.clock.now ≤ m + limit.ms := by
  cases hend : p.ended with
  | some e => exact (h.sound.passes p hmem).bounded e m hend hhanded
  | none =>
    have hlatest : ∀ {p' earlier}, r.passes = p' :: earlier → p'.handed = none → False := by
      intro p' earlier hpasses hnone
      obtain rfl := h.sound.eq_of_going hpasses hmem hend
      cases hhanded.symm.trans hnone
    cases h.stands with
    | rests hof hrests hsince hended hnow =>
      obtain ⟨e, hend', -⟩ := hended p hmem
      cases hend.symm.trans hend'
    | enters hof henters hpasses hopen => exact (hlatest hpasses hopen.handed).elim
    | asks hof hasks hpasses hopen => exact (hlatest hpasses hopen.handed).elim
    | hands hof hhands hpasses hopen hhanded' hreloads hasked hnow =>
      obtain rfl := h.sound.eq_of_going hpasses hmem hend
      obtain rfl := Option.some.inj (hhanded.symm.trans hhanded')
      exact hnow
    | ended hover hend' hended hlast =>
      obtain ⟨e, hend', -⟩ := hended p hmem
      cases hend.symm.trans hend'

theorem Fits.ends (h : r.Fits limit who w) {e : Nat} (hend : r.ended = some e) :
    r.EndedBy e ∧ (e = r.stop ∨ ∃ p earlier, r.passes = p :: earlier ∧ p.ended = some e
      ∧ p.began ≤ r.stop ∧ r.stop ≤ e) := by
  have hgoing : ∀ {l}, r.IsOf l → False := fun hof ↦ by cases hend.symm.trans hof.going
  cases h.stands with
  | rests hof => exact (hgoing hof).elim
  | enters hof => exact (hgoing hof).elim
  | asks hof => exact (hgoing hof).elim
  | hands hof => exact (hgoing hof).elim
  | ended hover hend' hended hlast =>
    obtain rfl := Option.some.inj (hend.symm.trans hend')
    refine ⟨hended, hlast.imp_right ?_⟩
    rintro ⟨hreached, p, earlier, hpasses, hlast⟩
    exact ⟨p, earlier, hpasses, hlast, h.sound.before p (hpasses ▸ .head _), hreached⟩

theorem Fits.going (h : r.Fits limit who w) (hgoing : r.ended = none)
    (hlate : r.stop < w.clock.now) :
    ∃ p earlier, r.passes = p :: earlier ∧ ∀ e, p.ended = some e → e = w.clock.now := by
  have hlatest : ∀ {p earlier}, r.passes = p :: earlier → p.ended = none → ∃ p earlier,
      r.passes = p :: earlier ∧ ∀ e, p.ended = some e → e = w.clock.now := by
    intro p earlier hpasses hopen
    exact ⟨p, earlier, hpasses, fun e hend ↦ by cases hopen.symm.trans hend⟩
  cases h.stands with
  | rests hof hrests hsince hended hnow =>
    -- It is past the shutdown, so the clock has not moved on since the rest began.
    obtain rfl := hnow.resolve_left (Nat.not_le.mpr hlate)
    rcases hsince with ⟨heq, -⟩ | ⟨p, earlier, hpasses, hlast⟩
    · exact absurd h.sound.stop (Nat.not_le.mpr (heq ▸ hlate))
    · exact ⟨p, earlier, hpasses, fun e hend ↦ Option.some.inj (hend.symm.trans hlast)⟩
  | enters hof henters hpasses hopen => exact hlatest hpasses hopen.ended
  | asks hof hasks hpasses hopen => exact hlatest hpasses hopen.ended
  | hands hof hhands hpasses hopen => exact hlatest hpasses hopen
  | ended hover hend => cases hgoing.symm.trans hend

end Rounds

namespace Punctual

variable {trail : List (Turn σ)} {r : Rounds}

end Punctual

/-! ## A pass that goes on after the shutdown -/

namespace World

/-- Lets something happen in a punctual course, if it can. Turns are kept. -/
def happenPunctually (client : Client σ) (now : List (Turn σ) × World σ) :
    Happening σ → Option (List (Turn σ) × World σ)
  | .arrive request =>
    some (now.1, { now.2 with tasks := now.2.tasks ++ [⟨.launching none request, none⟩] })
  | .go who =>
    (now.2.step client who).bind fun w ↦
      if w.clock = now.2.clock then some (now.2.turn who w :: now.1, w) else none
  | .elapse ms =>
    if now.2.allWait client = true ∧ now.2.nextTimer?.all (ms ≤ ·) = true then
      some (now.1, (now.2.pass ms).ring)
    else none

/-- What comes of it when some things happen in a punctual course. -/
def rehearsePunctually (client : Client σ) (happenings : List (Happening σ)) (start : World σ) :
    Option (List (Turn σ) × World σ) :=
  happenings.foldlM (happenPunctually client) ([], start)

end World

namespace Punctual

theorem happen {now now' : List (Turn σ) × World σ} {happening : Happening σ}
    (h : Punctual client start now.1 now.2)
    (hhappen : World.happenPunctually client now happening = some now') :
    Punctual client start now'.1 now'.2 := by
  cases happening with
  | arrive request =>
    obtain rfl := Option.some.inj hhappen
    exact .arrive request h
  | go who =>
    obtain ⟨w, hstep, hchecked⟩ := Option.bind_eq_some_iff.mp hhappen
    obtain ⟨hclock, heq⟩ := Option.ite_none_right_eq_some.mp hchecked
    obtain rfl := Option.some.inj heq
    exact .turn h ⟨.step hstep, hclock⟩
  | elapse ms =>
    obtain ⟨⟨hwaits, htimer⟩, heq⟩ := Option.ite_none_right_eq_some.mp hhappen
    obtain rfl := Option.some.inj heq
    refine .elapse h fun _ ↦ ⟨World.allWait_of_eq_true hwaits, fun left hleft ↦ ?_⟩
    rw [Option.mem_def.mp hleft] at htimer
    exact of_decide_eq_true htimer

theorem rehearse {happenings : List (Happening σ)} {trail : List (Turn σ)}
    (hrehearse : World.rehearsePunctually client happenings start = some (trail, w)) :
    Punctual client start trail w := by
  let p (now : List (Turn σ) × World σ) : Prop := Punctual client start now.1 now.2
  have hstart : p ([], start) := .refl
  exact of_foldlM (fun h hnext ↦ Punctual.happen h hnext) hstart hrehearse

end Punctual

/-- Memory as the cloud, but that it never tells of a resize. -/
def silentClient : Client Memory :=
  { Memory.client with
    submit call resourceGroup name m :=
      (Memory.client.submit call resourceGroup name m).map fun sent ↦
        if call = .setCapacity then ({ sent.1 with latency := .never }, sent.2) else sent }

/-- After the first pass of a loop a resize begins that is never over. The second pass waits for its
group, and meanwhile the loop is told to stop. -/
def stopWhileStuck : List (Happening Memory) :=
  .arrive (.loop 1000 2500) :: Happening.steps 0 1 ++ .elapse 1000 :: Happening.steps 0 8
    ++ Happening.steps 1 6 ++ Happening.steps 2 6 ++ Happening.steps 0 1
    ++ .arrive (.visit (.registered "pool") (.errand (.mutate (.increase 1))))
    :: Happening.steps 3 4 ++ .elapse 1000 :: Happening.steps 0 3 ++ [.elapse 600]

def stuckRounds : Rounds where
  interval := 1000
  stop := 2500
  began := 0
  passes := [
    { began := 2000, groups := pair.handles, asked := [], stale := [], handed := none,
      reloads := [], ended := none },
    { began := 1000
      groups := pair.handles
      asked := pair.handles
      stale := pair.handles
      handed := some 1000
      reloads := [("pool", 1), ("spare", 2)]
      ended := some 1000 }]
  ended := none

/-- A refresh loop may never end: nobody can go on any more after its shutdown, and it is in a pass
that waits for the end of a resize. -/
theorem Punctual.exists_loop_without_end : ∃ trail w,
    Punctual silentClient (.initial cloudOfPair pair) trail w
    ∧ rounds? 0 trail = some stuckRounds ∧ stuckRounds.stop < w.clock.now
    ∧ w.AllWait silentClient ∧ w.nextTimer? = none := by
  have hplayed : (World.rehearsePunctually silentClient stopWhileStuck
      (.initial cloudOfPair pair)).map (fun now ↦
        (rounds? 0 now.1, now.2.clock.now, now.2.allWait silentClient, now.2.nextTimer?))
      = some (some stuckRounds, 2600, true, none) := by decide +kernel
  obtain ⟨⟨trail, w⟩, hrehearse, hfacts⟩ := Option.map_eq_some_iff.mp hplayed
  obtain ⟨hrounds, hfacts⟩ := Prod.mk.inj hfacts
  obtain ⟨hnow, hfacts⟩ := Prod.mk.inj hfacts
  obtain ⟨hwaits, hnone⟩ := Prod.mk.inj hfacts
  refine ⟨trail, w, .rehearse hrehearse, hrounds, ?_, World.allWait_of_eq_true hwaits, hnone⟩
  rw [hnow]
  decide

end NodeGroups.Simulation
