import NodeGroups.Proofs.Lined
import NodeGroups.Proofs.Play

/-!
# Mutations that are made together

A group is asked for any number of mutations, at any times. Their activities take their steps in any
order, calls take what they take, and fail if they are bound to. All the same it comes to what it
would have come to if those that asked for the lock had been served one after another, in the order
in which they got it: everybody gets the answer that he would have got, and the group and its cloud
end up the same.

The reason is that they stand in line for the lock, and have their turns one after another. Whoever
makes his way alone is in the line as well, if only by himself. So in either case what comes of it
is decided by the order of the turns.
-/

namespace NodeGroups.Group

/-! ## Together and one by one -/

/-- Some mutations of a list come in, each once and under its position in the list, and go on in any
order. Others do nothing to the cloud that is of concern to the group. The numbers are of those that
were admitted to the lock. -/
inductive Together (g : Group) (requests : List Mutation) (start : Traffic Memory) :
    List Nat → Traffic Memory → Prop
  | refl : Together g requests start [] start
  | arrive {admitted : List Nat} {t : Traffic Memory} {who : Nat} {m : Mutation}
      (h : Together g requests start admitted t) (hrequest : requests[who]? = some m)
      (hnew : t.jobs who = none) :
      Together g requests start admitted (t.put who (.incoming m))
  | proceed {admitted : List Nat} {t : Traffic Memory} {who : Nat} {job : Job}
      {scene : Scene Memory} (h : Together g requests start admitted t) (order : Nat)
      (hjob : t.jobs who = some job)
      (hstep : Scene.step Memory.client g who t.clock order ⟨job.activity, t.cell, t.cloud⟩
        = some scene) :
      Together g requests start
        ((t.cell.lock.admitted scene.cell.lock).reverse ++ admitted)
        { t.put who { job with activity := scene.activity } with
          cell := scene.cell, cloud := scene.cloud }
  | elapse {admitted : List Nat} {t : Traffic Memory} (h : Together g requests start admitted t)
      (clock : Clock) (hnow : t.clock.now ≤ clock.now) :
      Together g requests start admitted { t with clock }
  | intervene {admitted : List Nat} {t : Traffic Memory}
      (h : Together g requests start admitted t) (cloud : Memory)
      (hsame : g.SameFor t.cloud cloud) :
      Together g requests start admitted { t with cloud }

/-- Nobody but one goes on, and time passes. -/
inductive Alone (g : Group) (who : Nat) (start : Traffic Memory) : Traffic Memory → Prop
  | refl : Alone g who start start
  | proceed {t : Traffic Memory} {job : Job} {scene : Scene Memory} (h : Alone g who start t)
      (order : Nat) (hjob : t.jobs who = some job)
      (hstep : Scene.step Memory.client g who t.clock order ⟨job.activity, t.cell, t.cloud⟩
        = some scene) :
      Alone g who start
        { t.put who { job with activity := scene.activity } with
          cell := scene.cell, cloud := scene.cloud }
  | elapse {t : Traffic Memory} (h : Alone g who start t) (clock : Clock)
      (hnow : t.clock.now ≤ clock.now) : Alone g who start { t with clock }

/-- Some mutations of a list are made one after another: the next one comes in when the one before
has ended. -/
inductive OneByOne (g : Group) (requests : List Mutation) (start : Traffic Memory) :
    List Nat → Traffic Memory → Prop
  | refl : OneByOne g requests start [] start
  | next {order : List Nat} {t t' : Traffic Memory} {who : Nat} {m : Mutation} {job : Job}
      {ending : Ending} (h : OneByOne g requests start order t)
      (hrequest : requests[who]? = some m) (hnew : t.jobs who = none)
      (halone : Alone g who (t.put who (.incoming m)) t') (hjob : t'.jobs who = some job)
      (hended : job.activity = .ended ending) :
      OneByOne g requests start (who :: order) t'

/-- Those who make mutations together are in a line: some of those who were admitted to the lock
had their turns, and one of them may have his. -/
theorem Together.lined {g : Group} {requests : List Mutation} {s : State} {cloud : Memory}
    {clock : Clock} {admitted : List Nat} {t : Traffic Memory}
    (h : Together g requests (.resting s cloud clock) admitted t) :
    ∃ past queue, Lined g requests s cloud past queue t
      ∧ admitted = (queue.take 1).reverse ++ past := by
  induction h with
  | refl => exact ⟨[], [], .resting g requests s cloud clock, rfl⟩
  | @arrive admitted t who m h hrequest hnew ih =>
    obtain ⟨past, queue, hlined, hadmitted⟩ := ih
    have houtside : who ∉ past ++ queue := hlined.not_mem hnew
    exact ⟨past, queue, hlined.put hrequest (.inl rfl) houtside, hadmitted⟩
  | @proceed admitted t who job scene h order hjob hstep ih =>
    obtain ⟨past, queue, hlined, hadmitted⟩ := ih
    obtain ⟨past', queue', hmoves, hlined'⟩ := hlined.proceed hjob hstep
    have hlock : scene.cell.lock = .line queue' := hlined'.lock
    refine ⟨past', queue', hlined', ?_⟩
    rw [hlined.lock, hlock, hadmitted]
    exact hmoves.admitted.symm
  | elapse h clock hnow ih =>
    obtain ⟨past, queue, hlined, hadmitted⟩ := ih
    exact ⟨past, queue, hlined.carry clock (.refl ..), hadmitted⟩
  | @intervene admitted t h cloud hsame ih =>
    obtain ⟨past, queue, hlined, hadmitted⟩ := ih
    exact ⟨past, queue, hlined.carry t.clock hsame, hadmitted⟩

/-! ## One after another -/

section

variable {g : Group} {requests : List Mutation} {s : State} {cloud : Memory} {past : List Nat}
  {who : Nat} {t t' t'' : Traffic Memory}

namespace Alone

theorem trans (h : Alone g who t t') (h' : Alone g who t' t'') : Alone g who t t'' := by
  induction h' with
  | refl => exact h
  | proceed _ order hjob hstep ih => exact ih.proceed order hjob hstep
  | elapse _ clock hnow ih => exact ih.elapse clock hnow

theorem jobs_of_ne (h : Alone g who t t') {other : Nat} (hne : other ≠ who) :
    t'.jobs other = t.jobs other := by
  induction h with
  | refl => rfl
  | proceed _ order hjob hstep ih => exact (Function.update_of_ne hne _ _).trans ih
  | elapse _ clock hnow ih => exact ih

end Alone

/-- Somebody who makes his way alone has yet to ask for the lock, or is the only one in the line, or
had his turn. -/
inductive Passing (g : Group) (requests : List Mutation) (s : State) (cloud : Memory)
    (past : List Nat) (who : Nat) (t : Traffic Memory) : Prop
  | outside (h : Lined g requests s cloud past [] t)
  | inside (h : Lined g requests s cloud past [who] t)
  | gone (h : Lined g requests s cloud (who :: past) [] t)

namespace Passing

theorem proceed (h : Passing g requests s cloud past who t) {job : Job} {scene : Scene Memory}
    {order : Nat} (hjob : t.jobs who = some job)
    (hstep : Scene.step Memory.client g who t.clock order ⟨job.activity, t.cell, t.cloud⟩
      = some scene) :
    Passing g requests s cloud past who { t.put who { job with activity := scene.activity } with
      cell := scene.cell, cloud := scene.cloud } := by
  cases h with
  | outside h =>
    obtain ⟨past', queue', hmoves, hlined⟩ := h.proceed hjob hstep
    cases hmoves with
    | stays => exact .outside hlined
    | joins hnew => exact .inside hlined
  | inside h =>
    obtain ⟨past', queue', hmoves, hlined⟩ := h.proceed hjob hstep
    cases hmoves with
    | stays => exact .inside hlined
    | joins hnew => exact absurd (List.mem_append_right _ List.mem_cons_self) hnew
    | departs hother => exact .gone hlined
  | gone h =>
    obtain ⟨past', queue', hmoves, hlined⟩ := h.proceed hjob hstep
    cases hmoves with
    | stays => exact .gone hlined
    | joins hnew => exact absurd (List.mem_append_left _ List.mem_cons_self) hnew

theorem carry (h : Passing g requests s cloud past who t) (clock : Clock) :
    Passing g requests s cloud past who { t with clock } := by
  cases h with
  | outside h => exact .outside (h.carry clock (.refl ..))
  | inside h => exact .inside (h.carry clock (.refl ..))
  | gone h => exact .gone (h.carry clock (.refl ..))

theorem alone (h : Passing g requests s cloud past who t) (halone : Alone g who t t') :
    Passing g requests s cloud past who t' := by
  induction halone with
  | refl => exact h
  | proceed _ order hjob hstep ih => exact ih.proceed hjob hstep
  | elapse _ clock hnow ih => exact ih.carry clock

theorem isHeldBy (h : Passing g requests s cloud past who t) (hnew : who ∉ past) {job : Job}
    (hjob : t.jobs who = some job) {wish : Wish} (hqueued : job.activity = .queued wish) :
    t.cell.lock.isHeldBy who = true := by
  cases h with
  | outside h =>
    have houtside : who ∉ past ++ [] := by rwa [List.append_nil]
    obtain ⟨m, -, rfl | ⟨e, -, rfl⟩⟩ := h.outside hjob houtside
    · cases hqueued
    · cases hqueued
  | inside h =>
    rw [h.lock]
    exact Lock.isHeldBy_line.mpr rfl
  | gone h =>
    obtain ⟨s', cloud', hserved, -⟩ := h.served
    obtain ⟨m, answer, -, hanswered⟩ := hserved.exists_answer List.mem_cons_self
    obtain rfl := Option.some.inj (hjob.symm.trans hanswered)
    cases hqueued

theorem exists_end (h : Passing g requests s cloud past who t) (hnew : who ∉ past) {job : Job}
    (hjob : t.jobs who = some job) (hanswered : job.activity.isStranded = false) :
    ∃ t' job' ending, Alone g who t t' ∧ t'.jobs who = some job'
      ∧ job'.activity = .ended ending := by
  -- Every step brings him closer to his end.
  induction hleft : job.activity.stepsLeft using Nat.strongRecOn generalizing t job with
  | ind n ih =>
    by_cases hended : ∃ ending, job.activity = .ended ending
    · obtain ⟨ending, hended⟩ := hended
      exact ⟨t, job, ending, .refl, hjob, hended⟩
    have hactive : ∀ ending, job.activity ≠ .ended ending := fun ending heq ↦ hended ⟨ending, heq⟩
    obtain ⟨clock, scene, hnow, hstep⟩ : ∃ clock scene, t.clock.now ≤ clock.now ∧ Scene.step
        Memory.client g who clock 0 ⟨job.activity, t.cell, t.cloud⟩ = some scene :=
      exists_step _ _ _ (fun wish ↦ h.isHeldBy hnew hjob) hanswered hactive
    have hadvance := advance_of_step hstep
    have hcloser := hadvance.stepsLeft_lt hactive
    have hwaited : Alone g who t { t with clock } := Alone.refl.elapse clock hnow
    have hpassing := (h.carry clock).proceed hjob hstep
    obtain ⟨t', job', ending, halone, hjob', hended'⟩ :=
      ih _ (hleft ▸ hcloser) hpassing (Function.update_self ..)
        (hadvance.isStranded_eq_false (answers_memory g)) rfl
    exact ⟨t', job', ending, (hwaited.proceed 0 hjob hstep).trans halone, hjob', hended'⟩

end Passing

variable {order : List Nat}

/-- Whoever asked for the lock and has ended had his turn. -/
theorem Passing.lined (h : Passing g requests s cloud past who t) (hnew : who ∉ past)
    {m : Mutation} (hrequest : requests[who]? = some m) (hfault : m.fault? = none) {job : Job}
    {ending : Ending} (hjob : t.jobs who = some job) (hended : job.activity = .ended ending) :
    Lined g requests s cloud (who :: past) [] t := by
  cases h with
  | outside h =>
    have houtside : who ∉ past ++ [] := by rwa [List.append_nil]
    obtain ⟨m', hrequest', rfl | ⟨e, hfault', rfl⟩⟩ := h.outside hjob houtside
    · cases hended
    · obtain rfl := Option.some.inj (hrequest.symm.trans hrequest')
      cases hfault.symm.trans hfault'
  | inside h =>
    obtain ⟨s', cloud', -, hfront⟩ := h.served
    cases hfront with
    | busy hrequest hjob' hclaim hturn =>
      obtain rfl := Option.some.inj (hjob.symm.trans hjob')
      obtain rfl : _ = Activity.ended ending := hended
      cases hclaim
  | gone h => exact h

theorem OneByOne.lined {clock : Clock} (h : OneByOne g requests (.resting s cloud clock) order t)
    (hsound : ∀ who ∈ order, ∃ m, requests[who]? = some m ∧ m.fault? = none) :
    Lined g requests s cloud order [] t := by
  induction h with
  | refl => exact .resting g requests s cloud clock
  | @next order t t' who m job ending h hrequest hnew halone hjob hended ih =>
    have hlined := ih fun other hmem ↦ hsound other (List.mem_cons_of_mem _ hmem)
    have houtside : who ∉ order := by
      have := hlined.not_mem hnew
      rwa [List.append_nil] at this
    obtain ⟨m', hrequest', hfault⟩ := hsound who List.mem_cons_self
    have hpassing : Passing g requests s cloud order who (t.put who (.incoming m)) :=
      .outside (hlined.put hrequest (.inl rfl) (hlined.not_mem hnew))
    exact (hpassing.alone halone).lined houtside hrequest' hfault hjob hended

/-- Mutations can be made one after another in any order. -/
theorem exists_oneByOne (clock : Clock) (hdistinct : order.Nodup)
    (hsound : ∀ who ∈ order, ∃ m, requests[who]? = some m ∧ m.fault? = none) :
    ∃ t, OneByOne g requests (.resting s cloud clock) order t
      ∧ ∀ who, who ∉ order → t.jobs who = none := by
  induction order with
  | nil => exact ⟨_, .refl, fun _ _ ↦ rfl⟩
  | cons who order ih =>
    obtain ⟨hnew, hdistinct⟩ := List.nodup_cons.mp hdistinct
    have hsound' := fun other hmem ↦ hsound other (List.mem_cons_of_mem who hmem)
    obtain ⟨t, hbefore, hnone⟩ := ih hdistinct hsound'
    obtain ⟨m, hrequest, -⟩ := hsound who List.mem_cons_self
    have hlined := hbefore.lined hsound'
    have hpassing : Passing g requests s cloud order who (t.put who (.incoming m)) :=
      .outside (hlined.put hrequest (.inl rfl) (hlined.not_mem (hnone who hnew)))
    obtain ⟨t', job, ending, halone, hjob, hended⟩ :=
      hpassing.exists_end hnew (Function.update_self ..) rfl
    refine ⟨t', hbefore.next hrequest (hnone who hnew) halone hjob hended, fun other hother ↦ ?_⟩
    obtain ⟨hne, hother⟩ := not_or.mp (List.mem_cons.not.mp hother)
    rw [halone.jobs_of_ne hne]
    exact (Function.update_of_ne hne _ _).trans (hnone other hother)

end

/-- Mutations that are made together come to what they come to one after another, in the order in
which they were admitted to the lock: the group, its scale set in the cloud, the deletions that the
cloud accepted and all answers are the same. The others were refused because they make no sense in
any state. -/
theorem Together.serial {g : Group} {requests : List Mutation} {s : State} {cloud : Memory}
    {clock : Clock} {order : List Nat} {t : Traffic Memory}
    (h : Together g requests (.resting s cloud clock) order t)
    (hended : ∀ who, t.IsIdle who) :
    (∀ who job, t.jobs who = some job → who ∉ order →
      ∃ m e, requests[who]? = some m ∧ m.fault? = some e ∧ job = .ofMutation m (.refuse e))
    ∧ (∃ t', OneByOne g requests (.resting s cloud clock) order t')
    ∧ ∀ t', OneByOne g requests (.resting s cloud clock) order t' →
      t'.cell = t.cell ∧ g.SameFor t.cloud t'.cloud
        ∧ ∀ who ∈ order, t'.jobs who = t.jobs who := by
  obtain ⟨past, queue, hlined, hadmitted⟩ := h.lined
  obtain rfl := hlined.queue_eq_nil hended
  obtain rfl : order = past := hadmitted
  have hsound : ∀ who ∈ order, ∃ m, requests[who]? = some m ∧ m.fault? = none :=
    fun who hmem ↦ hlined.sound who (List.mem_append_left _ hmem)
  refine ⟨?_, ?_, ?_⟩
  · intro who job hjob hother
    have houtside : who ∉ order ++ [] := by rwa [List.append_nil]
    obtain ⟨m, hrequest, rfl | ⟨e, hfault, rfl⟩⟩ := hlined.outside hjob houtside
    · obtain ⟨ending, heq⟩ := hended who _ hjob
      cases heq
    · exact ⟨m, e, hrequest, hfault, rfl⟩
  · have hdistinct := hlined.distinct
    rw [List.append_nil] at hdistinct
    obtain ⟨t', hone, -⟩ := exists_oneByOne (g := g) (s := s) clock hdistinct hsound
    exact ⟨t', hone⟩
  · intro t' hone
    have hlined' := hone.lined hsound
    obtain ⟨s₁, cloud₁, hserved, hfront⟩ := hlined.served
    obtain ⟨s₂, cloud₂, hserved', hfront'⟩ := hlined'.served
    obtain ⟨rfl, rfl, hjobs⟩ := hserved'.unique hserved
    cases hfront with
    | nobody hstate hsame =>
    cases hfront' with
    | nobody hstate' hsame' =>
    refine ⟨?_, hsame.symm.trans hsame', hjobs⟩
    obtain ⟨⟨state, lock⟩, now, time, jobs⟩ := t
    obtain ⟨⟨state', lock'⟩, now', time', jobs'⟩ := t'
    obtain rfl : state = _ := hstate
    obtain rfl : state' = _ := hstate'
    obtain rfl : lock = .line [] := hlined.lock
    obtain rfl : lock' = .line [] := hlined'.lock
    rfl

/-! ## Two increases -/

/-- Whoever's number comes up comes in, or goes on if he has come in. -/
def playTogether (g : Group) (requests : List Mutation) :
    List Nat → List Nat × Traffic Memory → Option (List Nat × Traffic Memory)
  | [], now => some now
  | who :: whos, (admitted, t) =>
    match t.jobs who with
    | none => do
      let m ← requests[who]?
      playTogether g requests whos (admitted, t.put who (.incoming m))
    | some job => do
      let scene ← Scene.step Memory.client g who t.clock 0 ⟨job.activity, t.cell, t.cloud⟩
      playTogether g requests whos
        ((t.cell.lock.admitted scene.cell.lock).reverse ++ admitted,
          { t.put who { job with activity := scene.activity } with
            cell := scene.cell, cloud := scene.cloud })

section

variable {g : Group} {requests : List Mutation} {start t t' : Traffic Memory}
  {admitted admitted' : List Nat}

theorem Together.play {whos : List Nat} (h : Together g requests start admitted t)
    (hplay : playTogether g requests whos (admitted, t) = some (admitted', t')) :
    Together g requests start admitted' t' := by
  induction whos generalizing admitted t with
  | nil =>
    cases hplay
    exact h
  | cons who whos ih =>
    rw [playTogether] at hplay
    split at hplay
    · next hnew =>
      obtain ⟨m, hrequest, hrest⟩ := Option.bind_eq_some_iff.mp hplay
      exact ih (h.arrive hrequest hnew) hrest
    · next job hjob =>
      obtain ⟨scene, hscene, hrest⟩ := Option.bind_eq_some_iff.mp hplay
      exact ih (h.proceed 0 hjob hscene) hrest

theorem Together.lt_length (h : Together g requests start admitted t)
    (hstart : ∀ who, start.jobs who = none) {who : Nat} {job : Job}
    (hjob : t.jobs who = some job) : who < requests.length := by
  induction h generalizing who job with
  | refl => cases (hstart who).symm.trans hjob
  | @arrive _ t other m h hrequest hnew ih =>
    obtain ⟨hlt, -⟩ := List.getElem?_eq_some_iff.mp hrequest
    exact Traffic.forall_put (p := fun who _ ↦ who < requests.length) hlt
      (fun _ _ _ ↦ ih) hjob
  | proceed h order hj hstep ih =>
    exact Traffic.forall_put (p := fun who _ ↦ who < requests.length) (ih hj)
      (fun _ _ _ ↦ ih) hjob
  | elapse h clock hnow ih => exact ih hjob
  | intervene h cloud hsame ih => exact ih hjob

end

def Job.hasEnded (j : Job) : Bool :=
  match j.activity with
  | .ended _ => true
  | _ => false

theorem Job.exists_ending {j : Job} (hended : j.hasEnded = true) :
    ∃ ending, j.activity = .ended ending := by
  rw [Job.hasEnded] at hended
  split at hended
  · next ending heq => exact ⟨ending, heq⟩
  · cases hended

def loaded : Traffic Memory := (played 3 (Move.reload 0)).2

/-- Two increases of which each could be made alone. -/
def rivals : List Mutation := [.increase 5, .increase 4]

/-- The increases overlap. The second one got the lock first, so it is made, and there is no room
left for the first one; that is so as well if the one is made after the other. -/
theorem Together.serial_of_rivals : ∃ t,
    Together pool rivals (.resting loaded.cell.state loaded.cloud loaded.clock) [0, 1] t
    ∧ (∀ who, t.IsIdle who)
    ∧ (∃ t', OneByOne pool rivals (.resting loaded.cell.state loaded.cloud loaded.clock) [0, 1] t')
    ∧ ∀ t', OneByOne pool rivals (.resting loaded.cell.state loaded.cloud loaded.clock) [0, 1] t' →
      t'.cell.state.view.map View.target = some 7
        ∧ (pool.holding? t'.cloud).map (fun h ↦ h.scaleSet.capacity) = some 7
        ∧ ∀ who < 2, t'.jobs who = t.jobs who := by
  let start := Traffic.resting loaded.cell.state loaded.cloud loaded.clock
  let moves := [0, 1, 1, 0, 1, 1, 1, 0]
  have hplayed : ((playTogether pool rivals moves ([], start)).map fun now ↦
      (now.1, (List.range 2).all fun who ↦ (now.2.jobs who).all Job.hasEnded,
        now.2.cell.state.view.map View.target,
        (pool.holding? now.2.cloud).map fun h ↦ h.scaleSet.capacity))
      = some ([0, 1], true, some 7, some 7) := by decide +kernel
  obtain ⟨⟨order, t⟩, hplay, heq⟩ := Option.map_eq_some_iff.mp hplayed
  simp only [Prod.mk.injEq, List.all_eq_true, List.mem_range] at heq
  obtain ⟨rfl, hended, htarget, hcapacity⟩ := heq
  have htogether : Together pool rivals start [0, 1] t := Together.refl.play hplay
  have hidle : ∀ who, t.IsIdle who := by
    intro who job hjob
    have hlt := htogether.lt_length (fun _ ↦ rfl) hjob
    have hjobEnded := hended who hlt
    rw [hjob] at hjobEnded
    exact Job.exists_ending hjobEnded
  obtain ⟨-, hexists, hsame⟩ := htogether.serial hidle
  refine ⟨t, htogether, hidle, hexists, fun t' hone ↦ ?_⟩
  obtain ⟨hcell, hcloud, hjobs⟩ := hsame t' hone
  refine ⟨?_, ?_, fun who hlt ↦ hjobs who ?_⟩
  · rw [hcell]
    exact htarget
  · rw [hcloud.holding]
    exact hcapacity
  · rcases (by omega : who = 0 ∨ who = 1) with rfl | rfl
    · exact List.mem_cons_self
    · exact List.mem_cons_of_mem _ List.mem_cons_self

end NodeGroups.Group
