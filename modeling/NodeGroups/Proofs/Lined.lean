import NodeGroups.Proofs.Line
import NodeGroups.Proofs.Traffic
import NodeGroups.Proofs.Turn

/-!
# Mutations in line

If all who want something of a group are mutations, its lock is a line of them. Only the first in
it has anything to do with the state and the cloud: he has his turn. Those who left it had their
turns one after another, each from what the one before had left. That is the invariant `Lined`. It
holds before anybody has come in, and is kept whoever goes on.

Lists of numbers have the latest first, as records do.
-/

namespace NodeGroups.Group

def Job.ofMutation (m : Mutation) (activity : Activity) : Job := ⟨.mutate m, activity⟩

def Job.incoming (m : Mutation) : Job := .ofMutation m (.started (.mutate m))

/-! ## What was served -/

/-- Some were served one after another, from a state and a cloud to others, and have their
answers. -/
inductive Served (g : Group) (requests : List Mutation) (s : State) (cloud : Memory)
    (jobs : Nat → Option Job) : List Nat → State → Memory → Prop
  | nil : Served g requests s cloud jobs [] s cloud
  | cons {past : List Nat} {s' s'' : State} {cloud' cloud'' : Memory} {who : Nat} {m : Mutation}
      {answer : Except GroupError Finding} (h : Served g requests s cloud jobs past s' cloud')
      (hrequest : requests[who]? = some m) (hserve : m.serve g s' cloud' = (answer, s'', cloud''))
      (hjob : jobs who = some (.ofMutation m (.answer answer))) :
      Served g requests s cloud jobs (who :: past) s'' cloud''

namespace Served

variable {g : Group} {requests : List Mutation} {s s₁ s₂ : State} {cloud cloud₁ cloud₂ : Memory}
  {jobs jobs' : Nat → Option Job} {past : List Nat}

theorem congr (h : Served g requests s cloud jobs past s₁ cloud₁)
    (hsame : ∀ who ∈ past, jobs' who = jobs who) :
    Served g requests s cloud jobs' past s₁ cloud₁ := by
  induction h with
  | nil => exact .nil
  | cons h hrequest hserve hjob ih =>
    have hrest := ih fun who hmem ↦ hsame who (List.mem_cons_of_mem _ hmem)
    exact .cons hrest hrequest hserve ((hsame _ List.mem_cons_self).trans hjob)

theorem exists_answer (h : Served g requests s cloud jobs past s₁ cloud₁) {who : Nat}
    (hmem : who ∈ past) :
    ∃ m answer, requests[who]? = some m ∧ jobs who = some (.ofMutation m (.answer answer)) := by
  induction h with
  | nil => cases hmem
  | cons h hrequest hserve hjob ih =>
    rcases List.mem_cons.mp hmem with rfl | hmem
    · exact ⟨_, _, hrequest, hjob⟩
    · exact ih hmem

/-- The order in which they are served decides about everything. -/
theorem unique (h : Served g requests s cloud jobs past s₁ cloud₁)
    (h' : Served g requests s cloud jobs' past s₂ cloud₂) :
    s₁ = s₂ ∧ cloud₁ = cloud₂ ∧ ∀ who ∈ past, jobs who = jobs' who := by
  induction h generalizing s₂ cloud₂ with
  | nil =>
    cases h' with
    | nil => exact ⟨rfl, rfl, nofun⟩
  | cons h hrequest hserve hjob ih =>
    cases h' with
    | cons h' hrequest' hserve' hjob' =>
      obtain ⟨rfl, rfl, hjobs⟩ := ih h'
      obtain rfl := Option.some.inj (hrequest.symm.trans hrequest')
      obtain ⟨rfl, heq⟩ := Prod.mk.inj (hserve.symm.trans hserve')
      obtain ⟨rfl, rfl⟩ := Prod.mk.inj heq
      refine ⟨rfl, rfl, fun who hmem ↦ ?_⟩
      rcases List.mem_cons.mp hmem with rfl | hmem
      · exact hjob.trans hjob'.symm
      · exact hjobs who hmem

end Served

/-! ## The line -/

/-- Who is at the front of the line has his turn; if there is nobody, all is as the last one
left it. -/
inductive Front (g : Group) (requests : List Mutation) (s : State) (cloud : Memory)
    (t : Traffic Memory) : List Nat → Prop
  | nobody (hstate : t.cell.state = s) (hsame : g.SameFor cloud t.cloud) :
      Front g requests s cloud t []
  | busy {who : Nat} {whos : List Nat} {m : Mutation} {activity : Activity}
      (hrequest : requests[who]? = some m) (hjob : t.jobs who = some (.ofMutation m activity))
      (hclaim : activity.claim? = some .exclusive)
      (hturn : Turn g m s cloud activity t.cell.state t.cloud) :
      Front g requests s cloud t (who :: whos)

theorem mem_tail_concat {queue : List Nat} {who other : Nat}
    (hmem : other ∈ (queue ++ [who]).tail) : other ∈ queue.tail ∨ other = who := by
  cases queue with
  | nil => cases hmem
  | cons first whos => exact (List.mem_append.mp hmem).imp_right List.mem_singleton.mp

theorem Front.congr {g : Group} {requests : List Mutation} {s : State} {cloud : Memory}
    {t t' : Traffic Memory} {queue : List Nat} (h : Front g requests s cloud t queue)
    (hjobs : ∀ who ∈ queue, t'.jobs who = t.jobs who) (hstate : t'.cell.state = t.cell.state)
    (hsame : g.SameFor t.cloud t'.cloud) : Front g requests s cloud t' queue := by
  cases h with
  | nobody hs hcloud => exact .nobody (hstate.trans hs) (hcloud.trans hsame)
  | busy hrequest hjob hclaim hturn =>
    refine .busy hrequest ((hjobs _ List.mem_cons_self).trans hjob) hclaim ?_
    rw [hstate]
    exact hturn.carry hsame

theorem jobs_put_of_notMem (t : Traffic Memory) {who : Nat} {whos : List Nat} (job : Job)
    (hnew : who ∉ whos) : ∀ other ∈ whos, (t.put who job).jobs other = t.jobs other := by
  intro other hmem
  have hne : other ≠ who := by
    rintro rfl
    exact hnew hmem
  exact Function.update_of_ne hne _ _

theorem Front.join {g : Group} {requests : List Mutation} {s : State} {cloud : Memory}
    {t : Traffic Memory} {queue : List Nat} {who : Nat} {m : Mutation}
    (h : Front g requests s cloud t queue) (hrequest : requests[who]? = some m)
    (hnew : who ∉ queue) (lock : Lock) :
    Front g requests s cloud { t.put who (.ofMutation m (.queued (.mutate m))) with
      cell := { t.cell with lock } } (queue ++ [who]) := by
  have hself : (t.put who (.ofMutation m (.queued (.mutate m)))).jobs who
      = some (.ofMutation m (.queued (.mutate m))) := Function.update_self ..
  cases h with
  | nobody hstate hcloud =>
    -- He is the first, and is admitted at once.
    refine .busy hrequest hself rfl ?_
    dsimp only
    rw [hstate]
    exact .begun hcloud
  | busy hrequest' hjob hclaim hturn =>
    have hsame := jobs_put_of_notMem t (.ofMutation m (.queued (.mutate m))) hnew
    have hfirst := hsame _ List.mem_cons_self
    exact .busy hrequest' (hfirst.trans hjob) hclaim hturn

/-- Some have had their turns, and the others who asked for the lock stand in line. Whoever has not
asked for it has just come in, or was refused because his request makes no sense in any state. -/
structure Lined (g : Group) (requests : List Mutation) (s : State) (cloud : Memory)
    (past queue : List Nat) (t : Traffic Memory) : Prop where
  lock : t.cell.lock = .line queue
  distinct : (past ++ queue).Nodup
  served : ∃ s' cloud', Served g requests s cloud t.jobs past s' cloud'
    ∧ Front g requests s' cloud' t queue
  waiting : ∀ who ∈ queue.tail, ∃ m, requests[who]? = some m
    ∧ t.jobs who = some (.ofMutation m (.queued (.mutate m)))
  sound : ∀ who ∈ past ++ queue, ∃ m, requests[who]? = some m ∧ m.fault? = none
  outside : ∀ {who job}, t.jobs who = some job → who ∉ past ++ queue →
    ∃ m, requests[who]? = some m
      ∧ (job = .incoming m ∨ ∃ e, m.fault? = some e ∧ job = .ofMutation m (.refuse e))

/-- What becomes of those who had their turns and of the line when somebody goes on: he may join
the line, or leave it as the first. -/
inductive Moves (who : Nat) : List Nat → List Nat → List Nat → List Nat → Prop
  | stays (past queue : List Nat) : Moves who past queue past queue
  | joins {past queue : List Nat} (hnew : who ∉ past ++ queue) :
      Moves who past queue past (queue ++ [who])
  | departs {past whos : List Nat} (hother : who ∉ whos) :
      Moves who past (who :: whos) (who :: past) whos

/-- Those who were admitted to the lock are those who had their turns, and the first in the line. -/
theorem Moves.admitted {who : Nat} {past queue past' queue' : List Nat}
    (h : Moves who past queue past' queue') :
    (queue'.take 1).reverse ++ past'
      = ((Lock.line queue).admitted (.line queue')).reverse
        ++ ((queue.take 1).reverse ++ past) := by
  cases h with
  | stays =>
    rw [Lock.admitted_self]
    rfl
  | joins hnew =>
    rw [Lock.admitted_line_concat]
    cases queue with
    | nil => rfl
    | cons first whos => rfl
  | departs hother =>
    rw [Lock.admitted_line_tail hother]
    rfl

namespace Lined

variable {g : Group} {requests : List Mutation} {s : State} {cloud : Memory}
  {past queue : List Nat} {t : Traffic Memory} {who : Nat}

theorem resting (g : Group) (requests : List Mutation) (s : State) (cloud : Memory)
    (clock : Clock) : Lined g requests s cloud [] [] (.resting s cloud clock) where
  lock := rfl
  distinct := List.nodup_nil
  served := ⟨s, cloud, .nil, .nobody rfl (.refl g cloud)⟩
  waiting := nofun
  sound := nofun
  outside := nofun

theorem not_mem (h : Lined g requests s cloud past queue t) (hnew : t.jobs who = none) :
    who ∉ past ++ queue := by
  obtain ⟨s', cloud', hserved, hfront⟩ := h.served
  intro hmem
  rcases List.mem_append.mp hmem with hmem | hmem
  · obtain ⟨m, answer, -, hjob⟩ := hserved.exists_answer hmem
    cases hnew.symm.trans hjob
  · cases hfront with
    | nobody hstate hsame => cases hmem
    | busy hrequest hjob hclaim hturn =>
      rcases List.mem_cons.mp hmem with rfl | hmem
      · cases hnew.symm.trans hjob
      · obtain ⟨m, -, hjob⟩ := h.waiting who hmem
        cases hnew.symm.trans hjob

theorem put (h : Lined g requests s cloud past queue t) {m : Mutation} {job : Job}
    (hrequest : requests[who]? = some m)
    (hjob : job = .incoming m ∨ ∃ e, m.fault? = some e ∧ job = .ofMutation m (.refuse e))
    (hnew : who ∉ past ++ queue) : Lined g requests s cloud past queue (t.put who job) := by
  have hsame := jobs_put_of_notMem t job hnew
  refine ⟨h.lock, h.distinct, ?_, ?_, h.sound, ?_⟩
  · obtain ⟨s', cloud', hserved, hfront⟩ := h.served
    refine ⟨s', cloud', hserved.congr fun other hmem ↦ hsame other
      (List.mem_append_left _ hmem), ?_⟩
    exact hfront.congr (fun other hmem ↦ hsame other (List.mem_append_right _ hmem)) rfl (.refl ..)
  · intro other hmem
    obtain ⟨m', hrequest', hjob'⟩ := h.waiting other hmem
    have hself := hsame other (List.mem_append_right _ (List.mem_of_mem_tail hmem))
    exact ⟨m', hrequest', hself.trans hjob'⟩
  · intro other j hj hother
    refine Traffic.forall_put (p := fun other j ↦ other ∉ past ++ queue → ∃ m,
      requests[other]? = some m
        ∧ (j = .incoming m ∨ ∃ e, m.fault? = some e ∧ j = .ofMutation m (.refuse e)))
      (fun _ ↦ ⟨m, hrequest, hjob⟩) (fun other j _ ↦ h.outside) hj hother

theorem join (h : Lined g requests s cloud past queue t) {m : Mutation}
    (hrequest : requests[who]? = some m) (hfault : m.fault? = none)
    (hnew : who ∉ past ++ queue) :
    Lined g requests s cloud past (queue ++ [who])
      { t.put who (.ofMutation m (.queued (.mutate m))) with
        cell := { t.cell with lock := t.cell.lock.request who .exclusive } } := by
  have hsame := jobs_put_of_notMem t (.ofMutation m (.queued (.mutate m))) hnew
  have hself : (t.put who (.ofMutation m (.queued (.mutate m)))).jobs who
      = some (.ofMutation m (.queued (.mutate m))) := Function.update_self ..
  obtain ⟨hpast, hqueue⟩ := not_or.mp (List.mem_append.not.mp hnew)
  refine ⟨?_, ?_, ?_, ?_, ?_, ?_⟩
  · rw [h.lock]
    exact Lock.request_line who queue
  · rw [← List.append_assoc, ← List.concat_eq_append]
    exact h.distinct.concat hnew
  · obtain ⟨s', cloud', hserved, hfront⟩ := h.served
    exact ⟨s', cloud', hserved.congr fun other hmem ↦ hsame other (List.mem_append_left _ hmem),
      hfront.join hrequest hqueue _⟩
  · intro other hmem
    rcases mem_tail_concat hmem with hmem | rfl
    · obtain ⟨m', hrequest', hjob'⟩ := h.waiting other hmem
      have hother := hsame other (List.mem_append_right _ (List.mem_of_mem_tail hmem))
      exact ⟨m', hrequest', hother.trans hjob'⟩
    · exact ⟨m, hrequest, hself⟩
  · intro other hmem
    rw [← List.append_assoc] at hmem
    rcases List.mem_append.mp hmem with hmem | hmem
    · exact h.sound other hmem
    · rw [List.mem_singleton.mp hmem]
      exact ⟨m, hrequest, hfault⟩
  · intro other j hj hother
    obtain ⟨hold, hlast⟩ := not_or.mp (List.mem_append.not.mp (List.append_assoc .. ▸ hother))
    have hne : other ≠ who := fun heq ↦ hlast (heq ▸ List.mem_cons_self)
    exact h.outside ((Function.update_of_ne hne _ _).symm.trans hj) hold

theorem go_on {whos : List Nat} (h : Lined g requests s cloud past (who :: whos) t) {m : Mutation}
    {s' : State} {cloud' : Memory} {activity : Activity} {state : State} {now : Memory}
    (hserved : Served g requests s cloud t.jobs past s' cloud') (hrequest : requests[who]? = some m)
    (hwriting : activity.isWriting = true) (hturn : Turn g m s' cloud' activity state now) :
    Lined g requests s cloud past (who :: whos)
      { t.put who (.ofMutation m activity) with
        cell := ⟨state, t.cell.lock⟩, cloud := now } := by
  have hself : (t.put who (.ofMutation m activity)).jobs who = some (.ofMutation m activity) :=
    Function.update_self ..
  have hothers : ∀ other, other ≠ who →
      (t.put who (.ofMutation m activity)).jobs other = t.jobs other :=
    fun other hne ↦ Function.update_of_ne hne _ _
  obtain ⟨-, hnodup, hdisjoint⟩ := List.nodup_append.mp h.distinct
  refine ⟨h.lock, h.distinct, ?_, ?_, h.sound, ?_⟩
  · refine ⟨s', cloud', hserved.congr fun other hmem ↦ hothers other ?_, ?_⟩
    · exact hdisjoint other hmem who List.mem_cons_self
    · exact .busy hrequest hself (Activity.claim?_of_isWriting hwriting) hturn
  · intro other hmem
    have hne : other ≠ who := by
      rintro rfl
      exact (List.nodup_cons.mp hnodup).1 hmem
    obtain ⟨m', hrequest', hjob'⟩ := h.waiting other hmem
    exact ⟨m', hrequest', (hothers other hne).trans hjob'⟩
  · intro other j hj hother
    have hne : other ≠ who := by
      rintro rfl
      exact hother (List.mem_append_right _ List.mem_cons_self)
    exact h.outside ((hothers other hne).symm.trans hj) hother

theorem depart {whos : List Nat} (h : Lined g requests s cloud past (who :: whos) t) {m : Mutation}
    {s' : State} {cloud' : Memory} {answer : Except GroupError Finding} {state : State}
    {now : Memory} (hserved : Served g requests s cloud t.jobs past s' cloud')
    (hrequest : requests[who]? = some m)
    (hturn : Turn g m s' cloud' (.answer answer) state now) :
    Lined g requests s cloud (who :: past) whos
      { t.put who (.ofMutation m (.answer answer)) with
        cell := ⟨state, t.cell.lock.leave who⟩, cloud := now } := by
  have hself : (t.put who (.ofMutation m (.answer answer))).jobs who
      = some (.ofMutation m (.answer answer)) := Function.update_self ..
  have hothers : ∀ other, other ≠ who →
      (t.put who (.ofMutation m (.answer answer))).jobs other = t.jobs other :=
    fun other hne ↦ Function.update_of_ne hne _ _
  have hperm : (past ++ who :: whos).Perm (who :: past ++ whos) := List.perm_middle
  obtain ⟨-, hnodup, hdisjoint⟩ := List.nodup_append.mp h.distinct
  obtain ⟨hwho, -⟩ := List.nodup_cons.mp hnodup
  have hwaiting : ∀ other ∈ whos, ∃ m', requests[other]? = some m'
      ∧ (t.put who (.ofMutation m (.answer answer))).jobs other
        = some (.ofMutation m' (.queued (.mutate m'))) := by
    intro other hmem
    have hne : other ≠ who := by
      rintro rfl
      exact hwho hmem
    obtain ⟨m', hrequest', hjob'⟩ := h.waiting other hmem
    exact ⟨m', hrequest', (hothers other hne).trans hjob'⟩
  cases hturn with
  | @ended _ after _ _ hserve hsame =>
  refine ⟨?_, hperm.nodup_iff.mp h.distinct, ⟨state, after, ?_, ?_⟩, ?_, ?_, ?_⟩
  · rw [h.lock]
    exact Lock.leave_line hwho
  · have hkept := hserved.congr fun other hmem ↦
      hothers other (hdisjoint other hmem who List.mem_cons_self)
    exact .cons hkept hrequest hserve hself
  · cases whos with
    | nil => exact .nobody rfl hsame
    | cons next whos =>
      obtain ⟨m', hrequest', hjob'⟩ := hwaiting next List.mem_cons_self
      exact .busy hrequest' hjob' rfl (.begun hsame)
  · exact fun other hmem ↦ hwaiting other (List.mem_of_mem_tail hmem)
  · exact fun other hmem ↦ h.sound other (hperm.mem_iff.mpr hmem)
  · intro other j hj hother
    have hne : other ≠ who := by
      rintro rfl
      exact hother List.mem_cons_self
    exact h.outside ((hothers other hne).symm.trans hj) fun hmem ↦ hother (hperm.mem_iff.mp hmem)

theorem arrive (h : Lined g requests s cloud past queue t) {job : Job} {scene : Scene Memory}
    {order : Nat} (hjob : t.jobs who = some job) (hnew : who ∉ past ++ queue)
    (hstep : Scene.step Memory.client g who t.clock order ⟨job.activity, t.cell, t.cloud⟩
      = some scene) :
    ∃ past' queue', Moves who past queue past' queue'
      ∧ Lined g requests s cloud past' queue'
        { t.put who { job with activity := scene.activity } with
          cell := scene.cell, cloud := scene.cloud } := by
  obtain ⟨m, hrequest, rfl | ⟨e, hfault, rfl⟩⟩ := h.outside hjob hnew
  · have hstarted : Scene.start Memory.client g who t.clock order
        ⟨.started (.mutate m), t.cell, t.cloud⟩ (.mutate m) = scene := Option.some.inj hstep
    rw [Scene.start] at hstarted
    cases hfault : m.fault? with
    | some e =>
      rw [hfault] at hstarted
      subst hstarted
      exact ⟨past, queue, .stays _ _, h.put hrequest (.inr ⟨e, hfault, rfl⟩) hnew⟩
    | none =>
      rw [hfault] at hstarted
      subst hstarted
      exact ⟨past, _, .joins hnew, h.join hrequest hfault hnew⟩
  · cases hstep

theorem proceed (h : Lined g requests s cloud past queue t) {job : Job} {scene : Scene Memory}
    {order : Nat} (hjob : t.jobs who = some job)
    (hstep : Scene.step Memory.client g who t.clock order ⟨job.activity, t.cell, t.cloud⟩
      = some scene) :
    ∃ past' queue', Moves who past queue past' queue'
      ∧ Lined g requests s cloud past' queue'
        { t.put who { job with activity := scene.activity } with
          cell := scene.cell, cloud := scene.cloud } := by
  obtain ⟨⟨state, lock⟩, now, clock, jobs⟩ := t
  have hlock : lock = .line queue := h.lock
  obtain ⟨-, hnodup, -⟩ := List.nodup_append.mp h.distinct
  obtain ⟨s', cloud', hserved, hfront⟩ := h.served
  by_cases hpast : who ∈ past
  · obtain ⟨m, answer, -, hanswered⟩ := hserved.exists_answer hpast
    obtain rfl := Option.some.inj (hjob.symm.trans hanswered)
    cases hstep
  by_cases hqueue : who ∈ queue
  · cases hfront with
    | nobody hstate hsame => cases hqueue
    | @busy first whos m activity hrequest hfirst hclaim hturn =>
    obtain ⟨hother, -⟩ := List.nodup_cons.mp hnodup
    rcases List.mem_cons.mp hqueue with rfl | hwaits
    · obtain rfl := Option.some.inj (hjob.symm.trans hfirst)
      cases hturn.step hstep with
      | goes hwriting hturn =>
        exact ⟨past, _, .stays _ _, h.go_on hserved hrequest hwriting hturn⟩
      | ends hturn => exact ⟨_, whos, .departs hother, h.depart hserved hrequest hturn⟩
    · -- He is not the first, so he does not hold the lock and has to wait.
      obtain ⟨m', -, hwaiting⟩ := h.waiting who hwaits
      obtain rfl := Option.some.inj (hjob.symm.trans hwaiting)
      obtain ⟨hheld, -⟩ := Option.ite_none_right_eq_some.mp hstep
      dsimp only at hheld
      rw [hlock, Lock.isHeldBy_line] at hheld
      obtain rfl := Option.some.inj hheld
      exact absurd hwaits hother
  · have hnew : who ∉ past ++ queue := by
      rw [List.mem_append]
      rintro (hmem | hmem)
      · exact hpast hmem
      · exact hqueue hmem
    exact h.arrive hjob hnew hstep

theorem carry (h : Lined g requests s cloud past queue t) (clock : Clock) {now : Memory}
    (hsame : g.SameFor t.cloud now) :
    Lined g requests s cloud past queue { t with clock, cloud := now } := by
  obtain ⟨s', cloud', hserved, hfront⟩ := h.served
  have hcarried : Front g requests s' cloud' { t with clock, cloud := now } queue :=
    hfront.congr (fun _ _ ↦ rfl) rfl hsame
  exact ⟨h.lock, h.distinct, ⟨s', cloud', hserved, hcarried⟩, h.waiting, h.sound, h.outside⟩

/-- Nobody is in the line when everybody has ended. -/
theorem queue_eq_nil (h : Lined g requests s cloud past queue t) (hended : ∀ who, t.IsIdle who) :
    queue = [] := by
  obtain ⟨s', cloud', -, hfront⟩ := h.served
  cases hfront with
  | nobody hstate hsame => rfl
  | busy hrequest hjob hclaim hturn =>
    obtain ⟨ending, heq⟩ := hended _ _ hjob
    obtain rfl : _ = Activity.ended ending := heq
    cases hclaim

end Lined

end NodeGroups.Group
