import NodeGroups.Proofs.Alone
import NodeGroups.Proofs.History
import NodeGroups.Proofs.Play

/-!
# Groups that are ready

A group without a view refuses whoever needs one, as not ready. The first reload that ends well is
the end of that, even if it drops what it fetched.

A reload drops its view when the counter of mutations is not where it was. Could that happen in a
group without a view, the reload would end well and leave the group as it was. It cannot: mutations
are planned from a view, so while there is none the counter stands at zero, both for whoever reads
it and for whoever comes back to compare. A first reload that drops its view was therefore overtaken
by another one, which installed its own, and by a mutation after that.
-/

namespace NodeGroups.Group

variable {σ : Type} {client : Client σ} {g : Group} {cloud : σ} {clock : Clock}
  {record : List (Event σ)} {t : Traffic σ} {who order : Nat} {scene : Scene σ}

/-! ## The counter of a group without a view -/

/-- As long as there is no view, no mutation has ended well. -/
theorem Run.completions_eq_zero (hrun : Run client g (.initial cloud clock) record t)
    (hnone : t.cell.state.view = none) : completions record = 0 := by
  induction hrun with
  | refl => rfl
  | @tail record event t t' hrun hstep ih =>
    have hviews := ViewStep.of_step hrun.orderly hstep
    rw [hnone] at hviews
    generalize t.cell.state.view = before at hviews ih
    cases hviews with
    | keep hinstallation hcompletion =>
      rw [completions_append, ih rfl, Nat.add_zero, completions_eq_zero_iff]
      exact fun e he ↦ hcompletion e (Option.mem_toList.mp he)

theorem Run.mutations_eq_zero (hrun : Run client g (.initial cloud clock) record t)
    (hnone : t.cell.state.view = none) : t.cell.state.mutations = 0 := by
  rw [hrun.counted.mutations, hrun.completions_eq_zero hnone]
  rfl

theorem Run.generation_eq_zero (hrun : Run client g (.initial cloud clock) record t) {job : Job}
    {generation : UInt64} (hjob : t.jobs who = some job)
    (hgeneration : job.activity.generation? = some generation)
    (hnone : t.cell.state.view = none) : generation = 0 := by
  have hzero := hrun.completions_eq_zero hnone
  obtain ⟨since, before, rfl, -, rfl⟩ := hrun.counted.countedAt hjob hgeneration
  rw [completions_append, completions_cons_of_not_isCompletion before rfl] at hzero
  rw [Nat.eq_zero_of_add_eq_zero_left hzero]
  rfl

/-! ## Reloads that end well -/

theorem send_ne_answer (s : Scene σ) (call : Call) {next : Pending → Activity}
    (hnext : ∀ pending ending, next pending ≠ .ended ending)
    (result : Except GroupError Finding) :
    (s.send client g who clock order call next).activity ≠ .answer result := by
  rcases send_cases s call next with hbroke | ⟨pending, cloud', -, hsent⟩
  · rw [hbroke]
    nofun
  · rw [hsent]
    exact hnext pending _

/-- A reload ends well only where it brings its view. -/
theorem exists_install_of_ok {a : Activity} {cell : Cell} {finding : Finding}
    (hfits : Job.Fits g cell.state ⟨.reload, a⟩)
    (hstep : Scene.step client g who clock order ⟨a, cell, cloud⟩ = some scene)
    (hok : scene.activity = .answer (.ok finding)) :
    ∃ generation cache, a = .queued (.install generation cache)
      ∧ scene.cell.state = cell.state.install generation cache clock.now := by
  cases a with
  | started errand =>
    obtain rfl : Errand.reload = errand := hfits
    obtain rfl := Option.some.inj hstep
    exact absurd hok (send_ne_answer _ _ (fun _ _ ↦ Activity.noConfusion) _)
  | queued wish =>
    cases wish with
    | install generation cache =>
      obtain ⟨-, hfulfil⟩ := Option.ite_none_right_eq_some.mp hstep
      obtain rfl := Option.some.inj hfulfil
      exact ⟨generation, cache, rfl, rfl⟩
    | _ => cases hfits
  | changing change pending =>
    obtain ⟨m, hm, -⟩ := hfits
    cases hm
  | accepted change =>
    obtain ⟨m, hm, -⟩ := hfits
    cases hm
  | describing generation pending =>
    cases generation with
    | none => cases hfits
    | some generation =>
      obtain ⟨-, hnext⟩ := Option.ite_none_right_eq_some.mp hstep
      obtain rfl := Option.some.inj hnext
      unfold Scene.finishDescription at hok
      split at hok
      · cases hok
      · next hnone => cases hnone
      · exact absurd hok (send_ne_answer _ _ (fun _ _ ↦ Activity.noConfusion) _)
  | listing generation d pending =>
    obtain ⟨-, hnext⟩ := Option.ite_none_right_eq_some.mp hstep
    obtain rfl := Option.some.inj hnext
    rw [Scene.finishListing] at hok
    split at hok
    · cases hok
    · cases hok
  | fetched generation cache =>
    obtain rfl := Option.some.inj hstep
    cases hok
  | ended ending => cases hstep

theorem Run.exists_view_of_reloaded (hrun : Run client g (.initial cloud clock) record t)
    {finding : Finding} (hjob : t.jobs who = some ⟨.reload, .answer (.ok finding)⟩) :
    ∃ v, t.cell.state.view = some v := by
  induction hrun with
  | refl => cases hjob
  | @tail record event t t' hrun hstep ih =>
    rcases hstep.ended_cases hjob with
      hbefore | ⟨a, hactive, ⟨order, scene, hscene, hok, hcell⟩ | ⟨-, e, herror⟩⟩
    · exact (ViewStep.of_step hrun.orderly hstep).exists_view (ih hbefore)
    · obtain ⟨generation, cache, rfl, hstate⟩ :=
        exists_install_of_ok (hrun.orderly.fits hactive) hscene hok
      rw [hcell, hstate]
      by_cases hsame : t.cell.state.mutations = generation
      · exact ⟨_, congrArg State.view (State.install_of_eq hsame _ _)⟩
      · -- The view is dropped. Without another one, the counter would have stood at zero twice.
        rw [State.install_of_ne hsame, ← Option.ne_none_iff_exists']
        intro hnone
        have hread := hrun.generation_eq_zero hactive rfl hnone
        exact hsame ((hrun.mutations_eq_zero hnone).trans hread.symm)
    · cases herror

/-! ## Refusals -/

theorem kind_cloud_ne (error : CloudError) : (GroupError.cloud error).kind ≠ .stateNotReady := by
  cases error <;> nofun

theorem Query.exists_answer {s : State} {v : View} (hview : s.view = some v) (q : Query) :
    ∃ finding, q.answer g s = .ok finding := by
  have hrequire : s.requireView g = .ok v := requireView_eq_ok_iff.mpr hview
  cases q with
  | targetSize => exact ⟨_, congrArg (Except.map _) hrequire⟩
  | members => exact ⟨_, congrArg (Except.map _) hrequire⟩
  | belongs node => exact ⟨_, congrArg (Except.map _) hrequire⟩
  | _ => exact ⟨_, rfl⟩

theorem Query.kind_of_answerAtOnce? {q : Query} {e : GroupError}
    (hask : q.answerAtOnce? g = some (.error e)) : e.kind = .invalidArgument := by
  cases q with
  | belongs node =>
    rw [answerAtOnce?] at hask
    split at hask
    · next e' hparse =>
      obtain rfl := Except.error.inj (Option.some.inj hask)
      rw [ProviderId.parse] at hparse
      split at hparse
      · cases hparse
      · obtain rfl := Except.error.inj hparse
        rfl
    · split at hask
      · cases hask
      · cases hask
  | _ => cases hask

section

variable {cell : Cell} {e : GroupError}

theorem kind_of_start {a : Activity} {errand : Errand}
    (hended : (Scene.start client g who clock order ⟨a, cell, cloud⟩ errand).activity = .refuse e) :
    e.kind = .invalidArgument := by
  cases errand with
  | query q =>
    rw [Scene.start] at hended
    split at hended
    · next r hask =>
      obtain rfl := Ending.answered.inj (Activity.ended.inj hended)
      exact Query.kind_of_answerAtOnce? hask
    · cases hended
  | mutate m =>
    rw [Scene.start] at hended
    split at hended
    · next e' hfault =>
      obtain rfl := Except.error.inj (Ending.answered.inj (Activity.ended.inj hended))
      exact Mutation.kind_of_fault? hfault
    · cases hended
  | reload => exact absurd hended (send_ne_answer _ _ (fun _ _ ↦ Activity.noConfusion) _)
  | describe => cases hended

theorem kind_of_fulfil {a : Activity} {wish : Wish} {v : View} (hview : cell.state.view = some v)
    (hended : (Scene.fulfil client g who clock order ⟨a, cell, cloud⟩ wish).activity = .refuse e) :
    e.kind ≠ .stateNotReady := by
  cases wish with
  | query q =>
    obtain ⟨finding, hanswer⟩ := q.exists_answer (g := g) hview
    rw [Scene.fulfil, hanswer] at hended
    cases hended
  | mutate m =>
    rw [Scene.fulfil] at hended
    split at hended
    · next e' hplan =>
      obtain rfl := Except.error.inj (Ending.answered.inj (Activity.ended.inj hended))
      cases Mutation.refusal_of_plan hplan with
      | argument hkind =>
        rw [hkind]
        exact ErrorKind.noConfusion
      | stranger => exact ErrorKind.noConfusion
      | unpopulated hnone => cases hview.symm.trans hnone
    · cases hended
    · exact absurd hended (send_ne_answer _ _ (fun _ _ ↦ Activity.noConfusion) _)
  | describe =>
    rw [Scene.fulfil, hview] at hended
    cases hended
  | install generation cache => cases hended

/-- In a group with a view nobody goes on to be refused as not ready. -/
theorem kind_of_step {a : Activity} {v : View} (hview : cell.state.view = some v)
    (hstep : Scene.step client g who clock order ⟨a, cell, cloud⟩ = some scene)
    (hended : scene.activity = .refuse e) : e.kind ≠ .stateNotReady := by
  cases a with
  | started errand =>
    obtain rfl := Option.some.inj hstep
    rw [kind_of_start hended]
    nofun
  | queued wish =>
    obtain ⟨-, hfulfil⟩ := Option.ite_none_right_eq_some.mp hstep
    obtain rfl := Option.some.inj hfulfil
    exact kind_of_fulfil hview hended
  | changing change pending =>
    obtain ⟨-, hnext⟩ := Option.ite_none_right_eq_some.mp hstep
    obtain rfl := Option.some.inj hnext
    rw [Scene.finishChange] at hended
    split at hended
    · next error houtcome =>
      obtain rfl := Except.error.inj (Ending.answered.inj (Activity.ended.inj hended))
      exact kind_cloud_ne error
    · cases hended
  | accepted change =>
    obtain rfl := Option.some.inj hstep
    cases hended
  | describing generation pending =>
    obtain ⟨-, hnext⟩ := Option.ite_none_right_eq_some.mp hstep
    obtain rfl := Option.some.inj hnext
    unfold Scene.finishDescription at hended
    split at hended
    · next error houtcome =>
      obtain rfl := Except.error.inj (Ending.answered.inj (Activity.ended.inj hended))
      exact kind_cloud_ne error
    · cases hended
    · exact absurd hended (send_ne_answer _ _ (fun _ _ ↦ Activity.noConfusion) _)
  | listing generation d pending =>
    obtain ⟨-, hnext⟩ := Option.ite_none_right_eq_some.mp hstep
    obtain rfl := Option.some.inj hnext
    rw [Scene.finishListing] at hended
    split at hended
    · next error houtcome =>
      obtain rfl := Except.error.inj (Ending.answered.inj (Activity.ended.inj hended))
      exact kind_cloud_ne error
    · cases hended
  | fetched generation cache =>
    obtain rfl := Option.some.inj hstep
    cases hended
  | ended ending => cases hstep

end

/-! ## Runs -/

/-- **Ready for good.** While a group has no view its counter of mutations stands at zero, and a
group that has a view has one from then on. A reload that has ended well has left a view, whether he
installed what he fetched or dropped it. From then on no question and no mutation ends with being
refused as not ready. -/
theorem Run.ready_after_reload (hrun : Run client g (.initial cloud clock) record t) :
    (t.cell.state.view = none → t.cell.state.mutations = 0)
    ∧ (∀ v, t.cell.state.view = some v → ∀ later t', Run client g t later t' →
      ∃ v', t'.cell.state.view = some v')
    ∧ ∀ who finding, t.jobs who = some ⟨.reload, .answer (.ok finding)⟩ →
      (∃ v, t.cell.state.view = some v)
      ∧ ∀ later t' event t'', Run client g t later t' → Step client g t' event t'' →
        ∀ other errand a e, errand ≠ .reload → t'.jobs other = some ⟨errand, a⟩ →
        (∀ ending, a ≠ .ended ending) → t''.jobs other = some ⟨errand, .refuse e⟩ →
        e.kind ≠ .stateNotReady := by
  refine ⟨hrun.mutations_eq_zero, fun v hview later t' hlater ↦
    hlater.exists_view hrun.orderly ⟨v, hview⟩, fun who finding hjob ↦ ?_⟩
  have hready := hrun.exists_view_of_reloaded hjob
  refine ⟨hready, fun later t' event t'' hlater hstep other errand a e herrand hbefore hactive
    hafter ↦ ?_⟩
  obtain ⟨v, hview⟩ := hlater.exists_view hrun.orderly hready
  rcases hstep.ended_cases hafter with
    hover | ⟨a', hbefore', ⟨order, scene, hscene, hended, -⟩ | ⟨hreload, -⟩⟩
  · cases hbefore.symm.trans hover
    exact absurd rfl (hactive _)
  · exact kind_of_step hview hscene hended
  · exact absurd (((hlater.orderly_of hrun.orderly).fits hbefore').errand_of_isReload hreload)
      herrand

/-! ## Two first reloads -/

/-- Two reloads of a group without a view. The second installs its view, an increase is planned from
that, and the first comes back too late. -/
def racingReloads : List (Move Memory) :=
  Move.request 0 .reload 1 ++ Move.reload 1 ++ Move.mutation 2 (.increase 1)
    ++ List.replicate 4 (.proceed 0)

def Job.hasReloaded : Job → Bool
  | ⟨.reload, .ended (.answered (.ok _))⟩ => true
  | _ => false

theorem Job.exists_of_hasReloaded {j : Job} (h : j.hasReloaded = true) :
    ∃ finding, j = ⟨.reload, .answer (.ok finding)⟩ := by
  rw [hasReloaded.eq_def] at h
  split at h
  · exact ⟨_, rfl⟩
  · cases h

/-- The first reload drops its view and ends well all the same. An increase that goes too far is
refused after that, for another reason than that the group were not ready. -/
theorem Run.ready_after_reload_of_racing : ∃ record t finding v,
    Run Memory.client pool (.initial (cloudOf 3) .start) record t
    ∧ .discarded 0 ∈ record ∧ t.jobs 0 = some ⟨.reload, .answer (.ok finding)⟩
    ∧ t.cell.state.view = some v
    ∧ ∃ later t' t'' e, Run Memory.client pool t later t' ∧ Step Memory.client pool t' none t''
      ∧ t''.jobs 3 = some ⟨.mutate (.increase 7), .refuse e⟩ ∧ e.kind ≠ .stateNotReady := by
  have hrun := run_played 3 racingReloads
  have hdiscarded : ((played 3 racingReloads).1.any fun
      | .discarded 0 => true
      | _ => false) = true := by decide +kernel
  have hreloaded : ((played 3 racingReloads).2.jobs 0).map Job.hasReloaded = some true := by
    decide +kernel
  have hfree : (played 3 racingReloads).2.cell.lock = .free := by decide +kernel
  have hnobody : ((played 3 racingReloads).2.jobs 3).isNone = true := by decide +kernel
  have hplan : Mutation.plan pool (played 3 racingReloads).2.cell.state (.increase 7)
      = .error (.increaseTooLarge 11 10) := by decide +kernel
  obtain ⟨event, hmem, hdrop⟩ := List.any_eq_true.mp hdiscarded
  obtain rfl : event = .discarded 0 := by
    split at hdrop
    · rfl
    · cases hdrop
  obtain ⟨job, hjob, hended⟩ := Option.map_eq_some_iff.mp hreloaded
  obtain ⟨finding, rfl⟩ := Job.exists_of_hasReloaded hended
  obtain ⟨-, -, hready⟩ := hrun.ready_after_reload
  obtain ⟨⟨v, hview⟩, hnever⟩ := hready 0 finding hjob
  generalize played 3 racingReloads = run at *
  obtain ⟨record, ⟨⟨state, lock⟩, cloud, clock, jobs⟩⟩ := run
  obtain rfl : lock = .free := hfree
  have hidle : Traffic.IsIdle 3 ⟨⟨state, .free⟩, cloud, clock, jobs⟩ := by
    intro other hother
    rw [Option.isNone_iff_eq_none.mp hnobody] at hother
    cases hother
  have hlater : Run Memory.client pool ⟨⟨state, .free⟩, cloud, clock, jobs⟩ [] _ := .refl
  have hqueued := (hlater.come_in (.mutate (.increase 7)) hidle).go_on (step_started_of_free rfl)
  have hrefused : Scene.step Memory.client pool 3 clock 0
      ⟨.queued (.mutate (.increase 7)), ⟨state, .heldBy 3 .exclusive⟩, cloud⟩
      = some ⟨.refuse (.increaseTooLarge 11 10), ⟨state, .free⟩, cloud⟩ := by
    simp [Scene.step, Scene.fulfil, hplan, Scene.leaveFor, Cell.withdraw]
  have hwaiting : (Traffic.stage 3 (.mutate (.increase 7))
      ⟨.queued (.mutate (.increase 7)), ⟨state, .heldBy 3 .exclusive⟩, cloud⟩
      ⟨⟨state, .free⟩, cloud, clock, jobs⟩).jobs 3
      = some ⟨.mutate (.increase 7), .queued (.mutate (.increase 7))⟩ :=
    Function.update_self 3 _ jobs
  have hstep := Step.proceed (g := pool) 0 hwaiting hrefused
  have hafter : Function.update (Function.update jobs 3
      (some ⟨.mutate (.increase 7), .queued (.mutate (.increase 7))⟩)) 3
      (some ⟨.mutate (.increase 7), .refuse (.increaseTooLarge 11 10)⟩) 3
      = some ⟨.mutate (.increase 7), .refuse (.increaseTooLarge 11 10)⟩ := Function.update_self ..
  have hother := hnever _ _ _ _ hqueued hstep 3 (.mutate (.increase 7)) _ _ Errand.noConfusion
    hwaiting (fun _ ↦ Activity.noConfusion) hafter
  exact ⟨record, _, finding, v, hrun, hmem, hjob, hview, _, _, _, _, hqueued, hstep, hafter, hother⟩

end NodeGroups.Group
