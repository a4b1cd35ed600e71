import NodeGroups.Proofs.Alone
import NodeGroups.Proofs.Planning

/-!
# One mutation among others

A mutation is followed from its arrival to its end, while others make their own requests and do to
the cloud what they like. An account is kept of it: the state in which it was checked, what it asked
of the cloud, and what the cloud answered.

What ties the account to the group is that nobody else touches the state between the check and the
end. A mutation holds the lock then, so the others go on with what they can do without it. Hence the
state that the mutation was planned in is the state that it finds when it has the answer of the
cloud, and there are five ways for it to end, which are the cases of `Concluded`.
-/

namespace NodeGroups.Group

variable {σ : Type}

/-! ## Accounts -/

/-- What can be asked of the cloud, with all that it is asked with. -/
inductive Plea
  | description
  | listing
  | change (change : Change)
  deriving DecidableEq

/-- What an activity has asked of the cloud and waits for. -/
def Activity.plea? : Activity → Option Plea
  | .changing change _ => some (.change change)
  | .describing .. => some .description
  | .listing .. => some .listing
  | _ => none

/-- What the cloud says to the change that an activity waits for, when its time is over. -/
def Activity.verdict? (client : Client σ) (g : Group) (cloud : σ) :
    Activity → Option (Except CloudError Unit)
  | .changing change pending =>
    some ((pending.outcome (change.execute client g cloud)).map fun _ ↦ ())
  | _ => none

/-- What is known of a request on its way. -/
structure Account where
  /-- The state of the group when the request was last checked. -/
  found : State
  /-- What was asked of the cloud, the latest first. -/
  asked : List Plea
  /-- What the cloud answered to changes, the latest first. -/
  answers : List (Except CloudError Unit)

/-- The account after a step. Whoever waits for the cloud after a step has asked it for something
in that step. -/
def Account.note (client : Client σ) (g : Group) (before after : Scene σ) (a : Account) :
    Account where
  found := if before.activity.isWriting then a.found else before.cell.state
  asked := after.activity.plea?.toList ++ a.asked
  answers := (before.activity.verdict? client g before.cloud).toList ++ a.answers

/-- A mutation comes in and goes on until it ends, among others who do anything that they can do. -/
inductive Attempt (client : Client σ) (g : Group) (who : Nat) (m : Mutation)
    (start : Traffic σ) : List (Event σ) → Account → Traffic σ → Prop
  | arrive (hidle : start.IsIdle who) :
      Attempt client g who m start [] ⟨start.cell.state, [], []⟩
        (start.put who ⟨.mutate m, .started (.mutate m)⟩)
  | proceed {record : List (Event σ)} {account : Account} {t : Traffic σ} {job : Job}
      {scene : Scene σ} (h : Attempt client g who m start record account t) (order : Nat)
      (hjob : t.jobs who = some job)
      (hstep : Scene.step client g who t.clock order ⟨job.activity, t.cell, t.cloud⟩
        = some scene) :
      Attempt client g who m start
        ((job.event? who t.cell.state scene.activity).toList ++ record)
        (account.note client g ⟨job.activity, t.cell, t.cloud⟩ scene)
        { t.put who { job with activity := scene.activity } with
          cell := scene.cell, cloud := scene.cloud }
  | others {record : List (Event σ)} {account : Account} {t t' : Traffic σ} {job : Job}
      {event : Option (Event σ)} (h : Attempt client g who m start record account t)
      (hjob : t.jobs who = some job) (hactive : ∀ ending, job.activity ≠ .ended ending)
      (hstep : Step client g t event t') (hstays : t'.jobs who = some job) :
      Attempt client g who m start (event.toList ++ record) account t'

/-- A mutation comes to an end, or to wait for an answer that never comes; and that only if the
cloud does leave a call without an answer. -/
def ComesToEnd (client : Client σ) (g : Group) (who : Nat) (m : Mutation) (start : Traffic σ) :
    Prop :=
  ∃ record account t activity, Attempt client g who m start record account t
    ∧ t.jobs who = some ⟨.mutate m, activity⟩
    ∧ ((∃ ending, activity = .ended ending)
      ∨ activity.isStranded = true ∧ ¬ Answers client g)

variable {client : Client σ} {g : Group} {who : Nat} {m : Mutation} {start t : Traffic σ}
  {record : List (Event σ)} {account : Account}

theorem ComesToEnd.exists_ending (h : ComesToEnd client g who m start)
    (hanswers : Answers client g) : ∃ record account t ending,
    Attempt client g who m start record account t
      ∧ t.jobs who = some ⟨.mutate m, .ended ending⟩ := by
  obtain ⟨record, account, t, activity, hattempt, hjob, ⟨ending, rfl⟩ | ⟨-, hnever⟩⟩ := h
  · exact ⟨record, account, t, ending, hattempt, hjob⟩
  · exact absurd hanswers hnever

theorem Attempt.run (h : Attempt client g who m start record account t) :
    Run client g start record t := by
  induction h with
  | arrive hidle => exact Run.refl.tail (.arrive _ hidle)
  | proceed h order hjob hstep ih => exact ih.tail (.proceed order hjob hstep)
  | others h hjob hactive hstep hstays ih => exact ih.tail hstep

theorem Attempt.exists_found (h : Attempt client g who m start record account t) :
    ∃ earlier t₀, Run client g start earlier t₀ ∧ t₀.cell.state = account.found
      ∧ earlier <:+ record := by
  induction h with
  | arrive hidle => exact ⟨[], start, .refl, rfl, List.suffix_refl _⟩
  | @proceed record account t job scene h order hjob hstep ih =>
    rw [Account.note]
    dsimp only
    split
    · obtain ⟨earlier, t₀, hrun, hfound, hsuffix⟩ := ih
      exact ⟨earlier, t₀, hrun, hfound, hsuffix.trans (List.suffix_append _ _)⟩
    · exact ⟨record, t, h.run, rfl, List.suffix_append _ _⟩
  | others h hjob hactive hstep hstays ih =>
    obtain ⟨earlier, t₀, hrun, hfound, hsuffix⟩ := ih
    exact ⟨earlier, t₀, hrun, hfound, hsuffix.trans (List.suffix_append _ _)⟩

/-! ## What an account stands for -/

def Plea.call : Plea → Call
  | description => .describe
  | listing => .list
  | change c => c.call

/-- Whoever waits for the cloud after a step has sent it the call in that step. -/
theorem Advance.calls_of_plea {clock : Clock} {s s' : Scene σ} {plea : Plea}
    (h : Advance client g who clock s s') (hplea : s'.activity.plea? = some plea) :
    ∃ pending, Calls client g clock plea.call s.cloud pending s'.cloud := by
  cases h with
  | count hcalls =>
    obtain rfl := Option.some.inj hplea
    exact ⟨_, hcalls⟩
  | ask hcalls =>
    obtain rfl := Option.some.inj hplea
    exact ⟨_, hcalls⟩
  | call hheld hplan hcalls =>
    obtain rfl := Option.some.inj hplea
    exact ⟨_, hcalls⟩
  | describe hdescribe hcalls =>
    obtain rfl := Option.some.inj hplea
    exact ⟨_, hcalls⟩
  | _ => cases hplea

/-- The step that learns what the cloud says to a change leaves the cloud accordingly. -/
theorem cloud_of_verdict {clock : Clock} {order : Nat} {s s' : Scene σ}
    {answer : Except CloudError Unit} (hstep : s.step client g who clock order = some s')
    (hverdict : s.activity.verdict? client g s.cloud = some answer) :
    ∃ change, s.activity.plea? = some (.change change)
      ∧ (answer = .ok () → change.execute client g s.cloud = .ok s'.cloud)
      ∧ ∀ e, answer = .error e → s'.cloud = s.cloud := by
  obtain ⟨activity, cell, cloud⟩ := s
  cases activity with
  | changing change p =>
    obtain ⟨-, hnext⟩ := Option.ite_none_right_eq_some.mp hstep
    obtain rfl := Option.some.inj hnext
    obtain rfl := Option.some.inj hverdict
    refine ⟨change, rfl, ?_⟩
    rw [Scene.finishChange]
    cases houtcome : p.outcome (change.execute client g cloud) with
    | error e => exact ⟨fun heq ↦ (by cases heq), fun _ _ ↦ rfl⟩
    | ok cloud' => exact ⟨fun _ ↦ answer_of_outcome houtcome, fun _ heq ↦ (by cases heq)⟩
  | _ => cases hverdict

/-- A step in a run found the cloud in one condition and left it in another. -/
def Happened (client : Client σ) (g : Group) (start : Traffic σ) (record : List (Event σ))
    (p : Clock → σ → σ → Prop) : Prop :=
  ∃ earlier t₀ event t₁, Run client g start earlier t₀ ∧ Step client g t₀ event t₁
    ∧ event.toList ++ earlier <:+ record ∧ p t₀.clock t₀.cloud t₁.cloud

theorem Happened.append {p : Clock → σ → σ → Prop} (h : Happened client g start record p)
    (later : List (Event σ)) : Happened client g start (later ++ record) p := by
  obtain ⟨earlier, t₀, event, t₁, hrun, hstep, hsuffix, hp⟩ := h
  exact ⟨earlier, t₀, event, t₁, hrun, hstep, hsuffix.trans (List.suffix_append _ _), hp⟩

/-- The run bears out what an account says of the cloud. -/
structure Account.IsBorneOut (client : Client σ) (g : Group) (start : Traffic σ)
    (record : List (Event σ)) (a : Account) : Prop where
  /-- What was asked for was submitted as a call of its kind. -/
  submitted : ∀ plea ∈ a.asked, Happened client g start record fun clock before after ↦
    ∃ pending, Calls client g clock plea.call before pending after
  /-- A change that was accepted left the cloud as it does. -/
  accepted : .ok () ∈ a.answers → ∃ change, .change change ∈ a.asked
    ∧ Happened client g start record fun _ before after ↦
      change.execute client g before = .ok after
  /-- A change that was rejected left the cloud as it was. -/
  rejected : ∀ e, .error e ∈ a.answers → ∃ change, .change change ∈ a.asked
    ∧ Happened client g start record fun _ before after ↦ after = before

theorem Account.IsBorneOut.append (h : account.IsBorneOut client g start record)
    (later : List (Event σ)) : account.IsBorneOut client g start (later ++ record) where
  submitted plea hplea := (h.submitted plea hplea).append later
  accepted hanswer := by
    obtain ⟨change, hasked, happened⟩ := h.accepted hanswer
    exact ⟨change, hasked, happened.append later⟩
  rejected e hanswer := by
    obtain ⟨change, hasked, happened⟩ := h.rejected e hanswer
    exact ⟨change, hasked, happened.append later⟩

namespace Attempt

theorem mem_asked (h : Attempt client g who m start record account t) {job : Job} {plea : Plea}
    (hjob : t.jobs who = some job) (hplea : job.activity.plea? = some plea) :
    plea ∈ account.asked := by
  induction h generalizing job with
  | arrive hidle =>
    have hself : (start.put who ⟨.mutate m, .started (.mutate m)⟩).jobs who = some _ :=
      Function.update_self ..
    obtain rfl := Option.some.inj (hself.symm.trans hjob)
    cases hplea
  | @proceed _ _ t before scene h order hbefore hstep ih =>
    have hself : (t.put who { before with activity := scene.activity }).jobs who = some _ :=
      Function.update_self ..
    obtain rfl := Option.some.inj (hself.symm.trans hjob)
    exact List.mem_append_left _ (Option.mem_toList.mpr hplea)
  | others h hbefore hactive hstep hstays ih =>
    obtain rfl := Option.some.inj (hstays.symm.trans hjob)
    exact ih hbefore hplea

/-- An account is no more than what the run bears out. -/
theorem isBorneOut (h : Attempt client g who m start record account t) :
    account.IsBorneOut client g start record := by
  induction h with
  | arrive hidle => exact ⟨nofun, nofun, nofun⟩
  | @proceed record account t job scene h order hjob hstep ih =>
    have hbefore := ih.append ((job.event? who t.cell.state scene.activity).toList)
    have hnow : ∀ {p : Clock → σ → σ → Prop}, p t.clock t.cloud scene.cloud → Happened client g
        start ((job.event? who t.cell.state scene.activity).toList ++ record) p :=
      fun hp ↦ ⟨record, t, _, _, h.run, .proceed order hjob hstep, List.suffix_refl _, hp⟩
    constructor
    · intro plea hplea
      rcases List.mem_append.mp hplea with hnew | hold
      · exact hnow ((advance_of_step hstep).calls_of_plea (Option.mem_toList.mp hnew))
      · exact hbefore.submitted plea hold
    · intro hanswer
      rcases List.mem_append.mp hanswer with hnew | hold
      · obtain ⟨change, hplea, haccepted, -⟩ :=
          cloud_of_verdict hstep (Option.mem_toList.mp hnew)
        exact ⟨change, List.mem_append_right _ (h.mem_asked hjob hplea), hnow (haccepted rfl)⟩
      · obtain ⟨change, hasked, happened⟩ := hbefore.accepted hold
        exact ⟨change, List.mem_append_right _ hasked, happened⟩
    · intro e hanswer
      rcases List.mem_append.mp hanswer with hnew | hold
      · obtain ⟨change, hplea, -, hrejected⟩ :=
          cloud_of_verdict hstep (Option.mem_toList.mp hnew)
        exact ⟨change, List.mem_append_right _ (h.mem_asked hjob hplea), hnow (hrejected e rfl)⟩
      · obtain ⟨change, hasked, happened⟩ := hbefore.rejected e hold
        exact ⟨change, List.mem_append_right _ hasked, happened⟩
  | others h hjob hactive hstep hstays ih => exact ih.append _

end Attempt

/-! ## The state under a change -/

theorem Orderly.state_eq_of_step (h : Orderly g t) {job : Job} {event : Option (Event σ)}
    {t' : Traffic σ} (hjob : t.jobs who = some job) (hwriting : job.activity.isWriting = true)
    (hstep : Step client g t event t') (hstays : t'.jobs who = some job) :
    t'.cell.state = t.cell.state := by
  cases hstep with
  | arrive errand hidle => rfl
  | @proceed other job' scene order hjob' hscene =>
    have hadvance := advance_of_step hscene
    have hne : other ≠ who := by
      -- Whoever goes on does not stay where he is.
      rintro rfl
      obtain rfl : job = job' := Option.some.inj (hjob.symm.trans hjob')
      have hsame : some { job with activity := scene.activity } = some job :=
        (Function.update_self other _ t.jobs).symm.trans hstays
      have hactivity : scene.activity = job.activity :=
        congrArg Job.activity (Option.some.inj hsame)
      have hactive : ∀ ending, job.activity ≠ .ended ending := by
        intro ending hended
        rw [hended] at hwriting
        cases hwriting
      have hlt := hadvance.stepsLeft_lt hactive
      rw [hactivity] at hlt
      exact Nat.lt_irrefl _ hlt
    obtain ⟨errand, activity⟩ := job'
    cases hadvance with
    | commit => exact absurd (h.eq_of_isHeldBy hjob hwriting (h.held hjob' rfl)) hne
    | install hheld => exact absurd (h.eq_of_isHeldBy hjob hwriting hheld) hne
    | _ => rfl
  | giveUp e hjob' hreload => rfl
  | elapse clock hnow => rfl
  | intervene cloud => rfl

/-! ## Phases of a mutation -/

/-- How a mutation ends: what the account says then, and the state that the mutation leaves. -/
inductive Concluded (g : Group) (m : Mutation) : Account → State → Ending → Prop
  | refused {s : State} {e : GroupError} (hplan : m.plan g s = .error e) :
      Concluded g m ⟨s, [], []⟩ s (.answered (.error e))
  | needless {s : State} (hplan : m.plan g s = .ok none) :
      Concluded g m ⟨s, [], []⟩ s (.answered (.ok .nothing))
  /-- The client broke down on the call. -/
  | broke {s : State} {change : Change} (hplan : m.plan g s = .ok (some change)) :
      Concluded g m ⟨s, [], []⟩ s .broke
  | rejected {s : State} {change : Change} {e : CloudError}
      (hplan : m.plan g s = .ok (some change)) :
      Concluded g m ⟨s, [.change change], [.error e]⟩ s (.answered (.error (.cloud e)))
  | completed {s : State} {change : Change} (hplan : m.plan g s = .ok (some change)) :
      Concluded g m ⟨s, [.change change], [.ok ()]⟩ (change.commit s) (.answered (.ok .nothing))

/-- How far a mutation is, what the account says by then, and what it has to do with the state. -/
inductive Underway (g : Group) (m : Mutation) (s : State) : Account → Activity → Prop
  | started {found : State} : Underway g m s ⟨found, [], []⟩ (.started (.mutate m))
  | queued {found : State} : Underway g m s ⟨found, [], []⟩ (.queued (.mutate m))
  | changing {change : Change} {pending : Pending} (hplan : m.plan g s = .ok (some change)) :
      Underway g m s ⟨s, [.change change], []⟩ (.changing change pending)
  | accepted {change : Change} (hplan : m.plan g s = .ok (some change)) :
      Underway g m s ⟨s, [.change change], [.ok ()]⟩ (.accepted change)
  | ended {account : Account} {ending : Ending} (hconcluded : Concluded g m account s ending) :
      Underway g m s account (.ended ending)

namespace Underway

variable {s : State} {activity : Activity} {lock : Lock} {cloud : σ} {clock : Clock} {order : Nat}
  {scene : Scene σ}

theorem enter (found : State) :
    let before : Scene σ := ⟨.started (.mutate m), ⟨s, lock⟩, cloud⟩
    let after := before.start client g who clock order (.mutate m)
    Underway g m after.cell.state (Account.note client g before after ⟨found, [], []⟩)
      after.activity := by
  dsimp only
  rw [Scene.start]
  cases hfault : m.fault? with
  | some e =>
    have hplan : m.plan g s = .error e := by rw [Mutation.plan, hfault]
    exact .ended (.refused hplan)
  | none => exact .queued

theorem fulfil (found : State) :
    let before : Scene σ := ⟨.queued (.mutate m), ⟨s, lock⟩, cloud⟩
    let after := before.fulfil client g who clock order (.mutate m)
    Underway g m after.cell.state (Account.note client g before after ⟨found, [], []⟩)
      after.activity := by
  dsimp only
  rw [Scene.fulfil]
  cases hplan : m.plan g s with
  | error e => exact .ended (.refused hplan)
  | ok planned =>
    cases planned with
    | none => exact .ended (.needless hplan)
    | some change =>
      dsimp only
      rcases send_cases ⟨.queued (.mutate m), ⟨s, lock⟩, cloud⟩ change.call (.changing change)
        with hbroke | ⟨pending, cloud', hsent, hnext⟩
      · rw [hbroke]
        exact .ended (.broke hplan)
      · rw [hnext]
        exact .changing hplan

theorem finishChange {change : Change} (pending : Pending)
    (hplan : m.plan g s = .ok (some change)) :
    let before : Scene σ := ⟨.changing change pending, ⟨s, lock⟩, cloud⟩
    let after := before.finishChange client g who change pending
    Underway g m after.cell.state
      (Account.note client g before after ⟨s, [.change change], []⟩) after.activity := by
  dsimp only
  rw [Scene.finishChange, Account.note, Activity.verdict?]
  cases houtcome : pending.outcome (change.execute client g cloud) with
  | error e => exact .ended (.rejected hplan)
  | ok cloud' => exact .accepted hplan

theorem step (h : Underway g m s account activity)
    (hstep : Scene.step client g who clock order ⟨activity, ⟨s, lock⟩, cloud⟩ = some scene) :
    Underway g m scene.cell.state
      (account.note client g ⟨activity, ⟨s, lock⟩, cloud⟩ scene) scene.activity := by
  cases h with
  | @started found =>
    rw [← Option.some.inj hstep]
    exact enter found
  | @queued found =>
    obtain ⟨-, hnext⟩ := Option.ite_none_right_eq_some.mp hstep
    rw [← Option.some.inj hnext]
    exact fulfil found
  | @changing change pending hplan =>
    obtain ⟨-, hnext⟩ := Option.ite_none_right_eq_some.mp hstep
    rw [← Option.some.inj hnext]
    exact finishChange pending hplan
  | accepted hplan =>
    rw [← Option.some.inj hstep]
    exact .ended (.completed hplan)
  | ended hconcluded => cases hstep

theorem of_not_isWriting (h : Underway g m s account activity) (s' : State)
    (hidle : activity.isWriting = false) (hactive : ∀ ending, activity ≠ .ended ending) :
    Underway g m s' account activity := by
  cases h with
  | started => exact .started
  | queued => exact .queued
  | changing hplan => cases hidle
  | accepted hplan => cases hidle
  | ended hconcluded => exact absurd rfl (hactive _)

end Underway

namespace Attempt

theorem exists_underway (h : Attempt client g who m start record account t)
    (hstart : Orderly g start) :
    ∃ activity, t.jobs who = some ⟨.mutate m, activity⟩
      ∧ Underway g m t.cell.state account activity := by
  induction h with
  | arrive hidle => exact ⟨_, Function.update_self .., .started⟩
  | @proceed record account t job scene h order hjob hstep ih =>
    obtain ⟨activity, hsame, hunderway⟩ := ih
    obtain rfl : job = ⟨.mutate m, activity⟩ := Option.some.inj (hjob.symm.trans hsame)
    exact ⟨scene.activity, Function.update_self .., hunderway.step hstep⟩
  | @others record account t t' job event h hjob hactive hstep hstays ih =>
    obtain ⟨activity, hsame, hunderway⟩ := ih
    obtain rfl : job = ⟨.mutate m, activity⟩ := Option.some.inj (hjob.symm.trans hsame)
    refine ⟨activity, hstays, ?_⟩
    cases hwriting : activity.isWriting with
    | true => rwa [(h.run.orderly_of hstart).state_eq_of_step hjob hwriting hstep hstays]
    | false => exact hunderway.of_not_isWriting _ hwriting hactive

/-- At any time the account of a mutation is as its phase says. -/
theorem underway (h : Attempt client g who m start record account t) (hstart : Orderly g start)
    {activity : Activity} (hjob : t.jobs who = some ⟨.mutate m, activity⟩) :
    Underway g m t.cell.state account activity := by
  obtain ⟨activity', hsame, hunderway⟩ := h.exists_underway hstart
  obtain rfl : activity = activity' :=
    congrArg Job.activity (Option.some.inj (hjob.symm.trans hsame))
  exact hunderway

theorem concluded {ending : Ending} (h : Attempt client g who m start record account t)
    (hstart : Orderly g start) (hended : t.jobs who = some ⟨.mutate m, .ended ending⟩) :
    Concluded g m account t.cell.state ending := by
  cases h.underway hstart hended with
  | ended hconcluded => exact hconcluded

/-! ## Coming to an end -/

theorem isStranded_eq_false (h : Attempt client g who m start record account t)
    (hanswers : Answers client g) {job : Job} (hjob : t.jobs who = some job) :
    job.activity.isStranded = false := by
  induction h generalizing job with
  | arrive hidle =>
    have hself : (start.put who ⟨.mutate m, .started (.mutate m)⟩).jobs who = some _ :=
      Function.update_self ..
    obtain rfl := Option.some.inj (hself.symm.trans hjob)
    rfl
  | @proceed _ _ t before scene h order hbefore hstep ih =>
    have hself : (t.put who { before with activity := scene.activity }).jobs who = some _ :=
      Function.update_self ..
    obtain rfl := Option.some.inj (hself.symm.trans hjob)
    exact (advance_of_step hstep).isStranded_eq_false hanswers
  | others h hbefore hactive hstep hstays ih =>
    obtain rfl := Option.some.inj (hstays.symm.trans hjob)
    exact ih hbefore

theorem exists_proceed {activity : Activity}
    (h : Attempt client g who m start record account t)
    (hjob : t.jobs who = some ⟨.mutate m, activity⟩)
    (hlock : ∀ wish, activity = .queued wish → t.cell.lock.isHeldBy who = true)
    (hanswered : activity.isStranded = false) (hactive : ∀ ending, activity ≠ .ended ending) :
    ∃ record' account' t' activity', Attempt client g who m start record' account' t'
      ∧ t'.jobs who = some ⟨.mutate m, activity'⟩ ∧ activity'.stepsLeft < activity.stepsLeft := by
  have hgoes : ∃ clock scene, t.clock.now ≤ clock.now
      ∧ Scene.step client g who clock 0 ⟨activity, t.cell, t.cloud⟩ = some scene :=
    exists_step activity t.cell t.cloud hlock hanswered hactive
  obtain ⟨clock, scene, hnow, hstep⟩ := hgoes
  have hwaited := h.others hjob hactive (.elapse clock hnow) hjob
  exact ⟨_, _, _, scene.activity, hwaited.proceed 0 hjob hstep, Function.update_self ..,
    (advance_of_step hstep).stepsLeft_lt hactive⟩

theorem go_on {s s' : Scene σ}
    (h : Attempt client g who m start record account (t.stage who (.mutate m) s))
    (hstep : s.step client g who t.clock 0 = some s') :
    Attempt client g who m start
      ((Job.event? who s.cell.state ⟨.mutate m, s.activity⟩ s'.activity).toList ++ record)
      (account.note client g s s') (t.stage who (.mutate m) s') := by
  have hjob : (t.stage who (.mutate m) s).jobs who = some ⟨.mutate m, s.activity⟩ :=
    Function.update_self ..
  have hnext := h.proceed 0 hjob hstep
  rwa [Traffic.put, Traffic.stage, Traffic.put, Function.update_idem] at hnext

theorem comesToEnd_of_isHeldBy (hstart : Orderly g start) {activity : Activity}
    (h : Attempt client g who m start record account t)
    (hjob : t.jobs who = some ⟨.mutate m, activity⟩)
    (hlock : ∀ wish, activity = .queued wish → t.cell.lock.isHeldBy who = true)
    (hsteps : activity.stepsLeft ≤ 3) : ComesToEnd client g who m start := by
  induction hn : activity.stepsLeft using Nat.strong_induction_on
    generalizing record account t activity with
  | _ n ih =>
    by_cases hended : ∃ ending, activity = .ended ending
    · exact ⟨record, account, t, activity, h, hjob, .inl hended⟩
    cases hanswered : activity.isStranded with
    | true =>
      have hnever : ¬ Answers client g := fun hanswers ↦
        Bool.false_ne_true ((h.isStranded_eq_false hanswers hjob).symm.trans hanswered)
      exact ⟨record, account, t, activity, h, hjob, .inr ⟨hanswered, hnever⟩⟩
    | false =>
      obtain ⟨record', account', t', activity', hnext, hjob', hlt⟩ :=
        h.exists_proceed hjob hlock hanswered (not_exists.mp hended)
      refine ih _ (hn ▸ hlt) hnext hjob' ?_ (by omega) rfl
      -- He asked for the lock before, and does not ask again.
      rintro wish rfl
      cases hnext.underway hstart hjob' with
      | queued =>
        have hqueued : (Activity.queued (.mutate m)).stepsLeft = 3 := rfl
        omega

/-- A mutation that finds the lock free comes to an end, whatever is asked and whatever the cloud
answers. -/
theorem comesToEnd (client : Client σ) (m : Mutation) (hstart : Orderly g start)
    (hidle : start.IsIdle who) (hfree : start.cell.lock = .free) :
    ComesToEnd client g who m start := by
  have harrived : Attempt client g who m start [] _
      (start.stage who (.mutate m) ⟨.started (.mutate m), start.cell, start.cloud⟩) :=
    .arrive hidle
  have hcell : start.cell = ⟨start.cell.state, .free⟩ := by rw [← hfree]
  cases hfault : m.fault? with
  | some e =>
    have hrefused : Scene.step client g who start.clock 0
        ⟨.started (.mutate m), start.cell, start.cloud⟩
        = some ⟨.refuse e, start.cell, start.cloud⟩ := by
      simp [Scene.step, Scene.start, hfault]
    exact ⟨_, _, _, _, harrived.go_on hrefused, Function.update_self .., .inl ⟨_, rfl⟩⟩
  | none =>
    rw [hcell] at harrived
    have hqueued := harrived.go_on (step_started_of_free hfault)
    exact comesToEnd_of_isHeldBy hstart hqueued (Function.update_self ..)
      (fun _ _ ↦ Lock.isHeldBy_heldBy who .exclusive) (Nat.le_refl 3)

theorem alone {change : Change} {cloud' cloud'' : σ} (hidle : start.IsIdle who)
    (hfree : start.cell.lock = .free) (hfault : m.fault? = none)
    (hplan : m.plan g start.cell.state = .ok (some change))
    (hsent : TakesAtOnce client g change.call start.cloud cloud')
    (hexecute : change.execute client g cloud' = .ok cloud'') :
    Attempt client g who m start [.completed who m change, .accepted who change]
      ⟨start.cell.state, [.change change], [.ok ()]⟩
      (start.stage who (.mutate m)
        ⟨.answer (.ok .nothing), ⟨change.commit start.cell.state, .free⟩, cloud''⟩) := by
  obtain ⟨⟨state, lock⟩, cloud, clock, jobs⟩ := start
  obtain rfl : lock = .free := hfree
  let start : Traffic σ := ⟨⟨state, .free⟩, cloud, clock, jobs⟩
  let cell : Cell := ⟨state, .heldBy who .exclusive⟩
  have harrived : Attempt client g who m start [] _
      (start.stage who (.mutate m) ⟨.started (.mutate m), ⟨state, .free⟩, cloud⟩) :=
    .arrive hidle
  have hqueued := harrived.go_on (step_started_of_free hfault)
  have hcalled := hqueued.go_on (step_queued_of_takesAtOnce hplan hsent)
  have hanswer : Account.note client g ⟨.changing change ⟨.nothing, none⟩, cell, cloud'⟩
      ⟨.accepted change, cell, cloud''⟩ ⟨state, [.change change], []⟩
      = ⟨state, [.change change], [.ok ()]⟩ := by
    rw [Account.note, Activity.verdict?, hexecute]
    rfl
  have haccepted : Attempt client g who m start [.accepted who change] _
      (start.stage who (.mutate m) ⟨.accepted change, cell, cloud''⟩) :=
    hanswer ▸ hcalled.go_on (step_changing_of_execute cell hexecute)
  exact haccepted.go_on step_accepted_of_heldBy

theorem alone_needless (hidle : start.IsIdle who) (hfree : start.cell.lock = .free)
    (hfault : m.fault? = none) (hplan : m.plan g start.cell.state = .ok none) :
    Attempt client g who m start [] ⟨start.cell.state, [], []⟩
      (start.stage who (.mutate m)
        ⟨.answer (.ok .nothing), ⟨start.cell.state, .free⟩, start.cloud⟩) := by
  obtain ⟨⟨state, lock⟩, cloud, clock, jobs⟩ := start
  obtain rfl : lock = .free := hfree
  let start : Traffic σ := ⟨⟨state, .free⟩, cloud, clock, jobs⟩
  have harrived : Attempt client g who m start [] _
      (start.stage who (.mutate m) ⟨.started (.mutate m), ⟨state, .free⟩, cloud⟩) :=
    .arrive hidle
  exact (harrived.go_on (step_started_of_free hfault)).go_on (step_queued_of_needless hplan)

end Attempt

end NodeGroups.Group
