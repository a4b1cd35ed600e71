import NodeGroups.Proofs.Routing

/-!
# What a search finds at once

The request for the group of a node asks the group that the node's ID names for the node, before it
does anything else. If the answer is that the group has it, the request is over, and the cloud was
not turned to; otherwise it never ends with that group unless the cloud was. This does not depend on
anybody else, for it is a matter of one moment: the one at which the group was found to have the
node or not. An account is kept of the request, of what it found then and of whether it turned to
the cloud, and whatever others do meanwhile, the account tells how the request has ended.

A search that nobody else gets in the way of is the subject of `World.node_routing`. There the state
of the group is followed beyond that moment, and the calls are counted.
-/

namespace NodeGroups.Group

/-! ## Answers -/

/-- The answer to a question, at once or from the state. -/
def Query.reply (g : Group) (s : State) (q : Query) : Except GroupError Finding :=
  (q.answerAtOnce? g).getD (q.answer g s)

theorem Query.reply_of_none {g : Group} {q : Query} (hask : q.answerAtOnce? g = none) (s : State) :
    q.reply g s = q.answer g s := by
  rw [reply, hask, Option.getD_none]

variable {g : Group} {node : Node} {id : ProviderId}

theorem reply_belongs (hparse : ProviderId.parse? node.providerId = some id) (s : State) :
    (Query.belongs node).reply g s = if id.IsIn g.resourceGroup g.name
      then (s.requireView g).map fun v ↦ .flag (g.instanceOf? v.cache node).isSome
      else .ok (.flag false) := by
  rw [Query.reply, Query.answerAtOnce?, ProviderId.parse_eq_ok_iff_parse?.mpr hparse]
  dsimp only
  split
  · rw [Option.getD_none, Query.answer]
  · rw [Option.getD_some]

theorem reply_belongs_eq_true_iff (hparse : ProviderId.parse? node.providerId = some id)
    (s : State) : (Query.belongs node).reply g s = .ok (.flag true)
      ↔ id.IsIn g.resourceGroup g.name ∧ (s.record? id).isSome = true := by
  rw [reply_belongs hparse]
  by_cases hin : id.IsIn g.resourceGroup g.name
  · rw [if_pos hin, and_iff_right hin, State.requireView, State.record?]
    cases s.view with
    | none => simp [Except.map]
    | some v => simp [Except.map, instanceOf?, hparse, Cache.find?, hin]
  · simp [hin]

end NodeGroups.Group

namespace NodeGroups.Simulation

open World

variable {σ : Type} {client : Client σ} {who : Nat} {node : Node}

/-! ## Accounts -/

/-- Whether a task waits for a call to the cloud, or the client broke down on one. -/
def Stage.isCalling : Stage σ → Bool
  | .visiting _ (.ended .broke) _ _ => true
  | stage => stage.call?.isSome

/-- What is known of a request for the group of a node. -/
structure Inquiry where
  /-- The registry when the request was given it. -/
  registry : Registry
  /-- The state of the group that the ID names, when that was asked for the node. -/
  found : Option Group.State
  /-- Whether the cloud was turned to. -/
  called : Bool

/-- The account after a step, by what the task waited for before it and after it. -/
def Inquiry.note (w : World σ) (before after : Stage σ) (i : Inquiry) : Inquiry where
  registry :=
    match before with
    | .entering _ => w.registry
    | _ => i.registry
  found :=
    match before with
    | .visiting h (.queued _) _ (.route _ .member) => w.cells[h.place]?.map Group.Cell.state
    | _ => i.found
  called := i.called || after.isCalling

/-- A task makes the request for the group of a node and goes on with it. Meanwhile others do what
they may, and leave it where it waits. -/
inductive Inquires (client : Client σ) (who : Nat) (node : Node) (may : World σ → World σ → Prop)
    (start : World σ) : Inquiry → World σ → Prop
  | refl (habout : IsAbout who (.route node) start) :
      Inquires client who node may start ⟨start.registry, none, false⟩ start
  | step {i : Inquiry} {w w' : World σ} {stage stage' : Stage σ}
      (h : Inquires client who node may start i w) (hstep : w.step client who = some w')
      (hstage : w.stage? who = some stage) (hstage' : w'.stage? who = some stage') :
      Inquires client who node may start (i.note w stage stage') w'
  | others {i : Inquiry} {w w' : World σ} (h : Inquires client who node may start i w)
      (hmay : may w w') (hstays : w'.stage? who = w.stage? who) :
      Inquires client who node may start i w'

namespace Inquiry

/-- How a request for the group of a node ends, by its account. -/
inductive Ends (node : Node) (i : Inquiry) : Result → Prop
  | malformed (hparse : ProviderId.parse? node.providerId = none) :
      Ends node i (.error (.group (.malformedId node.providerId)))
  | unnamed {id : ProviderId} (hparse : ProviderId.parse? node.providerId = some id)
      (hnamed : i.registry.named? id = none) : Ends node i (.ok (.maybeName none))
  /-- The group had the node when it was asked first. -/
  | known {id : ProviderId} {h : Handle} {s : Group.State}
      (hparse : ProviderId.parse? node.providerId = some id)
      (hnamed : i.registry.named? id = some h) (hfound : i.found = some s)
      (hrecord : (s.record? id).isSome = true) (hcalled : i.called = false) :
      Ends node i (.ok (.maybeName (some h.group.name)))
  /-- The group did not have the node then. If it is the answer all the same, there was a call. -/
  | missing {id : ProviderId} {h : Handle} {s : Group.State} {result : Result}
      (hparse : ProviderId.parse? node.providerId = some id)
      (hnamed : i.registry.named? id = some h) (hfound : i.found = some s)
      (hrecord : (s.record? id).isSome = false)
      (hlate : ∀ name, result = .ok (.maybeName (some name)) →
        name = h.group.name ∧ i.called = true) : Ends node i result

/-- How far a request for the group of a node is, and what is known of it by then. -/
inductive Phase (node : Node) (i : Inquiry) : Stage σ → Prop
  | launching (hcalled : i.called = false) : Phase node i (.launching none (.route node))
  | pausing {timer : Timer} (hcalled : i.called = false) :
      Phase node i (.pausing timer (.route node))
  | entering {id : ProviderId} (hcalled : i.called = false)
      (hparse : ProviderId.parse? node.providerId = some id) :
      Phase node i (.entering (.route node id))
  /-- The group is asked for the node. -/
  | member {id : ProviderId} {h : Handle} {a : Group.Activity} (hcalled : i.called = false)
      (hparse : ProviderId.parse? node.providerId = some id)
      (hnamed : i.registry.named? id = some h)
      (hquestion : a = .started (.query (.belongs node)) ∨ a = .queued (.query (.belongs node))
        ∨ ∃ s, i.found = some s ∧ a = .answer ((Group.Query.belongs node).answer h.group s)) :
      Phase node i (.visiting h a none (.route node .member))
  /-- The group did not have it. Until there is a call, the request is not beyond the beginning of
  the reload. -/
  | missing {id : ProviderId} {h : Handle} {s : Group.State} {a : Group.Activity}
      {d : Option Deadline} {routing : Routing}
      (hparse : ProviderId.parse? node.providerId = some id)
      (hnamed : i.registry.named? id = some h) (hfound : i.found = some s)
      (hrecord : (s.record? id).isSome = false) (hrouting : routing ≠ .member)
      (hearly : i.called = false → routing = .age ∨ routing = .reload ∧ a = .started .reload) :
      Phase node i (.visiting h a d (.route node routing))
  | finished {result : Result} {moment : Nat} (hends : i.Ends node result) :
      Phase node i (.finished result moment)

variable {i : Inquiry} {w w' next : World σ} {stage : Stage σ} {id : ProviderId} {h : Handle}
  {s : Group.State} {a : Group.Activity} {d : Option Deadline} {routing : Routing}

/-! ## How a request has ended -/

/-- The group that is named has been found in some state. A request ends with it and without a call
if and only if the group had the node then. -/
theorem Ends.at_once_iff {result : Result} (hends : i.Ends node result)
    (hparse : ProviderId.parse? node.providerId = some id)
    (hnamed : i.registry.named? id = some h) : ∃ s, i.found = some s
      ∧ (result = .ok (.maybeName (some h.group.name)) ∧ i.called = false
        ↔ (s.record? id).isSome = true) := by
  cases hends with
  | malformed hparse' => cases hparse.symm.trans hparse'
  | unnamed hparse' hnamed' =>
    obtain rfl := Option.some.inj (hparse.symm.trans hparse')
    cases hnamed.symm.trans hnamed'
  | known hparse' hnamed' hfound hrecord hcalled =>
    obtain rfl := Option.some.inj (hparse.symm.trans hparse')
    obtain rfl := Option.some.inj (hnamed.symm.trans hnamed')
    exact ⟨_, hfound, iff_of_true ⟨rfl, hcalled⟩ hrecord⟩
  | missing hparse' hnamed' hfound hrecord hlate =>
    obtain rfl := Option.some.inj (hparse.symm.trans hparse')
    refine ⟨_, hfound, iff_of_false ?_ (Bool.eq_false_iff.mp hrecord)⟩
    rintro ⟨hresult, hcalled⟩
    rw [(hlate _ hresult).2] at hcalled
    cases hcalled

theorem Ends.named?_of_name {result : Result} (hends : i.Ends node result)
    (hparse : ProviderId.parse? node.providerId = some id) (hh : h ∈ i.registry.handles)
    (hresult : result = .ok (.maybeName (some h.group.name))) : i.registry.named? id = some h := by
  have hsame : ∀ {named : Handle}, i.registry.named? id = some named →
      h.group.name = named.group.name → i.registry.named? id = some h := by
    intro named hnamed hname
    have hmem := (Registry.isIn_of_named? hnamed).1
    rwa [Registry.eq_of_sameName hh hmem (hname ▸ .refl _)]
  cases hends with
  | malformed hparse' => cases hresult
  | unnamed hparse' hnamed' => cases hresult
  | known hparse' hnamed' hfound' hrecord hcalled =>
    obtain rfl := Option.some.inj (hparse.symm.trans hparse')
    have hname := Option.some.inj (Reply.maybeName.inj (Except.ok.inj hresult))
    exact hsame hnamed' hname.symm
  | missing hparse' hnamed' hfound' hrecord hlate =>
    obtain rfl := Option.some.inj (hparse.symm.trans hparse')
    exact hsame hnamed' (hlate _ hresult).1

/-! ## Steps -/

/-- Between its first question and its end a request learns nothing but whether there was a call. -/
theorem note_of_ne_member (hrouting : routing ≠ .member) (after : Stage σ) :
    i.note w (.visiting h a d (.route node routing)) after
      = { i with called := i.called || after.isCalling } := by
  cases routing with
  | member => exact absurd rfl hrouting
  | _ => cases a <;> rfl

theorem exists_phase_routeOn (ending : Group.Ending)
    (hparse : ProviderId.parse? node.providerId = some id)
    (hnamed : i.registry.named? id = some h) (hfound : i.found = some s)
    (hrecord : (s.record? id).isSome = false) (hrouting : routing ≠ .member)
    (hearly : i.called = false → routing = .age) (hstage : w.stage? who = some stage) :
    ∃ stage', (w.routeOn who h node routing ending).stage? who = some stage'
      ∧ stage'.isCalling = false ∧ i.Phase node stage' := by
  have hreload : i.called = false → Routing.reload = .age
      ∨ Routing.reload = .reload ∧ Group.Activity.started .reload = .started .reload :=
    fun _ ↦ .inr ⟨rfl, rfl⟩
  have hcalled (hne : routing ≠ .age) : i.called = true :=
    Bool.eq_true_of_not_eq_false fun hcalled ↦ hne (hearly hcalled)
  cases routing with
  | member => exact absurd rfl hrouting
  | age =>
    simp only [routeOn]
    split
    · split
      · exact ⟨_, stage?_finish_self hstage _, rfl,
          .finished (.missing hparse hnamed hfound hrecord fun _ hname ↦ by cases hname)⟩
      · exact ⟨_, stage?_setStage_self hstage _, rfl,
          .missing hparse hnamed hfound hrecord (by simp) hreload⟩
    · exact ⟨_, stage?_setStage_self hstage _, rfl,
        .missing hparse hnamed hfound hrecord (by simp) hreload⟩
  | reload =>
    refine ⟨_, stage?_setStage_self hstage _, rfl,
      .missing hparse hnamed hfound hrecord (by simp) fun hearly' ↦ ?_⟩
    rw [hcalled (by simp)] at hearly'
    cases hearly'
  | memberAgain =>
    simp only [routeOn]
    split
    · exact ⟨_, stage?_finish_self hstage _, rfl,
        .finished (.missing hparse hnamed hfound hrecord fun _ hname ↦ by cases hname)⟩
    · next found hfound' =>
      refine ⟨_, stage?_finish_self hstage _, rfl, .finished
        (.missing hparse hnamed hfound hrecord fun name hname ↦ ⟨?_, hcalled (by simp)⟩)⟩
      cases found with
      | false => cases hname
      | true => exact (Option.some.inj (Reply.maybeName.inj (Except.ok.inj hname))).symm

theorem Phase.step_member (hcalled : i.called = false)
    (hparse : ProviderId.parse? node.providerId = some id) (hnamed : i.registry.named? id = some h)
    (hquestion : a = .started (.query (.belongs node)) ∨ a = .queued (.query (.belongs node))
      ∨ ∃ s, i.found = some s ∧ a = .answer ((Group.Query.belongs node).answer h.group s))
    (hstage : w.stage? who = some (.visiting h a none (.route node .member)))
    (hnext : w.stepActivity client who h a none (.route node .member) = some next) :
    ∃ stage', next.stage? who = some stage'
      ∧ (i.note w (.visiting h a none (.route node .member)) stage').Phase node stage' := by
  have hin := (Registry.isIn_of_named? hnamed).2
  have hnone : (i.called || false) = false := by rw [hcalled, Bool.or_false]
  rcases hquestion with rfl | rfl | ⟨s, hfound, rfl⟩
  · obtain ⟨cell, -, ⟨scene, hscene, rfl⟩ | ⟨_, ⟨⟩, -⟩⟩ := stepActivity_cases hnext (by simp)
    obtain rfl := Option.some.inj hscene
    have hstage' := stage?_carryOn_self hstage h
      (Group.Scene.start client h.group who w.clock w.steps
        ⟨.started (.query (.belongs node)), cell, w.cloud⟩ (.query (.belongs node)))
      none (.route node .member)
    rw [Group.Scene.start, Group.answerAtOnce?_belongs hparse hin] at hstage' ⊢
    exact ⟨_, hstage', .member hnone hparse hnamed (.inr (.inl rfl))⟩
  · obtain ⟨cell, hcell, ⟨scene, hscene, rfl⟩ | ⟨_, ⟨⟩, -⟩⟩ := stepActivity_cases hnext (by simp)
    obtain ⟨-, hfulfil⟩ := Option.ite_none_right_eq_some.mp hscene
    obtain rfl := Option.some.inj hfulfil
    refine ⟨_, stage?_carryOn_self hstage h _ none _,
      .member hnone hparse hnamed (.inr (.inr ⟨cell.state, ?_, rfl⟩))⟩
    exact congrArg (Option.map Group.Cell.state) hcell
  · obtain rfl := Option.some.inj hnext
    have hmember := Group.isMember_belongs hparse hin s
    simp only [proceed, routeOn, hmember]
    cases hrecord : (s.record? id).isSome with
    | true =>
      exact ⟨_, stage?_finish_self hstage _,
        .finished (.known hparse hnamed hfound hrecord hnone)⟩
    | false =>
      exact ⟨_, stage?_setStage_self hstage _,
        .missing hparse hnamed hfound hrecord (by simp) fun _ ↦ .inl rfl⟩

theorem Phase.step_missing (hparse : ProviderId.parse? node.providerId = some id)
    (hnamed : i.registry.named? id = some h) (hfound : i.found = some s)
    (hrecord : (s.record? id).isSome = false) (hrouting : routing ≠ .member)
    (hearly : i.called = false → routing = .age ∨ routing = .reload ∧ a = .started .reload)
    (hstage : w.stage? who = some (.visiting h a d (.route node routing)))
    (hnext : w.stepActivity client who h a d (.route node routing) = some next) :
    ∃ stage', next.stage? who = some stage'
      ∧ (i.note w (.visiting h a d (.route node routing)) stage').Phase node stage' := by
  -- The account stays the same unless there is a call.
  have hgoes : ∀ {w₁ : World σ} {ending : Group.Ending}, a ≠ .started .reload →
      w₁.stage? who = w.stage? who → ∃ stage',
        (w₁.routeOn who h node routing ending).stage? who = some stage'
        ∧ (i.note w (.visiting h a d (.route node routing)) stage').Phase node stage' := by
    intro w₁ ending hne hsame
    obtain ⟨stage', hstage', hidle, hphase⟩ := exists_phase_routeOn ending hparse hnamed hfound
      hrecord hrouting (fun hcalled ↦ (hearly hcalled).resolve_right fun h ↦ hne h.2)
      (hsame.trans hstage)
    refine ⟨stage', hstage', ?_⟩
    rwa [note_of_ne_member hrouting, hidle, Bool.or_false]
  by_cases hended : ∃ ending, a = .ended ending
  · obtain ⟨ending, rfl⟩ := hended
    obtain rfl := Option.some.inj hnext
    exact hgoes (by simp) rfl
  obtain ⟨cell, hcell, ⟨scene, hscene, rfl⟩ | ⟨d, rfl, hwaits, hexpire⟩⟩ :=
    stepActivity_cases hnext fun ending heq ↦ hended ⟨ending, heq⟩
  · refine ⟨_, stage?_carryOn_self hstage h scene d _, ?_⟩
    rw [note_of_ne_member hrouting]
    refine .missing hparse hnamed hfound hrecord hrouting fun hcalled ↦ ?_
    obtain ⟨hbefore, hidle⟩ := Bool.or_eq_false_iff.mp hcalled
    rcases hearly hbefore with hage | ⟨-, rfl⟩
    · exact .inl hage
    · -- Whoever begins a reload turns to the cloud.
      obtain rfl := Option.some.inj hscene
      rw [Group.Scene.start] at hidle
      rcases Group.send_cases ⟨.started .reload, cell, w.cloud⟩ .describe _
        with hbroke | ⟨pending, cloud, -, hsend⟩
      · rw [hbroke] at hidle
        cases hidle
      · rw [hsend] at hidle
        cases hidle
  · rcases expire_cases hcell hexpire with ⟨-, rfl⟩ | ⟨timer, -, -, rfl⟩
    · refine ⟨_, stage?_setStage_self hstage _, ?_⟩
      rw [note_of_ne_member hrouting]
      exact .missing hparse hnamed hfound hrecord hrouting fun hcalled ↦
        hearly (Bool.or_eq_false_iff.mp hcalled).1
    · refine hgoes ?_ rfl
      rintro rfl
      cases hwaits

theorem Phase.step_about (habout : IsAbout who (.route node) w) (hcalled : i.called = false)
    (hstep : w.step client who = some w') :
    ∃ stage', w'.stage? who = some stage'
      ∧ ({ i with called := i.called || stage'.isCalling } : Inquiry).Phase node stage' := by
  obtain ⟨-, hstage'⟩ := step_of_route habout hstep
  refine ⟨_, hstage', ?_⟩
  rw [hcalled]
  cases hparse : ProviderId.parse? node.providerId with
  | none => exact .finished (.malformed hparse)
  | some id => exact .entering rfl hparse

/-- With every step of its task the account of a request stays true. -/
theorem Phase.step (hphase : i.Phase node stage) (hstage : w.stage? who = some stage)
    (hstep : w.step client who = some w') :
    ∃ stage', w'.stage? who = some stage' ∧ (i.note w stage stage').Phase node stage' := by
  obtain ⟨stage₁, next, hstage₁, hnext, hcount⟩ := step_cases hstep
  obtain rfl := Option.some.inj (hstage.symm.trans hstage₁)
  have hsame : w'.stage? who = next.stage? who := by rw [hcount]; rfl
  cases hphase with
  | launching hcalled => exact Phase.step_about (.inl hstage) hcalled hstep
  | pausing hcalled => exact Phase.step_about (.inr ⟨_, hstage⟩) hcalled hstep
  | @entering id hcalled hparse =>
    obtain ⟨-, hfulfil⟩ := Option.ite_none_right_eq_some.mp hnext
    obtain rfl := Option.some.inj hfulfil
    rw [hsame, fulfil]
    split
    · next h hnamed =>
      refine ⟨_, stage?_setStage_self hstage _, .member ?_ hparse hnamed (.inl rfl)⟩
      exact (Bool.or_false _).trans hcalled
    · next hnamed =>
      exact ⟨_, stage?_finish_self hstage _, .finished (.unnamed hparse hnamed)⟩
  | member hcalled hparse hnamed hquestion =>
    rw [hsame]
    exact Phase.step_member hcalled hparse hnamed hquestion hstage hnext
  | missing hparse hnamed hfound hrecord hrouting hearly =>
    rw [hsame]
    exact Phase.step_missing hparse hnamed hfound hrecord hrouting hearly hstage hnext
  | finished hends => cases hnext

end Inquiry

namespace Inquires

variable {may : World σ → World σ → Prop} {start w : World σ} {i : Inquiry}

theorem exists_phase (h : Inquires client who node may start i w) :
    ∃ stage, w.stage? who = some stage ∧ i.Phase node stage := by
  induction h with
  | refl habout =>
    rcases habout with hlaunching | ⟨timer, hpausing⟩
    · exact ⟨_, hlaunching, .launching rfl⟩
    · exact ⟨_, hpausing, .pausing rfl⟩
  | step h hstep hstage hstage' ih =>
    obtain ⟨stage, hstage₁, hphase⟩ := ih
    obtain rfl := Option.some.inj (hstage.symm.trans hstage₁)
    obtain ⟨stage', hstage₂, hphase'⟩ := hphase.step hstage hstep
    obtain rfl := Option.some.inj (hstage'.symm.trans hstage₂)
    exact ⟨_, hstage', hphase'⟩
  | others h hmay hstays ih =>
    obtain ⟨stage, hstage, hphase⟩ := ih
    exact ⟨stage, hstays.trans hstage, hphase⟩

theorem ends (h : Inquires client who node may start i w) {result : Result} {moment : Nat}
    (hstage : w.stage? who = some (.finished result moment)) : i.Ends node result := by
  obtain ⟨stage, hstage', hphase⟩ := h.exists_phase
  obtain rfl := Option.some.inj (hstage.symm.trans hstage')
  cases hphase with
  | finished hends => exact hends

/-! ## Coming to an end -/

theorem go_on (h : Inquires client who node may start i w) {stage stage' : Stage σ}
    {next : World σ} (hstage : w.stage? who = some stage)
    (hnext : w.stepTask client who stage = some next) (hdeferred : w.deferred = [])
    (hstage' : next.stage? who = some stage') :
    ∃ steps, Inquires client who node may start (i.note w stage stage') { next with steps } := by
  obtain ⟨w', hstep⟩ := World.exists_step hstage hnext hdeferred
  obtain ⟨stage₁, next₁, hstage₁, hnext₁, rfl⟩ := step_cases hstep
  obtain rfl := Option.some.inj (hstage.symm.trans hstage₁)
  obtain rfl := Option.some.inj (hnext.symm.trans hnext₁)
  exact ⟨_, h.step hstep hstage hstage'⟩

theorem exists_member (client : Client σ) (may : World σ → World σ → Prop) {id : ProviderId}
    {handle : Handle} (hparse : ProviderId.parse? node.providerId = some id)
    (hnamed : start.registry.named? id = some handle)
    (hstage : start.stage? who = some (.launching none (.route node)))
    (hgate : start.gate = .free) (hdeferred : start.deferred = []) :
    ∃ w, Inquires client who node may start ⟨start.registry, none, false⟩ w
      ∧ w.stage? who = some (.visiting handle (.started (.query (.belongs node))) none
        (.route node .member))
      ∧ w.cells = start.cells ∧ w.clock = start.clock ∧ w.deferred = [] := by
  have h₀ : Inquires client who node may start ⟨start.registry, none, false⟩ start :=
    .refl (.inl hstage)
  have hbegin : start.stepTask client who (.launching none (.route node))
      = some (start.enter who (.route node id)) := by
    rw [stepTask, begin, ProviderId.parse_eq_ok_iff_parse?.mpr hparse]
  have hentering := stage?_enter_self hstage (.route node id)
  obtain ⟨steps, h₁⟩ := h₀.go_on hstage hbegin hdeferred hentering
  let w₁ : World σ := { start.enter who (.route node id) with steps }
  have hheld : w₁.gate.isHeldBy who = true := by
    change (start.gate.request who .shared).isHeldBy who = true
    rw [hgate]
    exact Lock.isHeldBy_heldBy who .shared
  have hfulfil : w₁.stepTask client who (.entering (.route node id))
      = some ((w₁.leaveGate who).setStage who (.visiting handle (.started (.query (.belongs node)))
        none (.route node .member))) := by
    have hnamed₁ : w₁.registry.named? id = some handle := hnamed
    rw [stepTask, if_pos hheld, fulfil, hnamed₁]
  have hentering₁ : (w₁.leaveGate who).stage? who = some (.entering (.route node id)) := hentering
  obtain ⟨steps', h₂⟩ :=
    Inquires.go_on (w := w₁) h₁ hentering hfulfil hdeferred (stage?_setStage_self hentering₁ _)
  exact ⟨_, h₂, stage?_setStage_self hentering₁ _, rfl, rfl, hdeferred⟩

theorem go_on_visiting (h : Inquires client who node may start i w) {handle : Handle}
    {a : Group.Activity} {cell : Group.Cell} {scene : Group.Scene σ} {next : Next}
    (hstage : w.stage? who = some (.visiting handle a none next))
    (hcell : w.cells[handle.place]? = some cell)
    (hscene : Group.Scene.step client handle.group who w.clock w.steps ⟨a, cell, w.cloud⟩
      = some scene) (hdeferred : w.deferred = []) :
    ∃ w', Inquires client who node may start
        (i.note w (.visiting handle a none next) (.visiting handle scene.activity none next)) w'
      ∧ w'.stage? who = some (.visiting handle scene.activity none next)
      ∧ w'.cells[handle.place]? = some scene.cell ∧ w'.clock = w.clock ∧ w'.deferred = [] := by
  have hactive : ∀ ending, a ≠ .ended ending := by
    rintro ending rfl
    cases hscene
  have hnext : w.stepTask client who (.visiting handle a none next)
      = some (w.carryOn who handle scene none next) := by
    rw [stepTask, stepActivity_eq hactive, hcell, Option.bind_some, hscene]
  have hstage' := stage?_carryOn_self hstage handle scene none next
  obtain ⟨steps, hgone⟩ := h.go_on hstage hnext hdeferred hstage'
  exact ⟨_, hgone, hstage', getElem?_setCell hcell scene.cell, rfl, hdeferred⟩

theorem exists_answered {handle : Handle} {s : Group.State}
    (h : Inquires client who node may start ⟨start.registry, none, false⟩ w)
    (hask : (Group.Query.belongs node).answerAtOnce? handle.group = none)
    (hstage : w.stage? who = some (.visiting handle (.started (.query (.belongs node))) none
      (.route node .member)))
    (hcell : w.cells[handle.place]? = some ⟨s, .free⟩) (hdeferred : w.deferred = []) :
    ∃ w', Inquires client who node may start ⟨start.registry, some s, false⟩ w'
      ∧ w'.stage? who = some (.visiting handle
        (.answer ((Group.Query.belongs node).answer handle.group s)) none (.route node .member))
      ∧ w'.clock = w.clock ∧ w'.deferred = [] := by
  obtain ⟨w₁, h₁, hstage₁, hcell₁, hclock₁, hdeferred₁⟩ :=
    h.go_on_visiting hstage hcell (Group.Asks.step_started hask) hdeferred
  obtain ⟨w₂, h₂, hstage₂, -, hclock₂, hdeferred₂⟩ :=
    h₁.go_on_visiting hstage₁ hcell₁ Group.Asks.step_queued hdeferred₁
  have hfound : w₁.cells[handle.place]?.map Group.Cell.state = some s := by
    rw [hcell₁]
    rfl
  exact ⟨w₂, hfound ▸ h₂, hstage₂, hclock₂.trans hclock₁, hdeferred₂⟩

/-- A request is answered without a call if the group has the node, and nobody is in the way. -/
theorem exists_known (client : Client σ) (may : World σ → World σ → Prop) {id : ProviderId}
    {handle : Handle} {s : Group.State} (hparse : ProviderId.parse? node.providerId = some id)
    (hhandle : handle ∈ start.registry.handles)
    (hin : id.IsIn handle.group.resourceGroup handle.group.name)
    (hrecord : (s.record? id).isSome = true)
    (hstage : start.stage? who = some (.launching none (.route node)))
    (hgate : start.gate = .free) (hcell : start.cells[handle.place]? = some ⟨s, .free⟩)
    (hdeferred : start.deferred = []) :
    ∃ w, Inquires client who node may start ⟨start.registry, some s, false⟩ w
      ∧ w.stage? who
        = some (.finished (.ok (.maybeName (some handle.group.name))) start.clock.now) := by
  obtain ⟨w₁, h₁, hstage₁, hcells, hclock₁, hdeferred₁⟩ := exists_member client may hparse
    (Registry.named?_eq_some_iff.mpr ⟨hhandle, hin⟩) hstage hgate hdeferred
  obtain ⟨w₂, h₂, hstage₂, hclock₂, hdeferred₂⟩ := h₁.exists_answered
    (Group.answerAtOnce?_belongs hparse hin) hstage₁ (hcells ▸ hcell) hdeferred₁
  have htold : w₂.stepTask client who (.visiting handle
      (.answer ((Group.Query.belongs node).answer handle.group s)) none (.route node .member))
      = some (w₂.finish who (.ok (.maybeName (some handle.group.name)))) := by
    have hmember := Group.isMember_belongs hparse hin s
    rw [hrecord] at hmember
    refine congrArg some ?_
    simp only [proceed, routeOn, hmember, if_true]
  have hfinished := stage?_finish_self hstage₂ (.ok (.maybeName (some handle.group.name)))
  obtain ⟨steps, h₃⟩ := h₂.go_on hstage₂ htold hdeferred₂ hfinished
  exact ⟨_, h₃, hclock₁ ▸ hclock₂ ▸ hfinished⟩

end Inquires

end NodeGroups.Simulation
