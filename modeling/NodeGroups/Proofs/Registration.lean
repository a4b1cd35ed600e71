import NodeGroups.Proofs.Compact
import NodeGroups.Proofs.Routing

/-!
# Registering a group

A request to register a group looks at the registry once, in the step in which it has its lock to
itself. The group is added then or refused for the sake of its name, and the request is over with
that step. The steps before do not touch the registry, and if the group could not be set up there is
only one step.

A request is followed from its beginning to its end, with the worlds before and after each of its
steps. What others do in between is left open, so the registry that the request finds is any that
they may have left.
-/

namespace NodeGroups

/-! ## What comes of a registry -/

/-- A group is given to a registry. It is refused if there is one of its name, in whatever case of
letters, and comes after the others if there is not. -/
inductive Registry.Registers (r : Registry) (g : Group) : Bool → Registry → Prop
  | known {other : Handle} (hmem : other ∈ r.handles)
      (hsame : Text.SameName other.group.name g.name) : Registers r g false r
  | new {h : Handle} {r' : Registry} (hgroup : h.group = g)
      (hnew : ∀ other ∈ r.handles, ¬ Text.SameName other.group.name g.name)
      (hhandles : r'.handles = r.handles ++ [h])
      (htimes : r'.lastPass = r.lastPass ∧ r'.minInterval = r.minInterval
        ∧ r'.groupTimeout = r.groupTimeout) : Registers r g true r'

theorem Registry.Registers.flag_eq {r r' : Registry} {g : Group} {flag : Bool}
    (h : r.Registers g flag r') :
    flag = decide (∀ other ∈ r.handles, ¬ Text.SameName other.group.name g.name) := by
  cases h with
  | known hmem hsame => exact (decide_eq_false fun hnew ↦ hnew _ hmem hsame).symm
  | new hgroup hnew => exact (decide_eq_true hnew).symm

theorem Registry.registers_of_register? {r r' : Registry} {h : Handle}
    (hregister : r.register? h = some r') : r.Registers h.group true r' := by
  refine .new rfl (find?_eq_none ?_) (handles_of_register? hregister) (times_of_register? hregister)
  rw [register?] at hregister
  split at hregister
  · cases hregister
  · assumption

theorem Registry.registers_of_register?_eq_none {r : Registry} {h : Handle}
    (hnone : r.register? h = none) : r.Registers h.group false r := by
  rw [register?] at hnone
  split at hnone
  · next other hfind =>
    rw [find?] at hfind
    have hsame := List.find?_some hfind
    exact .known (List.mem_of_find?_eq_some hfind) (of_decide_eq_true hsame)
  · cases hnone

namespace Simulation

open World

variable {σ : Type} {client : Client σ} {who : Nat} {group : Except GroupError Group}
  {w w' : World σ}

/-! ## Steps -/

namespace World

theorem step_of_register (habout : IsAbout who (.register group) w)
    (hstep : w.step client who = some w') :
    w'.registry = w.registry
    ∧ ((∃ e, group = .error e
        ∧ w'.stage? who = some (.finished (.error (.group e)) w.clock.now))
      ∨ ∃ h, group = .ok h.group ∧ w'.stage? who = some (.entering (.register h))) := by
  obtain ⟨steps, rfl⟩ := eq_of_isAbout habout hstep
  obtain ⟨stage, hstage⟩ := habout.exists_stage
  cases group with
  | error e => exact ⟨rfl, .inl ⟨e, rfl, stage?_finish_self hstage _⟩⟩
  | ok g =>
    have hentering := stage?_enter_self (w := (w.addGroup g).2) hstage
      (.register (w.addGroup g).1)
    exact ⟨rfl, .inr ⟨(w.addGroup g).1, rfl, hentering⟩⟩

theorem step_of_entering {h : Handle} (hstage : w.stage? who = some (.entering (.register h)))
    (hstep : w.step client who = some w') :
    ∃ flag, w.registry.Registers h.group flag w'.registry
      ∧ w'.stage? who = some (.finished (.ok (.flag flag)) w.clock.now) := by
  obtain ⟨stage, next, hstage', hnext, rfl⟩ := step_cases hstep
  obtain rfl := Option.some.inj (hstage.symm.trans hstage')
  obtain ⟨-, hfulfil⟩ := Option.ite_none_right_eq_some.mp hnext
  obtain rfl := Option.some.inj hfulfil
  cases hregister : w.registry.register? h with
  | none =>
    rw [fulfil, hregister]
    exact ⟨false, Registry.registers_of_register?_eq_none hregister, stage?_finish_self hstage _⟩
  | some r' =>
    rw [fulfil, hregister]
    exact ⟨true, Registry.registers_of_register? hregister, stage?_finish_self hstage _⟩

end World

/-! ## Requests -/

/-- A task makes a request and goes on with it. Meanwhile others do what they may, and leave it
where it waits. The trail has the worlds before and after each step of the task, those of the latest
step first. -/
inductive Follows (client : Client σ) (who : Nat) (request : Request σ)
    (may : World σ → World σ → Prop) (start : World σ) :
    List (World σ × World σ) → World σ → Prop
  | refl (habout : IsAbout who request start) : Follows client who request may start [] start
  | step {trail : List (World σ × World σ)} {w w' : World σ}
      (h : Follows client who request may start trail w) (hstep : w.step client who = some w') :
      Follows client who request may start ((w, w') :: trail) w'
  | others {trail : List (World σ × World σ)} {w w' : World σ}
      (h : Follows client who request may start trail w) (hmay : may w w')
      (hstays : w'.stage? who = w.stage? who) : Follows client who request may start trail w'

/-- None of the steps of a trail changed the registry. -/
def LeavesRegistry (trail : List (World σ × World σ)) : Prop :=
  ∀ p ∈ trail, p.2.registry = p.1.registry

/-- How far the registration of a group is. -/
inductive Registration (group : Except GroupError Group) (trail : List (World σ × World σ)) :
    Stage σ → Prop
  | launching (hnone : trail = []) : Registration group trail (.launching none (.register group))
  | pausing {timer : Timer} (hnone : trail = []) :
      Registration group trail (.pausing timer (.register group))
  | entering {h : Handle} (hgroup : group = .ok h.group) (hleaves : LeavesRegistry trail) :
      Registration group trail (.entering (.register h))
  | refused {e : GroupError} {moment : Nat} (hgroup : group = .error e)
      (hleaves : LeavesRegistry trail) :
      Registration group trail (.finished (.error (.group e)) moment)
  /-- The last step was the one that registered the group, or found its name taken. -/
  | registered {g : Group} {before after : World σ} {earlier : List (World σ × World σ)}
      {flag : Bool} {moment : Nat} (hgroup : group = .ok g)
      (htrail : trail = (before, after) :: earlier) (hleaves : LeavesRegistry earlier)
      (hregisters : before.registry.Registers g flag after.registry) :
      Registration group trail (.finished (.ok (.flag flag)) moment)

variable {may : World σ → World σ → Prop} {start : World σ} {trail : List (World σ × World σ)}
  {stage : Stage σ}

theorem LeavesRegistry.cons (hsame : w'.registry = w.registry) (h : LeavesRegistry trail) :
    LeavesRegistry ((w, w') :: trail) := by
  intro p hp
  rcases List.mem_cons.mp hp with rfl | hp
  · exact hsame
  · exact h p hp

theorem Registration.step_about (habout : IsAbout who (.register group) w)
    (hstep : w.step client who = some w') :
    ∃ stage', w'.stage? who = some stage' ∧ Registration group [(w, w')] stage' := by
  obtain ⟨hsame, hends⟩ := step_of_register habout hstep
  have hleaves : LeavesRegistry [(w, w')] := .cons hsame nofun
  rcases hends with ⟨e, hgroup, hstage'⟩ | ⟨h, hgroup, hstage'⟩
  · exact ⟨_, hstage', .refused hgroup hleaves⟩
  · exact ⟨_, hstage', .entering hgroup hleaves⟩

theorem Registration.step (h : Registration group trail stage) (hstage : w.stage? who = some stage)
    (hstep : w.step client who = some w') :
    ∃ stage', w'.stage? who = some stage' ∧ Registration group ((w, w') :: trail) stage' := by
  obtain ⟨stage₁, next, hstage₁, hnext, -⟩ := step_cases hstep
  obtain rfl := Option.some.inj (hstage.symm.trans hstage₁)
  cases h with
  | launching hnone =>
    subst hnone
    exact step_about (.inl hstage) hstep
  | pausing hnone =>
    subst hnone
    exact step_about (.inr ⟨_, hstage⟩) hstep
  | entering hgroup hleaves =>
    obtain ⟨flag, hregisters, hstage'⟩ := step_of_entering hstage hstep
    exact ⟨_, hstage', .registered hgroup rfl hleaves hregisters⟩
  | refused => cases hnext
  | registered => cases hnext

namespace Follows

theorem exists_registration (h : Follows client who (.register group) may start trail w) :
    ∃ stage, w.stage? who = some stage ∧ Registration group trail stage := by
  induction h with
  | refl habout =>
    rcases habout with hlaunching | ⟨timer, hpausing⟩
    · exact ⟨_, hlaunching, .launching rfl⟩
    · exact ⟨_, hpausing, .pausing rfl⟩
  | step h hstep ih =>
    obtain ⟨stage, hstage, hregistration⟩ := ih
    exact hregistration.step hstage hstep
  | others h hmay hstays ih =>
    obtain ⟨stage, hstage, hregistration⟩ := ih
    exact ⟨stage, hstays.trans hstage, hregistration⟩

/-- A registration that is over has failed for what was wrong with the group, or has ended with the
step in which the registry was given the group. -/
theorem registered (h : Follows client who (.register group) may start trail w) {result : Result}
    {moment : Nat} (hstage : w.stage? who = some (.finished result moment)) :
    (∃ e, group = .error e ∧ result = .error (.group e) ∧ LeavesRegistry trail)
    ∨ ∃ g before after earlier flag, group = .ok g ∧ result = .ok (.flag flag)
      ∧ trail = (before, after) :: earlier ∧ LeavesRegistry earlier
      ∧ before.registry.Registers g flag after.registry := by
  obtain ⟨stage, hstage', hregistration⟩ := h.exists_registration
  obtain rfl := Option.some.inj (hstage.symm.trans hstage')
  cases hregistration with
  | refused hgroup hleaves => exact .inl ⟨_, hgroup, rfl, hleaves⟩
  | registered hgroup htrail hleaves hregisters =>
    exact .inr ⟨_, _, _, _, _, hgroup, rfl, htrail, hleaves, hregisters⟩

/-- If there is nobody else, the registry is changed by the steps of the task only. -/
theorem registry_eq {request : Request σ}
    (h : Follows client who request (fun _ _ ↦ False) start trail w)
    (hleaves : LeavesRegistry trail) : w.registry = start.registry := by
  induction h with
  | refl => rfl
  | step h hstep ih =>
    rw [hleaves _ List.mem_cons_self]
    exact ih fun p hp ↦ hleaves p (List.mem_cons_of_mem _ hp)
  | others h hmay => exact hmay.elim

theorem registry_before {request : Request σ} {before after : World σ}
    (h : Follows client who request (fun _ _ ↦ False) start ((before, after) :: trail) w)
    (hleaves : LeavesRegistry trail) : before.registry = start.registry := by
  cases h with
  | step h hstep => exact h.registry_eq hleaves
  | others h hmay => exact hmay.elim

/-! ## Coming to an end -/

theorem exists_registered (client : Client σ) (may : World σ → World σ → Prop)
    (hstage : start.stage? who = some (.launching none (.register group)))
    (hgate : start.gate = .free) (hdeferred : start.deferred = []) :
    ∃ trail w result, Follows client who (.register group) may start trail w
      ∧ w.stage? who = some (.finished result start.clock.now) := by
  have h₀ : Follows client who (.register group) may start [] start := .refl (.inl hstage)
  have hbegin : start.stepTask client who (.launching none (.register group))
      = some (start.begin client who (.register group)) := rfl
  obtain ⟨w₁, hstep₁⟩ := exists_step hstage hbegin hdeferred
  obtain ⟨steps, hw₁⟩ := eq_of_isAbout (.inl hstage) hstep₁
  have h₁ := h₀.step hstep₁
  obtain ⟨-, ⟨e, rfl, hstage₁⟩ | ⟨h, rfl, hstage₁⟩⟩ := step_of_register (.inl hstage) hstep₁
  · exact ⟨_, w₁, _, h₁, hstage₁⟩
  · -- Who comes to a lock that is free has it at once.
    have hheld : w₁.gate.isHeldBy who = true := by
      rw [hw₁]
      change (start.gate.request who .exclusive).isHeldBy who = true
      rw [hgate, Lock.request_free]
      exact Lock.isHeldBy_heldBy who .exclusive
    have hdeferred₁ : w₁.deferred = [] := by
      rw [hw₁]
      exact hdeferred
    have hclock₁ : w₁.clock = start.clock := by
      rw [hw₁]
      rfl
    have hnext : w₁.stepTask client who (.entering (.register h))
        = some (w₁.fulfil who (.register h)) := if_pos hheld
    obtain ⟨w₂, hstep₂⟩ := exists_step hstage₁ hnext hdeferred₁
    obtain ⟨flag, -, hstage₂⟩ := step_of_entering hstage₁ hstep₂
    rw [hclock₁] at hstage₂
    exact ⟨_, w₂, _, h₁.step hstep₂, hstage₂⟩

end Follows

/-! ## Compact descriptions -/

/-- **Groups from compact descriptions.** A text describes a group if it has two sizes, the least
before the greatest, and a name after them, with colons between the three; sizes as they are printed
and a name without white space around it are read back. The request to register a group from a text
fails if the text describes none, as an invalid argument, and leaves the registry as it is.
Otherwise it ends with the step in which the registry was given the group that is described: it was
refused there for the sake of its name or added at the end, and the answer says which. If nobody has
the registry, the request does come to an end. -/
theorem World.compact_registration (client : Client σ) :
    (∀ spec entry, GroupConfig.ofSpec spec = .ok entry ↔ entry.IsCompact spec.toList)
    ∧ (∀ {minSize maxSize : UInt32} {name : String}, minSize ≤ maxSize → name ≠ "" →
      Text.trimmed name = name →
      GroupConfig.ofSpec (toString minSize ++ ":" ++ toString maxSize ++ ":" ++ name)
        = .ok ⟨name, minSize, maxSize, none⟩)
    ∧ ∀ (spec resourceGroup : String) (who : Nat) (start : World σ),
      (∀ {may trail w result moment},
        Follows client who (.register (Group.ofSpec spec resourceGroup)) may start trail w →
        w.stage? who = some (.finished result moment) →
        match GroupConfig.ofSpec spec with
        | .error e => (∃ e', result = .error (.group e') ∧ e'.kind = .invalidArgument
            ∧ e'.detail = e.message) ∧ LeavesRegistry trail
        | .ok entry => ∃ g before after earlier flag, entry.SetsUp resourceGroup g
            ∧ result = .ok (.flag flag) ∧ trail = (before, after) :: earlier
            ∧ LeavesRegistry earlier ∧ before.registry.Registers g flag after.registry)
      ∧ (start.stage? who
          = some (.launching none (.register (Group.ofSpec spec resourceGroup))) →
        start.gate = .free → start.deferred = [] → ∃ trail w result,
        Follows client who (.register (Group.ofSpec spec resourceGroup)) (fun _ _ ↦ False) start
            trail w
          ∧ w.stage? who = some (.finished result start.clock.now)) := by
  refine ⟨fun spec entry ↦ GroupConfig.ofSpec_eq_ok_iff, GroupConfig.ofSpec_printed,
    fun spec resourceGroup who start ↦ ⟨fun hfollows hfinished ↦ ?_,
      Follows.exists_registered client _⟩⟩
  have hends := hfollows.registered hfinished
  cases hread : GroupConfig.ofSpec spec with
  | error e =>
    rw [Group.ofSpec_of_error hread] at hends
    rcases hends with ⟨e', hgroup, rfl, hleaves⟩ | ⟨g, -, -, -, -, hgroup, -⟩
    · obtain rfl := Except.error.inj hgroup
      exact ⟨⟨_, rfl, rfl, rfl⟩, hleaves⟩
    · cases hgroup
  | ok entry =>
    obtain ⟨g, hgroup, hsetsUp⟩ := Group.exists_ofSpec hread resourceGroup
    rw [hgroup] at hends
    rcases hends with ⟨e, herror, -⟩ | ⟨g', before, after, earlier, flag, hok, hends⟩
    · cases herror
    · obtain rfl := Except.ok.inj hok
      exact ⟨g, before, after, earlier, flag, hsetsUp, hends⟩

/-! ## A name that is taken, a new one, and none -/

/-- A task is about to register a group from a text, in a registry of two groups. -/
def registering (spec : String) : World Memory :=
  { World.initial cloudOfPair pair with
    tasks := [⟨.launching none (.register (Group.ofSpec spec "rg")), none⟩] }

/-- A name with a colon in it is read back and is new; another that differs from the name of a group
in a capital only is taken; and sizes the wrong way round describe nothing. -/
theorem World.compact_registration_of_pair :
    GroupConfig.ofSpec (toString (1 : UInt32) ++ ":" ++ toString (10 : UInt32) ++ ":" ++ "pool:b")
      = .ok ⟨"pool:b", 1, 10, none⟩
    ∧ (∃ trail w, Follows Memory.client 0 (.register (Group.ofSpec "1:10:pool:b" "rg"))
        (fun _ _ ↦ False) (registering "1:10:pool:b") trail w
      ∧ w.stage? 0 = some (.finished (.ok (.flag true)) 0))
    ∧ (∃ trail w, Follows Memory.client 0 (.register (Group.ofSpec "1:10:Pool" "rg"))
        (fun _ _ ↦ False) (registering "1:10:Pool") trail w
      ∧ w.stage? 0 = some (.finished (.ok (.flag false)) 0))
    ∧ ∃ trail w e, Follows Memory.client 0 (.register (Group.ofSpec "10:1:pool" "rg"))
        (fun _ _ ↦ False) (registering "10:1:pool") trail w
      ∧ w.stage? 0 = some (.finished (.error (.group e)) 0) ∧ e.kind = .invalidArgument := by
  obtain ⟨-, hprinted, hrequests⟩ := compact_registration Memory.client
  -- The registry that a request finds is the one at the start, as there is nobody else.
  have hends (spec : String) : ∃ trail w result,
      Follows Memory.client 0 (.register (Group.ofSpec spec "rg")) (fun _ _ ↦ False)
        (registering spec) trail w ∧ w.stage? 0 = some (.finished result 0)
      ∧ match GroupConfig.ofSpec spec with
        | .error _ => ∃ e, result = .error (.group e) ∧ e.kind = .invalidArgument
        | .ok entry => result = .ok (.flag (decide
          (∀ h ∈ pair.handles, ¬ Text.SameName h.group.name entry.name))) := by
    obtain ⟨haccount, hend⟩ := hrequests spec "rg" 0 (registering spec)
    obtain ⟨trail, w, result, hfollows, hfinished⟩ := hend rfl rfl rfl
    refine ⟨trail, w, result, hfollows, hfinished, ?_⟩
    have hresult := haccount hfollows hfinished
    cases hread : GroupConfig.ofSpec spec with
    | error e =>
      rw [hread] at hresult
      obtain ⟨⟨e', rfl, hkind, -⟩, -⟩ := hresult
      exact ⟨e', rfl, hkind⟩
    | ok entry =>
      rw [hread] at hresult
      obtain ⟨g, before, after, earlier, flag, hsetsUp, rfl, rfl, hleaves, hregisters⟩ := hresult
      rw [hfollows.registry_before hleaves] at hregisters
      rw [hregisters.flag_eq, hsetsUp.name]
      rfl
  refine ⟨hprinted (by decide) (by decide) (by decide +kernel), ?_, ?_, ?_⟩
  · obtain ⟨trail, w, result, hfollows, hfinished, hresult⟩ := hends "1:10:pool:b"
    have hread : GroupConfig.ofSpec "1:10:pool:b" = .ok ⟨"pool:b", 1, 10, none⟩ := by
      decide +kernel
    have hnew : ∀ h ∈ pair.handles, ¬ Text.SameName h.group.name "pool:b" := by decide +kernel
    rw [hread] at hresult
    obtain rfl : result = .ok (.flag true) := by rw [hresult, decide_eq_true hnew]
    exact ⟨trail, w, hfollows, hfinished⟩
  · obtain ⟨trail, w, result, hfollows, hfinished, hresult⟩ := hends "1:10:Pool"
    have hread : GroupConfig.ofSpec "1:10:Pool" = .ok ⟨"Pool", 1, 10, none⟩ := by decide +kernel
    have hknown : ¬ ∀ h ∈ pair.handles, ¬ Text.SameName h.group.name "Pool" := by decide +kernel
    rw [hread] at hresult
    obtain rfl : result = .ok (.flag false) := by rw [hresult, decide_eq_false hknown]
    exact ⟨trail, w, hfollows, hfinished⟩
  · obtain ⟨trail, w, result, hfollows, hfinished, hresult⟩ := hends "10:1:pool"
    have hread : GroupConfig.ofSpec "10:1:pool"
        = .error (.badSpec "10:1:pool" (.badGroup (.invertedBounds "pool" 10 1))) := by
      decide +kernel
    rw [hread] at hresult
    obtain ⟨e, rfl, hkind⟩ := hresult
    exact ⟨trail, w, e, hfollows, hfinished, hkind⟩

end Simulation

end NodeGroups
