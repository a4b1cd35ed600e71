import NodeGroups.Proofs.Balance
import NodeGroups.Proofs.Index
import NodeGroups.Proofs.Inquiry
import NodeGroups.Proofs.Removal

/-!
# Whose a node is

There are four ways to ask whether a node is one of a group: the question itself, a look at the
list of members, a deletion, which refuses nodes of others, and the request for the group of the
node. The question goes through the index of the view, the list knows nothing of the index, the
deletion checks one node after another, and the request picks the group first. They have the same
answer, since each comes down to whether the view has an instance under the ID and the ID names the
group.

For the list this takes that the index can be forgotten. It can in any view that was built from a
listing, whichever deletions came after, and a group has no other views: a reload installs what it
built from what it read, and mutations do nothing to the instances but to mark some of them.

An answer is about one state. The state that counts is the one in which the question is answered,
the one in which the deletion was checked, and the one in which the request found the group.
-/

namespace NodeGroups

/-! ## Views that come from listings -/

namespace Cache

variable {c : Cache} {id : ProviderId}

/-- The view was built from a listing, and deletions may have been accepted since. -/
def IsListed (c : Cache) : Prop :=
  ∃ scaleSet listing ids, c = (build scaleSet listing).markDeleting ids

theorem isListed_build (scaleSet : ScaleSet) (listing : List Instance) :
    (build scaleSet listing).IsListed :=
  ⟨scaleSet, listing, [], (markDeleting_nil _).symm⟩

theorem IsListed.markDeleting (h : c.IsListed) (ids : List String) :
    (c.markDeleting ids).IsListed := by
  obtain ⟨scaleSet, listing, ids', rfl⟩ := h
  exact ⟨scaleSet, listing, ids' ++ ids, markDeleting_markDeleting _ ids' ids⟩

theorem IsListed.isSome_get?_iff (h : c.IsListed) :
    (c.get? id).isSome = true ↔ ∃ i ∈ c.instances, i.IsUnder id := by
  obtain ⟨scaleSet, listing, ids, rfl⟩ := h
  rw [get?_markDeleting_build, List.find?_isSome]
  simp only [List.mem_reverse, decide_eq_true_eq]

end Cache

namespace Group

variable {σ : Type} {client : Client σ} {g : Group} {who order : Nat} {start t t' : Traffic σ}
  {record : List (Event σ)} {cloud : σ} {clock : Clock} {v : View} {s s' : Scene σ}

/-- What activities have at their beginning and at their end, and every step preserves, all those of
a run have. -/
theorem Run.forall_activity {p : Activity → Prop} (hstarted : ∀ errand, p (.started errand))
    (hended : ∀ ending, p (.ended ending))
    (hstep : ∀ {who clock order} {s s' : Scene σ}, p s.activity →
      s.step client g who clock order = some s' → p s'.activity)
    (hrun : Run client g (.initial cloud clock) record t) {job : Job}
    (hjob : t.jobs who = some job) : p job.activity := by
  have hput : ∀ {t : Traffic σ} {who : Nat} (job : Job), p job.activity →
      (∀ {other j}, t.jobs other = some j → p j.activity) →
      ∀ {other j}, (t.put who job).jobs other = some j → p j.activity :=
    fun _ hself hothers _ _ hj ↦
      Traffic.forall_put (p := fun _ j ↦ p j.activity) hself (fun _ _ _ hj ↦ hothers hj) hj
  induction hrun generalizing who job with
  | refl => cases hjob
  | tail hrun htail ih =>
    cases htail with
    | arrive errand hidle => exact hput ⟨errand, .started errand⟩ (hstarted errand) ih hjob
    | @proceed _ before scene order hbefore hscene =>
      exact hput { before with activity := scene.activity } (hstep (ih hbefore) hscene) ih hjob
    | @giveUp _ before e hbefore hreload =>
      exact hput { before with activity := .refuse e } (hended _) ih hjob
    | elapse clock hnow => exact ih hjob
    | intervene cloud => exact ih hjob

/-- What an activity is to install was built from a listing. -/
def Activity.BringsListed : Activity → Prop
  | .fetched _ cache | .queued (.install _ cache) => cache.IsListed
  | _ => True

theorem Activity.bringsListed_queued {errand : Errand} {wish : Wish}
    (hwish : errand.wish? = some wish) : (Activity.queued wish).BringsListed := by
  cases errand with
  | reload => cases hwish
  | _ => rw [← Option.some.inj hwish]; trivial

theorem Activity.BringsListed.step (h : s.activity.BringsListed)
    (hstep : s.step client g who clock order = some s') : s'.activity.BringsListed := by
  cases advance_of_step hstep with
  | queue hwish => exact bringsListed_queued hwish
  | list hlist => exact Cache.isListed_build _ _
  | bring => exact h
  | _ => trivial

/-- The view of a group was built from a listing, whatever has become of it. -/
theorem Run.isListed (hrun : Run client g (.initial cloud clock) record t)
    (hview : t.cell.state.view = some v) : v.cache.IsListed := by
  have hupdate : ∀ (change : Change) (v : View), v.cache.IsListed →
      (change.updateView v).cache.IsListed := by
    intro change v hlisted
    cases change with
    | resize target => exact hlisted
    | delete ids target => exact hlisted.markDeleting ids
  obtain ⟨cache, later, ⟨who, earlier, rfl, -⟩, hlisted⟩ := hrun.view_history
    (p := fun cache _ v ↦ cache.IsListed → v.cache.IsListed) (fun _ _ ↦ id) (fun _ _ _ _ _ h ↦ h)
    (fun _ _ v _ _ change _ h hcache ↦ hupdate change v (h hcache)) hview
  obtain ⟨t₁, t₂, hrun₁, hstep⟩ := hrun.exists_step
  obtain ⟨⟨errand, activity⟩, hjob, rfl⟩ := hstep.install_inv
  have hbrings : (Activity.queued (.install _ cache)).BringsListed :=
    hrun₁.forall_activity (fun _ ↦ trivial) (fun _ ↦ trivial) Activity.BringsListed.step hjob
  exact hlisted hbrings

/-! ## Questions -/

/-- A question that waits for the lock is one that the state has to answer. -/
def Activity.NeedsState (g : Group) : Activity → Prop
  | .queued (.query q) => q.answerAtOnce? g = none
  | _ => True

theorem Activity.needsState_of_step (hstep : s.step client g who clock order = some s') :
    s'.activity.NeedsState g := by
  cases advance_of_step hstep with
  | @queue errand wish cell cloud hwish =>
    cases errand with
    | reload => cases hwish
    | query q =>
      obtain rfl := Option.some.inj hwish
      cases hask : q.answerAtOnce? g with
      | none => exact hask
      | some answer =>
        simp only [Scene.step, Scene.start, hask] at hstep
        cases hstep
    | _ =>
      obtain rfl := Option.some.inj hwish
      trivial
  | _ => trivial

theorem reply_of_step {q : Query} {a : Activity} {cell : Cell} {ending : Ending}
    (hfits : Job.Fits g cell.state ⟨.query q, a⟩) (hneeds : a.NeedsState g)
    (hstep : Scene.step client g who clock order ⟨a, cell, cloud⟩ = some s')
    (hended : s'.activity = .ended ending) :
    ending = .answered (q.reply g cell.state) ∧ s'.cell.state = cell.state := by
  cases a with
  | started errand =>
    obtain rfl : Errand.query q = errand := hfits
    obtain rfl := Option.some.inj hstep
    rw [Scene.start] at hended ⊢
    rw [Query.reply]
    cases hask : q.answerAtOnce? g with
    | none =>
      rw [hask] at hended
      cases hended
    | some answer =>
      rw [hask] at hended
      exact ⟨(Activity.ended.inj hended).symm, rfl⟩
  | queued wish =>
    cases wish with
    | query other =>
      obtain rfl : q = other := Errand.query.inj hfits
      obtain ⟨-, hfulfil⟩ := Option.ite_none_right_eq_some.mp hstep
      obtain rfl := Option.some.inj hfulfil
      rw [Query.reply_of_none hneeds]
      exact ⟨(Activity.ended.inj hended).symm, rfl⟩
    | _ => cases hfits
  | describing generation pending => cases generation <;> cases hfits
  | changing change pending =>
    obtain ⟨m, hm, -⟩ := hfits
    cases hm
  | accepted change =>
    obtain ⟨m, hm, -⟩ := hfits
    cases hm
  | ended ending => cases hstep
  | _ => cases hfits

theorem Run.reply_of_ended (hrun : Run client g (.initial cloud clock) record t)
    {event : Option (Event σ)} (hstep : Step client g t event t') {q : Query} {a : Activity}
    {ending : Ending} (hjob : t.jobs who = some ⟨.query q, a⟩)
    (hactive : ∀ ending, a ≠ .ended ending)
    (hended : t'.jobs who = some ⟨.query q, .ended ending⟩) :
    ending = .answered (q.reply g t.cell.state) ∧ t'.cell.state = t.cell.state := by
  have hfits := hrun.orderly.fits hjob
  rcases hstep.ended_cases hended with hbefore | ⟨a', hjob', hcases⟩
  · cases hjob.symm.trans hbefore
    exact absurd rfl (hactive ending)
  cases hjob.symm.trans hjob'
  rcases hcases with ⟨order, scene, hscene, hactivity, hcell⟩ | ⟨hreload, -⟩
  · rw [hcell]
    exact reply_of_step hfits (hrun.forall_activity (fun _ ↦ trivial) (fun _ ↦ trivial)
      (fun _ ↦ Activity.needsState_of_step) hjob) hscene hactivity
  · cases hfits.errand_of_isReload hreload

theorem Run.exists_reply (hrun : Run client g start record t) (q : Query) (hidle : t.IsIdle who)
    (hfree : t.cell.lock = .free) : ∃ t', Run client g start record t'
      ∧ t'.jobs who = some ⟨.query q, .answer (q.reply g t.cell.state)⟩ ∧ t'.cell = t.cell := by
  obtain ⟨⟨state, lock⟩, cloud, clock, jobs⟩ := t
  obtain rfl : lock = .free := hfree
  have hstarted := hrun.come_in (.query q) hidle
  rw [Query.reply]
  cases hask : q.answerAtOnce? g with
  | none =>
    have hqueued := hstarted.go_on (Asks.step_started hask)
    exact ⟨_, hqueued.go_on Asks.step_queued, Function.update_self .., rfl⟩
  | some answer =>
    have hanswered : Scene.step client g who clock 0 ⟨.started (.query q), ⟨state, .free⟩, cloud⟩
        = some ⟨.answer answer, ⟨state, .free⟩, cloud⟩ := by
      simp only [Scene.step, Scene.start, hask]
    exact ⟨_, hstarted.go_on hanswered, Function.update_self .., rfl⟩

/-! ## Answers -/

section

variable {state : State} {node : Node} {nodes : List Node} {id : ProviderId}

theorem reply_belongs_of_view (hparse : ProviderId.parse? node.providerId = some id)
    (hview : state.view = some v) : (Query.belongs node).reply g state
      = .ok (.flag (g.instanceOf? v.cache node).isSome) := by
  rw [reply_belongs hparse, State.requireView, hview]
  by_cases hin : id.IsIn g.resourceGroup g.name
  · rw [if_pos hin]
    rfl
  · rw [if_neg hin, instanceOf?, hparse, Option.bind_some, Cache.find?, if_neg hin]
    rfl

theorem reply_members_of_view (hview : state.view = some v) :
    Query.members.reply g state = .ok (.members (v.cache.instances.map Instance.toMember)) := by
  rw [Query.reply_of_none rfl, Query.answer, State.requireView, hview]
  rfl

theorem reply_belongs_of_members (hlisted : v.cache.IsListed) (hview : state.view = some v)
    (hparse : ProviderId.parse? node.providerId = some id) :
    (Query.belongs node).reply g state = .ok (.flag (decide (id.IsIn g.resourceGroup g.name
      ∧ ∃ m ∈ v.cache.instances.map Instance.toMember, Text.SameName m.id id.print))) := by
  have hmember : (∃ m ∈ v.cache.instances.map Instance.toMember, Text.SameName m.id id.print)
      ↔ ∃ i ∈ v.cache.instances, i.IsUnder id := by
    simp only [List.mem_map, exists_exists_and_eq_and]
    rfl
  rw [reply_belongs_of_view hparse hview, instanceOf?, hparse, Option.bind_some, Cache.find?]
  by_cases hin : id.IsIn g.resourceGroup g.name
  · rw [if_pos hin]
    simp only [hmember, hin, true_and, ← hlisted.isSome_get?_iff, Bool.decide_eq_true]
  · rw [if_neg hin]
    simp only [hin, false_and, decide_false, Option.isSome_none]

/-! ## Deletions -/

theorem reply_belongs_eq_false_iff (hparse : ProviderId.parse? node.providerId = some id)
    (hview : state.view = some v) : (Query.belongs node).reply g state = .ok (.flag false)
      ↔ ∀ i, ¬ g.HasInstance v.cache node i := by
  rw [reply_belongs_of_view hparse hview]
  simp [← instanceOf?_eq_some_iff, Option.eq_none_iff_forall_ne_some]

theorem plan_delete_ne_unknown {instances : List Instance} (hview : state.view = some v)
    (hinstances : List.Forall₂ (g.HasInstance v.cache) nodes instances) (name : String) :
    Mutation.plan g state (.delete nodes) ≠ .error (.unknownNode name g.name) := by
  have hparse : ∀ n ∈ nodes, (ProviderId.parse? n.providerId).isSome := by
    intro n hn
    obtain ⟨i, -, hi⟩ := exists_mem_of_forall₂ hinstances hn
    exact hi.isSome_parse?
  rw [plan_delete hview (fault?_delete_eq_none_iff.mpr hparse), planDelete,
    mapM_resolve_eq_ok_iff.mpr hinstances]
  change (if deletable [] instances = [] then _ else if _ then _ else _) ≠ _
  intro hplan
  split at hplan
  · cases hplan
  · split at hplan <;> cases hplan

/-- A deletion is refused for the sake of a node if and only if one of the nodes is not the
group's. -/
theorem plan_delete_unknown_iff (hparse : ∀ n ∈ nodes, (ProviderId.parse? n.providerId).isSome)
    (hview : state.view = some v) :
    (∃ name, Mutation.plan g state (.delete nodes) = .error (.unknownNode name g.name))
      ↔ ∃ n ∈ nodes, ∀ i, ¬ g.HasInstance v.cache n i := by
  have hinstance : ∀ {n}, (g.instanceOf? v.cache n).isNone = false →
      ∃ i, g.HasInstance v.cache n i := by
    intro n hsome
    obtain ⟨i, hi⟩ := Option.isSome_iff_exists.mp (Option.isNone_eq_false_iff.mp hsome)
    exact ⟨i, instanceOf?_eq_some_iff.mp hi⟩
  cases hfirst : nodes.find? fun n ↦ (g.instanceOf? v.cache n).isNone with
  | none =>
    have hall : ∀ n ∈ nodes, ∃ i, g.HasInstance v.cache n i := fun n hn ↦
      hinstance (Bool.not_eq_true _ ▸ List.find?_eq_none.mp hfirst n hn)
    obtain ⟨instances, hinstances⟩ := exists_forall₂ hall
    refine iff_of_false (fun ⟨name, hplan⟩ ↦ plan_delete_ne_unknown hview hinstances name hplan) ?_
    rintro ⟨n, hn, hnone⟩
    obtain ⟨i, hi⟩ := hall n hn
    exact hnone i hi
  | some n =>
    obtain ⟨hnone, before, after, rfl, hbefore⟩ := List.find?_eq_some_iff_append.mp hfirst
    have hunknown : ∀ i, ¬ g.HasInstance v.cache n i := by
      intro i hi
      rw [instanceOf?_eq_some_iff.mpr hi] at hnone
      cases hnone
    refine iff_of_true ⟨n.name, plan_delete_of_unknown hparse hview (fun m hm ↦ ?_) hunknown⟩
      ⟨n, List.mem_append_right _ List.mem_cons_self, hunknown⟩
    exact hinstance (Bool.not_eq_true' _ ▸ hbefore m hm)

theorem Concluded.unknown_iff {m : Mutation} {account : Account} {left : State} {ending : Ending}
    (h : Concluded g m account left ending) :
    (∃ name, ending = .answered (.error (.unknownNode name g.name)))
      ↔ ∃ name, m.plan g account.found = .error (.unknownNode name g.name) := by
  refine exists_congr fun name ↦ ⟨?_, fun hplan ↦ (h.refused_of_plan hplan).ending_eq⟩
  rintro rfl
  cases h with
  | refused hplan => exact hplan

end

theorem Attempt.unknown_iff {nodes : List Node} {account : Account} {ending : Ending}
    (h : Attempt client g who (.delete nodes) start record account t) (hstart : Orderly g start)
    (hview : ∃ v, start.cell.state.view = some v)
    (hparse : ∀ n ∈ nodes, (ProviderId.parse? n.providerId).isSome)
    (hended : t.jobs who = some ⟨.mutate (.delete nodes), .ended ending⟩) :
    (∃ name, ending = .answered (.error (.unknownNode name g.name)))
      ↔ ∃ n ∈ nodes, (Query.belongs n).reply g account.found = .ok (.flag false) := by
  obtain ⟨earlier, t₀, hrun, hfound, -⟩ := h.exists_found
  obtain ⟨v, hview₀⟩ := hrun.exists_view hstart hview
  rw [hfound] at hview₀
  rw [(h.concluded hstart hended).unknown_iff, plan_delete_unknown_iff hparse hview₀]
  refine exists_congr fun n ↦ and_congr_right fun hn ↦ ?_
  obtain ⟨id, hid⟩ := Option.isSome_iff_exists.mp (hparse n hn)
  exact (reply_belongs_eq_false_iff hid hview₀).symm

end Group

/-! ## Requests for the group -/

namespace Simulation

variable {σ : Type} {client : Client σ} {who : Nat} {node : Node} {may : World σ → World σ → Prop}
  {start w : World σ} {i : Inquiry} {result : Result} {moment : Nat} {id : ProviderId}

theorem Inquires.at_once_iff (h : Inquires client who node may start i w)
    (hstage : w.stage? who = some (.finished result moment))
    (hparse : ProviderId.parse? node.providerId = some id) {handle : Handle}
    (hhandle : handle ∈ i.registry.handles) :
    (id.IsIn handle.group.resourceGroup handle.group.name → ∃ s, i.found = some s
      ∧ (result = .ok (.maybeName (some handle.group.name)) ∧ i.called = false
        ↔ (Group.Query.belongs node).reply handle.group s = .ok (.flag true)))
    ∧ (¬ id.IsIn handle.group.resourceGroup handle.group.name →
      result ≠ .ok (.maybeName (some handle.group.name))
      ∧ ∀ s, (Group.Query.belongs node).reply handle.group s = .ok (.flag false)) := by
  have hends := h.ends hstage
  refine ⟨fun hin ↦ ?_, fun hout ↦ ⟨fun hresult ↦ hout ?_, fun s ↦ ?_⟩⟩
  · have hnamed := Registry.named?_eq_some_iff.mpr ⟨hhandle, hin⟩
    obtain ⟨s, hfound, hiff⟩ := hends.at_once_iff hparse hnamed
    refine ⟨s, hfound, ?_⟩
    rw [hiff, Group.reply_belongs_eq_true_iff hparse, and_iff_right hin]
  · exact (Registry.isIn_of_named? (hends.named?_of_name hparse hhandle hresult)).2
  · rw [Group.reply_belongs hparse, if_neg hout]

end Simulation

namespace Group

variable {σ : Type} {client : Client σ} {g : Group} {t : Traffic σ} {record : List (Event σ)}
  {cloud : σ} {clock : Clock}

open Simulation in
/-- **Whose a node is.** Questions to a group are answered from the state that they find, and those
that find the lock free are answered. If the group has a view, a node is said to be the group's if
and only if its ID names the group and is the ID of a member, but for the case of letters. A
deletion is refused for the sake of a node if and only if one of its nodes is said not to be the
group's. And the request for the group of a node ends with a registered group and without a call to
the cloud if and only if the node is said to be that group's: this is told by the state in which the
group was found, whatever others do meanwhile, and if nobody is in the way the request does end so.
-/
theorem Run.membership_agrees (hrun : Run client g (.initial cloud clock) record t)
    (hview : ∃ v, t.cell.state.view = some v) :
    ((∀ {who event t' q a ending}, Step client g t event t' → t.jobs who = some ⟨.query q, a⟩ →
        (∀ ending, a ≠ .ended ending) → t'.jobs who = some ⟨.query q, .ended ending⟩ →
        ending = .answered (q.reply g t.cell.state))
      ∧ ∀ {who q}, t.IsIdle who → t.cell.lock = .free →
        ∃ t', Run client g (.initial cloud clock) record t'
          ∧ t'.jobs who = some ⟨.query q, .answer (q.reply g t.cell.state)⟩)
    ∧ (∀ {node id}, ProviderId.parse node.providerId = .ok id →
      ∃ members, Query.members.reply g t.cell.state = .ok (.members members)
        ∧ (Query.belongs node).reply g t.cell.state = .ok (.flag (decide
          (id.IsIn g.resourceGroup g.name ∧ ∃ m ∈ members, Text.SameName m.id id.print))))
    ∧ (∀ who nodes, (∀ n ∈ nodes, ∃ id, ProviderId.parse n.providerId = .ok id) →
      (t.IsIdle who → t.cell.lock = .free → ComesToEnd client g who (.delete nodes) t)
      ∧ ∀ {record' account t' ending}, Attempt client g who (.delete nodes) t record' account t' →
        t'.jobs who = some ⟨.mutate (.delete nodes), .ended ending⟩ →
        ((∃ name, ending = .answered (.error (.unknownNode name g.name)))
          ↔ ∃ n ∈ nodes, (Query.belongs n).reply g account.found = .ok (.flag false)))
    ∧ ∀ (start : World σ) {who node id}, ProviderId.parse node.providerId = .ok id →
      (∀ {may i w result moment}, Inquires client who node may start i w →
        w.stage? who = some (.finished result moment) → ∀ h ∈ i.registry.handles,
        (id.IsIn h.group.resourceGroup h.group.name → ∃ s, i.found = some s
          ∧ (result = .ok (.maybeName (some h.group.name)) ∧ i.called = false
            ↔ (Query.belongs node).reply h.group s = .ok (.flag true)))
        ∧ (¬ id.IsIn h.group.resourceGroup h.group.name →
          result ≠ .ok (.maybeName (some h.group.name))
          ∧ ∀ s, (Query.belongs node).reply h.group s = .ok (.flag false)))
      ∧ ∀ {h : Handle} {s : State}, h ∈ start.registry.handles →
        (Query.belongs node).reply h.group s = .ok (.flag true) →
        start.stage? who = some (.launching none (.route node)) → start.gate = .free →
        start.cells[h.place]? = some ⟨s, .free⟩ → start.deferred = [] →
        ∃ w, Inquires client who node (fun _ _ ↦ False) start ⟨start.registry, some s, false⟩ w
          ∧ w.stage? who
            = some (.finished (.ok (.maybeName (some h.group.name))) start.clock.now) := by
  obtain ⟨v, hv⟩ := hview
  refine ⟨⟨fun hstep hjob hactive hended ↦ ?_, fun hidle hfree ↦ ?_⟩, fun hid ↦ ?_,
    fun who nodes hids ↦ ?_, fun start who node id hid ↦ ?_⟩
  · exact (hrun.reply_of_ended hstep hjob hactive hended).1
  · obtain ⟨t', hrun', hanswered, -⟩ := hrun.exists_reply _ hidle hfree
    exact ⟨t', hrun', hanswered⟩
  · exact ⟨_, reply_members_of_view hv, reply_belongs_of_members (hrun.isListed hv) hv
      (ProviderId.parse_eq_ok_iff_parse?.mp hid)⟩
  · refine ⟨Attempt.comesToEnd client _ hrun.orderly, fun hattempt hended ↦
      hattempt.unknown_iff hrun.orderly ⟨v, hv⟩ (fun n hn ↦ ?_) hended⟩
    obtain ⟨id, hid⟩ := hids n hn
    rw [ProviderId.parse_eq_ok_iff_parse?.mp hid]
    rfl
  · have hparse := ProviderId.parse_eq_ok_iff_parse?.mp hid
    refine ⟨fun hinquires hfinished h hh ↦ hinquires.at_once_iff hfinished hparse hh,
      fun hh hbelongs hlaunching hgate hcell hdeferred ↦ ?_⟩
    obtain ⟨hin, hrecord⟩ := (reply_belongs_eq_true_iff hparse _).mp hbelongs
    exact Inquires.exists_known client _ hparse hh hin hrecord hlaunching hgate hcell hdeferred

/-! ## A node of a group and one of another -/

def spareNode : Node := ⟨"other", (Memory.record "rg" "spare" 0 .succeeded).providerId⟩

theorem parse?_spareNode :
    ProviderId.parse? spareNode.providerId = some (Memory.machine "rg" "spare" 0) := by
  decide +kernel

/-- Somebody is about to ask for the group of the node. -/
def wondering : Simulation.World Memory :=
  { Simulation.World.initial Simulation.cloudOfPair Simulation.pair with
    cells := [⟨⟨some pairView, 0⟩, .free⟩, .initial]
    tasks := [⟨.launching none (.route doubledNode), none⟩] }

open Simulation in
/-- A node is said to be the group's and is among its members, a deletion is refused for the sake of
a node of another group, and the group of the first is found without a call. -/
theorem Run.membership_agrees_of_pair : ∃ record t,
    Run Memory.client pool (.initial pairCloud .start) record t
    ∧ (Query.belongs doubledNode).reply pool t.cell.state = .ok (.flag true)
    ∧ (∃ members m, Query.members.reply pool t.cell.state = .ok (.members members)
      ∧ m ∈ members ∧ Text.SameName m.id (Memory.machine "rg" "pool" 0).print)
    ∧ (∃ record' account t' name,
      Attempt Memory.client pool 1 (.delete [doubledNode, spareNode]) t record' account t'
      ∧ t'.jobs 1 = some ⟨.mutate (.delete [doubledNode, spareNode]),
        .ended (.answered (.error (.unknownNode name "pool")))⟩)
    ∧ ∃ i w, Inquires Memory.client 0 doubledNode (fun _ _ ↦ False) wondering i w
      ∧ i.called = false
      ∧ w.stage? 0 = some (.finished (.ok (.maybeName (some "pool"))) 0) := by
  have hnode : ProviderId.parse doubledNode.providerId = .ok (Memory.machine "rg" "pool" 0) :=
    ProviderId.parse_eq_ok_iff_parse?.mpr parse?_poolMachine
  have hspare : ProviderId.parse spareNode.providerId = .ok (Memory.machine "rg" "spare" 0) :=
    ProviderId.parse_eq_ok_iff_parse?.mpr parse?_spareNode
  have hbelongs : (Query.belongs doubledNode).reply pool ⟨some pairView, 0⟩ = .ok (.flag true) := by
    have hparse := ProviderId.parse_eq_ok_iff_parse?.mp hnode
    rw [reply_belongs_of_view (v := pairView) hparse rfl,
      instanceOf?_eq_some_iff.mpr hasInstance_pairView, Option.isSome_some]
  have hother : ∀ s, (Query.belongs spareNode).reply pool s = .ok (.flag false) := by
    intro s
    rw [reply_belongs parse?_spareNode, if_neg (by decide +kernel)]
  obtain ⟨-, hmembers, hdeletes, hroutes⟩ := run_pairRead.membership_agrees ⟨pairView, rfl⟩
  obtain ⟨members, hlist, hflag⟩ := hmembers hnode
  have hflag := hbelongs.symm.trans hflag
  obtain ⟨-, m, hm, hname⟩ : _ ∧ ∃ m ∈ members, _ :=
    of_decide_eq_true (Finding.flag.inj (Except.ok.inj hflag)).symm
  obtain ⟨hend, hrefused⟩ := hdeletes 1 [doubledNode, spareNode] fun n hn ↦ by
    rcases List.mem_cons.mp hn with rfl | hn
    · exact ⟨_, hnode⟩
    · rw [List.mem_singleton.mp hn]
      exact ⟨_, hspare⟩
  obtain ⟨record', account, t', ending, hattempt, hended⟩ :=
    (hend (isIdle_pairRead Nat.one_ne_zero) rfl).exists_ending (answers_memory pool)
  obtain ⟨name, rfl⟩ := (hrefused hattempt hended).mpr ⟨spareNode, by simp, hother _⟩
  obtain ⟨-, hfinds⟩ := hroutes wondering hnode
  have hlaunching : wondering.stage? 0 = some (.launching none (.route doubledNode)) := rfl
  obtain ⟨w, hinquires, hfinished⟩ := hfinds (h := ⟨pool, 0⟩) List.mem_cons_self hbelongs hlaunching
    rfl rfl rfl
  refine ⟨_, _, run_pairRead, hbelongs, ⟨members, m, hlist, hm, hname⟩,
    ⟨record', account, t', name, hattempt, hended⟩, _, w, hinquires, rfl, hfinished⟩

end Group

end NodeGroups
