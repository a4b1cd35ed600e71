import NodeGroups.Proofs.Counter
import NodeGroups.Proofs.Planning

/-!
# The view and the cloud

What a group's view has to do with its cloud depends on the cloud. That it lasts does not: it is
the same argument about the lock and the counter each time. So the argument is made once, for any
`Correspondence` between views and the cloud. What is asked of it concerns one call to the cloud at
a time: reading a description and a listing makes for a view that corresponds, and a change that is
accepted turns one that corresponds into another, as the group's own update does.

## The invariant

At most times the view corresponds to the cloud, and so does whatever the reloads have read. The
exception is the time between the moment at which the cloud accepts a change and the moment at which
the change is brought into the state. Then it is the updated view that corresponds. What reloads
read before is of no use any more, but they will find the counter raised.
-/

namespace NodeGroups.Group

variable {σ : Type}

/-- Whether others than the group's own requests to itself are concerned: the cloud accepted a
change, or somebody else changed something. -/
def Event.isRemote : Event σ → Bool
  | .accepted .. | .intervened .. => true
  | _ => false

/-- What views have to do with the cloud, in the light of what is on record. -/
structure Correspondence (σ : Type) where
  /-- What is to hold of the cloud in any case. -/
  cloud : List (Event σ) → σ → Prop
  /-- What is to hold of a description that was read. -/
  description : List (Event σ) → σ → ScaleSet → Prop
  /-- What is to hold of a view and the target size that goes with it. -/
  view : List (Event σ) → σ → Cache → UInt32 → Prop

namespace Correspondence

/-- Whatever corresponds still does after something happened. -/
structure Carries (r : Correspondence σ) (record : List (Event σ)) (before : σ)
    (record' : List (Event σ)) (after : σ) : Prop where
  cloud : r.cloud record' after
  description : ∀ {d}, r.description record before d → r.description record' after d
  view : ∀ {cache target}, r.view record before cache target → r.view record' after cache target

/-- What a correspondence must meet in order to last. What is known of others is that the record is
`fair`. -/
structure Lasting (r : Correspondence σ) (client : Client σ) (g : Group)
    (fair : List (Event σ) → Prop) : Prop where
  fair_of_cons : ∀ {e record}, fair (e :: record) → fair record
  /-- What happens within the group does not matter. -/
  note : ∀ {e : Event σ} {record cloud}, e.isRemote = false → r.cloud record cloud →
    r.Carries record cloud (e :: record) cloud
  /-- A call that is only sent does not matter. -/
  sent : ∀ {call record cloud cloud'}, Sent client g call cloud cloud' → r.cloud record cloud →
    r.Carries record cloud record cloud'
  intervened : ∀ {record before after}, fair (.intervened before after :: record) →
    r.cloud record before → r.Carries record before (.intervened before after :: record) after
  described : ∀ {record cloud d}, client.describe g.resourceGroup g.name cloud = .ok d →
    r.cloud record cloud → r.description record cloud d
  listed : ∀ {record cloud d listing}, client.list g.resourceGroup g.name cloud = .ok listing →
    r.cloud record cloud → r.description record cloud d →
    r.view record cloud (.build d listing) d.capacity
  /-- An accepted change does to the view what it does to the cloud. -/
  executed : ∀ {record cloud cloud' v m change} (who : Nat), Planned g v m change →
    change.execute client g cloud = .ok cloud' → r.cloud record cloud →
    r.view record cloud v.cache v.target →
    r.cloud (.accepted who change :: record) cloud'
      ∧ r.view (.accepted who change :: record) cloud' (change.updateView v).cache change.target

variable {r : Correspondence σ} {record record' record'' : List (Event σ)}
  {cloud cloud' cloud'' : σ}

theorem Carries.refl (h : r.cloud record cloud) : r.Carries record cloud record cloud :=
  ⟨h, id, id⟩

theorem Carries.trans (h : r.Carries record cloud record' cloud')
    (h' : r.Carries record' cloud' record'' cloud'') :
    r.Carries record cloud record'' cloud'' :=
  ⟨h'.cloud, fun hd ↦ h'.description (h.description hd), fun hv ↦ h'.view (h.view hv)⟩

end Correspondence

/-! ## The invariant -/

/-- The change that an activity is to bring into the state, once the cloud accepted it. -/
def Activity.accepted? : Activity → Option Change
  | .accepted change => some change
  | _ => none

theorem Activity.accepted?_of_isStoring {a : Activity} (hidle : a.isStoring = false) :
    a.accepted? = none := by
  cases a with
  | accepted change => cases hidle
  | _ => rfl

theorem Activity.accepted?_of_isWriting {a : Activity} (hidle : a.isWriting = false) :
    a.accepted? = none := by
  cases a with
  | accepted change => cases hidle
  | _ => rfl

theorem Activity.accepted?_of_isReload {a : Activity} (hreload : a.isReload = true) :
    a.accepted? = none := by
  cases a with
  | accepted change => cases hreload
  | _ => rfl

namespace Traffic

def accepted? (t : Traffic σ) (who : Nat) : Option Change :=
  (t.jobs who).bind fun j ↦ j.activity.accepted?

/-- No change is accepted that the state does not have in it. -/
def IsSettled (t : Traffic σ) : Prop := ∀ who, t.accepted? who = none

theorem accepted?_eq {t : Traffic σ} {who : Nat} {job : Job} (hjob : t.jobs who = some job) :
    t.accepted? who = job.activity.accepted? := by
  rw [accepted?, hjob]
  rfl

theorem accepted?_put (who : Nat) (job : Job) (t : Traffic σ) :
    (t.put who job).accepted? = Function.update t.accepted? who job.activity.accepted? := by
  funext other
  by_cases hother : other = who
  · subst hother
    simp [accepted?, put]
  · simp [accepted?, put, hother]

theorem accepted?_of_isIdle {t : Traffic σ} {who : Nat} (hidle : t.IsIdle who) :
    t.accepted? who = none := by
  cases hjob : t.jobs who with
  | none => rw [accepted?, hjob, Option.bind_none]
  | some job =>
    obtain ⟨ending, hended⟩ := hidle job hjob
    rw [accepted?_eq hjob, hended]
    rfl

end Traffic

/-- What an activity has read corresponds to the cloud. -/
def Activity.Reads (r : Correspondence σ) (record : List (Event σ)) (cloud : σ) : Activity → Prop
  | .listing _ d _ => r.description record cloud d
  | .fetched _ cache | .queued (.install _ cache) => r.view record cloud cache cache.capacity
  | _ => True

theorem Activity.Reads.carry {r : Correspondence σ} {record record' : List (Event σ)}
    {cloud cloud' : σ} {a : Activity} (h : a.Reads r record cloud)
    (hcarries : r.Carries record cloud record' cloud') : a.Reads r record' cloud' := by
  cases a with
  | listing generation d pending => exact hcarries.description h
  | fetched generation cache => exact hcarries.view h
  | queued wish =>
    cases wish with
    | install generation cache => exact hcarries.view h
    | _ => trivial
  | _ => trivial

theorem Activity.reads_queued {r : Correspondence σ} {record : List (Event σ)} {cloud : σ}
    {errand : Errand} {wish : Wish} (hwish : errand.wish? = some wish) :
    (Activity.queued wish).Reads r record cloud := by
  cases errand with
  | reload => cases hwish
  | _ => rw [← Option.some.inj hwish]; trivial

/-- The invariant. -/
structure Corresponds (r : Correspondence σ) (record : List (Event σ)) (t : Traffic σ) : Prop where
  cloud : r.cloud record t.cloud
  view : t.IsSettled → ∀ v ∈ t.cell.state.view, r.view record t.cloud v.cache v.target
  /-- What was read corresponds if it can still be of use. -/
  reads : t.IsSettled → ∀ {who job}, t.jobs who = some job → IsFresh who record →
    job.activity.Reads r record t.cloud
  /-- While a change is to be brought into the state, the updated view corresponds. -/
  updated : ∀ {who change}, t.accepted? who = some change →
    ∀ v ∈ t.cell.state.view, r.view record t.cloud (change.updateView v).cache change.target

/-! ## What the lock sees to -/

section

variable {g : Group} {t : Traffic σ} {who : Nat}

theorem Orderly.accepted?_of_ne (horderly : Orderly g t)
    (hheld : t.cell.lock.isHeldBy who = true) {other : Nat} (hne : other ≠ who) :
    t.accepted? other = none := by
  cases hj : t.jobs other with
  | none => rw [Traffic.accepted?, hj, Option.bind_none]
  | some j =>
    rw [Traffic.accepted?_eq hj]
    exact Activity.accepted?_of_isWriting (horderly.isWriting_eq_false hheld hne hj)

/-- If the one who holds the lock to write has no change accepted himself, everything is settled. -/
theorem Orderly.isSettled_of_isHeldBy (horderly : Orderly g t)
    (hheld : t.cell.lock.isHeldBy who = true) (hnone : t.accepted? who = none) :
    t.IsSettled := by
  intro other
  by_cases heq : other = who
  · rwa [heq]
  · exact horderly.accepted?_of_ne hheld heq

theorem Orderly.isSettled_put (horderly : Orderly g t)
    (hheld : t.cell.lock.isHeldBy who = true) {job : Job}
    (hnone : job.activity.accepted? = none) : (t.put who job).IsSettled := by
  intro other
  rw [Traffic.accepted?_put]
  by_cases heq : other = who
  · rw [heq, Function.update_self, hnone]
  · rw [Function.update_of_ne heq, horderly.accepted?_of_ne hheld heq]

end

/-! ## One step -/

namespace Corresponds

variable {r : Correspondence σ} {client : Client σ} {g : Group} {fair : List (Event σ) → Prop}
  {record : List (Event σ)} {t : Traffic σ} {who : Nat}

theorem initial {cloud : σ} (clock : Clock) (h : r.cloud [] cloud) :
    Corresponds r [] (.initial cloud clock) where
  cloud := h
  view _ := nofun
  reads _ := nofun
  updated := nofun

theorem put (h : Corresponds r record t) {job : Job} {cell : Cell} {event : Option (Event σ)}
    {cloud' : σ} (hcarries : r.Carries record t.cloud (event.toList ++ record) cloud')
    (hevent : ∀ other, other ≠ who → event ≠ some (.counted other))
    (hbefore : t.accepted? who = none) (hafter : job.activity.accepted? = none)
    (hstate : cell.state = t.cell.state)
    (hreads : t.IsSettled → IsFresh who (event.toList ++ record) →
      job.activity.Reads r (event.toList ++ record) cloud') :
    Corresponds r (event.toList ++ record) { t.put who job with cell, cloud := cloud' } := by
  have hsame : (t.put who job).accepted? = t.accepted? := by
    rw [Traffic.accepted?_put, Function.update_eq_self_iff, hafter, hbefore]
  have hsettled (hs : (t.put who job).IsSettled) : t.IsSettled := by
    rwa [Traffic.IsSettled, hsame] at hs
  constructor
  case cloud => exact hcarries.cloud
  case view =>
    intro hs v hv
    dsimp only at hv
    rw [hstate] at hv
    exact hcarries.view (h.view (hsettled hs) v hv)
  case reads =>
    intro hs other j hj
    refine Traffic.forall_put (p := fun other j ↦ IsFresh other (event.toList ++ record) →
      j.activity.Reads r (event.toList ++ record) cloud') (hreads (hsettled hs)) ?_ hj
    intro other j hne hj hfresh
    exact (h.reads (hsettled hs) hj (hfresh.of_append (hevent other hne))).carry hcarries
  case updated =>
    intro other change hchange v hv
    dsimp only at hv
    rw [hstate] at hv
    have hold : t.accepted? other = some change := by
      rw [← hsame]
      exact hchange
    exact hcarries.view (h.updated hold v hv)

theorem accept (hr : r.Lasting client g fair) (h : Corresponds r record t)
    (horderly : Orderly g t) {errand : Errand} {change : Change} {pending : Pending} {cloud' : σ}
    (hjob : t.jobs who = some ⟨errand, .changing change pending⟩)
    (hexecute : change.execute client g t.cloud = .ok cloud') :
    Corresponds r (.accepted who change :: record)
      { t.put who ⟨errand, .accepted change⟩ with cloud := cloud' } := by
  obtain ⟨m, -, hplan⟩ := horderly.fits hjob
  obtain ⟨v, hview, hplanned⟩ := planned_of_plan hplan
  have hheld := horderly.held hjob rfl
  have hsettled := horderly.isSettled_of_isHeldBy hheld (Traffic.accepted?_eq hjob)
  obtain ⟨hcloud, hupdated⟩ := hr.executed who hplanned hexecute h.cloud (h.view hsettled v hview)
  have haccepted := Traffic.accepted?_put who ⟨errand, .accepted change⟩ t
  have hself : (t.put who ⟨errand, .accepted change⟩).accepted? who = some change := by
    rw [haccepted, Function.update_self]
    rfl
  -- From here to the end of the mutation the old view says nothing of the cloud.
  have hunsettled : ¬ (t.put who ⟨errand, .accepted change⟩).IsSettled := by
    intro hs
    have hnone := hs who
    rw [hself] at hnone
    cases hnone
  constructor
  case cloud => exact hcloud
  case view => exact fun hs ↦ absurd hs hunsettled
  case reads => exact fun hs ↦ absurd hs hunsettled
  case updated =>
    intro other change' hchange v' hv'
    obtain rfl : v = v' := Option.some.inj (hview.symm.trans hv')
    by_cases heq : other = who
    · subst heq
      obtain rfl : change = change' := Option.some.inj (hself.symm.trans hchange)
      exact hupdated
    · have hnone : (t.put who ⟨errand, .accepted change⟩).accepted? other = none := by
        rw [haccepted, Function.update_of_ne heq, horderly.accepted?_of_ne hheld heq]
      have hchange := hnone.symm.trans hchange
      cases hchange

theorem of_isSettled (hs : t.IsSettled) (hcloud : r.cloud record t.cloud)
    (hview : ∀ v ∈ t.cell.state.view, r.view record t.cloud v.cache v.target)
    (hreads : ∀ {who job}, t.jobs who = some job → IsFresh who record →
      job.activity.Reads r record t.cloud) : Corresponds r record t where
  cloud := hcloud
  view _ := hview
  reads _ := hreads
  updated {who change} hchange := by
    rw [hs who] at hchange
    cases hchange

theorem commit (hr : r.Lasting client g fair) (h : Corresponds r record t)
    (horderly : Orderly g t) {errand : Errand} {m : Mutation} {change : Change} {lock : Lock}
    {ending : Ending} (hjob : t.jobs who = some ⟨errand, .accepted change⟩) :
    Corresponds r (.completed who m change :: record)
      { t.put who ⟨errand, .ended ending⟩ with
        cell := ⟨change.commit t.cell.state, lock⟩ } := by
  have hcarries : r.Carries record t.cloud (.completed who m change :: record) t.cloud :=
    hr.note rfl h.cloud
  refine of_isSettled (horderly.isSettled_put (horderly.held hjob rfl) rfl) hcarries.cloud
    (fun v' hv' ↦ ?_) fun _ hfresh ↦ ?_
  · obtain ⟨v, hview, rfl⟩ := Option.map_eq_some_iff.mp hv'
    rw [Change.target_updateView]
    exact hcarries.view (h.updated (Traffic.accepted?_eq hjob) v hview)
  · -- Whatever was read before the cloud changed, the counter is past it now.
    obtain ⟨-, hnone⟩ := hfresh.of_cons nofun
    cases hnone

theorem install (hr : r.Lasting client g fair) (h : Corresponds r record t)
    (horderly : Orderly g t) {errand : Errand} {generation : UInt64} {cache : Cache} {e : Event σ}
    {now : Nat} {lock : Lock} {ending : Ending}
    (hjob : t.jobs who = some ⟨errand, .queued (.install generation cache)⟩)
    (hheld : t.cell.lock.isHeldBy who = true)
    (hfresh : t.cell.state.mutations = generation → IsFresh who record)
    (he : e.isRemote = false) (hevent : ∀ other, e ≠ .counted other) :
    Corresponds r (e :: record)
      { t.put who ⟨errand, .ended ending⟩ with
        cell := ⟨t.cell.state.install generation cache now, lock⟩ } := by
  have hcarries : r.Carries record t.cloud (e :: record) t.cloud := hr.note he h.cloud
  have hsettled := horderly.isSettled_of_isHeldBy hheld (Traffic.accepted?_eq hjob)
  refine of_isSettled (horderly.isSettled_put hheld rfl) hcarries.cloud (fun v hv ↦ ?_) ?_
  · dsimp only at hv
    by_cases hsame : t.cell.state.mutations = generation
    · rw [State.install_of_eq hsame] at hv
      rw [← Option.some.inj hv]
      exact hcarries.view (h.reads hsettled hjob (hfresh hsame))
    · rw [State.install_of_ne hsame] at hv
      exact hcarries.view (h.view hsettled v hv)
  · intro other j hj
    refine Traffic.forall_put (p := fun other j ↦ IsFresh other (e :: record) →
      j.activity.Reads r (e :: record) t.cloud) ?_ ?_ hj
    · intro _
      trivial
    · intro other j _ hj hfresh
      exact (h.reads hsettled hj (hfresh.of_cons (hevent other)).1).carry hcarries

theorem ended (h : Corresponds r record t) {job : Job} {cell : Cell} (ending : Ending)
    (hjob : t.jobs who = some job) (hidle : job.activity.isStoring = false)
    (hstate : cell.state = t.cell.state) :
    Corresponds r ((job.event? who t.cell.state (.ended ending)).toList ++ record)
      { t.put who { job with activity := .ended ending } with cell } := by
  have hbefore : t.accepted? who = none := by
    rw [Traffic.accepted?_eq hjob, Activity.accepted?_of_isStoring hidle]
  rw [Job.event?_ended ending hidle]
  exact h.put (.refl h.cloud) nofun hbefore rfl hstate fun _ _ ↦ trivial

/-- An activity goes on. -/
theorem proceed (hr : r.Lasting client g fair) (h : Corresponds r record t)
    (horderly : Orderly g t) (hcounted : Counted record t) {job : Job} {scene : Scene σ}
    (hjob : t.jobs who = some job)
    (hadvance : Advance client g who t.clock ⟨job.activity, t.cell, t.cloud⟩ scene)
    (hround : NeverCameRound
      ((job.event? who t.cell.state scene.activity : Option (Event σ)).toList ++ record)) :
    Corresponds r ((job.event? who t.cell.state scene.activity).toList ++ record)
      { t.put who { job with activity := scene.activity } with
        cell := scene.cell, cloud := scene.cloud } := by
  have hfits := horderly.fits hjob
  have hreads := fun hsettled ↦ h.reads hsettled hjob
  have hbefore := Traffic.accepted?_eq hjob
  obtain ⟨errand, activity⟩ := job
  cases hadvance with
  | finish ending hout => exact h.ended ending hjob (Activity.isStoring_of_claim?_eq_none hout) rfl
  | leave ending hidle => exact h.ended ending hjob hidle rfl
  | queue hwish =>
    rw [Job.event?_queued]
    exact h.put (.refl h.cloud) nofun hbefore rfl rfl fun _ _ ↦ Activity.reads_queued hwish
  | count hcalls =>
    have hnoted := hr.note (e := .counted who) rfl h.cloud
    have hcarries := hnoted.trans (hr.sent hcalls.sent hnoted.cloud)
    refine h.put hcarries (fun other hne heq ↦ ?_) hbefore rfl rfl fun _ _ ↦ trivial
    exact hne (Event.counted.inj (Option.some.inj heq)).symm
  | ask hcalls => exact h.put (hr.sent hcalls.sent h.cloud) nofun hbefore rfl rfl fun _ _ ↦ trivial
  | call hheld hplan hcalls =>
    exact h.put (hr.sent hcalls.sent h.cloud) nofun hbefore rfl rfl fun _ _ ↦ trivial
  | accept hexecute => exact h.accept hr horderly hjob hexecute
  | commit =>
    obtain ⟨m, hm, -⟩ := hfits
    obtain rfl : errand = .mutate m := hm
    exact h.commit hr horderly hjob
  | describe hdescribe hcalls =>
    have hnoted := hr.note (e := .described who) rfl h.cloud
    have hcarries := hnoted.trans (hr.sent hcalls.sent hnoted.cloud)
    exact h.put hcarries nofun hbefore rfl rfl fun _ _ ↦
      hcarries.description (hr.described hdescribe h.cloud)
  | list hlist =>
    exact h.put (.refl h.cloud) nofun hbefore rfl rfl fun hsettled hfresh ↦
      hr.listed hlist h.cloud (hreads hsettled hfresh)
  | bring => exact h.put (.refl h.cloud) nofun hbefore rfl rfl hreads
  | install hheld =>
    rw [Job.event?_install] at hround ⊢
    refine h.install hr horderly hjob hheld (fun hsame ↦ ?_) ?_ fun other ↦ ?_
    · rw [if_pos hsame] at hround
      exact (hcounted.countedAt hjob rfl).isFresh (hcounted.mutations.symm.trans hsame) hround
    · split <;> rfl
    · split <;> nofun

theorem step (hr : r.Lasting client g fair) (h : Corresponds r record t)
    (horderly : Orderly g t) (hcounted : Counted record t) {event : Option (Event σ)}
    {t' : Traffic σ} (hstep : Step client g t event t') (hfair : fair (event.toList ++ record))
    (hround : NeverCameRound (event.toList ++ record)) :
    Corresponds r (event.toList ++ record) t' := by
  cases hstep with
  | arrive errand hidle =>
    exact h.put (.refl h.cloud) nofun (Traffic.accepted?_of_isIdle hidle) rfl rfl fun _ _ ↦ trivial
  | proceed order hjob hscene =>
    exact h.proceed hr horderly hcounted hjob (advance_of_step hscene) hround
  | giveUp e hjob hreload =>
    have hbefore := Traffic.accepted?_eq hjob
    rw [Activity.accepted?_of_isReload hreload] at hbefore
    exact h.put (.refl h.cloud) nofun hbefore rfl rfl fun _ _ ↦ trivial
  | elapse clock hnow => exact ⟨h.cloud, h.view, h.reads, h.updated⟩
  | intervene cloud =>
    have hcarries := hr.intervened hfair h.cloud
    refine ⟨hcarries.cloud, fun hsettled v hv ↦ hcarries.view (h.view hsettled v hv),
      fun hsettled _ _ hj hfresh ↦ ?_,
      fun haccepted v hv ↦ hcarries.view (h.updated haccepted v hv)⟩
    exact (h.reads hsettled hj (hfresh.of_cons nofun).1).carry hcarries

end Corresponds

/-! ## Runs -/

/-- A correspondence that lasts is one in every run, if it is one at the beginning. -/
theorem Run.corresponds {r : Correspondence σ} {client : Client σ} {g : Group}
    {fair : List (Event σ) → Prop} (hr : r.Lasting client g fair) {cloud : σ} {clock : Clock}
    (hstart : r.cloud [] cloud) {record : List (Event σ)} {t : Traffic σ}
    (hrun : Run client g (.initial cloud clock) record t) (hfair : fair record)
    (hround : NeverCameRound record) : Corresponds r record t := by
  induction hrun with
  | refl => exact .initial clock hstart
  | @tail record event _ _ hrun hstep ih =>
    have hfair' : fair record := by
      cases event with
      | none => exact hfair
      | some e => exact hr.fair_of_cons hfair
    exact (ih hfair' hround.of_append).step hr hrun.orderly hrun.counted hstep hfair hround

end NodeGroups.Group
