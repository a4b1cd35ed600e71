import NodeGroups.Proofs.Memory

/-!
# How the cloud behaves towards a group

All that a reload of a group learns from the cloud is what becomes of its two calls: what the cloud
decides about each of them when it is sent, and what it answers in the end. That is the manner of
the cloud towards the group. Together with a time limit it settles how a reload ends and how long
it takes, as long as nobody else acts on the group or its scale set.

A client whose calls for one group have consequences for another could make the groups depend on
each other. A client is discreet if there are no such consequences.
-/

namespace NodeGroups

variable {σ : Type} {client : Client σ}

/-! ## Calls on their way -/

/-- What a call gives in the end: a failure that was decided when it was sent, or the answer. -/
def Receipt.settle {α : Type} (r : Receipt) (answer : Except CloudError α) : Except CloudError α :=
  Pending.outcome ⟨.nothing, r.failure⟩ answer

/-- A call is under way that was sent at a moment, and whose time is not over yet. -/
structure Pending.IsSent (p : Pending) (r : Receipt) (moment now : Nat) : Prop where
  sent : ∃ clock order, clock.now = moment ∧ p = .ofReceipt r clock order
  le : moment ≤ now
  le_due : ∀ ms, r.latency.ms? = some ms → now ≤ moment + ms

namespace Pending

variable {p : Pending} {clock : Clock}

theorem rung_lt (hwaits : ¬ p.isOver clock = true) :
    ∀ timer ∈ p.timer?, clock.rung < timer.due := by
  intro timer htimer
  rw [isOver] at hwaits
  rw [timer?] at htimer
  split at htimer
  · next t hwait =>
    obtain rfl := Option.some.inj htimer
    rw [hwait] at hwaits
    exact Nat.lt_of_not_le fun hle ↦ hwaits (decide_eq_true hle)
  · cases htimer

namespace IsSent

variable {r : Receipt} {moment now : Nat}

theorem ofReceipt (r : Receipt) (clock : Clock) (order : Nat) :
    (Pending.ofReceipt r clock order).IsSent r clock.now clock.now where
  sent := ⟨clock, order, rfl, rfl⟩
  le := Nat.le_refl _
  le_due _ _ := Nat.le_add_right _ _

theorem outcome_eq (h : p.IsSent r moment now) {α : Type} (answer : Except CloudError α) :
    p.outcome answer = r.settle answer := by
  obtain ⟨clock, order, -, rfl⟩ := h.sent
  rfl

theorem now_eq (h : p.IsSent r moment clock.now) (hrung : clock.rung ≤ clock.now)
    (hover : p.isOver clock = true) :
    ∃ ms, r.latency.ms? = some ms ∧ clock.now = moment + ms := by
  obtain ⟨sent, order, rfl, rfl⟩ := h.sent
  rw [isOver, Pending.ofReceipt] at hover
  cases hlatency : r.latency with
  | immediate =>
    have hms : r.latency.ms? = some 0 := by rw [hlatency]; rfl
    exact ⟨0, rfl, Nat.le_antisymm (h.le_due 0 hms) h.le⟩
  | after ms =>
    have hms : r.latency.ms? = some ms := by rw [hlatency]; rfl
    rw [hlatency] at hover
    exact ⟨ms, rfl, Nat.le_antisymm (h.le_due ms hms) ((of_decide_eq_true hover).trans hrung)⟩
  | never =>
    rw [hlatency] at hover
    cases hover

/-- A call that is not over is never answered, or there is a timer for the answer. -/
theorem timer?_of_waits (h : p.IsSent r moment now) (hwaits : ¬ p.isOver clock = true) :
    r.latency.ms? = none
      ∨ ∃ ms timer, r.latency.ms? = some ms ∧ p.timer? = some timer ∧ timer.due = moment + ms := by
  obtain ⟨sent, order, rfl, rfl⟩ := h.sent
  rw [isOver, Pending.ofReceipt] at hwaits
  rw [timer?, Pending.ofReceipt]
  cases hlatency : r.latency with
  | immediate =>
    rw [hlatency] at hwaits
    exact absurd rfl hwaits
  | after ms => exact .inr ⟨ms, sent.timer ms order, rfl, rfl, rfl⟩
  | never => exact .inl rfl

theorem lt_of_waits (h : p.IsSent r moment now) (hwaits : ¬ p.isOver clock = true) {ms : Nat}
    (hms : r.latency.ms? = some ms) : clock.rung < moment + ms := by
  rcases h.timer?_of_waits hwaits with hnever | ⟨ms', timer, hms', htimer, hdue⟩
  · cases hnever.symm.trans hms
  · obtain rfl := Option.some.inj (hms'.symm.trans hms)
    rw [← hdue]
    exact rung_lt hwaits timer htimer

theorem pass (h : p.IsSent r moment now) {now' : Nat} (hle : now ≤ now')
    (hwaits : ¬ p.isOver clock = true) (htimers : ∀ timer ∈ p.timer?, now' ≤ timer.due) :
    p.IsSent r moment now' where
  sent := h.sent
  le := Nat.le_trans h.le hle
  le_due ms hms := by
    rcases h.timer?_of_waits hwaits with hnever | ⟨ms', timer, hms', htimer, hdue⟩
    · cases hnever.symm.trans hms
    · obtain rfl := Option.some.inj (hms'.symm.trans hms)
      rw [← hdue]
      exact htimers timer htimer

end IsSent

end Pending

/-! ## Manners -/

/-- What becomes of the calls of a reload. -/
structure Manner where
  /-- What the cloud decides about the call for the description. Without a receipt, the client
  breaks down. -/
  described : Option Receipt
  description : Except CloudError ScaleSet
  /-- What the cloud decides about the call for the listing. -/
  listed : Option Receipt
  listing : Except CloudError (List Instance)

/-- The manner of a cloud towards a group. -/
def Client.manner (client : Client σ) (g : Group) (cloud : σ) : Manner where
  described := (client.submit .describe g.resourceGroup g.name cloud).map Prod.fst
  description := client.describe g.resourceGroup g.name cloud
  listed := (client.submit .list g.resourceGroup g.name cloud).map Prod.fst
  listing := client.list g.resourceGroup g.name cloud

namespace Manner

/-- What a reload of a group gets from a call that it sends when it has taken `spent` milliseconds,
and how many it has taken after the call. It waits for a late answer no longer than for one that
never comes. -/
def await {α : Type} (g : Group) (limit : Duration) (spent : Nat) (receipt : Option Receipt)
    (answer : Except CloudError α) : Except GroupError (α × Nat) :=
  match receipt with
  | none => .error .brokeDown
  | some r =>
    match r.latency.ms? with
    | some ms =>
      if limit.ms < spent + ms then .error (.timedOut g.name limit)
      else ((r.settle answer).mapError .cloud).map fun a ↦ (a, spent + ms)
    | none => .error (.timedOut g.name limit)

/-- How a reload of a group with a time limit ends: with a view after a number of milliseconds, or
with an error. -/
def outcome (g : Group) (limit : Duration) (m : Manner) : Except GroupError (Cache × Nat) := do
  let (description, spent) ← await g limit 0 m.described m.description
  let (listing, spent) ← await g limit spent m.listed m.listing
  pure (.build description listing, spent)

variable {α : Type} {g : Group} {limit : Duration} {spent : Nat} {r : Receipt}
  {answer : Except CloudError α}

theorem await_of_lt (hlate : ∀ ms, r.latency.ms? = some ms → limit.ms < spent + ms) :
    await g limit spent (some r) answer = .error (.timedOut g.name limit) := by
  rw [await]
  split
  · next ms hms => exact if_pos (hlate ms hms)
  · rfl

/-- A call that is over in time gives what the cloud answers, or an error of the cloud. -/
theorem await_of_le {ms : Nat} (hms : r.latency.ms? = some ms) (htime : spent + ms ≤ limit.ms) :
    await g limit spent (some r) answer
      = ((r.settle answer).mapError .cloud).map fun a ↦ (a, spent + ms) := by
  simp only [await, hms]
  exact if_neg (Nat.not_lt.mpr htime)

theorem answer_of_await {receipt : Option Receipt} {a : α} {spent' : Nat}
    (hawait : await g limit spent receipt answer = .ok (a, spent')) : answer = .ok a := by
  cases receipt with
  | none => cases hawait
  | some r =>
    by_cases hlate : ∀ ms, r.latency.ms? = some ms → limit.ms < spent + ms
    · rw [await_of_lt hlate] at hawait
      cases hawait
    · push Not at hlate
      obtain ⟨ms, hms, htime⟩ := hlate
      rw [await_of_le hms htime] at hawait
      obtain ⟨b, hsettle, heq⟩ := map_eq_ok_iff.mp hawait
      obtain ⟨rfl, -⟩ := Prod.mk.inj heq
      cases hanswer : r.settle answer with
      | error e =>
        rw [hanswer] at hsettle
        cases hsettle
      | ok c =>
        rw [hanswer] at hsettle
        obtain rfl := Except.ok.inj hsettle
        exact Group.answer_of_outcome hanswer

/-- The view that a reload ends with is of the description and the listing that the cloud gives. -/
theorem outcome_eq_ok {m : Manner} {cache : Cache}
    (houtcome : m.outcome g limit = .ok (cache, spent)) :
    ∃ description listing, m.description = .ok description ∧ m.listing = .ok listing
      ∧ cache = .build description listing := by
  obtain ⟨⟨description, spent'⟩, hdescription, hrest⟩ := bind_eq_ok_iff.mp houtcome
  obtain ⟨⟨listing, spent''⟩, hlisting, heq⟩ := bind_eq_ok_iff.mp hrest
  obtain ⟨rfl, -⟩ := Prod.mk.inj (Except.ok.inj heq)
  exact ⟨description, listing, answer_of_await hdescription, answer_of_await hlisting, rfl⟩

theorem outcome_of_description {m : Manner} {e : GroupError}
    (hdescription : await g limit 0 m.described m.description = .error e) :
    m.outcome g limit = .error e := by
  rw [outcome, hdescription]
  rfl

theorem outcome_of_listing {m : Manner} {description : ScaleSet}
    (hdescription : await g limit 0 m.described m.description = .ok (description, spent)) :
    m.outcome g limit = (await g limit spent m.listed m.listing).map
      fun l ↦ (.build description l.1, l.2) := by
  rw [outcome, hdescription]
  rfl

end Manner

/-! ## Discreet clients -/

/-- Asking for a description or a listing has no consequences for other groups, nor for what the
same group asks later. The groups are told apart by their names. -/
structure Client.Discreet (client : Client σ) (groups : List Group) : Prop where
  others : ∀ {g g' : Group} {call : Call} {cloud cloud' : σ}, g ∈ groups → g' ∈ groups →
    g'.name ≠ g.name → call ∈ [Call.describe, .list] → Group.Sent client g call cloud cloud' →
    client.manner g' cloud' = client.manner g' cloud
  /-- After the call for the description there are still the same answers, and the call for the
  listing is still to come. -/
  describe : ∀ {g : Group} {cloud cloud' : σ}, g ∈ groups →
    Group.Sent client g .describe cloud cloud' →
    client.manner g cloud'
      = { client.manner g cloud with described := (client.manner g cloud').described }
  /-- After the call for the listing, only its answer matters. -/
  list : ∀ {g : Group} {cloud cloud' : σ}, g ∈ groups → Group.Sent client g .list cloud cloud' →
    (client.manner g cloud').listing = (client.manner g cloud).listing

theorem Client.Discreet.of_subset {groups groups' : List Group} (h : client.Discreet groups)
    (hsub : groups' ⊆ groups) : client.Discreet groups' where
  others hg hg' := h.others (hsub hg) (hsub hg')
  describe hg := h.describe (hsub hg)
  list hg := h.list (hsub hg)

theorem Memory.manner_of_sent {g : Group} {call : Call} {m m' : Memory}
    (hsent : Group.Sent Memory.client g call m m') (g' : Group) :
    Memory.client.manner g' m' = Memory.client.manner g' m := by
  obtain ⟨receipt, hsubmit⟩ := hsent
  obtain ⟨-, heq⟩ := Option.ite_none_left_eq_some.mp hsubmit
  obtain ⟨-, rfl⟩ := Prod.mk.inj (Option.some.inj heq)
  simp [Client.manner, Memory.client, Memory.submit, Memory.find, Memory.holding?, apply_ite]

theorem Memory.discreet_client (groups : List Group) : Memory.client.Discreet groups where
  others _ _ _ _ hsent := Memory.manner_of_sent hsent _
  describe _ hsent := by rw [Memory.manner_of_sent hsent]
  list _ hsent := by rw [Memory.manner_of_sent hsent]

end NodeGroups
