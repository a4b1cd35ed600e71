import Mathlib
import NodeGroups.Proofs.History
import NodeGroups.Proofs.Play

/-!
# The target size as a balance

The target size of a group is what the cloud said when the view was installed, plus and minus what
the group's own mutations changed since. The equation is one of integers: neither the arithmetic of
sizes nor a reload that comes late makes a mutation count twice or not at all. Nothing is assumed
of the cloud, which may say anything at any time.

Deletions are where it takes an assumption. They count with the number of instances that were
submitted, which must be a size; it is one whenever the listing was not longer than sizes go.
-/

namespace NodeGroups.Group

variable {σ : Type}

/-- By how much a mutation that ended well changed the target size. -/
def Event.effect : Event σ → Int
  | .completed _ (.increase delta) _ => delta.toNat
  | .completed _ (.decrease delta) _ => -delta.toNat
  | .completed _ (.delete _) change => -change.submitted.length
  | _ => 0

theorem Event.effect_eq_zero {e : Event σ} (he : e.isCompletion = false) : e.effect = 0 := by
  cases e with
  | completed who m change => cases he
  | _ => rfl

/-- By how much the mutations on record changed the target size. -/
def balance (record : List (Event σ)) : Int := (record.map Event.effect).sum

theorem balance_cons (e : Event σ) (record : List (Event σ)) :
    balance (e :: record) = e.effect + balance record := by
  rw [balance, List.map_cons, List.sum_cons, balance]

/-- A view of a group in balance with the listing that it goes back to. -/
structure Balanced (cache : Cache) (later : List (Event σ)) (v : View) : Prop where
  length : v.cache.instances.length = cache.instances.length
  target : cache.instances.length < 2 ^ 32 →
    (v.target.toNat : Int) = cache.capacity.toNat + balance later

namespace Balanced

variable {cache : Cache} {later : List (Event σ)} {v : View}

theorem now (cache : Cache) (now : Nat) :
    Balanced (σ := σ) cache [] ⟨cache, cache.capacity, now⟩ where
  length := rfl
  target _ := (Int.add_zero _).symm

theorem keep (h : Balanced cache later v) {e : Event σ} (he : e.isCompletion = false) :
    Balanced cache (e :: later) v where
  length := h.length
  target hlt := by rw [balance_cons, Event.effect_eq_zero he, Int.zero_add, h.target hlt]

theorem update (h : Balanced cache later v) {g : Group} {m : Mutation} {change : Change}
    (who : Nat) (hplanned : Planned g v m change) :
    Balanced cache (.completed who m change :: later) (change.updateView v) where
  length := by rw [Change.instances_updateView, length_markDeleting, h.length]
  target hlt := by
    have hbefore := h.target hlt
    rw [balance_cons, Change.target_updateView]
    cases hplanned with
    | increase hpos hsum hmax =>
      rw [Event.effect, Change.target]
      omega
    | decrease hpos hdiff hlive hmin =>
      rw [Event.effect, Change.target]
      omega
    | delete hresolve hsome hdiff hmin =>
      -- The number of those submitted is a size, as there are not more of them than instances.
      have hle := length_deletable_le hresolve
      rw [h.length] at hle
      rw [toNat_clampSize_of_lt (Nat.lt_of_le_of_lt hle hlt)] at hdiff
      rw [Event.effect, Change.target, Change.submitted]
      omega

end Balanced

/-- The view of a group is in balance with the listing that was installed last. -/
theorem Run.balanced {client : Client σ} {g : Group} {cloud : σ} {clock : Clock}
    {record : List (Event σ)} {t : Traffic σ}
    (hrun : Run client g (.initial cloud clock) record t) {v : View}
    (hview : t.cell.state.view = some v) :
    ∃ cache later, LastInstalled cache later record ∧ Balanced cache later v :=
  hrun.view_history Balanced.now (fun _ _ _ _ he h ↦ h.keep he)
    (fun _ _ _ who _ _ hplanned h ↦ h.update who hplanned) hview

/-! ## Installations -/

theorem Step.install_inv {client : Client σ} {g : Group} {t t' : Traffic σ} {who : Nat}
    {cache : Cache} (hstep : Step client g t (some (.installed who cache)) t') :
    ∃ job, t.jobs who = some job
      ∧ job.activity = .queued (.install t.cell.state.mutations cache) := by
  generalize hevent : some (Event.installed who cache) = event at hstep
  cases hstep with
  | @proceed other job scene order hjob hscene =>
    obtain ⟨errand, activity⟩ := job
    cases advance_of_step hscene with
    | finish ending hout =>
      rw [Job.event?_ended ending (Activity.isStoring_of_claim?_eq_none hout)] at hevent
      cases hevent
    | leave ending hidle =>
      rw [Job.event?_ended ending hidle] at hevent
      cases hevent
    | queue hwish =>
      rw [Job.event?_queued] at hevent
      cases hevent
    | @commit change => cases errand <;> cases hevent
    | @install generation fetched _ _ hheld =>
      rw [Job.event?_install] at hevent
      split at hevent
      · next hsame =>
        cases hevent
        exact ⟨_, hjob, by rw [hsame]⟩
      · cases hevent
    | _ => cases hevent
  | _ => cases hevent

/-- No mutation ended well between the moment at which a reload read the counter and the moment at
which he installed his view. -/
theorem Run.isFresh_of_installed {client : Client σ} {g : Group} {cloud : σ} {clock : Clock}
    {t : Traffic σ} {later earlier : List (Event σ)} {who : Nat} {cache : Cache}
    (hrun : Run client g (.initial cloud clock) (later ++ .installed who cache :: earlier) t)
    (hround : NeverCameRound (later ++ .installed who cache :: earlier)) :
    IsFresh who earlier := by
  obtain ⟨t₁, t₂, hrun₁, hstep⟩ := hrun.exists_step
  obtain ⟨job, hjob, hactivity⟩ := hstep.install_inv
  have hcounted := hrun₁.counted
  have hread : CountedAt who t₁.cell.state.mutations earlier :=
    hcounted.countedAt hjob (by rw [hactivity, Activity.generation?])
  exact hread.isFresh hcounted.mutations.symm hround.of_append

/-- No mutation that was accepted is lost to a reload: none ends well while a view is fetched that
is then installed, and the target size is the capacity that was installed last with all that the
mutations changed since, and with nothing else. -/
theorem Run.no_mutation_lost {client : Client σ} {g : Group} {cloud : σ} {clock : Clock}
    {record : List (Event σ)} {t : Traffic σ}
    (hrun : Run client g (.initial cloud clock) record t)
    (hbound : completions record < 2 ^ 64)
    (hlength : ∀ who cache, .installed who cache ∈ record → cache.instances.length < 2 ^ 32) :
    (∀ later who cache earlier, record = later ++ .installed who cache :: earlier →
      IsFresh who earlier)
    ∧ ∀ v, t.cell.state.view = some v → ∃ cache later, LastInstalled cache later record
        ∧ (v.target.toNat : Int) = cache.capacity.toNat + balance later := by
  constructor
  · rintro later who cache earlier rfl
    exact hrun.isFresh_of_installed (.of_completions_lt hbound)
  · intro v hview
    obtain ⟨cache, later, hlast, hbalanced⟩ := hrun.balanced hview
    obtain ⟨who, hmem⟩ := hlast.mem
    exact ⟨cache, later, hlast, hbalanced.target (hlength who cache hmem)⟩

/-- A reload that read the counter before an increase and comes back after it. -/
def overtakenReload : List (Move Memory) :=
  Move.reload 0 ++ Move.request 1 .reload 1 ++ Move.mutation 2 (.increase 1)
    ++ List.replicate 4 (.proceed 1)

/-- The view of the reload that was overtaken is dropped, and the increase stays. -/
theorem Run.no_mutation_lost_of_overtaken : ∃ record t v,
    Run Memory.client pool (.initial (cloudOf 3) .start) record t
    ∧ t.cell.state.view = some v ∧ v.target = 4
    ∧ ∃ cache later, LastInstalled cache later record
      ∧ (v.target.toNat : Int) = cache.capacity.toNat + balance later := by
  have hbound : completions (played 3 overtakenReload).1 < 2 ^ 64 := by decide +kernel
  have hlengths : ∀ e ∈ (played 3 overtakenReload).1, ∀ cache ∈ e.installed?,
      cache.instances.length < 2 ^ 32 := by decide +kernel
  obtain ⟨v, hview, htarget⟩ : ∃ v,
      (played 3 overtakenReload).2.cell.state.view = some v ∧ v.target = 4 :=
    Option.map_eq_some_iff.mp (by decide +kernel)
  have hrun := run_played 3 overtakenReload
  have hlost := hrun.no_mutation_lost hbound fun who cache hmem ↦ hlengths _ hmem cache rfl
  exact ⟨_, _, v, hrun, hview, htarget, hlost.2 v hview⟩

end NodeGroups.Group
