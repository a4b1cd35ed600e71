import NodeGroups.Proofs.Counter
import NodeGroups.Proofs.Planning

/-!
# How a view came about

Two kinds of steps touch the view of a group. A reload replaces it, whatever was there, and a
mutation that ends well updates it, having been planned from it. So a view is what the last reload
installed, with the changes of the mutations since. `Run.view_history` is the induction along that
line: what holds of each view just installed, and survives updates, holds of every view, with
respect to the listing that it goes back to and to what is on record since.
-/

namespace NodeGroups.Group

variable {σ : Type}

def Event.installed? : Event σ → Option Cache
  | .installed _ cache => some cache
  | _ => none

def Event.isInstallation (e : Event σ) : Bool := e.installed?.isSome

/-- The last view that was installed, and what is on record since. -/
def LastInstalled (cache : Cache) (later record : List (Event σ)) : Prop :=
  ∃ who earlier, record = later ++ .installed who cache :: earlier
    ∧ ∀ e ∈ later, e.isInstallation = false

namespace LastInstalled

variable {cache : Cache} {later record : List (Event σ)}

theorem now (who : Nat) (cache : Cache) (record : List (Event σ)) :
    LastInstalled cache [] (.installed who cache :: record) :=
  ⟨who, record, rfl, nofun⟩

theorem cons (h : LastInstalled cache later record) {e : Event σ}
    (he : e.isInstallation = false) : LastInstalled cache (e :: later) (e :: record) := by
  obtain ⟨who, earlier, rfl, hlater⟩ := h
  refine ⟨who, earlier, rfl, fun e' hmem ↦ ?_⟩
  rcases List.mem_cons.mp hmem with rfl | hmem
  · exact he
  · exact hlater e' hmem

theorem mem (h : LastInstalled cache later record) : ∃ who, .installed who cache ∈ record := by
  obtain ⟨who, earlier, rfl, -⟩ := h
  exact ⟨who, List.mem_append_right _ List.mem_cons_self⟩

end LastInstalled

/-! ## One step -/

/-- What a step does to the view. -/
inductive ViewStep (g : Group) : Option View → Option (Event σ) → Option View → Prop
  | keep {view : Option View} {event : Option (Event σ)}
      (hinstallation : ∀ e ∈ event, e.isInstallation = false)
      (hcompletion : ∀ e ∈ event, e.isCompletion = false) : ViewStep g view event view
  | install {view : Option View} (who : Nat) (cache : Cache) (now : Nat) :
      ViewStep g view (some (.installed who cache)) (some ⟨cache, cache.capacity, now⟩)
  | update {v : View} {m : Mutation} {change : Change} (who : Nat)
      (hplanned : Planned g v m change) :
      ViewStep g (some v) (some (.completed who m change)) (some (change.updateView v))

namespace ViewStep

variable {client : Client σ} {g : Group}

theorem quiet (view : Option View) : ViewStep (σ := σ) g view none view := .keep nofun nofun

theorem of_advance {t : Traffic σ} (horderly : Orderly g t) {who : Nat} {job : Job}
    {scene : Scene σ} (hjob : t.jobs who = some job)
    (hadvance : Advance client g who t.clock ⟨job.activity, t.cell, t.cloud⟩ scene) :
    ViewStep g t.cell.state.view (job.event? who t.cell.state scene.activity : Option (Event σ))
      scene.cell.state.view := by
  have hfits := horderly.fits hjob
  obtain ⟨errand, activity⟩ := job
  cases hadvance with
  | finish ending hout =>
    rw [Job.event?_ended ending (Activity.isStoring_of_claim?_eq_none hout)]
    exact quiet _
  | leave ending hidle =>
    rw [Job.event?_ended ending hidle]
    exact quiet _
  | queue hwish =>
    rw [Job.event?_queued]
    exact quiet _
  | count hcalls => exact .keep (by rintro e ⟨⟩; rfl) (by rintro e ⟨⟩; rfl)
  | ask hcalls => exact quiet _
  | call hheld hplan hcalls => exact quiet _
  | accept hexecute => exact .keep (by rintro e ⟨⟩; rfl) (by rintro e ⟨⟩; rfl)
  | @commit change =>
    -- The change was planned in the very state that it is brought into.
    obtain ⟨m, hm, hplan⟩ := hfits
    obtain rfl : errand = .mutate m := hm
    obtain ⟨v, hview, hplanned⟩ := planned_of_plan hplan
    have hcommit : (change.commit t.cell.state).view = some (change.updateView v) := by
      rw [Change.commit, hview]
      rfl
    rw [Cell.state_withdraw, hcommit, hview]
    exact .update who hplanned
  | describe hdescribe hcalls => exact .keep (by rintro e ⟨⟩; rfl) (by rintro e ⟨⟩; rfl)
  | list hlist => exact quiet _
  | bring => exact quiet _
  | @install generation cache _ _ hheld =>
    by_cases hsame : t.cell.state.mutations = generation
    · rw [Job.event?_install, if_pos hsame, Cell.state_withdraw, State.install_of_eq hsame]
      exact .install who cache _
    · rw [Job.event?_install, if_neg hsame, Cell.state_withdraw, State.install_of_ne hsame]
      exact .keep (by rintro e ⟨⟩; rfl) (by rintro e ⟨⟩; rfl)

theorem of_step {t t' : Traffic σ} {event : Option (Event σ)} (horderly : Orderly g t)
    (hstep : Step client g t event t') :
    ViewStep g t.cell.state.view event t'.cell.state.view := by
  cases hstep with
  | arrive errand hidle => exact quiet _
  | proceed order hjob hscene => exact of_advance horderly hjob (advance_of_step hscene)
  | giveUp e hjob hreload => exact quiet _
  | elapse clock hnow => exact quiet _
  | intervene cloud => exact .keep (by rintro e ⟨⟩; rfl) (by rintro e ⟨⟩; rfl)

theorem exists_view {view view' : Option View} {event : Option (Event σ)}
    (h : ViewStep g view event view') (hview : ∃ v, view = some v) : ∃ v, view' = some v := by
  cases h with
  | keep hinstallation hcompletion => exact hview
  | install who cache now => exact ⟨_, rfl⟩
  | update who hplanned => exact ⟨_, rfl⟩

end ViewStep

/-! ## A whole run -/

/-- A group that has a view has one from then on. -/
theorem Run.exists_view {client : Client σ} {g : Group} {start t : Traffic σ}
    {record : List (Event σ)} (hrun : Run client g start record t) (hstart : Orderly g start)
    (hview : ∃ v, start.cell.state.view = some v) : ∃ v, t.cell.state.view = some v := by
  induction hrun with
  | refl => exact hview
  | tail hrun hstep ih => exact (ViewStep.of_step (hrun.orderly_of hstart) hstep).exists_view ih

/-- What holds of every view just installed, and is kept by what leaves the view alone and by every
update, holds of the view of the group with respect to the last installation. -/
theorem Run.view_history {client : Client σ} {g : Group} {cloud : σ} {clock : Clock}
    {p : Cache → List (Event σ) → View → Prop}
    (hinstall : ∀ cache now, p cache [] ⟨cache, cache.capacity, now⟩)
    (hkeep : ∀ cache later v e, e.isCompletion = false → p cache later v → p cache (e :: later) v)
    (hupdate : ∀ cache later v who m change, Planned g v m change → p cache later v →
      p cache (.completed who m change :: later) (change.updateView v))
    {record : List (Event σ)} {t : Traffic σ}
    (hrun : Run client g (.initial cloud clock) record t) {v : View}
    (hview : t.cell.state.view = some v) :
    ∃ cache later, LastInstalled cache later record ∧ p cache later v := by
  induction hrun generalizing v with
  | refl => cases hview
  | @tail record event t t' hrun hstep ih =>
    have hviews := ViewStep.of_step hrun.orderly hstep
    -- With variables for the two views, the cases of a step are those of `ViewStep`.
    generalize t.cell.state.view = before at hviews ih
    generalize t'.cell.state.view = after at hviews hview
    cases hviews with
    | keep hinstallation hcompletion =>
      obtain ⟨cache, later, hlast, hp⟩ := ih hview
      cases event with
      | none => exact ⟨cache, later, hlast, hp⟩
      | some e =>
        exact ⟨cache, e :: later, hlast.cons (hinstallation e rfl),
          hkeep cache later v e (hcompletion e rfl) hp⟩
    | install who cache now =>
      rw [← Option.some.inj hview]
      exact ⟨cache, [], .now who cache record, hinstall cache now⟩
    | @update v₀ m change who hplanned =>
      obtain ⟨cache, later, hlast, hp⟩ := ih rfl
      rw [← Option.some.inj hview]
      exact ⟨cache, .completed who m change :: later, hlast.cons rfl,
        hupdate cache later v₀ who m change hplanned hp⟩

end NodeGroups.Group
