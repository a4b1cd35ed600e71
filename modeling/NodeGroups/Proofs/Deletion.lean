import NodeGroups.Proofs.Correspondence
import NodeGroups.Proofs.Removal

/-!
# No instance is deleted twice

A group never asks a cloud in memory to delete an instance that is on its way out, and never gets
the deletion of one instance accepted twice. Others may do a good deal meanwhile: change the
capacity, add machines under numbers that were never used, remove machines. What they must not do is
to give an instance that exists the mark of deletion, or to take it away.

## The invariant

All instances whose deletion was accepted carry the mark in the cloud as long as they are there. An
instance that does not carry it in the view does not carry it in the cloud either, and its deletion
was never accepted. The numbers that were in the scale set at some time are kept apart from those
that are new.
-/

namespace NodeGroups.Group

/-! ## Numbers -/

def machines (g : Group) (m : Memory) : List Instance :=
  ((g.holding? m).map Holding.instances).getD []

def numbers (g : Group) (m : Memory) : List String := (g.machines m).map Instance.instanceId

/-- The numbers that were in the group's scale set at some time. -/
def known (g : Group) (start : Memory) : List (Event Memory) → List String
  | [] => g.numbers start
  | .intervened _ after :: record => g.numbers after ++ known g start record
  | _ :: record => known g start record

def Event.submitted {σ : Type} : Event σ → List String
  | .accepted _ change => change.submitted
  | _ => []

/-- The numbers of the instances whose deletion was accepted, each as often as it was. -/
def submitted {σ : Type} (record : List (Event σ)) : List String :=
  record.flatMap Event.submitted

/-- Others keep the numbers distinct, use no number again, and neither give an instance the mark of
deletion nor take it away. -/
def IsConsiderate (g : Group) (start : Memory) : List (Event Memory) → Prop
  | [] => True
  | .intervened before after :: record =>
    (g.numbers after).Nodup
    ∧ (∀ i ∈ g.machines after, i.instanceId ∈ g.known start record →
      ∃ j ∈ g.machines before, j.instanceId = i.instanceId
        ∧ j.state.isDeleting = i.state.isDeleting)
    ∧ IsConsiderate g start record
  | _ :: record => IsConsiderate g start record

variable {g : Group} {start : Memory}

theorem machines_of_holding? {m : Memory} {h : Holding} (hholding : g.holding? m = some h) :
    g.machines m = h.instances := by
  rw [machines, hholding]
  rfl

theorem machines_of_holding?_eq {m m' : Memory} (hsame : g.holding? m' = g.holding? m) :
    g.machines m' = g.machines m := by
  rw [machines, machines, hsame]

theorem IsConsiderate.of_cons {e : Event Memory} {record : List (Event Memory)}
    (h : g.IsConsiderate start (e :: record)) : g.IsConsiderate start record := by
  cases e with
  | intervened before after => exact h.2.2
  | _ => exact h

theorem known_cons {e : Event Memory} (record : List (Event Memory))
    (he : ∀ before after, e ≠ .intervened before after) :
    g.known start (e :: record) = g.known start record := by
  cases e with
  | intervened before after => exact absurd rfl (he before after)
  | _ => rfl

theorem submitted_cons {σ : Type} (e : Event σ) (record : List (Event σ)) :
    submitted (e :: record) = e.submitted ++ submitted record :=
  List.flatMap_cons

/-! ## The correspondence -/

/-- What is to hold of the instances in the cloud. -/
structure Tracked (g : Group) (start : Memory) (record : List (Event Memory)) (m : Memory) :
    Prop where
  distinct : (g.numbers m).Nodup
  known : ∀ i ∈ g.machines m, i.instanceId ∈ g.known start record
  marked : ∀ i ∈ g.machines m, i.instanceId ∈ submitted record → i.state.isDeleting = true
  submitted_known : submitted record ⊆ g.known start record
  submitted_distinct : (submitted record).Nodup

/-- What is to hold of the instances in a view: those without the mark can be deleted. -/
def Deletable (g : Group) (start : Memory) (record : List (Event Memory)) (m : Memory)
    (instances : List Instance) : Prop :=
  ∀ i ∈ instances, i.instanceId ∈ g.known start record
    ∧ (i.state.isDeleting = false → i.instanceId ∉ submitted record
      ∧ ∀ j ∈ g.machines m, j.instanceId = i.instanceId → j.state.isDeleting = false)

def marks (g : Group) (start : Memory) : Correspondence Memory where
  cloud := g.Tracked start
  description _ _ _ := True
  view record m cache _ := g.Deletable start record m cache.instances

variable {record record' : List (Event Memory)} {m m' : Memory}

theorem marks_carries (hmachines : g.machines m' = g.machines m)
    (hknown : g.known start record' = g.known start record)
    (hsubmitted : submitted record' = submitted record) (h : g.Tracked start record m) :
    (g.marks start).Carries record m record' m' where
  cloud := by
    constructor
    case distinct =>
      rw [numbers, hmachines]
      exact h.distinct
    case known =>
      rw [hmachines, hknown]
      exact h.known
    case marked =>
      rw [hmachines, hsubmitted]
      exact h.marked
    case submitted_known =>
      rw [hsubmitted, hknown]
      exact h.submitted_known
    case submitted_distinct =>
      rw [hsubmitted]
      exact h.submitted_distinct
  description := id
  view := by
    intro cache target hview
    change g.Deletable start record' m' cache.instances
    rw [Deletable, hmachines, hknown, hsubmitted]
    exact hview

theorem known_subset_intervened (before after : Memory) :
    g.known start record ⊆ g.known start (.intervened before after :: record) :=
  List.subset_append_right _ _

theorem tracked_of_intervened {before after : Memory}
    (hconsiderate : g.IsConsiderate start (.intervened before after :: record))
    (h : g.Tracked start record before) :
    g.Tracked start (.intervened before after :: record) after where
  distinct := hconsiderate.1
  known i hi := List.mem_append_left _ (List.mem_map_of_mem hi)
  marked i hi hsubmitted := by
    -- An instance with a number that was submitted was there before, and had its mark.
    obtain ⟨j, hj, hid, hstate⟩ := hconsiderate.2.1 i hi (h.submitted_known hsubmitted)
    rw [← hstate]
    exact h.marked j hj (hid ▸ hsubmitted)
  submitted_known id hid := known_subset_intervened before after (h.submitted_known hid)
  submitted_distinct := h.submitted_distinct

theorem deletable_of_intervened {before after : Memory} {instances : List Instance}
    (hconsiderate : g.IsConsiderate start (.intervened before after :: record))
    (hview : g.Deletable start record before instances) :
    g.Deletable start (.intervened before after :: record) after instances := by
  intro i hi
  obtain ⟨hknown, hunmarked⟩ := hview i hi
  refine ⟨known_subset_intervened before after hknown, fun hstate ↦ ?_⟩
  obtain ⟨hsubmitted, hcloud⟩ := hunmarked hstate
  refine ⟨hsubmitted, fun j hj hid ↦ ?_⟩
  obtain ⟨k, hk, hkid, hkstate⟩ := hconsiderate.2.1 j hj (hid ▸ hknown)
  rw [← hkstate]
  exact hcloud k hk (hkid.trans hid)

/-- A listing shows the marks as they are, since no two instances have one number. -/
theorem deletable_of_listing {h : Holding} (htracked : g.Tracked start record m)
    (hholding : g.holding? m = some h) :
    g.Deletable start record m (h.instances.map Instance.normalized) := by
  intro i hi
  obtain ⟨j, hj, rfl⟩ := List.mem_map.mp hi
  have hmachines := machines_of_holding? hholding
  rw [Instance.instanceId_normalized, Instance.state_normalized]
  rw [← hmachines] at hj
  refine ⟨htracked.known j hj, fun hstate ↦ ⟨fun hsubmitted ↦ ?_, fun k hk hid ↦ ?_⟩⟩
  · have hmarked := htracked.marked j hj hsubmitted
    rw [hstate] at hmarked
    cases hmarked
  · rwa [List.inj_on_of_nodup_map htracked.distinct hk hj hid]

theorem machines_of_execute {change : Change}
    (hexecute : change.execute Memory.client g m = .ok m') :
    g.machines m' = markDeleting change.submitted (g.machines m) := by
  obtain ⟨h, hholding, hafter⟩ := holding?_of_execute hexecute
  rw [machines_of_holding? hholding, machines_of_holding? hafter, Change.instances_apply]

theorem submitted_accepted (who : Nat) (change : Change) (record : List (Event Memory)) :
    submitted (.accepted who change :: record) = change.submitted ++ submitted record :=
  submitted_cons _ _

/-- What a mutation submits is new on record: it stands in the view without the mark. -/
theorem known_and_not_submitted {v : View} {mutation : Mutation} {change : Change}
    (hplanned : Planned g v mutation change)
    (hview : g.Deletable start record m v.cache.instances) :
    ∀ id ∈ change.submitted, id ∈ g.known start record ∧ id ∉ submitted record := by
  intro id hid
  obtain ⟨i, hi, rfl, hstays⟩ := hplanned.exists_of_mem_submitted hid
  obtain ⟨hknown, hunmarked⟩ := hview i hi
  exact ⟨hknown, (hunmarked hstays).1⟩

theorem tracked_of_execute {v : View} {mutation : Mutation} {change : Change} (who : Nat)
    (hplanned : Planned g v mutation change)
    (hexecute : change.execute Memory.client g m = .ok m') (h : g.Tracked start record m)
    (hview : g.Deletable start record m v.cache.instances) :
    g.Tracked start (.accepted who change :: record) m' where
  distinct := by
    rw [numbers, machines_of_execute hexecute, map_instanceId_markDeleting]
    exact h.distinct
  known i hi := by
    rw [machines_of_execute hexecute] at hi
    obtain ⟨j, hj, hsame, -⟩ := exists_of_mem_markDeleting hi
    rw [hsame]
    exact h.known j hj
  marked i hi hid := by
    rw [machines_of_execute hexecute] at hi
    obtain ⟨j, hj, hsame, hmarked⟩ := exists_of_mem_markDeleting hi
    rw [submitted_accepted, hsame] at hid
    refine hmarked.mpr ((List.mem_append.mp hid).imp_right fun hold ↦ ?_)
    exact h.marked j hj hold
  submitted_known id hid := by
    rw [submitted_accepted] at hid
    rcases List.mem_append.mp hid with hid | hid
    · exact (known_and_not_submitted hplanned hview id hid).1
    · exact h.submitted_known hid
  submitted_distinct := by
    rw [submitted_accepted]
    refine List.Nodup.append hplanned.nodup_submitted h.submitted_distinct ?_
    exact fun id hid ↦ (known_and_not_submitted hplanned hview id hid).2

theorem deletable_of_execute {v : View} {change : Change} (who : Nat)
    (hexecute : change.execute Memory.client g m = .ok m')
    (hview : g.Deletable start record m v.cache.instances) :
    g.Deletable start (.accepted who change :: record) m'
      (change.updateView v).cache.instances := by
  have hmachines := machines_of_execute hexecute
  have hsubmitted := submitted_accepted who change record
  intro i hi
  rw [Change.instances_updateView] at hi
  obtain ⟨j, hj, hsame, hmarked⟩ := exists_of_mem_markDeleting hi
  obtain ⟨hknown, hunmarked⟩ := hview j hj
  rw [hsame]
  refine ⟨hknown, fun hstate ↦ ?_⟩
  -- Without the mark now, it had none before, and is not among those that are submitted.
  have hneither : ¬ (j.instanceId ∈ change.submitted ∨ j.state.isDeleting = true) := by
    rw [← hmarked, hstate]
    nofun
  obtain ⟨hid, hstays⟩ := not_or.mp hneither
  obtain ⟨hold, hcloud⟩ := hunmarked (Bool.eq_false_iff.mpr hstays)
  refine ⟨fun hmem ↦ ?_, fun k hk hkid ↦ ?_⟩
  · rw [hsubmitted] at hmem
    exact (List.mem_append.mp hmem).elim hid hold
  · rw [hmachines] at hk
    obtain ⟨l, hl, hlsame, hlmarked⟩ := exists_of_mem_markDeleting hk
    rw [hlsame] at hkid
    have hlstays := hcloud l hl hkid
    refine Bool.eq_false_iff.mpr fun hdeleting ↦ ?_
    rcases hlmarked.mp hdeleting with hlid | hldeleting
    · exact hid (hkid ▸ hlid)
    · rw [hlstays] at hldeleting
      cases hldeleting

/-- The marks last as long as the others are considerate. -/
theorem marks_lasting (g : Group) (start : Memory) :
    (g.marks start).Lasting Memory.client g (g.IsConsiderate start) where
  fair_of_cons hconsiderate := hconsiderate.of_cons
  note {e record m} he h := by
    have hknown : g.known start (e :: record) = g.known start record :=
      known_cons record fun _ _ heq ↦ by rw [heq] at he; cases he
    have hsubmitted : submitted (e :: record) = submitted record := by
      rw [submitted_cons]
      cases e with
      | accepted who change => cases he
      | _ => rfl
    exact marks_carries rfl hknown hsubmitted h
  sent hsent h := marks_carries (machines_of_holding?_eq (holding?_of_sent hsent)) rfl rfl h
  intervened hconsiderate h :=
    ⟨tracked_of_intervened hconsiderate h, id, deletable_of_intervened hconsiderate⟩
  described _ _ := trivial
  listed := by
    intro record m d listing hlist htracked _
    obtain ⟨h, hholding, rfl⟩ := Memory.list_eq_ok_iff.mp hlist
    exact deletable_of_listing htracked hholding
  executed who hplanned hexecute h hview :=
    ⟨tracked_of_execute who hplanned hexecute h hview, deletable_of_execute who hexecute hview⟩

/-! ## Runs -/

theorem execute_ne_conflict {change : Change}
    (hunmarked : ∀ i ∈ g.machines m, i.instanceId ∈ change.submitted → i.state.isDeleting = false)
    (detail : String) : change.execute Memory.client g m ≠ .error (.conflict detail) := by
  intro hconflict
  cases change with
  | resize target => exact Memory.setCapacity_ne_conflict target detail hconflict
  | delete ids target =>
    obtain ⟨h, hholding, i, hi, hid, hdeleting⟩ := Memory.exists_isDeleting_of_delete hconflict
    rw [← machines_of_holding? hholding] at hi
    rw [hunmarked i hi hid] at hdeleting
    cases hdeleting

/-- As long as others are considerate, no instance has its deletion accepted twice, and no change
of the group's meets a conflict: whatever is submitted is not on its way out. -/
theorem Run.no_double_deletion {clock : Clock} {t : Traffic Memory}
    (hrun : Run Memory.client g (.initial start clock) record t)
    (hdistinct : (g.numbers start).Nodup) (hconsiderate : g.IsConsiderate start record)
    (hround : NeverCameRound record) :
    (submitted record).Nodup
    ∧ ∀ who job change pending, t.jobs who = some job →
      job.activity = .changing change pending →
      ∀ detail, change.execute Memory.client g t.cloud ≠ .error (.conflict detail) := by
  have htracked : g.Tracked start [] start :=
    ⟨hdistinct, fun i hi ↦ List.mem_map_of_mem hi, nofun, nofun, List.nodup_nil⟩
  have hcorresponds := hrun.corresponds (marks_lasting g start) htracked hconsiderate hround
  refine ⟨hcorresponds.cloud.submitted_distinct, fun who job change pending hjob hactivity ↦ ?_⟩
  obtain ⟨errand, activity⟩ := job
  obtain rfl : activity = .changing change pending := hactivity
  have horderly := hrun.orderly
  obtain ⟨mutation, -, hplan⟩ := horderly.fits hjob
  obtain ⟨v, hview, hplanned⟩ := planned_of_plan hplan
  have hsettled := horderly.isSettled_of_isHeldBy (horderly.held hjob rfl)
    (Traffic.accepted?_eq hjob)
  have hdeletable : g.Deletable start record t.cloud v.cache.instances :=
    hcorresponds.view hsettled v hview
  refine execute_ne_conflict fun i hi hid ↦ ?_
  obtain ⟨j, hj, hsame, hstays⟩ := hplanned.exists_of_mem_submitted hid
  exact ((hdeletable j hj).2 hstays).2 i hi hsame.symm

/-! ## Two deletions of one machine -/

/-- The scale set after others asked for one machine more and the cloud set it up. -/
def trio : Holding := ⟨.bare "pool" 6, pairListing ++ [Memory.record "rg" "pool" 2 .creating]⟩

/-- The cloud when the deletion is sent. -/
def pairAsked : Memory :=
  { pairCloud with log := (Change.delete ["0"] 4).call :: pairRead.cloud.log }

/-- The cloud when it answers. -/
def trioCloud : Memory := pairAsked.setHolding "rg" "pool" trio

theorem holding?_trioCloud : pool.holding? trioCloud = some trio :=
  Memory.holding?_setHolding _ _ _ _

theorem machines_pairCloud : pool.machines pairCloud = pairListing :=
  machines_of_holding? (h := ⟨.bare "pool" 5, pairListing⟩) (Memory.holding?_setHolding _ _ _ _)

theorem isConsiderate_trioCloud : pool.IsConsiderate pairCloud
    [.intervened pairAsked trioCloud, .installed 0 pairView.cache, .described 0, .counted 0] := by
  have hbefore : pool.machines pairAsked = pairListing := machines_pairCloud
  have hafter := machines_of_holding? holding?_trioCloud
  refine ⟨?_, fun i hi hknown ↦ ?_, trivial⟩
  · rw [numbers, hafter]
    decide
  · have hid : i.instanceId ∈ pairListing.map Instance.instanceId := machines_pairCloud ▸ hknown
    rw [hafter] at hi
    rcases List.mem_append.mp hi with hold | hnew
    · exact ⟨i, hbefore ▸ hold, rfl, rfl⟩
    · rw [List.mem_singleton.mp hnew] at hid
      exact absurd hid (by decide)

/-- Two deletions are under way: the first one waits for the cloud, and the other behind it. -/
def pairPending : Traffic Memory :=
  let first := pairRead.stage 1 (.mutate (.delete [doubledNode, doubledNode]))
    ⟨.changing (.delete ["0"] 4) ⟨.nothing, none⟩,
      ⟨⟨some pairView, 0⟩, .line [1]⟩, pairAsked⟩
  first.stage 2 (.mutate (.delete [doubledNode]))
    ⟨.queued (.mutate (.delete [doubledNode])), ⟨⟨some pairView, 0⟩, .line [1, 2]⟩, trioCloud⟩

theorem run_pairPending : Run Memory.client pool (.initial pairCloud .start)
    [.intervened pairAsked trioCloud, .installed 0 pairView.cache, .described 0, .counted 0]
    pairPending := by
  have hplan := plan_doubled_of_concat (.bare "pool" 5) [Memory.record "rg" "pool" 1 .succeeded]
  have hqueued := (run_pairRead.come_in (.mutate (.delete [doubledNode, doubledNode]))
    (isIdle_pairRead Nat.one_ne_zero)).go_on (step_started_of_free fault?_doubled)
  have hcalled := hqueued.go_on (step_queued_of_takesAtOnce hplan (takesAtOnce_memory rfl rfl rfl))
  have hbehind := (hcalled.come_in (.mutate (.delete [doubledNode]))
    (Traffic.isIdle_stage (isIdle_pairRead (Nat.succ_ne_zero 1)) (by decide) _ _)).go_on
    (step_started_of_line fault?_delete_doubledNode [1])
  exact hbehind.tail (.intervene trioCloud)

theorem exists_run_of_pairPending : ∃ t,
    Run Memory.client pool (.initial pairCloud .start)
      [.completed 1 (.delete [doubledNode, doubledNode]) (.delete ["0"] 4),
        .accepted 1 (.delete ["0"] 4), .intervened pairAsked trioCloud,
        .installed 0 pairView.cache, .described 0, .counted 0] t
    ∧ t.jobs 1 = some ⟨.mutate (.delete [doubledNode, doubledNode]), .answer (.ok .nothing)⟩
    ∧ t.jobs 2 = some ⟨.mutate (.delete [doubledNode]), .answer (.ok .nothing)⟩ := by
  have hdeletable : ∀ id ∈ ["0"], Memory.deletionFault? trio.instances "pool" id = none := by
    decide +kernel
  obtain ⟨cloud, hexecute⟩ : ∃ cloud,
      (Change.delete ["0"] 4).execute Memory.client pool trioCloud = .ok cloud :=
    ⟨_, Memory.delete_eq_ok_iff.mpr ⟨_, holding?_trioCloud, hdeletable, rfl⟩⟩
  have haccepted := run_pairPending.resume 1 (step_changing_of_execute _ hexecute) rfl
  have hcompleted := haccepted.resume 1 (step_accepted_of_line (by decide)) rfl
  have hneedless := hcompleted.resume 2 (step_queued_of_needless onWayOut_pairView.plan_delete) rfl
  exact ⟨_, hneedless, rfl, rfl⟩

/-- The deletion of a machine that is named twice, and of the same machine again while the first one
is under way and others grow the scale set. The cloud is asked once. -/
theorem Run.no_double_deletion_of_pair :
    (∃ record t, Run Memory.client pool (.initial pairCloud .start) record t
      ∧ .intervened pairAsked trioCloud ∈ record ∧ pool.IsConsiderate pairCloud record
      ∧ t.jobs 1 = some ⟨.mutate (.delete [doubledNode, doubledNode]), .answer (.ok .nothing)⟩
      ∧ t.jobs 2 = some ⟨.mutate (.delete [doubledNode]), .answer (.ok .nothing)⟩
      ∧ submitted record = ["0"] ∧ (submitted record).Nodup)
    ∧ (∃ record pending, Run Memory.client pool (.initial pairCloud .start) record pairPending
      ∧ pairPending.jobs 1 = some ⟨.mutate (.delete [doubledNode, doubledNode]),
        .changing (.delete ["0"] 4) pending⟩
      ∧ ∀ detail, (Change.delete ["0"] 4).execute Memory.client pool trioCloud
        ≠ .error (.conflict detail)) := by
  have hdistinct : (pool.numbers pairCloud).Nodup := by
    rw [numbers, machines_pairCloud]
    decide
  obtain ⟨t, hrun, hfirst, hsecond⟩ := exists_run_of_pairPending
  have hnodup := (hrun.no_double_deletion hdistinct isConsiderate_trioCloud
    (.of_completions_lt (by decide))).1
  have hconflict := (run_pairPending.no_double_deletion hdistinct isConsiderate_trioCloud
    (.of_completions_lt (by decide))).2 1 _ _ _ rfl rfl
  exact ⟨⟨_, t, hrun, by simp, isConsiderate_trioCloud, hfirst, hsecond, rfl, hnodup⟩,
    _, _, run_pairPending, rfl, hconflict⟩

end NodeGroups.Group
