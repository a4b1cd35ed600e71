import NodeGroups.Proofs.Rehearsal

/-!
# When groups are refreshed

Refresh passes over whole courses of the world. A refresh is dropped if and only if it comes too
soon after the last pass that was accepted, and then it leaves everything as it is. One that is
accepted hands over the groups that have no view, or one that is too old for the moment of the call,
as it finds them when it looks at them. A view that is installed meanwhile counts; a group of which
none is installed is judged as it was at the call. As nothing but an installed view changes when a
group was refreshed last, a group whose reload came to nothing is handed over again.
-/

namespace NodeGroups.Simulation

variable {σ : Type} {client : Client σ} {start w w' : World σ} {record : List Note} {who : Nat}

theorem Recorded.arrive (h : Recorded start record w) (request : Request σ) :
    Recorded start record { w with tasks := w.tasks ++ [⟨.launching none request, none⟩] } := by
  have hcalm : World.Calm w.tasks.length w
      { w with tasks := w.tasks ++ [⟨.launching none request, none⟩] } := by
    refine ⟨rfl, fun _ ↦ rfl, Nat.le_refl _, fun {other stage} hne hstage ↦ .inl ?_⟩
    rcases Nat.lt_or_gt_of_ne hne with hlt | hgt
    · rw [World.stage?, List.getElem?_append_left hlt] at hstage
      exact hstage
    · rw [World.stage?, List.getElem?_eq_none] at hstage
      · cases hstage
      · rw [List.length_append]
        exact hgt
  refine h.calm hcalm fun {stage} hstage ↦ ?_
  rw [World.stage?, List.getElem?_concat_length] at hstage
  obtain rfl := Option.some.inj hstage
  trivial

theorem Recorded.of_tasks (h : Recorded start record w) (hregistry : w'.registry = w.registry)
    (hcells : w'.cells = w.cells) (hclock : w.clock.now ≤ w'.clock.now)
    (htasks : w'.tasks = w.tasks) : Recorded start record w' := by
  have hlast : ∀ place, w'.lastRefresh? place = w.lastRefresh? place := fun place ↦ by
    rw [World.lastRefresh?, World.lastRefresh?, hcells]
  have hcalm : World.Calm 0 w w' := .of_tasks hregistry hlast hclock htasks
  refine h.calm hcalm fun hstage ↦ h.tasks ?_
  rwa [World.stage?, ← htasks]

theorem Recorded.step (h : Recorded start record w) (hsteps : w.Steps client who w') :
    Recorded start ((w.note? who w').toList ++ record) w' :=
  -- What is said of a step needs that tasks that select only ask, which the record implies.
  h.stride (hsteps.stride fun hs ↦ (h.tasks hs).isSound)

theorem Course.recorded (h : Course client start record w) (hstart : start.tasks = []) :
    Recorded start record w := by
  induction h with
  | refl => exact .initial hstart
  | arrive request h ih => exact ih.arrive request
  | step h hsteps ih => exact ih.step hsteps
  | elapse h clock hnow ih => exact ih.of_tasks rfl rfl hnow rfl
  | arrange h woken deferred turns taken ih => exact ih.of_tasks rfl rfl (Nat.le_refl _) rfl
  | @forget record w h ih =>
    have hnone : ∀ other, World.stage? { w with tasks := [] } other = none := fun _ ↦ rfl
    have hcalm : World.Calm 0 w { w with tasks := [] } :=
      ⟨rfl, fun _ ↦ rfl, Nat.le_refl _, fun _ hstage ↦ by cases (hnone _).symm.trans hstage⟩
    exact ih.calm hcalm fun hstage ↦ by cases (hnone _).symm.trans hstage

/-! ## What follows from a record -/

theorem Lawful.of_suffix {earlier : List Note} (h : Lawful start record)
    (hsuffix : earlier <:+ record) : Lawful start earlier := by
  obtain ⟨later, rfl⟩ := hsuffix
  induction later with
  | nil => exact h
  | cons note later ih =>
    cases h with
    | cons h hnote => exact ih h

theorem Lawful.follows {note : Note} {earlier : List Note} (h : Lawful start record)
    (hsuffix : note :: earlier <:+ record) : note.Follows start earlier := by
  cases h.of_suffix hsuffix with
  | cons h hnote => exact hnote

theorem registered_subset {earlier : List Note} (hsuffix : earlier <:+ record) :
    registered start earlier ⊆ registered start record := by
  obtain ⟨later, rfl⟩ := hsuffix
  induction later with
  | nil => exact List.Subset.refl _
  | cons note later ih =>
    intro h hmem
    cases note with
    | registered other => exact List.mem_append_left _ (ih hmem)
    | _ => exact ih hmem

/-- No view was installed at a place since the record was only a part of what it is. -/
def IsUninstalled (place : Nat) (earlier record : List Note) : Prop :=
  ∃ later, later ++ earlier = record ∧ ∀ who moment, .installed who place moment ∉ later

theorem IsUninstalled.lastRefresh?_eq {place : Nat} {earlier look : List Note}
    (h : IsUninstalled place earlier record) (hsince : earlier <:+ look)
    (huntil : look <:+ record) :
    lastRefresh? start place look = lastRefresh? start place earlier := by
  obtain ⟨later, rfl, hnone⟩ := h
  obtain ⟨since, rfl⟩ := hsince
  obtain ⟨rest, heq⟩ := huntil
  have hlater : rest ++ since = later := by
    rw [← List.append_assoc] at heq
    exact List.append_cancel_right heq
  have hnone' : ∀ who moment, .installed who place moment ∉ since := fun who moment hmem ↦
    hnone who moment (hlater ▸ List.mem_append_right _ hmem)
  -- What came after the look does not matter; the induction is on what came before it.
  clear heq hlater hnone
  induction since with
  | nil => rfl
  | cons note since ih =>
    have hrest := ih fun who moment hmem ↦ hnone' who moment (List.mem_cons_of_mem _ hmem)
    cases note with
    | installed who other moment =>
      have hne : other ≠ place := by
        rintro rfl
        exact hnone' who moment List.mem_cons_self
      exact (if_neg hne).trans hrest
    | _ => exact hrest

theorem IsUninstalled.isStale_eq {earlier look : List Note} {h : Handle}
    (hnone : IsUninstalled h.place earlier record) (hsince : earlier <:+ look)
    (huntil : look <:+ record) (now : Nat) :
    isStale start look now h = isStale start earlier now h := by
  rw [isStale, isStale, hnone.lastRefresh?_eq hsince huntil]

theorem isStale_mono {h : Handle} {now now' : Nat} (hle : now ≤ now')
    (hstale : isStale start record now h = true) : isStale start record now' h = true := by
  rw [isStale] at hstale ⊢
  split at hstale
  · rfl
  · next last heq =>
    have hperiod : h.group.refreshPeriod.ms ≤ now - last := of_decide_eq_true hstale
    exact decide_eq_true (by omega)

namespace Selected

variable {now : Nat} {call : List Note} {stale : List Handle} {h : Handle}

/-- A group that was selected was registered, and was found stale. -/
theorem exists_look (hselected : Selected start record who now stale)
    (hcall : lastCall? who record = some (now, call)) (hmem : h ∈ stale) :
    h ∈ registered start record ∧ ∃ look, call <:+ look ∧ look <:+ record
      ∧ isStale start look now h = true := by
  obtain ⟨call', admitted, hcall', hsince, huntil, looks, hasked, rfl, hlooks⟩ := hselected
  obtain ⟨-, rfl⟩ := Prod.mk.inj (Option.some.inj (hcall.symm.trans hcall'))
  obtain ⟨look, hlook, rfl⟩ := List.mem_map.mp hmem
  obtain ⟨hlook, hstale⟩ := List.mem_filter.mp hlook
  have hregistered : look.1 ∈ registered start admitted := by
    rw [← hasked]
    exact List.mem_map_of_mem hlook
  exact ⟨registered_subset huntil hregistered, look.2, (hlooks look hlook).1,
    (hlooks look hlook).2, hstale⟩

theorem mem (hselected : Selected start record who now stale)
    (hcall : lastCall? who record = some (now, call)) (hregistered : h ∈ registered start call)
    (hstale : ∀ look, call <:+ look → look <:+ record → isStale start look now h = true) :
    h ∈ stale := by
  obtain ⟨call', admitted, hcall', hsince, huntil, looks, hasked, rfl, hlooks⟩ := hselected
  obtain ⟨-, rfl⟩ := Prod.mk.inj (Option.some.inj (hcall.symm.trans hcall'))
  have hmem := registered_subset hsince hregistered
  rw [← hasked] at hmem
  obtain ⟨look, hlook, rfl⟩ := List.mem_map.mp hmem
  obtain ⟨hsince', huntil'⟩ := hlooks look hlook
  have hfound := hstale look.2 hsince' huntil'
  exact List.mem_map_of_mem (List.mem_filter.mpr ⟨hlook, hfound⟩)

/-- A group of which no view was installed is selected if it was stale at the call. -/
theorem mem_iff (hselected : Selected start record who now stale)
    (hcall : lastCall? who record = some (now, call)) (hregistered : h ∈ registered start call)
    (hnone : IsUninstalled h.place call record) :
    h ∈ stale ↔ isStale start call now h = true := by
  constructor
  · intro hmem
    obtain ⟨-, look, hsince, huntil, hstale⟩ := hselected.exists_look hcall hmem
    rwa [hnone.isStale_eq hsince huntil] at hstale
  · intro hstale
    refine hselected.mem hcall hregistered fun look hsince huntil ↦ ?_
    rw [hnone.isStale_eq hsince huntil]
    exact hstale

end Selected

/-! ## Calls of refresh -/

/-- A task is about to refresh the groups that need it. -/
def IsRefreshing (who : Nat) (w : World σ) : Prop :=
  w.stage? who = some (.launching none .refresh)
    ∨ ∃ timer, w.stage? who = some (.pausing timer .refresh)

theorem IsRefreshing.step (hrefreshing : IsRefreshing who w) (hsteps : w.Steps client who w') :
    w.step client who = some w' := by
  rcases hrefreshing with hlaunching | ⟨timer, hpausing⟩
  · exact hsteps.step_of_not_idling hlaunching nofun
  · exact hsteps.step_of_not_idling hpausing nofun

theorem step_of_isRefreshing (hrefreshing : IsRefreshing who w) (hsteps : w.Steps client who w') :
    (∃ steps, w' = { w.beginPass who .reply with steps })
      ∧ w.note? who w' = w.passNote? who w' := by
  obtain ⟨stage, next, hstage, htaken, rfl⟩ := World.step_cases (hrefreshing.step hsteps)
  rcases hrefreshing with hlaunching | ⟨timer, hpausing⟩
  · obtain rfl := Option.some.inj (hstage.symm.trans hlaunching)
    obtain rfl := Option.some.inj htaken
    refine ⟨⟨_, rfl⟩, ?_⟩
    rw [World.note?, hlaunching]
    rfl
  · obtain rfl := Option.some.inj (hstage.symm.trans hpausing)
    obtain ⟨-, hbegun⟩ := Option.ite_none_right_eq_some.mp htaken
    obtain rfl := Option.some.inj hbegun
    refine ⟨⟨_, rfl⟩, ?_⟩
    rw [World.note?, hpausing]
    rfl

theorem dropped_or_passed (h : Recorded start record w) (hrefreshing : IsRefreshing who w)
    (hsteps : w.Steps client who w') :
    (w.note? who w' = some (.dropped who w.clock.now) ∧ IsTooSoon start record w.clock.now
      ∧ w.Untouched w' ∧ w'.stage? who = some (.finished (.ok (.report .dropped)) w.clock.now))
    ∨ (w.note? who w' = some (.passed who w.clock.now .stale)
      ∧ ¬ IsTooSoon start record w.clock.now) := by
  obtain ⟨⟨steps, hnext⟩, hnote⟩ := step_of_isRefreshing hrefreshing hsteps
  obtain ⟨stage, hstage⟩ : ∃ stage, w.stage? who = some stage := by
    rcases hrefreshing with hlaunching | ⟨timer, hpausing⟩
    · exact ⟨_, hlaunching⟩
    · exact ⟨_, hpausing⟩
  rw [← h.tooSoon_iff]
  cases hsoon : w.registry.tooSoon w.clock.now with
  | true =>
    left
    have hdropped : w.beginPass who .reply = w.finish who (.ok (.report .dropped)) := by
      rw [World.beginPass, if_pos hsoon]
      rfl
    have hfinished : w'.stage? who = some (.finished (.ok (.report .dropped)) w.clock.now) := by
      rw [hnext, hdropped]
      exact World.stage?_finish_self hstage _
    refine ⟨?_, rfl, ?_, hfinished⟩
    · rw [hnote, World.passNote?, hfinished]
    · rw [hnext, hdropped]
      exact ⟨rfl, rfl, rfl, rfl, rfl, rfl, rfl⟩
  | false =>
    right
    have hentered : w'.stage? who = some (.entering (.select w.clock.now .reply)) := by
      rw [hnext, World.beginPass, if_neg (by rw [hsoon]; exact Bool.false_ne_true)]
      exact World.stage?_enter_self hstage _
    refine ⟨?_, Bool.false_ne_true⟩
    rw [hnote, World.passNote?, hentered]

theorem untouched_of_dropped (h : Recorded start record w) {moment : Nat}
    (hsteps : w.Steps client who w') (hnote : w.note? who w' = some (.dropped who moment)) :
    w.Untouched w' := by
  have hstride := hsteps.stride fun hs ↦ (h.tasks hs).isSound
  rw [hnote] at hstride
  cases hstride with
  | dropped hsoon hquiet hsame => exact hsame
  | entered hstage hcalm hnext =>
    generalize w.registry.handles = handles at hnext
    cases hnext
  | told hstage hcalm hnext => cases hnext

/-- When a group was refreshed last changes only as a view is installed, and that is the end of a
reload that went well. -/
theorem installation_of_ne (h : Recorded start record w) (hsteps : w.Steps client who w')
    {place : Nat} (hne : w'.lastRefresh? place ≠ w.lastRefresh? place) :
    w'.lastRefresh? place = some w.clock.now
      ∧ ∃ handle cell cache d next, handle.place = place ∧ w.cells[place]? = some cell
        ∧ w.stage? who
          = some (.visiting handle (.queued (.install cell.state.mutations cache)) d next)
        ∧ w'.stage? who = some (.visiting handle (.answer (.ok .nothing)) d next) := by
  have hstride := hsteps.stride fun hs ↦ (h.tasks hs).isSound
  generalize w.note? who w' = note at hstride
  have hcalm : ∀ {r}, World.Calm who r w' → r.cells = w.cells → False := by
    intro r hcalm hcells
    refine hne ((hcalm.lastRefresh place).trans ?_)
    rw [World.lastRefresh?, World.lastRefresh?, hcells]
  cases hstride with
  | quiet hquiet => exact (hcalm hquiet.toCalm rfl).elim
  | dropped hsoon hquiet hsame => exact (hcalm hquiet.toCalm rfl).elim
  | passed hsoon hregistry hc hstage => exact (hcalm hc rfl).elim
  | passedAll hregistry hquiet => exact (hcalm hquiet.toCalm rfl).elim
  | registered hregister hquiet => exact (hcalm hquiet.toCalm rfl).elim
  | @installed handle cell cache d next hstage hcell hstage' hlast hothers hquiet =>
    by_cases heq : place = handle.place
    · subst heq
      exact ⟨hlast, handle, cell, cache, d, next, rfl, hcell, hstage, hstage'⟩
    · exact absurd (hothers place heq) hne
  | entered hstage hc hnext => exact (hcalm hc rfl).elim
  | asked hstage hc hstage' hanswer => exact (hcalm hc rfl).elim
  | told hstage hc hnext => exact (hcalm hc rfl).elim

/-! ## Selected again -/

theorem Lawful.le_of_lastCall? (h : Lawful start record) {who' now now' : Nat}
    {call call' earlier : List Note} {note : Note}
    (hcall' : lastCall? who' record = some (now', call')) (hsuffix : note :: earlier <:+ call')
    (hnote : ∀ moment scope, note ≠ .passed who' moment scope)
    (hcall : lastCall? who earlier = some (now, call)) : now ≤ now' := by
  obtain ⟨rest, rfl⟩ := lastCall?_eq_cons hcall'
  obtain ⟨-, hlate⟩ := h.follows (lastCall?_suffix hcall')
  obtain ⟨rest', rfl⟩ := lastCall?_eq_cons hcall
  have hmem : .passed who now .stale ∈ rest := by
    rcases List.suffix_cons_iff.mp hsuffix with heq | hsuffix
    · exact absurd (List.cons.inj heq).1 (hnote _ _)
    · exact hsuffix.subset (List.mem_cons_of_mem _ ((lastCall?_suffix hcall).subset
        List.mem_cons_self))
  exact Nat.le_trans (Nat.le_add_right _ _) (hlate who now .stale hmem)

/-- A group that was handed over, and of which no view was installed since the call, is handed over
by every later refresh. -/
theorem Lawful.mem_again (h : Lawful start record) {who' now now' : Nat}
    {earlier earlier' call call' : List Note} {stale stale' : List Handle} {handle : Handle}
    (hsuffix' : .handed who' now' stale' :: earlier' <:+ record)
    (hcall' : lastCall? who' earlier' = some (now', call'))
    (hsuffix : .handed who now stale :: earlier <:+ call')
    (hcall : lastCall? who earlier = some (now, call)) (hmem : handle ∈ stale)
    (hnone : IsUninstalled handle.place call earlier') : handle ∈ stale' := by
  have hlater : call' <:+ earlier' := lastCall?_suffix hcall'
  have hlawful := h.of_suffix ((List.suffix_cons _ _).trans hsuffix')
  have hselected : Selected start earlier who now stale := hlawful.follows (hsuffix.trans hlater)
  have hselected' : Selected start earlier' who' now' stale' := h.follows hsuffix'
  have hearlier : earlier <:+ call' := (List.suffix_cons _ _).trans hsuffix
  obtain ⟨hregistered, look, hsince, huntil, hstale⟩ := hselected.exists_look hcall hmem
  -- As no view was installed in between, the group was stale at the first call already.
  rw [hnone.isStale_eq hsince ((huntil.trans hearlier).trans hlater)] at hstale
  have hle : now ≤ now' := hlawful.le_of_lastCall? hcall' hsuffix nofun hcall
  have hregistered' := registered_subset hearlier hregistered
  refine hselected'.mem hcall' hregistered' fun look' hsince' huntil' ↦ ?_
  have hcalled : call <:+ look' := ((lastCall?_suffix hcall).trans hearlier).trans hsince'
  rw [hnone.isStale_eq hcalled huntil']
  exact isStale_mono hle hstale

/-- The rate floor of refresh passes, and that they do not give up on a group. A refresh is dropped
if and only if it comes too soon after the last pass that was accepted, and then it leaves all as it
is. An accepted one comes late enough after all passes before it, and hands over the groups that it
finds stale, for the moment of the call, when it looks at them; a group of which no view was
installed since is handed over if and only if it was stale at the call. It is handed over by every
later refresh as long as no view of it is installed, which is the only thing that changes when it
was refreshed last. -/
theorem Course.rate_floor (h : Course client start record w) (hstart : start.tasks = []) :
    (∀ {who w'}, IsRefreshing who w → w.Steps client who w' →
      (w.note? who w' = some (.dropped who w.clock.now) ∧ IsTooSoon start record w.clock.now
        ∧ w.Untouched w' ∧ w'.stage? who = some (.finished (.ok (.report .dropped)) w.clock.now))
      ∨ (w.note? who w' = some (.passed who w.clock.now .stale)
        ∧ ¬ IsTooSoon start record w.clock.now))
    ∧ (∀ {who w' moment}, w.Steps client who w' →
      w.note? who w' = some (.dropped who moment) → w.Untouched w')
    ∧ (∀ {who now earlier}, .dropped who now :: earlier <:+ record → IsTooSoon start earlier now)
    ∧ (∀ {who now earlier}, .passed who now .stale :: earlier <:+ record →
      ¬ IsTooSoon start earlier now ∧ ∀ other moment scope, .passed other moment scope ∈ earlier →
        moment + start.registry.minInterval.ms ≤ now)
    ∧ (∀ {who now stale earlier}, .handed who now stale :: earlier <:+ record →
      Selected start earlier who now stale)
    ∧ (∀ {who now stale earlier call handle}, .handed who now stale :: earlier <:+ record →
      lastCall? who earlier = some (now, call) → handle ∈ registered start call →
      IsUninstalled handle.place call earlier →
      (handle ∈ stale ↔ isStale start call now handle = true))
    ∧ (∀ {who who' now now' stale stale' earlier earlier' call call' handle},
      .handed who' now' stale' :: earlier' <:+ record →
      lastCall? who' earlier' = some (now', call') → .handed who now stale :: earlier <:+ call' →
      lastCall? who earlier = some (now, call) → handle ∈ stale →
      IsUninstalled handle.place call earlier' → handle ∈ stale')
    ∧ (∀ place, w.lastRefresh? place = lastRefresh? start place record)
    ∧ ∀ {who w' place}, w.Steps client who w' → w'.lastRefresh? place ≠ w.lastRefresh? place →
      w'.lastRefresh? place = some w.clock.now
        ∧ ∃ handle cell cache d next, handle.place = place ∧ w.cells[place]? = some cell
          ∧ w.stage? who
            = some (.visiting handle (.queued (.install cell.state.mutations cache)) d next)
          ∧ w'.stage? who = some (.visiting handle (.answer (.ok .nothing)) d next) := by
  have hrecorded := h.recorded hstart
  have hlawful := hrecorded.lawful
  refine ⟨dropped_or_passed hrecorded, untouched_of_dropped hrecorded, hlawful.follows,
    hlawful.follows, hlawful.follows, ?_, hlawful.mem_again, hrecorded.lastRefresh,
    fun hsteps ↦ installation_of_ne hrecorded hsteps⟩
  intro who now stale earlier call handle hhanded hcall hregistered hnone
  have hselected : Selected start earlier who now stale := hlawful.follows hhanded
  exact hselected.mem_iff hcall hregistered hnone

def troubled : World Memory :=
  .initial (cloudOfPair.fail .describe "spare" (.unavailable "down")) pair

/-- A refresh of both groups, one that comes too soon, and one that comes late enough. -/
def threeRefreshes : List (Happening Memory) :=
  .arrive .refresh :: Happening.steps 0 8 ++ Happening.steps 1 6 ++ Happening.steps 2 3
    ++ Happening.steps 0 1
    ++ .elapse 500 :: .arrive .refresh :: Happening.steps 3 1
    ++ .elapse 500 :: .arrive .refresh :: Happening.steps 4 8

def firstRefresh : List Note :=
  [.handed 0 0 [⟨Group.pool, 0⟩, ⟨spare, 1⟩], .passed 0 0 .stale]

def thirdCall : List Note :=
  .passed 4 1000 .stale :: .dropped 3 500 :: .installed 1 0 0 :: firstRefresh

/-- The second refresh is dropped as it comes too soon. The third one is again for the group whose
reload failed, and not for the other one. -/
theorem Course.rate_floor_of_troubled : ∃ record w stale,
    Course Memory.client troubled record w ∧ .handed 4 1000 stale :: thirdCall <:+ record
    ∧ IsTooSoon troubled (.installed 1 0 0 :: firstRefresh) 500
    ∧ Selected troubled thirdCall 4 1000 stale ∧ ⟨spare, 1⟩ ∈ stale := by
  have hrecord : (World.rehearse Memory.client threeRefreshes troubled).map Prod.fst
      = some (.handed 4 1000 [⟨spare, 1⟩] :: thirdCall) := by decide +kernel
  obtain ⟨⟨record, w⟩, hrehearse, rfl⟩ := Option.map_eq_some_iff.mp hrecord
  have hcourse : Course Memory.client troubled _ w := .rehearse hrehearse
  obtain ⟨-, -, hdropped, -, hhanded, -, hagain, -⟩ := hcourse.rate_floor rfl
  have hsecond : .dropped 3 500 :: .installed 1 0 0 :: firstRefresh
      <:+ .handed 4 1000 [⟨spare, 1⟩] :: thirdCall := ⟨[_, _], rfl⟩
  have hthird := List.suffix_refl (.handed 4 1000 [⟨spare, 1⟩] :: thirdCall)
  have hfirst : firstRefresh <:+ thirdCall := ⟨[_, _, _], rfl⟩
  have hcall : lastCall? 4 thirdCall = some (1000, thirdCall) := rfl
  have hfirstCall : lastCall? 0 [.passed 0 0 .stale] = some (0, [.passed 0 0 .stale]) := rfl
  have hnone : IsUninstalled 1 [.passed 0 0 .stale] thirdCall := by
    refine ⟨[_, _, _, _], rfl, fun who moment hmem ↦ ?_⟩
    simp at hmem
  have hmem := hagain hthird hcall hfirst hfirstCall
    (List.mem_cons_of_mem _ List.mem_cons_self) hnone
  exact ⟨_, w, _, hcourse, hthird, hdropped hsecond, hhanded hthird, hmem⟩

/-- In the middle of a refresh, while a mutation of one group is under way, another pass gets a view
of the other group. -/
def lateLook : List (Happening Memory) :=
  .arrive (.reloadGroup "pool") :: Happening.steps 0 8
    ++ .arrive (.visit (.registered "pool") (.errand (.mutate (.increase 1))))
      :: Happening.steps 1 4
    ++ .elapse 10 :: .arrive .refresh :: Happening.steps 2 3
    ++ .elapse 10 :: .arrive .reloadAll :: Happening.steps 3 2 ++ Happening.steps 5 6
    ++ .elapse 80 :: Happening.steps 1 2 ++ Happening.steps 2 5

/-- A refresh may leave out a group that had no view when it was called. -/
theorem exists_stale_not_handed : ∃ start record w call stale h,
    start.tasks = [] ∧ Course Memory.client start (.handed 2 10 stale :: record) w
    ∧ lastCall? 2 record = some (10, call) ∧ h ∈ registered start call
    ∧ isStale start call 10 h = true ∧ h ∉ stale := by
  let start : World Memory := .initial (cloudOfPair.delay .setCapacity "pool" 100) pair
  have hrecord : (World.rehearse Memory.client lateLook start).map Prod.fst
      = some [.handed 2 10 [], .installed 5 1 20, .passed 3 20 .all, .passed 2 10 .stale,
        .installed 0 0 0] := by decide +kernel
  obtain ⟨⟨record, w⟩, hrehearse, rfl⟩ := Option.map_eq_some_iff.mp hrecord
  exact ⟨start, _, w, _, _, ⟨spare, 1⟩, rfl, .rehearse hrehearse, rfl,
    List.mem_cons_of_mem _ List.mem_cons_self, by decide +kernel, List.not_mem_nil⟩

end NodeGroups.Simulation
