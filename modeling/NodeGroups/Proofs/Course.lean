import NodeGroups.Proofs.Stride
import NodeGroups.Simulation.Run

/-!
# Courses of the world

A course of the world is any sequence of steps, whichever tasks go on. Requests come in and time
passes meanwhile. The notes on record tell when the last pass was accepted, which groups are
registered, and when their last views were installed; that they tell the truth is what `Recorded`
says. What may come next on a record, `Note.Follows`, then depends on the record alone.

A record has the latest note first. A task that selects looks at one group after another, so what it
finds is what the record was at some moments since its pass was accepted.
-/

namespace NodeGroups.Simulation

variable {σ : Type}

/-- A course of the world from a beginning, with its record. -/
inductive Course (client : Client σ) (start : World σ) : List Note → World σ → Prop
  | refl : Course client start [] start
  | arrive {record : List Note} {w : World σ} (request : Request σ)
      (h : Course client start record w) :
      Course client start record { w with tasks := w.tasks ++ [⟨.launching none request, none⟩] }
  | step {record : List Note} {w w' : World σ} {who : Nat} (h : Course client start record w)
      (hsteps : w.Steps client who w') :
      Course client start ((w.note? who w').toList ++ record) w'
  | elapse {record : List Note} {w : World σ} (h : Course client start record w) (clock : Clock)
      (hnow : w.clock.now ≤ clock.now) : Course client start record { w with clock }
  /-- It is settled who has his turn and who waits for the clock. -/
  | arrange {record : List Note} {w : World σ} (h : Course client start record w)
      (woken deferred : List Nat) (turns taken : Nat) :
      Course client start record { w with woken, deferred, turns, taken }
  /-- The tasks are forgotten, as between requests. -/
  | forget {record : List Note} {w : World σ} (h : Course client start record w) :
      Course client start record { w with tasks := [] }

/-! ## What a record tells -/

section

variable (start : World σ)

def lastPass? : List Note → Option Nat
  | [] => start.registry.lastPass
  | .passed _ moment _ :: _ => some moment
  | _ :: earlier => lastPass? earlier

def registered : List Note → List Handle
  | [] => start.registry.handles
  | .registered h :: earlier => registered earlier ++ [h]
  | _ :: earlier => registered earlier

def lastRefresh? (place : Nat) : List Note → Option Nat
  | [] => start.lastRefresh? place
  | .installed _ other moment :: earlier =>
    if other = place then some moment else lastRefresh? place earlier
  | _ :: earlier => lastRefresh? place earlier

/-- Whether a group has no view, or one that had been installed a refresh period ago at a moment. -/
def isStale (record : List Note) (now : Nat) (h : Handle) : Bool :=
  match lastRefresh? start h.place record with
  | none => true
  | some last => h.group.refreshPeriod.ms ≤ now - last

/-- Whether a refresh pass would come too soon after the last one. -/
def IsTooSoon (record : List Note) (now : Nat) : Prop :=
  ∃ last, lastPass? start record = some last ∧ now - last < start.registry.minInterval.ms

end

/-- The last refresh of those that need it that a task had accepted: when it was, and the record
then. -/
def lastCall? (who : Nat) : List Note → Option (Nat × List Note)
  | [] => none
  | .passed other moment .stale :: earlier =>
    if other = who then some (moment, .passed other moment .stale :: earlier)
    else lastCall? who earlier
  | _ :: earlier => lastCall? who earlier

/-! ## Selections -/

/-- A task has looked at some groups since a refresh was accepted, one after another, and those that
it found stale are selected. A look is a group with the record as it was then. -/
def Looked (start : World σ) (now : Nat) (call record : List Note) (asked stale : List Handle) :
    Prop :=
  ∃ looks : List (Handle × List Note), looks.map Prod.fst = asked
    ∧ (looks.filter fun look ↦ isStale start look.2 now look.1).map Prod.fst = stale
    ∧ ∀ look ∈ looks, call <:+ look.2 ∧ look.2 <:+ record

/-- A refresh of a task is for these groups: of all that were registered when it got the registry,
those that it found stale when it looked at them. -/
def Selected (start : World σ) (record : List Note) (who now : Nat) (stale : List Handle) : Prop :=
  ∃ call admitted, lastCall? who record = some (now, call)
    ∧ call <:+ admitted ∧ admitted <:+ record
    ∧ Looked start now call record (registered start admitted) stale

/-- How far a task is with its selection, if it selects. -/
def Selecting (start : World σ) (record : List Note) (who : Nat) : Stage σ → Prop
  | .entering (.select now _) => ∃ call, lastCall? who record = some (now, call)
  | .visiting h a d (.select now stale rest _) =>
    ∃ call admitted asked, lastCall? who record = some (now, call)
      ∧ call <:+ admitted ∧ admitted <:+ record
      ∧ asked ++ h :: rest = registered start admitted
      ∧ Looked start now call record asked stale
      ∧ d = none ∧ World.Asking now a
      ∧ ∀ needed, a = .answer (.ok (.flag needed)) → ∃ look, call <:+ look ∧ look <:+ record
        ∧ needed = isStale start look now h
  | _ => True

/-- Whether a note leaves what a record tells. -/
def Note.isMute : Note → Bool
  | .dropped .. | .handed .. => true
  | _ => false

/-- What a note says of the record before it. -/
def Note.Follows (start : World σ) (earlier : List Note) : Note → Prop
  | .passed _ now .stale => ¬ IsTooSoon start earlier now
    ∧ ∀ who moment scope, .passed who moment scope ∈ earlier →
      moment + start.registry.minInterval.ms ≤ now
  | .dropped _ now => IsTooSoon start earlier now
  | .handed who now handles => Selected start earlier who now handles
  | _ => True

/-- Every note follows from what was on record before it. -/
inductive Lawful (start : World σ) : List Note → Prop
  | nil : Lawful start []
  | cons {note : Note} {earlier : List Note} (h : Lawful start earlier)
      (hnote : note.Follows start earlier) : Lawful start (note :: earlier)

/-- A record tells the truth about the world. -/
structure Recorded (start : World σ) (record : List Note) (w : World σ) : Prop where
  lastPass : w.registry.lastPass = lastPass? start record
  minInterval : w.registry.minInterval = start.registry.minInterval
  handles : w.registry.handles = registered start record
  lastRefresh : ∀ place, w.lastRefresh? place = lastRefresh? start place record
  passes : ∀ {who moment scope}, .passed who moment scope ∈ record →
    ∃ last, lastPass? start record = some last ∧ moment ≤ last ∧ last ≤ w.clock.now
  tasks : ∀ {who stage}, w.stage? who = some stage → Selecting start record who stage
  lawful : Lawful start record

variable {client : Client σ} {start w w' : World σ} {record record' : List Note} {who : Nat}

/-! ## Longer records -/

theorem Looked.mono {now : Nat} {call : List Note} {asked stale : List Handle}
    (h : Looked start now call record asked stale) (hsuffix : record <:+ record') :
    Looked start now call record' asked stale := by
  obtain ⟨looks, hasked, hstale, hlooks⟩ := h
  refine ⟨looks, hasked, hstale, fun look hmem ↦ ?_⟩
  obtain ⟨hsince, huntil⟩ := hlooks look hmem
  exact ⟨hsince, huntil.trans hsuffix⟩

theorem Looked.nil (start : World σ) (now : Nat) (call record : List Note) :
    Looked start now call record [] [] :=
  ⟨[], rfl, rfl, nofun⟩

theorem Looked.concat {now : Nat} {call look : List Note} {asked stale : List Handle}
    (h : Looked start now call record asked stale) (hsince : call <:+ look)
    (huntil : look <:+ record) (handle : Handle) :
    Looked start now call record (asked ++ [handle])
      (if isStale start look now handle then stale ++ [handle] else stale) := by
  obtain ⟨looks, rfl, rfl, hlooks⟩ := h
  refine ⟨looks ++ [(handle, look)], List.map_append, ?_, fun l hmem ↦ ?_⟩
  · rw [List.filter_append, List.map_append]
    cases hstale : isStale start look now handle with
    | true => simp [hstale]
    | false => simp [hstale]
  · rcases List.mem_append.mp hmem with hmem | hmem
    · exact hlooks l hmem
    · rw [List.mem_singleton.mp hmem]
      exact ⟨hsince, huntil⟩

theorem Selecting.mono {stage : Stage σ} (h : Selecting start record who stage)
    (hsuffix : record <:+ record') (hcall : lastCall? who record' = lastCall? who record) :
    Selecting start record' who stage := by
  cases stage with
  | entering entry =>
    cases entry with
    | select now after =>
      obtain ⟨call, hlast⟩ := h
      exact ⟨call, hcall.trans hlast⟩
    | _ => trivial
  | visiting handle a d next =>
    cases next with
    | select now stale rest after =>
      obtain ⟨call, admitted, asked, hlast, hsince, huntil, hall, hlooked, hd, ha, hanswer⟩ := h
      refine ⟨call, admitted, asked, hcall.trans hlast, hsince, huntil.trans hsuffix, hall,
        hlooked.mono hsuffix, hd, ha, fun needed heq ↦ ?_⟩
      obtain ⟨look, hsince', huntil', hneeded⟩ := hanswer needed heq
      exact ⟨look, hsince', huntil'.trans hsuffix, hneeded⟩
    | _ => trivial
  | _ => trivial

theorem Selecting.of_idle {stage : Stage σ} (start : World σ) (record : List Note) (who : Nat)
    (hidle : stage.isSelecting = false) : Selecting start record who stage := by
  cases stage with
  | entering entry =>
    cases entry with
    | select now after => cases hidle
    | _ => trivial
  | visiting handle a d next =>
    cases next with
    | select now stale rest after => cases hidle
    | _ => trivial
  | _ => trivial

theorem Selecting.isSound {stage : Stage σ} (h : Selecting start record who stage) :
    World.IsSound stage := by
  cases stage with
  | visiting handle a d next =>
    cases next with
    | select now stale rest after =>
      obtain ⟨-, -, -, -, -, -, -, -, hd, ha, -⟩ := h
      exact ⟨hd, ha⟩
    | _ => trivial
  | _ => trivial

theorem lastCall?_cons {note : Note} (hnote : ∀ moment, note ≠ .passed who moment .stale) :
    lastCall? who (note :: record) = lastCall? who record := by
  cases note with
  | passed other moment scope =>
    cases scope with
    | stale =>
      have hne : other ≠ who := by
        rintro rfl
        exact hnote moment rfl
      rw [lastCall?, if_neg hne]
    | all => rfl
  | _ => rfl

theorem lastCall?_suffix {now : Nat} {call : List Note}
    (hcall : lastCall? who record = some (now, call)) : call <:+ record := by
  induction record with
  | nil => cases hcall
  | cons note earlier ih =>
    by_cases hnote : ∃ moment, note = .passed who moment .stale
    · obtain ⟨moment, rfl⟩ := hnote
      rw [lastCall?, if_pos rfl] at hcall
      obtain ⟨-, rfl⟩ := Prod.mk.inj (Option.some.inj hcall)
      exact List.suffix_refl _
    · rw [lastCall?_cons fun moment heq ↦ hnote ⟨moment, heq⟩] at hcall
      exact (ih hcall).trans (List.suffix_cons _ _)

theorem lastCall?_eq_cons {now : Nat} {call : List Note}
    (hcall : lastCall? who record = some (now, call)) :
    ∃ earlier, call = .passed who now .stale :: earlier := by
  induction record with
  | nil => cases hcall
  | cons note earlier ih =>
    by_cases hnote : ∃ moment, note = .passed who moment .stale
    · obtain ⟨moment, rfl⟩ := hnote
      rw [lastCall?, if_pos rfl] at hcall
      obtain ⟨rfl, rfl⟩ := Prod.mk.inj (Option.some.inj hcall)
      exact ⟨earlier, rfl⟩
    · rw [lastCall?_cons fun moment heq ↦ hnote ⟨moment, heq⟩] at hcall
      exact ih hcall

namespace Recorded

theorem initial (hstart : start.tasks = []) : Recorded start [] start where
  lastPass := rfl
  minInterval := rfl
  handles := rfl
  lastRefresh _ := rfl
  passes := nofun
  tasks hstage := by
    rw [World.stage?, hstart] at hstage
    cases hstage
  lawful := .nil

/-- What the tasks select after a step. -/
theorem tasks_step (h : Recorded start record w) {r : World σ} (hcalm : World.Calm who r w')
    (hr : ∀ other, r.stage? other = w.stage? other) (hsuffix : record <:+ record')
    (hcalls : ∀ other, other ≠ who → lastCall? other record' = lastCall? other record)
    (hself : ∀ {stage}, w'.stage? who = some stage → Selecting start record' who stage)
    {other : Nat} {stage : Stage σ} (hstage : w'.stage? other = some stage) :
    Selecting start record' other stage := by
  by_cases hne : other = who
  · subst hne
    exact hself hstage
  · rcases hcalm.others hne hstage with hsame | hidle
    · exact (h.tasks ((hr other).symm.trans hsame)).mono hsuffix (hcalls other hne)
    · exact .of_idle _ _ _ hidle

theorem passes_le (h : Recorded start record w) {now : Nat} (hclock : w.clock.now ≤ now)
    {other moment : Nat} {scope : Scope} (hmem : .passed other moment scope ∈ record) :
    ∃ last, lastPass? start record = some last ∧ moment ≤ last ∧ last ≤ now := by
  obtain ⟨last, hlast, hle, hnow⟩ := h.passes hmem
  exact ⟨last, hlast, hle, Nat.le_trans hnow hclock⟩

theorem passes_cons (h : Recorded start record w) {now : Nat} (hclock : w.clock.now ≤ now)
    {note : Note} (hnote : ∀ other moment scope, note ≠ .passed other moment scope)
    {other moment : Nat} {scope : Scope} (hmem : .passed other moment scope ∈ note :: record) :
    ∃ last, lastPass? start record = some last ∧ moment ≤ last ∧ last ≤ now := by
  rcases List.mem_cons.mp hmem with heq | hmem
  · exact absurd heq.symm (hnote other moment scope)
  · exact h.passes_le hclock hmem

theorem calm (h : Recorded start record w) (hcalm : World.Calm who w w')
    (hself : ∀ {stage}, w'.stage? who = some stage → Selecting start record who stage) :
    Recorded start record w' where
  lastPass := (congrArg Registry.lastPass hcalm.registry).trans h.lastPass
  minInterval := (congrArg Registry.minInterval hcalm.registry).trans h.minInterval
  handles := (congrArg Registry.handles hcalm.registry).trans h.handles
  lastRefresh place := (hcalm.lastRefresh place).trans (h.lastRefresh place)
  passes := h.passes_le hcalm.clock
  tasks := h.tasks_step hcalm (fun _ ↦ rfl) (List.suffix_refl _) (fun _ _ ↦ rfl) hself
  lawful := h.lawful

theorem quiet (h : Recorded start record w) (hquiet : World.Quiet who w w') :
    Recorded start record w' :=
  h.calm hquiet.toCalm fun hstage ↦ .of_idle _ _ _ (hquiet.idle hstage)

theorem mute (h : Recorded start record w) {note : Note} (hmute : note.isMute = true)
    (hfollows : note.Follows start record) : Recorded start (note :: record) w := by
  have hcall : ∀ who, lastCall? who (note :: record) = lastCall? who record := by
    intro who
    refine lastCall?_cons fun moment heq ↦ ?_
    rw [heq] at hmute
    cases hmute
  have htasks : ∀ {who stage}, w.stage? who = some stage →
      Selecting start (note :: record) who stage :=
    fun hstage ↦ (h.tasks hstage).mono (List.suffix_cons _ _) (hcall _)
  have hpass : ∀ who moment scope, note ≠ .passed who moment scope := by
    rintro who moment scope rfl
    cases hmute
  have hpasses : ∀ {who moment scope}, .passed who moment scope ∈ note :: record →
      ∃ last, lastPass? start record = some last ∧ moment ≤ last ∧ last ≤ w.clock.now :=
    h.passes_cons (Nat.le_refl _) hpass
  have hlawful := h.lawful.cons hfollows
  cases note with
  | dropped who moment =>
    exact ⟨h.lastPass, h.minInterval, h.handles, h.lastRefresh, hpasses, htasks, hlawful⟩
  | handed who moment handles =>
    exact ⟨h.lastPass, h.minInterval, h.handles, h.lastRefresh, hpasses, htasks, hlawful⟩
  | _ => cases hmute

/-- A pass that comes too soon is one that the record says to come too soon. -/
theorem tooSoon_iff (h : Recorded start record w) (now : Nat) :
    w.registry.tooSoon now = true ↔ IsTooSoon start record now := by
  rw [Registry.tooSoon, h.lastPass, IsTooSoon, h.minInterval]
  cases lastPass? start record with
  | none => simp
  | some last => simp

theorem needs_eq (h : Recorded start record w) (handle : Handle) (now : Nat) :
    w.needs handle now = isStale start record now handle := by
  rw [World.needs, h.lastRefresh]
  rfl

theorem selects (h : Recorded start record w) (hcalm : World.Calm who w w') {now : Nat}
    {call admitted : List Note} {asked stale rest : List Handle} {note : Option Note}
    (hcall : lastCall? who record = some (now, call)) (hsince : call <:+ admitted)
    (huntil : admitted <:+ record) (hall : asked ++ rest = registered start admitted)
    (hlooked : Looked start now call record asked stale)
    (hnext : World.Selects who now w' stale rest note) :
    Recorded start (note.toList ++ record) w' := by
  cases hnext with
  | next hstage =>
    refine h.calm hcalm fun hstage' ↦ ?_
    obtain rfl := Option.some.inj (hstage.symm.trans hstage')
    exact ⟨call, admitted, asked, hcall, hsince, huntil, hall, hlooked, rfl, .started, nofun⟩
  | done hidle =>
    rw [List.append_nil] at hall
    rw [hall] at hlooked
    exact (h.quiet ⟨hcalm, hidle⟩).mute rfl ⟨call, admitted, hcall, hsince, huntil, hlooked⟩

theorem pass (h : Recorded start record w) {scope : Scope}
    (hregistry : w'.registry = { w.registry with lastPass := some w.clock.now })
    (hcalm : World.Calm who { w with registry := w'.registry } w')
    (hfollows : (Note.passed who w.clock.now scope).Follows start record)
    (hself : ∀ {stage}, w'.stage? who = some stage →
      Selecting start (.passed who w.clock.now scope :: record) who stage) :
    Recorded start (.passed who w.clock.now scope :: record) w' where
  lastPass := congrArg Registry.lastPass hregistry
  minInterval := (congrArg Registry.minInterval hregistry).trans h.minInterval
  handles := (congrArg Registry.handles hregistry).trans h.handles
  lastRefresh place := (hcalm.lastRefresh place).trans (h.lastRefresh place)
  passes hmem := by
    rcases List.mem_cons.mp hmem with heq | hmem
    · obtain ⟨rfl, rfl, rfl⟩ := Note.passed.inj heq
      exact ⟨_, rfl, Nat.le_refl _, hcalm.clock⟩
    · -- The passes before were not later than the last of them, so not later than now.
      obtain ⟨last, -, hle, hnow⟩ := h.passes hmem
      exact ⟨_, rfl, Nat.le_trans hle hnow, hcalm.clock⟩
  tasks := by
    refine h.tasks_step hcalm (fun _ ↦ rfl) (List.suffix_cons _ _) (fun other hne ↦ ?_) hself
    refine lastCall?_cons fun moment heq ↦ ?_
    exact hne (Note.passed.inj heq).1.symm
  lawful := h.lawful.cons hfollows

/-- A pass that does not come too soon comes late enough after all passes on record. -/
theorem follows_passed (h : Recorded start record w)
    (hsoon : w.registry.tooSoon w.clock.now = false) (who : Nat) :
    (Note.passed who w.clock.now .stale).Follows start record := by
  have hlate : ¬ IsTooSoon start record w.clock.now := by
    rw [← h.tooSoon_iff, hsoon]
    nofun
  refine ⟨hlate, fun other moment scope hmem ↦ ?_⟩
  obtain ⟨last, hlast, hle, hnow⟩ := h.passes hmem
  have hinterval : ¬ w.clock.now - last < start.registry.minInterval.ms :=
    fun hlt ↦ hlate ⟨last, hlast, hlt⟩
  omega

theorem register (h : Recorded start record w) {handle : Handle}
    (hregister : w.registry.register? handle = some w'.registry)
    (hquiet : World.Quiet who { w with registry := w'.registry } w') :
    Recorded start (.registered handle :: record) w' := by
  obtain ⟨hlastPass, hminInterval, -⟩ := Registry.times_of_register? hregister
  have hpass : ∀ who moment scope, Note.registered handle ≠ .passed who moment scope := nofun
  refine ⟨hlastPass.trans h.lastPass, hminInterval.trans h.minInterval, ?_,
    fun place ↦ (hquiet.lastRefresh place).trans (h.lastRefresh place),
    h.passes_cons hquiet.clock hpass, ?_, h.lawful.cons trivial⟩
  · rw [Registry.handles_of_register? hregister, h.handles]
    rfl
  · exact h.tasks_step hquiet.toCalm (fun _ ↦ rfl) (List.suffix_cons _ _)
      (fun _ _ ↦ rfl) fun hstage ↦ .of_idle _ _ _ (hquiet.idle hstage)

theorem install (h : Recorded start record w) {place : Nat}
    (hlast : w'.lastRefresh? place = some w.clock.now)
    (hothers : ∀ other, other ≠ place → w'.lastRefresh? other = w.lastRefresh? other)
    (hquiet : World.Quiet who { w with cells := w'.cells } w') :
    Recorded start (.installed who place w.clock.now :: record) w' := by
  have hpass : ∀ other moment scope,
      Note.installed who place w.clock.now ≠ .passed other moment scope := nofun
  refine ⟨(congrArg Registry.lastPass hquiet.registry).trans h.lastPass,
    (congrArg Registry.minInterval hquiet.registry).trans h.minInterval,
    (congrArg Registry.handles hquiet.registry).trans h.handles, fun other ↦ ?_,
    h.passes_cons hquiet.clock hpass, ?_, h.lawful.cons trivial⟩
  · by_cases heq : place = other
    · subst heq
      exact hlast.trans (if_pos rfl).symm
    · exact ((hothers other fun h ↦ heq h.symm).trans (h.lastRefresh other)).trans
        (if_neg heq).symm
  · exact h.tasks_step hquiet.toCalm (fun _ ↦ rfl) (List.suffix_cons _ _)
      (fun _ _ ↦ rfl) fun hstage ↦ .of_idle _ _ _ (hquiet.idle hstage)

theorem ask (h : Recorded start record w) {handle : Handle} {now : Nat} {stale rest : List Handle}
    {after : AfterPass} {a a' : Group.Activity}
    (hstage : w.stage? who = some (.visiting handle a none (.select now stale rest after)))
    (hcalm : World.Calm who w w')
    (hstage' : w'.stage? who = some (.visiting handle a' none (.select now stale rest after)))
    (hanswer : a' = .queued (.query (.needsRefresh now))
      ∨ a' = .answer (.ok (.flag (w.needs handle now)))) : Recorded start record w' := by
  obtain ⟨call, admitted, asked, hcall, hsince, huntil, hall, hlooked, -⟩ := h.tasks hstage
  refine h.calm hcalm fun hs ↦ ?_
  obtain rfl := Option.some.inj (hstage'.symm.trans hs)
  refine ⟨call, admitted, asked, hcall, hsince, huntil, hall, hlooked, rfl, ?_, ?_⟩
  · rcases hanswer with rfl | rfl
    · exact .queued
    · exact .answered _
  · rintro needed rfl
    rcases hanswer with heq | heq
    · cases heq
    · -- The group answers at this step, so this is the look that it is judged by.
      refine ⟨record, lastCall?_suffix hcall, List.suffix_refl _, ?_⟩
      rw [← h.needs_eq]
      cases heq
      rfl

/-- Whatever a step does, the record tells the truth afterwards. -/
theorem stride (h : Recorded start record w) {note : Option Note}
    (hstride : World.Stride who w w' note) : Recorded start (note.toList ++ record) w' := by
  cases hstride with
  | quiet hquiet => exact h.quiet hquiet
  | dropped hsoon hquiet hsame => exact (h.quiet hquiet).mute rfl ((h.tooSoon_iff _).mp hsoon)
  | passed hsoon hregistry hcalm hstage =>
    refine h.pass hregistry hcalm (h.follows_passed hsoon who) fun hstage' ↦ ?_
    obtain rfl := Option.some.inj (hstage.symm.trans hstage')
    exact ⟨_, if_pos rfl⟩
  | passedAll hregistry hquiet =>
    exact h.pass hregistry hquiet.toCalm trivial fun hstage ↦ .of_idle _ _ _ (hquiet.idle hstage)
  | registered hregister hquiet => exact h.register hregister hquiet
  | installed hstage hcell hstage' hlast hothers hquiet => exact h.install hlast hothers hquiet
  | entered hstage hcalm hnext =>
    obtain ⟨call, hcall⟩ := h.tasks hstage
    have hall : [] ++ w.registry.handles = registered start record := h.handles
    exact h.selects hcalm hcall (lastCall?_suffix hcall) (List.suffix_refl _) hall (.nil ..) hnext
  | asked hstage hcalm hstage' hanswer => exact h.ask hstage hcalm hstage' hanswer
  | @told handle now stale rest after needed note hstage hcalm hnext =>
    obtain ⟨call, admitted, asked, hcall, hsince, huntil, hall, hlooked, -, -, hanswer⟩ :=
      h.tasks hstage
    -- The record may be longer than it was when the group answered.
    obtain ⟨look, hsince', huntil', rfl⟩ := hanswer needed rfl
    rw [List.append_cons] at hall
    exact h.selects hcalm hcall hsince huntil hall (hlooked.concat hsince' huntil' handle) hnext

end Recorded

/-! ## The fair order -/

namespace Course

theorem ring (h : Course client start record w) : Course client start record w.ring :=
  (h.elapse w.clock.ring (Nat.le_refl _)).arrange _ _ _ _

theorem endTurn (h : Course client start record w) (who : Nat) (others : List Nat) :
    Course client start record (w.endTurn who others) := by
  have hended := h.arrange others w.deferred (if who = 0 then w.turns else w.turns + 1) 0
  simp only [World.endTurn]
  generalize (if who = 0 then w.turns else w.turns + 1) = turns at hended ⊢
  split
  · exact hended
  · exact hended.ring

theorem move (h : Course client start record w) (hmove : w.move client = some w') :
    ∃ later, Course client start (later ++ record) w' := by
  rw [World.move] at hmove
  split at hmove
  · next who others _ =>
    obtain rfl := Option.some.inj hmove
    rw [World.moveTurn]
    split
    · next task next htask hstep =>
      split
      · exact ⟨[], h.arrange w.woken (who :: w.deferred) w.turns w.taken⟩
      · exact ⟨_, (h.step (.step hstep)).arrange next.woken next.deferred next.turns _⟩
    · exact ⟨[], h.endTurn who others⟩
  · split at hmove
    · obtain ⟨ms, -, rfl⟩ := Option.map_eq_some_iff.mp hmove
      exact ⟨[], (h.elapse (w.clock.pass ms) (Nat.le_add_right _ _)).ring⟩
    · obtain rfl := Option.some.inj hmove
      exact ⟨[], h.ring⟩

/-- What is done in the fair order is a course. -/
theorem run (h : Course client start record w) (limit : Nat) :
    ∃ later, Course client start (later ++ record) (w.run client limit) := by
  induction limit generalizing record w with
  | zero => exact ⟨[], h⟩
  | succ limit ih =>
    rw [World.run]
    split
    · next w' hmove =>
      obtain ⟨later, hmoved⟩ := h.move hmove
      obtain ⟨later', hrun⟩ := ih hmoved
      exact ⟨later' ++ later, by rwa [List.append_assoc]⟩
    · exact ⟨[], h⟩

theorem perform (h : Course client start record w) (request : Request σ) :
    ∃ later, Course client start (later ++ record) (w.perform client request).2 := by
  have hlaunched := (h.forget.arrive request).arrange [0] w.deferred w.turns w.taken
  obtain ⟨later, hrun⟩ := hlaunched.run World.moveLimit
  exact ⟨later, hrun.forget.arrange [] [] 0 0⟩

end Course

end NodeGroups.Simulation
