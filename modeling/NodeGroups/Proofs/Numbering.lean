import Mathlib
import NodeGroups.Proofs.Parts
import NodeGroups.Proofs.Play

/-!
# Templates by number

All templates are numbered by one counter of 64 bits, whichever groups they are for. The name of a
template is the name of its group, a word, and the number. The number is written in digits and the
word ends in a dash, so the number is what follows the last dash of the name, whatever the group is
called: a group whose own name looks like that of a template gains nothing by it. So two templates
have one name only if they are of one group and have one number.

A step of the world makes one template or none. The counter goes up with each, so in a run the
numbers follow one another, and up to `2 ^ 64` of them are different.
-/

namespace NodeGroups

namespace Template

variable {group group' : String} {number number' : UInt64}

/-! ## Names -/

theorem toList_templateName (group : String) (number : UInt64) :
    (templateName group number).toList
      = (group.toList ++ "-template".toList) ++ '-' :: Text.digits number.toNat := by
  have hdigits : (toString number).toList = Text.digits number.toNat := String.toList_ofList
  rw [templateName, String.toList_append, String.toList_append, hdigits]
  simp

/-- The number of a template can be read off its name. -/
theorem cutLast?_templateName (group : String) (number : UInt64) :
    Text.cutLast? '-' (templateName group number).toList
      = some (group.toList ++ "-template".toList, Text.digits number.toNat) := by
  refine Text.cutLast?_eq_some_iff.mpr ⟨fun hdash ↦ ?_, toList_templateName group number⟩
  have hdigit := Text.isDigit_of_mem_digits hdash
  cases hdigit

theorem templateName_eq_iff :
    templateName group number = templateName group' number'
      ↔ group = group' ∧ number = number' := by
  constructor
  · intro hname
    have hcut := cutLast?_templateName group number
    rw [hname, cutLast?_templateName] at hcut
    obtain ⟨hgroup, hdigits⟩ := Prod.mk.inj (Option.some.inj hcut)
    have hnumber : number.toNat = number'.toNat := by
      rw [← Text.ofDigits_digits number.toNat, ← hdigits, Text.ofDigits_digits]
    exact ⟨String.toList_inj.mp (List.append_cancel_right hgroup).symm, UInt64.toNat_inj.mp hnumber⟩
  · rintro ⟨rfl, rfl⟩
    rfl

theorem proxyPod_name_inj {name name' : String}
    (hpod : (proxyPod name).name = (proxyPod name').name) : name = name' := by
  have hlist := congrArg String.toList hpod
  rw [proxyPod, proxyPod, String.toList_append, String.toList_append] at hlist
  exact String.toList_inj.mp (List.append_cancel_left hlist)

/-! ## Templates in a row -/

/-- The templates for some groups and their scale sets, numbered from a number on. -/
def numberedFrom (number : UInt64) (calls : List (String × ScaleSet)) : List NodeTemplate :=
  calls.mapIdx fun i call ↦ synthesize (number + .ofNat i) call.1 call.2

theorem numberedFrom_concat (number : UInt64) (calls : List (String × ScaleSet)) (group : String)
    (s : ScaleSet) : numberedFrom number (calls ++ [(group, s)])
      = numberedFrom number calls ++ [synthesize (number + .ofNat calls.length) group s] :=
  List.mapIdx_concat

theorem pods_of_mem_numberedFrom {calls : List (String × ScaleSet)} {t : NodeTemplate}
    (ht : t ∈ numberedFrom number calls) : t.pods = [proxyPod t.name] := by
  obtain ⟨i, hi, rfl⟩ := List.mem_mapIdx.mp ht
  rfl

/-- As long as the counter does not come round, no two of them have one name. -/
theorem pairwise_numberedFrom {calls : List (String × ScaleSet)} (hcount : calls.length ≤ 2 ^ 64) :
    (numberedFrom number calls).Pairwise fun t t' ↦ t.name ≠ t'.name := by
  rw [numberedFrom, List.pairwise_iff_getElem]
  intro i j hi hj hij hname
  rw [List.length_mapIdx] at hi hj
  rw [List.getElem_mapIdx, List.getElem_mapIdx] at hname
  obtain ⟨-, hnumber⟩ := templateName_eq_iff.mp hname
  have hindex := congrArg UInt64.toNat ((UInt64.add_right_inj number).mp hnumber)
  rw [UInt64.toNat_ofNat_of_lt' (Nat.lt_of_lt_of_le hi hcount),
    UInt64.toNat_ofNat_of_lt' (Nat.lt_of_lt_of_le hj hcount)] at hindex
  exact absurd hindex (Nat.ne_of_lt hij)

end Template

namespace Simulation

variable {σ : Type} {client : Client σ}

namespace World

variable {w w' : World σ} {who : Nat}

/-! ## What a step makes -/

/-- The template that a step of a task made, if it made one. -/
def made? (who : Nat) (w w' : World σ) : Option NodeTemplate :=
  match w.stage? who, w'.stage? who with
  | some (.visiting _ _ _ .template), some (.finished (.ok (.template t)) _) => some t
  | _, _ => none

theorem Effect.templates {t : Topic} {claim claim' : Option Access}
    (h : Effect who t claim claim' w w') (htopic : t ≠ .templates) :
    w'.templates = w.templates := by
  cases h with
  | count => exact absurd rfl htopic
  | _ => rfl

theorem Does.templates {t : Topic} {claim : Option Access} (h : Does who t claim w w')
    (htopic : t ≠ .templates) : w'.templates = w.templates := by
  induction h with
  | settle h => cases h <;> rfl
  | after heffect h ih => exact ih.trans (heffect.templates htopic)

/-- A step makes a template with the number that the counter has, and the counter goes up; or it
makes none, and the counter is as it was. -/
def Counts (who : Nat) (w w' : World σ) : Prop :=
  (made? who w w' = none ∧ w'.templates = w.templates)
  ∨ ∃ group s, made? who w w' = some (Template.synthesize w.templates group s)
    ∧ w'.templates = w.templates + 1

theorem made?_eq_none {stage : Stage σ} (hstage : w'.stage? who = some stage)
    (hother : ∀ t moment, stage ≠ .finished (.ok (.template t)) moment) :
    made? who w w' = none := by
  rw [made?, hstage]
  split
  · next heq => exact absurd (Option.some.inj heq) (hother _ _)
  · rfl

theorem resultOf_ne_template (ending : Group.Ending) (t : NodeTemplate) :
    resultOf ending ≠ .ok (.template t) := by
  rcases ending with (e | finding) | _
  · nofun
  · cases finding <;> nofun
  · nofun

theorem made?_eq_none_of_topic {stage : Stage σ} (hstage : w.stage? who = some stage)
    (htopic : stage.topic ≠ .templates) (w' : World σ) : made? who w w' = none := by
  rw [made?, hstage]
  split
  · next heq _ =>
    obtain rfl := Option.some.inj heq
    exact absurd rfl htopic
  · rfl

theorem counts_proceed {h : Handle} {activity : Group.Activity} {deadline : Option Deadline}
    {next : Next} {v : World σ}
    (hbefore : w.stage? who = some (.visiting h activity deadline next))
    (hstage : v.stage? who = w.stage? who) (htemplates : v.templates = w.templates)
    (ending : Group.Ending) : Counts who w (v.proceed who h ending next) := by
  rw [hbefore] at hstage
  by_cases htopic : next.topic = .templates
  · cases next with
    | template =>
      simp only [proceed]
      split
      · next s =>
        refine .inr ⟨h.group.name, s, ?_, congrArg (· + 1) htemplates⟩
        rw [made?, hbefore, stage?_finish_self (w := { v with templates := v.templates + 1 })
          hstage, htemplates]
      · refine .inl ⟨made?_eq_none (stage?_finish_self hstage _) fun t moment heq ↦ ?_, htemplates⟩
        exact resultOf_ne_template ending t (Stage.finished.inj heq).1
    | _ => cases htopic
  · exact .inl ⟨made?_eq_none_of_topic hbefore htopic _,
      ((does_proceed h ending next).templates htopic).trans htemplates⟩

theorem Goes.counts {stage : Stage σ} (h : Goes client who w stage w')
    (hstage : w.stage? who = some stage) : Counts who w w' := by
  cases h with
  | does hout h =>
    have htopic : stage.topic ≠ .templates := Stage.topic_ne_templates hout
    exact .inl ⟨made?_eq_none_of_topic hstage htopic _, h.templates htopic⟩
  | ends h ending d next => exact counts_proceed hstage rfl rfl ending
  | carries hcell hscene =>
    exact .inl ⟨made?_eq_none (stage?_carryOn_self hstage ..) nofun, rfl⟩
  | limits hcell hwaits hunset =>
    exact .inl ⟨made?_eq_none (stage?_setStage_self hstage _) nofun, rfl⟩
  | @givesUp h _ _ _ cell _ hcell hwaits htimer hpast =>
    exact counts_proceed (v := w.setCell h.place (cell.withdraw who)) hstage rfl rfl _

theorem Steps.counts (h : w.Steps client who w') : Counts who w w' := by
  obtain ⟨stage, next, hstage, hgoes, rfl⟩ := h.goes
  exact hgoes.counts hstage

end World

/-! ## Runs -/

/-- A run in which some templates were made, in this order: by tasks of the world, or at the request
of somebody else. Whatever happens besides leaves the counter alone. -/
inductive Makes (client : Client σ) (start : World σ) : List NodeTemplate → World σ → Prop
  | refl : Makes client start [] start
  | step {ts : List NodeTemplate} {w w' : World σ} {who : Nat} (h : Makes client start ts w)
      (hsteps : w.Steps client who w') :
      Makes client start (ts ++ (World.made? who w w').toList) w'
  | request {ts : List NodeTemplate} {w : World σ} (h : Makes client start ts w) (group : String)
      (s : ScaleSet) :
      Makes client start (ts ++ [Template.synthesize w.templates group s])
        { w with templates := w.templates + 1 }
  | happen {ts : List NodeTemplate} {w w' : World σ} (h : Makes client start ts w)
      (hsame : w'.templates = w.templates) : Makes client start ts w'

namespace Makes

variable {start w : World σ} {ts : List NodeTemplate}

/-- The templates of a run are numbered in a row from where the counter was. -/
theorem exists_calls (h : Makes client start ts w) :
    ∃ calls, ts = Template.numberedFrom start.templates calls
      ∧ w.templates = start.templates + .ofNat calls.length := by
  have hnext {w : World σ} {calls : List (String × ScaleSet)} (group : String) (s : ScaleSet)
      (hcounter : w.templates = start.templates + .ofNat calls.length) :
      Template.numberedFrom start.templates calls ++ [Template.synthesize w.templates group s]
          = Template.numberedFrom start.templates (calls ++ [(group, s)])
        ∧ w.templates + 1 = start.templates + .ofNat (calls ++ [(group, s)]).length := by
    rw [Template.numberedFrom_concat, hcounter, List.length_append, UInt64.ofNat_add,
      UInt64.add_assoc]
    exact ⟨rfl, rfl⟩
  induction h with
  | refl => exact ⟨[], rfl, (UInt64.add_zero _).symm⟩
  | happen _ hsame ih =>
    obtain ⟨calls, hts, hcounter⟩ := ih
    exact ⟨calls, hts, hsame.trans hcounter⟩
  | request _ group s ih =>
    obtain ⟨calls, rfl, hcounter⟩ := ih
    obtain ⟨hts, hcounter⟩ := hnext group s hcounter
    exact ⟨calls ++ [(group, s)], hts, hcounter⟩
  | step _ hsteps ih =>
    obtain ⟨calls, rfl, hcounter⟩ := ih
    obtain ⟨hnone, hsame⟩ | ⟨group, s, hmade, hcounts⟩ := hsteps.counts
    · exact ⟨calls, by rw [hnone, Option.toList_none, List.append_nil], hsame.trans hcounter⟩
    · obtain ⟨hts, hcounter⟩ := hnext group s hcounter
      exact ⟨calls ++ [(group, s)], by rw [hmade, Option.toList_some, hts],
        hcounts.trans hcounter⟩

/-- **Templates have different names.** Of fewer than `2 ^ 64` templates that are made in a run, for
groups of any names and from any descriptions, no two have one name, and no two have a pod of one
name. Each has one pod. -/
theorem names_distinct (h : Makes client start ts w) (hcount : ts.length < 2 ^ 64) :
    (ts.map NodeTemplate.name).Nodup ∧ (ts.flatMap fun t ↦ t.pods.map Pod.name).Nodup
    ∧ ∀ t ∈ ts, ∃ pod, t.pods = [pod] := by
  obtain ⟨calls, rfl, -⟩ := h.exists_calls
  have hlength : (Template.numberedFrom start.templates calls).length = calls.length :=
    List.length_mapIdx
  have hnames : (Template.numberedFrom start.templates calls).Pairwise
      fun t t' ↦ t.name ≠ t'.name :=
    Template.pairwise_numberedFrom (Nat.le_of_lt (hlength ▸ hcount))
  have hpods : (Template.numberedFrom start.templates calls).flatMap (fun t ↦ t.pods.map Pod.name)
      = (Template.numberedFrom start.templates calls).map
        fun t ↦ (Template.proxyPod t.name).name := by
    rw [List.map_eq_flatMap]
    refine List.flatMap_congr fun t ht ↦ ?_
    rw [Template.pods_of_mem_numberedFrom ht, List.map_singleton]
  refine ⟨List.pairwise_map.mpr hnames, ?_, fun t ht ↦ ⟨_, Template.pods_of_mem_numberedFrom ht⟩⟩
  rw [hpods]
  exact List.pairwise_map.mpr (hnames.imp fun hne hpod ↦ hne (Template.proxyPod_name_inj hpod))

/-- A task that is about to make a template for a group, when the counter is about to come round. -/
def lastNumber : World Memory :=
  { World.initial .empty (.empty .defaultGroupTimeout .defaultMinInterval) with
    templates := 18446744073709551615
    tasks := [⟨.visiting ⟨Group.pool, 0⟩ (.ended (.answered (.ok (.scaleSet (.bare "pool" 3)))))
      none .template, none⟩] }

/-- One group is named like a template of another, and the counter comes round. -/
theorem names_distinct_of_lookalikes : ∃ ts w, Makes Memory.client lastNumber ts w
    ∧ ts.map NodeTemplate.name = ["pool-template-18446744073709551615",
      "pool-template-1-template-0", "pool-template-1"]
    ∧ (ts.map NodeTemplate.name).Nodup ∧ (ts.flatMap fun t ↦ t.pods.map Pod.name).Nodup := by
  have hstep : lastNumber.step Memory.client 0 = some _ :=
    World.step_of_stepTask rfl rfl List.not_mem_nil
  have hlast := Makes.refl.step (.step hstep)
  have hrun := (hlast.request "pool-template-1" (.bare "other" 0)).request "pool" (.bare "pool" 3)
  have hnames := hrun.names_distinct (by decide)
  refine ⟨_, _, hrun, ?_, hnames.1, hnames.2.1⟩
  decide +kernel

end Makes

end Simulation

end NodeGroups
