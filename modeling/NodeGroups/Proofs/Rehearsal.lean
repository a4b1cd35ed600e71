import NodeGroups.Proofs.Course
import NodeGroups.Proofs.Play

/-!
# Rehearsing a course

A course can take any order, and so courses are a relation. One order is rehearsed from a list of
what shall happen, if all of it can happen. What is rehearsed is a course.
-/

namespace NodeGroups.Simulation

variable {σ : Type} {client : Client σ}

/-- Something to happen in a course. -/
inductive Happening (σ : Type)
  | arrive (request : Request σ)
  | go (who : Nat)
  /-- Time passes, and timers go off. -/
  | elapse (ms : Nat)

def Happening.steps (who count : Nat) : List (Happening σ) := List.replicate count (.go who)

/-- Lets something happen, if it can. -/
def World.happen (client : Client σ) (now : List Note × World σ) :
    Happening σ → Option (List Note × World σ)
  | .arrive request =>
    some (now.1, { now.2 with tasks := now.2.tasks ++ [⟨.launching none request, none⟩] })
  | .go who => (now.2.step client who).map fun w ↦ ((now.2.note? who w).toList ++ now.1, w)
  | .elapse ms => some (now.1, { now.2 with clock := (now.2.clock.pass ms).ring })

/-- What comes of it when some things happen: the record and the world. -/
def World.rehearse (client : Client σ) (happenings : List (Happening σ)) (start : World σ) :
    Option (List Note × World σ) :=
  happenings.foldlM (World.happen client) ([], start)

theorem Course.happen {start : World σ} {now now' : List Note × World σ} {happening : Happening σ}
    (h : Course client start now.1 now.2)
    (hhappen : World.happen client now happening = some now') :
    Course client start now'.1 now'.2 := by
  cases happening with
  | arrive request =>
    obtain rfl := Option.some.inj hhappen
    exact .arrive request h
  | go who =>
    obtain ⟨w, hstep, rfl⟩ := Option.map_eq_some_iff.mp hhappen
    exact .step h (.step hstep)
  | elapse ms =>
    obtain rfl := Option.some.inj hhappen
    exact .elapse h _ (Nat.le_add_right _ _)

theorem of_foldlM {α β : Type} {f : β → α → Option β} {p : β → Prop}
    (hstep : ∀ {now a next}, p now → f now a = some next → p next) {as : List α} {now last : β}
    (hnow : p now) (hfold : as.foldlM f now = some last) : p last := by
  induction as generalizing now with
  | nil =>
    obtain rfl := Option.some.inj hfold
    exact hnow
  | cons a as ih =>
    obtain ⟨next, hnext, hrest⟩ := Option.bind_eq_some_iff.mp hfold
    exact ih (hstep hnow hnext) hrest

/-- What is rehearsed is a course. -/
theorem Course.rehearse {start w : World σ} {happenings : List (Happening σ)} {record : List Note}
    (hrehearse : World.rehearse client happenings start = some (record, w)) :
    Course client start record w := by
  let p (now : List Note × World σ) : Prop := Course client start now.1 now.2
  have hstart : p ([], start) := .refl
  exact of_foldlM (fun h hnext ↦ Course.happen h hnext) hstart hrehearse

/-! ## A world of two groups -/

deriving instance DecidableEq for Group, Handle, Note

def poolNamed (name : String) (named : ¬ Text.IsBlank name) : Group :=
  { Group.pool with name, named }

theorem not_isBlank_of_mem {name : String} {letter : Char} (hmem : letter ∈ name.toList)
    (hletter : Text.isBlank letter = false) : ¬ Text.IsBlank name := by
  intro hblank
  rw [hblank letter hmem] at hletter
  cases hletter

def spare : Group := poolNamed "spare" (not_isBlank_of_mem (by simp : 's' ∈ _) rfl)

/-- Two groups, of which nothing is known yet. -/
def pair : Registry where
  handles := [⟨Group.pool, 0⟩, ⟨spare, 1⟩]
  groupTimeout := .defaultGroupTimeout
  minInterval := .defaultMinInterval
  lastPass := none
  distinct := by decide +kernel

def cloudOfPair : Memory := (Group.cloudOf 3).put "rg" (.bare "spare" 1)

end NodeGroups.Simulation
