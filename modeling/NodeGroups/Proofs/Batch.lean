import NodeGroups.Proofs.Calm
import NodeGroups.Proofs.Memory
import NodeGroups.Proofs.Play

/-!
# Deletions from a cloud in memory

A list of instances is deleted as a whole or not at all. The list is gone through twice: first each
number is looked at, in the order of the list, and the first one with a fault decides about the
error; only if there is none, the instances are marked and the capacity falls. Of several instances
with one number the first is looked at, but all of them are marked.

Nothing happens between the two passes, since a call looks at the cloud and changes it in one step.
So no other task sees a part of the list deleted.
-/

namespace NodeGroups

open Simulation

namespace Memory

variable {m m' : Memory} {resourceGroup name : String} {ids : List String}
  {instances : List Instance} {id : String} {e : CloudError}

/-! ## One number -/

/-- The first of some instances with a number. -/
def IsFirst (instances : List Instance) (id : String) (i : Instance) : Prop :=
  i.instanceId = id
    ∧ ∃ before after, instances = before ++ i :: after ∧ ∀ j ∈ before, j.instanceId ≠ id

/-- There is an instance with a number, and the first one is not on its way out. -/
def IsDeletable (instances : List Instance) (id : String) : Prop :=
  ∃ i, IsFirst instances id i ∧ i.state ≠ .deleting

/-- What is wrong with deleting the instance with a number. -/
inductive Fault (instances : List Instance) (name id : String) : CloudError → Prop
  | unknown (hnone : ∀ i ∈ instances, i.instanceId ≠ id) :
      Fault instances name id (.notFound ("instance " ++ id ++ " of " ++ name))
  | deleting {i : Instance} (hfirst : IsFirst instances id i) (hdeleting : i.state = .deleting) :
      Fault instances name id
        (.conflict ("instance " ++ id ++ " of " ++ name ++ " is already being deleted"))

theorem find?_eq_some_iff_isFirst {i : Instance} :
    instances.find? (·.instanceId = id) = some i ↔ IsFirst instances id i := by
  simp [List.find?_eq_some_iff_append, IsFirst]

theorem deletionFault?_eq_some_iff :
    deletionFault? instances name id = some e ↔ Fault instances name id e := by
  rw [deletionFault?]
  constructor
  · intro hfault
    split at hfault
    · next hnone =>
      obtain rfl := Option.some.inj hfault
      exact .unknown fun i hi ↦ by simpa using List.find?_eq_none.mp hnone i hi
    · next i hfind =>
      obtain ⟨hdeleting, hfault⟩ := Option.ite_none_right_eq_some.mp hfault
      obtain rfl := Option.some.inj hfault
      exact .deleting (find?_eq_some_iff_isFirst.mp hfind)
        (ProvisioningState.isDeleting_iff.mp hdeleting)
  · rintro (hnone | ⟨hfirst, hdeleting⟩)
    · have hfind : instances.find? (·.instanceId = id) = none :=
        List.find?_eq_none.mpr fun i hi ↦ by simpa using hnone i hi
      rw [hfind]
    · rw [find?_eq_some_iff_isFirst.mpr hfirst]
      exact if_pos (ProvisioningState.isDeleting_iff.mpr hdeleting)

theorem deletionFault?_eq_none_iff :
    deletionFault? instances name id = none ↔ IsDeletable instances id := by
  rw [deletionFault?]
  constructor
  · intro hfault
    split at hfault
    · cases hfault
    · next i hfind =>
      refine ⟨i, find?_eq_some_iff_isFirst.mp hfind, fun hdeleting ↦ ?_⟩
      rw [if_pos (ProvisioningState.isDeleting_iff.mpr hdeleting)] at hfault
      cases hfault
  · rintro ⟨i, hfirst, hstays⟩
    rw [find?_eq_some_iff_isFirst.mpr hfirst]
    exact if_neg (mt ProvisioningState.isDeleting_iff.mp hstays)

/-! ## A list of numbers -/

/-- The scale set exists, and nothing is wrong with any number of the list. -/
def Accepts (m : Memory) (resourceGroup name : String) (ids : List String) : Prop :=
  ∃ h, m.holding? resourceGroup name = some h ∧ ∀ id ∈ ids, IsDeletable h.instances id

/-- Why a list is refused: there is no such scale set, or the first number of the list with which
something is wrong has this fault. -/
inductive Refuses (m : Memory) (resourceGroup name : String) (ids : List String) :
    CloudError → Prop
  | missing (hnone : m.holding? resourceGroup name = none) :
      Refuses m resourceGroup name ids
        (.notFound ("scale set " ++ resourceGroup ++ "/" ++ name))
  | fault {h : Holding} {before after : List String} {id : String} {e : CloudError}
      (hholding : m.holding? resourceGroup name = some h) (hids : ids = before ++ id :: after)
      (hbefore : ∀ id' ∈ before, IsDeletable h.instances id')
      (hfault : Fault h.instances name id e) : Refuses m resourceGroup name ids e

/-- What is left after a list was accepted. The listed instances are on their way out, and the
others are as they were. The capacity falls by the length of the list as 32 bits have it, which is
the length of the list itself unless there are more numbers than a capacity can count. -/
structure Deleted (m : Memory) (resourceGroup name : String) (ids : List String) (h h' : Holding)
    (m' : Memory) : Prop where
  before : m.holding? resourceGroup name = some h
  after : m'.holding? resourceGroup name = some h'
  instances : List.Forall₂ (fun i i' ↦ (i.instanceId ∈ ids → i' = { i with state := .deleting })
    ∧ (i.instanceId ∉ ids → i' = i)) h.instances h'.instances
  scaleSet : h'.scaleSet = { h.scaleSet with capacity := h'.scaleSet.capacity }
  capacity : h'.scaleSet.capacity.toNat = h.scaleSet.capacity.toNat - ids.length % 2 ^ 32
  capacity_of_lt : ids.length < 2 ^ 32 →
    h'.scaleSet.capacity.toNat = h.scaleSet.capacity.toNat - ids.length
  deletions : m'.deletions = m.deletions ++ [ids]
  others : ∀ resourceGroup' name',
    ¬ (Text.SameName resourceGroup' resourceGroup ∧ Text.SameName name' name) →
      m'.holding? resourceGroup' name' = m.holding? resourceGroup' name'
  /-- Everything besides the scale sets and the accepted deletions. -/
  rest : { m' with holdings := m.holdings, deletions := m.deletions } = m

theorem delete_eq_error_iff :
    delete resourceGroup name ids m = .error e ↔ Refuses m resourceGroup name ids e := by
  rw [delete, find]
  cases hholding : m.holding? resourceGroup name with
  | none =>
    constructor
    · intro herror
      obtain rfl := Except.error.inj herror
      exact .missing hholding
    · rintro (hnone | ⟨hsome, -, -, -⟩)
      · rfl
      · rw [hholding] at hsome
        cases hsome
  | some h =>
    dsimp only [Except.bind]
    constructor
    · intro herror
      split at herror
      · next e' hfind =>
        obtain rfl := Except.error.inj herror
        obtain ⟨before, id, after, hids, hfault, hbefore⟩ := List.findSome?_eq_some_iff.mp hfind
        exact .fault hholding hids (fun id' hid' ↦ deletionFault?_eq_none_iff.mp (hbefore id' hid'))
          (deletionFault?_eq_some_iff.mp hfault)
      · cases herror
    · rintro (hnone | ⟨hsome, hids, hbefore, hfault⟩)
      · rw [hholding] at hnone
        cases hnone
      · obtain rfl := Option.some.inj (hholding.symm.trans hsome)
        rw [List.findSome?_eq_some_iff.mpr ⟨_, _, _, hids, deletionFault?_eq_some_iff.mpr hfault,
          fun id' hid' ↦ deletionFault?_eq_none_iff.mpr (hbefore id' hid')⟩]

theorem exists_delete_iff :
    (∃ m', delete resourceGroup name ids m = .ok m') ↔ Accepts m resourceGroup name ids := by
  constructor
  · rintro ⟨m', hdelete⟩
    obtain ⟨h, hholding, hnone, -⟩ := delete_eq_ok_iff.mp hdelete
    exact ⟨h, hholding, fun id hid ↦ deletionFault?_eq_none_iff.mp (hnone id hid)⟩
  · rintro ⟨h, hholding, hdeletable⟩
    exact ⟨_, delete_eq_ok_iff.mpr ⟨h, hholding,
      fun id hid ↦ deletionFault?_eq_none_iff.mpr (hdeletable id hid), rfl⟩⟩

theorem forall₂_markDeleting (ids : List String) (instances : List Instance) :
    List.Forall₂ (fun i i' ↦ (i.instanceId ∈ ids → i' = { i with state := .deleting })
      ∧ (i.instanceId ∉ ids → i' = i)) instances (markDeleting ids instances) := by
  rw [markDeleting, List.forall₂_map_right_iff, List.forall₂_same]
  intro i _
  exact ⟨fun hid ↦ if_pos hid, fun hid ↦ if_neg hid⟩

theorem toNat_capacity_afterDeletion (ids : List String) (h : Holding) :
    (afterDeletion ids h).scaleSet.capacity.toNat
      = h.scaleSet.capacity.toNat - ids.length % 2 ^ 32 :=
  UInt32.toNat_ofNat_of_lt' (Nat.lt_of_le_of_lt (Nat.sub_le _ _) h.scaleSet.capacity.toNat_lt)

theorem deleted_of_delete (hdelete : delete resourceGroup name ids m = .ok m') :
    ∃ h h', Deleted m resourceGroup name ids h h' m' := by
  obtain ⟨h, hholding, -, rfl⟩ := delete_eq_ok_iff.mp hdelete
  have hcapacity := toNat_capacity_afterDeletion ids h
  exact ⟨h, afterDeletion ids h,
    { before := hholding
      after := holding?_setHolding _ _ _ _
      instances := forall₂_markDeleting ids h.instances
      scaleSet := rfl
      capacity := hcapacity
      capacity_of_lt := fun hlt ↦ by rw [hcapacity, Nat.mod_eq_of_lt hlt]
      deletions := rfl
      others := fun _ _ hne ↦ holding?_setHolding_of_ne _ hne
      rest := rfl }⟩

/-! ## A call -/

/-- How a call to delete instances ends, and what it leaves of the cloud. -/
structure Verdict (m : Memory) (resourceGroup name : String) (ids : List String) (result : Result)
    (m' : Memory) : Prop where
  total : result = .ok .nothing ∨ ∃ e, result = .error (.cloud e)
  ok_iff : result = .ok .nothing ↔ m.Accepts resourceGroup name ids
  error_iff : ∀ e, result = .error (.cloud e) ↔ m.Refuses resourceGroup name ids e
  left_of_error : ∀ e, result = .error (.cloud e) → m' = m
  deleted : result = .ok .nothing → ∃ h h', m.Deleted resourceGroup name ids h h' m'

def resultOf : Except CloudError Memory → Result
  | .ok _ => .ok .nothing
  | .error e => .error (.cloud e)

def leftBy (m : Memory) : Except CloudError Memory → Memory
  | .ok m' => m'
  | .error _ => m

theorem verdict_delete (m : Memory) (resourceGroup name : String) (ids : List String) :
    m.Verdict resourceGroup name ids (resultOf (m.delete resourceGroup name ids))
      (m.leftBy (m.delete resourceGroup name ids)) := by
  cases hdelete : m.delete resourceGroup name ids with
  | ok m' =>
    exact
      { total := .inl rfl
        ok_iff := ⟨fun _ ↦ exists_delete_iff.mp ⟨m', hdelete⟩, fun _ ↦ rfl⟩
        error_iff := fun e ↦ by
          rw [← delete_eq_error_iff, hdelete]
          exact ⟨nofun, nofun⟩
        left_of_error := nofun
        deleted := fun _ ↦ deleted_of_delete hdelete }
  | error e =>
    exact
      { total := .inr ⟨e, rfl⟩
        ok_iff := by
          rw [← exists_delete_iff, hdelete]
          exact ⟨nofun, nofun⟩
        error_iff := fun e' ↦ by
          rw [← delete_eq_error_iff, hdelete, resultOf, Except.error.injEq, Except.error.injEq,
            Failure.cloud.injEq]
        left_of_error := fun _ _ ↦ rfl
        deleted := nofun }

/-- **All or nothing.** When the time of a call to delete instances from a cloud in memory is over,
and the call was not bound to fail, the task is finished in one step. The call is accepted just when
the scale set exists and, for each number of the list, an instance with it exists and the first such
instance is not on its way out. Otherwise the call has the error of the first number in the list
with which something is wrong, and the cloud is as it was. An accepted call puts the listed
instances on their way out, lowers the capacity by the length of the list, though not below zero,
and notes the list; nothing else changes. The case of letters in the names does not matter. -/
theorem delete_all_or_nothing {w : World Memory} {who : Nat} {resourceGroup name : String}
    {ids : List String} {p : Pending}
    (hstage : w.stage? who = some (.remote resourceGroup name (.delete ids) p))
    (hturn : who ∉ w.deferred) (hover : p.isOver w.clock = true) (hfailure : p.failure = none) :
    ∃ w' result, w.step client who = some w'
      ∧ w'.stage? who = some (.finished result w.clock.now)
      ∧ w.cloud.Verdict resourceGroup name ids result w'.cloud
      ∧ ∀ resourceGroup' name', Text.SameName resourceGroup' resourceGroup →
        Text.SameName name' name →
          w.cloud.holding? resourceGroup' name' = w.cloud.holding? resourceGroup name := by
  have hverdict := verdict_delete w.cloud resourceGroup name ids
  let answer := w.cloud.delete resourceGroup name ids
  have houtcome : p.outcome answer = answer := by rw [Pending.outcome, hfailure]
  have hnext : w.stepTask client who (.remote resourceGroup name (.delete ids) p)
      = some ({ w with cloud := w.cloud.leftBy answer }.finish who (resultOf answer)) := by
    refine (if_pos hover).trans (congrArg some ?_)
    change World.finishRemote.change who w (p.outcome answer) = _
    rw [houtcome]
    cases answer <;> rfl
  refine ⟨_, _, World.step_of_stepTask hstage hnext hturn, ?_, hverdict, ?_⟩
  · exact World.stage?_finish_self (w := { w with cloud := w.cloud.leftBy answer }) hstage _
  · intro resourceGroup' name' hgroup hname
    rw [holding?, holding?, key_eq_key_iff.mpr ⟨hgroup, hname⟩]

/-! ## Two calls at once -/

def deletionOf (resourceGroup name : String) (ids : List String) : Simulation.Task Memory :=
  ⟨.remote resourceGroup name (.delete ids) ⟨.nothing, none⟩, none⟩

/-- Two calls to delete machines of one scale set. The first names it in capitals and lists a
machine twice, the second lists a machine that there is and one that there is not. -/
def deletionsAtOnce : World Memory :=
  { World.initial (Group.cloudOf 3) (.empty .defaultGroupTimeout .defaultMinInterval) with
    tasks := [deletionOf "RG" "POOL" ["1", "0", "1"], deletionOf "rg" "pool" ["0", "7"]] }

def threeMachines : Holding where
  scaleSet := .bare "pool" 3
  instances := [record "rg" "pool" 0 .succeeded, record "rg" "pool" 1 .succeeded,
    record "rg" "pool" 2 .succeeded]

theorem holding?_deletionsAtOnce :
    deletionsAtOnce.cloud.holding? "RG" "POOL" = some threeMachines
      ∧ deletionsAtOnce.cloud.holding? "rg" "pool" = some threeMachines := by
  have hsmall : deletionsAtOnce.cloud.holding? "rg" "pool" = some threeMachines := by
    decide +kernel
  have hkey : key "RG" "POOL" = key "rg" "pool" :=
    key_eq_key_iff.mpr ⟨Text.sameName_iff.mpr (by decide), Text.sameName_iff.mpr (by decide)⟩
  refine ⟨?_, hsmall⟩
  rwa [holding?, hkey]

theorem isDeletable_threeMachines : ∀ id ∈ ["1", "0", "1"],
    IsDeletable threeMachines.instances id := by
  have hfault : ∀ id ∈ ["1", "0", "1"],
      deletionFault? threeMachines.instances "pool" id = none := by decide +kernel
  exact fun id hid ↦ deletionFault?_eq_none_iff.mp (hfault id hid)

/-- The first is accepted, and the second is refused as a whole. -/
theorem delete_all_or_nothing_of_repeated :
    (∃ w' h', deletionsAtOnce.step client 0 = some w' ∧ w'.cloud.holding? "RG" "POOL" = some h'
      ∧ h'.scaleSet.capacity.toNat = 0 ∧ w'.cloud.deletions = [["1", "0", "1"]])
    ∧ ∃ w', deletionsAtOnce.step client 1 = some w' ∧ w'.cloud = deletionsAtOnce.cloud
      ∧ w'.stage? 1 = some (.finished (.error (.cloud (.notFound "instance 7 of pool"))) 0) := by
  constructor
  · have hstage : deletionsAtOnce.stage? 0
        = some (.remote "RG" "POOL" (.delete ["1", "0", "1"]) ⟨.nothing, none⟩) := rfl
    obtain ⟨w', result, hstep, -, hverdict, -⟩ :=
      delete_all_or_nothing hstage List.not_mem_nil rfl rfl
    have hok : result = .ok .nothing :=
      hverdict.ok_iff.mpr ⟨threeMachines, holding?_deletionsAtOnce.1, isDeletable_threeMachines⟩
    obtain ⟨h, h', hdeleted⟩ := hverdict.deleted hok
    obtain rfl : threeMachines = h :=
      Option.some.inj (holding?_deletionsAtOnce.1.symm.trans hdeleted.before)
    exact ⟨w', h', hstep, hdeleted.after, hdeleted.capacity, hdeleted.deletions⟩
  · have hstage : deletionsAtOnce.stage? 1
        = some (.remote "rg" "pool" (.delete ["0", "7"]) ⟨.nothing, none⟩) := rfl
    obtain ⟨w', result, hstep, hfinished, hverdict, -⟩ :=
      delete_all_or_nothing hstage List.not_mem_nil rfl rfl
    have hfault : Fault threeMachines.instances "pool" "7"
        (.notFound "instance 7 of pool") :=
      .unknown (by decide +kernel)
    have hrefuses : deletionsAtOnce.cloud.Refuses "rg" "pool" ["0", "7"]
        (.notFound "instance 7 of pool") := by
      have hids : ["0", "7"] = ["0"] ++ "7" :: [] := rfl
      refine .fault holding?_deletionsAtOnce.2 hids (fun id hid ↦ ?_) hfault
      obtain rfl := List.mem_singleton.mp hid
      exact isDeletable_threeMachines "0" (List.mem_cons_of_mem _ List.mem_cons_self)
    have herror := (hverdict.error_iff _).mpr hrefuses
    rw [herror] at hfinished
    exact ⟨w', hstep, hverdict.left_of_error _ herror, hfinished⟩

end Memory

end NodeGroups
