import Mathlib.Data.List.Forall2
import NodeGroups.Config.Codec
import NodeGroups.Instance.Codec
import NodeGroups.Proofs.Amount
import NodeGroups.Proofs.Except
import NodeGroups.Template.Codec

/-!
# Data read back

What is written of a value as a tree of data is read as that value, for every type that is written.

A record is read field by field, so it comes back if each of its fields does. For the fields there
is one statement about each way of writing one: a text, a size, a value that may be absent, a list,
a dictionary. An absent value is written as nothing, so its writer must not write that for a value
that is there; and a dictionary comes back because its entries were in order when they were written.

Quantities come back with the same amount, but it may be in another notation. That is why lists and
dictionaries are read back with a change made to each of their items.
-/

namespace NodeGroups

/-! ## Parts -/

/-- Two dictionaries have the same keys, and for each key related values. -/
def Dict.Rel {β : Type} (same : β → β → Prop) (d d' : Dict β) : Prop :=
  List.Forall₂ (fun e e' ↦ e.1 = e'.1 ∧ same e.2 e'.2) d.entries d'.entries

theorem Dict.rel_map {β : Type} {same : β → β → Prop} {f : β → β} (hsame : ∀ b, same b (f b))
    (d : Dict β) : d.Rel same (d.map f) := by
  rw [Rel, map, List.forall₂_map_right_iff, List.forall₂_same]
  exact fun e _ ↦ ⟨rfl, hsame e.2⟩

namespace Datum

variable {α : Type} {write : α → Datum} {read : Datum → Option α} {f : α → α}

@[simp] theorem text?_text (s : String) : (text s).text? = some s := by
  rw [text?]

@[simp] theorem size?_ofSize (n : UInt32) : (ofSize n).size? = some n := by
  have hn : (0 : Int) ≤ n.toNat ∧ (n.toNat : Int) < UInt32.size :=
    ⟨Int.natCast_nonneg _, Int.ofNat_lt.mpr n.toNat_lt_size⟩
  rw [ofSize, size?, if_pos hn, Int.toNat_natCast, UInt32.ofNat_toNat]

/-- A value that may be absent is read back if nothing stands for its absence alone. -/
theorem optional?_ofOption (hread : ∀ a, read (write a) = some a) (hnull : ∀ a, write a ≠ null)
    (o : Option α) : optional? read (ofOption write o) = some o := by
  cases o with
  | none => rfl
  | some a => rw [ofOption, optional?, hread, Option.map_some]; exact hnull a

/-- A list is read as what its items are read as. -/
theorem list?_ofList_map (hread : ∀ a, read (write a) = some (f a)) (as : List α) :
    list? read (ofList write as) = some (as.map f) := by
  have hitems : read ∘ write = fun a ↦ pure (f a) := funext hread
  rw [ofList, list?, List.mapM_map, hitems, List.mapM_pure]
  rfl

theorem list?_ofList (hread : ∀ a, read (write a) = some a) (as : List α) :
    list? read (ofList write as) = some as := by
  rw [list?_ofList_map hread, List.map_id']

theorem dict?_ofDict_map (hread : ∀ a, read (write a) = some (f a)) (d : Dict α) :
    dict? read (ofDict write d) = some (d.map f) := by
  have hitems : ∀ e : String × α,
      (read (write e.2)).map (fun v ↦ (e.1, v)) = pure (e.1, f e.2) := by
    intro e
    rw [hread, Option.map_some, Option.pure_def]
  have hentries : d.entries.mapM (fun e ↦ (read (write e.2)).map fun v ↦ (e.1, v))
      = some (d.map f).entries := by
    rw [funext hitems, List.mapM_pure]
    rfl
  rw [ofDict, dict?, List.mapM_map]
  refine (congrArg (Option.map Dict.ofList) hentries).trans ?_
  rw [Option.map_some, Dict.ext (Dict.entries_ofList (d.map f).sorted)]

theorem dict?_ofDict (hread : ∀ a, read (write a) = some a) (d : Dict α) :
    dict? read (ofDict write d) = some d := by
  have hmap : d.map (fun a ↦ a) = d := Dict.ext (List.map_id' _)
  rw [dict?_ofDict_map hread, hmap]

end Datum

open Datum

/-! ## The cloud's and the autoscaler's side -/

namespace ProvisioningState

theorem ofDatum?_toDatum (s : ProvisioningState) : ofDatum? s.toDatum = some s := by
  cases s <;> rfl

/-- An unknown state is told from the known one of the same name. -/
example : ofDatum? (other "deleting").toDatum = some (other "deleting") := rfl

theorem toDatum_ne_null (s : ProvisioningState) : s.toDatum ≠ null := by
  cases s <;> nofun

end ProvisioningState

theorem Instance.ofDatum?_toDatum (i : Instance) : ofDatum? i.toDatum = some i := by
  simp [-Option.bind_eq_bind, ofDatum?, toDatum, i.state.ofDatum?_toDatum]

namespace Sku

theorem ofDatum?_toDatum (s : Sku) : ofDatum? s.toDatum = some s := by
  have htier := optional?_ofOption text?_text nofun s.tier
  simp [-Option.bind_eq_bind, ofDatum?, toDatum, htier]

theorem toDatum_ne_null (s : Sku) : s.toDatum ≠ null := nofun

end Sku

theorem ScaleSet.ofDatum?_toDatum (s : ScaleSet) : ofDatum? s.toDatum = some s := by
  have hstate := optional?_ofOption ProvisioningState.ofDatum?_toDatum
    ProvisioningState.toDatum_ne_null s.state
  have hsku := optional?_ofOption Sku.ofDatum?_toDatum Sku.toDatum_ne_null s.sku
  have hlocation := optional?_ofOption text?_text nofun s.location
  have htags := dict?_ofDict text?_text s.tags
  simp [-Option.bind_eq_bind, ofDatum?, toDatum, hstate, hsku, hlocation, htags]

theorem Node.ofDatum?_toDatum (n : Node) : ofDatum? n.toDatum = some n := by
  simp [-Option.bind_eq_bind, ofDatum?, toDatum]

namespace MemberStatus

theorem ofDatum?_toDatum (s : MemberStatus) : ofDatum? s.toDatum = some s := by
  cases s <;> rfl

theorem toDatum_ne_null (s : MemberStatus) : s.toDatum ≠ null := by
  cases s <;> nofun

end MemberStatus

theorem Member.ofDatum?_toDatum (m : Member) : ofDatum? m.toDatum = some m := by
  have hstatus := optional?_ofOption MemberStatus.ofDatum?_toDatum MemberStatus.toDatum_ne_null
    m.status
  simp [-Option.bind_eq_bind, ofDatum?, toDatum, hstatus]

/-! ## Templates -/

theorem TaintEffect.ofDatum?_toDatum (e : TaintEffect) : ofDatum? e.toDatum = some e := by
  cases e <;> rfl

theorem Taint.ofDatum?_toDatum (t : Taint) : ofDatum? t.toDatum = some t := by
  simp [-Option.bind_eq_bind, ofDatum?, toDatum, t.effect.ofDatum?_toDatum]

theorem Quantity.ofDatum?_toDatum (q : Quantity) : ofDatum? q.toDatum = some q.reloaded := by
  rw [ofDatum?, toDatum, text?_text, Option.bind_some, parse?, parse_print]
  rfl

theorem Quantity.sameAmount_reloaded (q : Quantity) : q.SameAmount q.reloaded := rfl

/-- Two pods are equal but for the notations of their quantities. -/
structure Pod.Same (p p' : Pod) : Prop where
  name : p.name = p'.name
  space : p.space = p'.space
  requests : p.requests.Rel Quantity.SameAmount p'.requests

def Pod.reloaded (p : Pod) : Pod := { p with requests := p.requests.map Quantity.reloaded }

theorem Pod.ofDatum?_toDatum (p : Pod) : ofDatum? p.toDatum = some p.reloaded := by
  have hrequests := dict?_ofDict_map Quantity.ofDatum?_toDatum p.requests
  simp [-Option.bind_eq_bind, ofDatum?, toDatum, hrequests, reloaded]

theorem Pod.same_reloaded (p : Pod) : p.Same p.reloaded :=
  ⟨rfl, rfl, Dict.rel_map Quantity.sameAmount_reloaded p.requests⟩

theorem Pod.exists_ofDatum?_toDatum (p : Pod) : ∃ p', ofDatum? p.toDatum = some p' ∧ p.Same p' :=
  ⟨p.reloaded, p.ofDatum?_toDatum, p.same_reloaded⟩

/-- Two templates are equal but for the notations of their quantities. -/
structure NodeTemplate.Same (t t' : NodeTemplate) : Prop where
  name : t.name = t'.name
  labels : t.labels = t'.labels
  taints : t.taints = t'.taints
  capacity : t.capacity.Rel Quantity.SameAmount t'.capacity
  allocatable : t.allocatable.Rel Quantity.SameAmount t'.allocatable
  pods : List.Forall₂ Pod.Same t.pods t'.pods

def NodeTemplate.reloaded (t : NodeTemplate) : NodeTemplate :=
  { t with
    capacity := t.capacity.map Quantity.reloaded
    allocatable := t.allocatable.map Quantity.reloaded
    pods := t.pods.map Pod.reloaded }

theorem NodeTemplate.ofDatum?_toDatum (t : NodeTemplate) :
    ofDatum? t.toDatum = some t.reloaded := by
  have hlabels := dict?_ofDict text?_text t.labels
  have htaints := list?_ofList Taint.ofDatum?_toDatum t.taints
  have hcapacity := dict?_ofDict_map Quantity.ofDatum?_toDatum t.capacity
  have hallocatable := dict?_ofDict_map Quantity.ofDatum?_toDatum t.allocatable
  have hpods := list?_ofList_map Pod.ofDatum?_toDatum t.pods
  simp [-Option.bind_eq_bind, ofDatum?, toDatum, hlabels, htaints, hcapacity, hallocatable, hpods,
    reloaded]

theorem NodeTemplate.same_reloaded (t : NodeTemplate) : t.Same t.reloaded where
  name := rfl
  labels := rfl
  taints := rfl
  capacity := Dict.rel_map Quantity.sameAmount_reloaded t.capacity
  allocatable := Dict.rel_map Quantity.sameAmount_reloaded t.allocatable
  pods := by
    rw [reloaded, List.forall₂_map_right_iff, List.forall₂_same]
    exact fun p _ ↦ p.same_reloaded

theorem NodeTemplate.exists_ofDatum?_toDatum (t : NodeTemplate) :
    ∃ t', ofDatum? t.toDatum = some t' ∧ t.Same t' :=
  ⟨t.reloaded, t.ofDatum?_toDatum, t.same_reloaded⟩

/-! ## The configuration -/

theorem GroupConfig.ofDatum?_toDatum (surplus : Surplus) (g : GroupConfig) :
    ofDatum? surplus g.toDatum = some g := by
  have hperiod := optional?_ofOption text?_text nofun g.refreshPeriod
  simp [-Option.bind_eq_bind, ofDatum?, toDatum, hperiod]

theorem RefreshConfig.ofDatum?_toDatum (surplus : Surplus) (r : RefreshConfig) :
    ofDatum? surplus r.toDatum = some r := by
  have hperiod := optional?_ofOption text?_text nofun r.defaultPeriod
  have htimeout := optional?_ofOption text?_text nofun r.groupTimeout
  have hinterval := optional?_ofOption text?_text nofun r.minInterval
  simp [-Option.bind_eq_bind, ofDatum?, toDatum, hperiod, htimeout, hinterval]

theorem ProviderConfig.ofDatum?_toDatum (surplus : Surplus) (c : ProviderConfig) :
    ofDatum? surplus c.toDatum = some c := by
  have hrefresh := RefreshConfig.ofDatum?_toDatum surplus c.refresh
  have hgroups := list?_ofList (GroupConfig.ofDatum?_toDatum surplus) c.nodeGroups
  simp [-Option.bind_eq_bind, ofDatum?, toDatum, hrefresh, hgroups]

/-! ## All types -/

/-- Every value comes back from its data form, whatever its texts, sizes, lists and dictionaries,
and whatever the notation is that the data form will go through. -/
theorem Datum.forms_round_trip :
    (∀ i : Instance, Instance.ofDatum? i.toDatum = some i)
    ∧ (∀ s : ScaleSet, ScaleSet.ofDatum? s.toDatum = some s)
    ∧ (∀ n : Node, Node.ofDatum? n.toDatum = some n)
    ∧ (∀ m : Member, Member.ofDatum? m.toDatum = some m)
    ∧ (∀ t : Taint, Taint.ofDatum? t.toDatum = some t)
    ∧ (∀ p : Pod, ∃ p', Pod.ofDatum? p.toDatum = some p' ∧ p.Same p')
    ∧ (∀ t : NodeTemplate, ∃ t', NodeTemplate.ofDatum? t.toDatum = some t' ∧ t.Same t')
    ∧ (∀ surplus (g : GroupConfig), GroupConfig.ofDatum? surplus g.toDatum = some g)
    ∧ (∀ surplus (r : RefreshConfig), RefreshConfig.ofDatum? surplus r.toDatum = some r)
    ∧ ∀ surplus (c : ProviderConfig), ProviderConfig.ofDatum? surplus c.toDatum = some c :=
  ⟨Instance.ofDatum?_toDatum, ScaleSet.ofDatum?_toDatum, Node.ofDatum?_toDatum,
    Member.ofDatum?_toDatum, Taint.ofDatum?_toDatum, Pod.exists_ofDatum?_toDatum,
    NodeTemplate.exists_ofDatum?_toDatum, GroupConfig.ofDatum?_toDatum,
    RefreshConfig.ofDatum?_toDatum, ProviderConfig.ofDatum?_toDatum⟩

end NodeGroups
