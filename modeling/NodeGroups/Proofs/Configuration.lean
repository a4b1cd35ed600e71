import NodeGroups.Proofs.Except
import NodeGroups.Registry.Basic

/-!
# The registry that a configuration sets up

Two sets of checks stand between a configuration and its registry. The configuration is validated
as a whole; then each entry makes a group, which checks its own name and bounds once more, and the
group is registered, which is refused in silence if the registry has a group of that name. The two
agree: nothing that has passed the validation is found wrong or refused later, so there is a group
for each entry.

The validation compares names by looking among those it has seen, in small letters, and the
registry by going over its groups. The induction over the entries carries that the names of the
groups registered so far have been seen.
-/

namespace NodeGroups

variable {c : ProviderConfig} {entry : GroupConfig}

/-! ## What has been validated -/

theorem GroupConfig.fault?_eq_none_iff :
    entry.fault? = none ↔ ¬ Text.IsBlank entry.name ∧ entry.minSize ≤ entry.maxSize := by
  rw [fault?]
  by_cases hname : Text.IsBlank entry.name
  · simp [hname]
  · simp [hname]

theorem GroupConfig.validate_eq_ok_iff : entry.validate = .ok () ↔
    ¬ Text.IsBlank entry.name ∧ entry.minSize ≤ entry.maxSize
    ∧ ∀ text, entry.refreshPeriod = some text → ∃ period, readDuration text = .ok period := by
  rw [validate, ← and_assoc, ← fault?_eq_none_iff]
  cases entry.fault? with
  | some fault => simp
  | none =>
    cases entry.refreshPeriod with
    | none => simp
    | some text => simp [map_eq_ok_iff]

theorem validateGroups_cons_eq_ok_iff {seen : List String} {entries : List GroupConfig} :
    validateGroups seen (entry :: entries) = .ok () ↔
      entry.validate = .ok () ∧ Text.foldCase entry.name ∉ seen
      ∧ validateGroups (Text.foldCase entry.name :: seen) entries = .ok () := by
  rw [validateGroups, bind_eq_ok_iff]
  constructor
  · rintro ⟨_, hentry, hrest⟩
    by_cases hseen : Text.foldCase entry.name ∈ seen
    · simp [hseen] at hrest
    · exact ⟨hentry, hseen, (if_neg hseen).symm.trans hrest⟩
  · rintro ⟨hentry, hseen, hrest⟩
    exact ⟨(), hentry, (if_neg hseen).trans hrest⟩

theorem ProviderConfig.validate_eq_ok_iff : c.validate = .ok () ↔
    ¬ Text.IsBlank c.resourceGroup
    ∧ (∃ period, c.refresh.readDefaultPeriod = .ok period)
    ∧ (∃ timeout, c.refresh.readGroupTimeout = .ok timeout)
    ∧ (∃ interval, c.refresh.readMinInterval = .ok interval)
    ∧ validateGroups [] c.nodeGroups = .ok () := by
  rw [validate]
  by_cases hblank : Text.IsBlank c.resourceGroup
  · simp [hblank]
  · simp [hblank, bind_eq_ok_iff]

theorem ProviderConfig.exists_readPeriod (hvalid : entry.validate = .ok ())
    (hdefault : ∃ period, c.refresh.readDefaultPeriod = .ok period) :
    ∃ period, c.readPeriod entry = .ok period := by
  rw [readPeriod]
  cases hperiod : entry.refreshPeriod with
  | none => exact hdefault
  | some text => exact (GroupConfig.validate_eq_ok_iff.mp hvalid).2.2 text hperiod

/-! ## The groups -/

/-- A group is as an entry of a configuration describes it. -/
structure ProviderConfig.Describes (c : ProviderConfig) (entry : GroupConfig) (group : Group) :
    Prop where
  name : group.name = entry.name
  resourceGroup : group.resourceGroup = c.resourceGroup
  minSize : group.minSize = entry.minSize
  maxSize : group.maxSize = entry.maxSize
  period : c.readPeriod entry = .ok group.refreshPeriod

theorem Group.create_eq_ok {name resourceGroup : String} {minSize maxSize : UInt32}
    {refreshPeriod : Duration} (hname : ¬ Text.IsBlank name) (hsize : minSize ≤ maxSize) :
    create name resourceGroup minSize maxSize refreshPeriod
      = .ok ⟨name, resourceGroup, minSize, maxSize, refreshPeriod, hname, hsize⟩ :=
  (dif_neg hname).trans (dif_neg (UInt32.not_lt.mpr hsize))

theorem Group.exists_ofConfig (hvalid : entry.validate = .ok ())
    (hdefault : ∃ period, c.refresh.readDefaultPeriod = .ok period) :
    ∃ group, Group.ofConfig c entry = .ok group ∧ c.Describes entry group := by
  obtain ⟨hname, hsize, -⟩ := GroupConfig.validate_eq_ok_iff.mp hvalid
  obtain ⟨period, hperiod⟩ := ProviderConfig.exists_readPeriod hvalid hdefault
  rw [Group.ofConfig, hperiod]
  exact ⟨_, Group.create_eq_ok hname hsize, rfl, rfl, rfl, rfl, hperiod⟩

namespace Registry

/-- A group whose name has not been seen is registered, if the names of all groups have been. -/
theorem exists_register?_of_notMem {r : Registry} {h : Handle} {seen : List String}
    (hseen : ∀ other ∈ r.handles, Text.foldCase other.group.name ∈ seen)
    (hnew : Text.foldCase h.group.name ∉ seen) : ∃ r', r.register? h = some r' := by
  refine exists_register? (List.find?_eq_none.mpr fun other hmem hsame ↦ hnew ?_)
  rw [← of_decide_eq_true hsame]
  exact hseen other hmem

/-- Entries that have been validated are registered one after another, each as the group that it
describes and at the next place. -/
theorem exists_addConfigured (hdefault : ∃ period, c.refresh.readDefaultPeriod = .ok period)
    {seen : List String} {entries : List GroupConfig} {r : Registry}
    (hvalid : validateGroups seen entries = .ok ())
    (hseen : ∀ h ∈ r.handles, Text.foldCase h.group.name ∈ seen) :
    ∃ r' added, addConfigured c r entries = .ok r' ∧ r'.handles = r.handles ++ added
      ∧ List.Forall₂ (fun entry h ↦ c.Describes entry h.group) entries added
      ∧ added.map Handle.place = List.range' r.handles.length entries.length
      ∧ r'.lastPass = r.lastPass ∧ r'.minInterval = r.minInterval
      ∧ r'.groupTimeout = r.groupTimeout := by
  induction entries generalizing seen r with
  | nil => exact ⟨r, [], rfl, (List.append_nil _).symm, .nil, rfl, rfl, rfl, rfl⟩
  | cons entry entries ih =>
    obtain ⟨hentry, hnew, hrest⟩ := validateGroups_cons_eq_ok_iff.mp hvalid
    obtain ⟨group, hgroup, hdescribes⟩ := Group.exists_ofConfig hentry hdefault
    rw [← hdescribes.name] at hnew hrest
    let h : Handle := ⟨group, r.handles.length⟩
    obtain ⟨r₁, hregister⟩ := exists_register?_of_notMem (h := h) hseen hnew
    have hhandles := handles_of_register? hregister
    obtain ⟨hlastPass, hminInterval, hgroupTimeout⟩ := times_of_register? hregister
    have hseen₁ : ∀ other ∈ r₁.handles,
        Text.foldCase other.group.name ∈ Text.foldCase group.name :: seen := by
      intro other hmem
      rw [hhandles, List.mem_append, List.mem_singleton] at hmem
      obtain hold | rfl := hmem
      · exact List.mem_cons_of_mem _ (hseen other hold)
      · exact List.mem_cons_self
    obtain ⟨r', added, hadd, hhandles', hall, hplaces, hlastPass', hminInterval', hgroupTimeout'⟩ :=
      ih hrest hseen₁
    refine ⟨r', h :: added, ?_, ?_, .cons hdescribes hall, ?_, hlastPass'.trans hlastPass,
      hminInterval'.trans hminInterval, hgroupTimeout'.trans hgroupTimeout⟩
    · rw [addConfigured, hgroup]
      change addConfigured c ((r.register? h).getD r) entries = .ok r'
      rw [hregister, Option.getD_some, hadd]
    · rw [hhandles', hhandles, List.append_assoc, List.singleton_append]
    · rw [List.map_cons, hplaces, hhandles, List.length_append, List.length_singleton,
        List.length_cons, List.range'_succ]

/-! ## The registry -/

/-- A registry is as a configuration describes it: there is a group for each entry and no other,
in the order of the entries, each kept at its position, and none has been refreshed. -/
structure IsSetUpBy (c : ProviderConfig) (r : Registry) : Prop where
  groups : List.Forall₂ (fun entry h ↦ c.Describes entry h.group) c.nodeGroups r.handles
  places : r.handles.map Handle.place = List.range c.nodeGroups.length
  groupTimeout : c.refresh.readGroupTimeout = .ok r.groupTimeout
  minInterval : c.refresh.readMinInterval = .ok r.minInterval
  lastPass : r.lastPass = none

theorem ofConfig_of_validate (hvalid : c.validate = .ok ()) :
    ∃ r, ofConfig c = .ok r ∧ IsSetUpBy c r := by
  obtain ⟨-, hdefault, ⟨timeout, htimeout⟩, ⟨interval, hinterval⟩, hgroups⟩ :=
    ProviderConfig.validate_eq_ok_iff.mp hvalid
  obtain ⟨r, added, hadd, hhandles, hall, hplaces, hlastPass, hminInterval, hgroupTimeout⟩ :=
    exists_addConfigured hdefault (r := empty timeout interval) hgroups nofun
  obtain rfl : r.handles = added := hhandles
  refine ⟨r, ?_, hall, hplaces.trans List.range_eq_range'.symm, ?_, ?_, hlastPass⟩
  · rw [ofConfig, hvalid, htimeout, hinterval]
    exact hadd
  · rw [htimeout, hgroupTimeout]
    rfl
  · rw [hinterval, hminInterval]
    rfl

/-- **Configuration and registry agree.** A configuration that has been validated sets up its
registry, with a group for each entry. Any other is refused as an invalid argument, in the words
of the validation. -/
theorem ofConfig_agrees (c : ProviderConfig) :
    match c.validate with
    | .ok () => ∃ r, ofConfig c = .ok r ∧ IsSetUpBy c r
    | .error e => ∃ e', ofConfig c = .error e' ∧ e'.kind = .invalidArgument
      ∧ e'.detail = e.message := by
  cases hvalid : c.validate with
  | ok _ => exact ofConfig_of_validate hvalid
  | error e =>
    refine ⟨.badConfig e, ?_, rfl, rfl⟩
    rw [ofConfig, hvalid]
    rfl

end Registry

end NodeGroups
