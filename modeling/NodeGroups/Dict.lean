/-!
# Dictionaries

Finite maps from texts to values, kept as entries in strictly increasing order of their keys.
The order is by code points. As a set of entries has only one such arrangement, dictionaries
with the same entries are equal, whatever order the entries came in.
-/

namespace NodeGroups

/-- A finite map from texts to values. -/
structure Dict (β : Type) where
  /-- The entries by increasing key. -/
  entries : List (String × β)
  sorted : entries.Pairwise fun a b ↦ a.1 < b.1

namespace Dict

variable {β γ : Type}

def empty : Dict β := ⟨[], List.Pairwise.nil⟩

instance : Inhabited (Dict β) := ⟨empty⟩

instance [DecidableEq β] : DecidableEq (Dict β) := fun a b ↦
  decidable_of_iff (a.entries = b.entries)
    ⟨fun h ↦ by cases a; cases b; cases h; rfl, fun h ↦ congrArg entries h⟩

@[ext] theorem ext {a b : Dict β} (h : a.entries = b.entries) : a = b := by
  cases a; cases b; cases h; rfl

/-- Puts an entry into a list of entries by increasing key. -/
def insertEntry (k : String) (v : β) : List (String × β) → List (String × β)
  | [] => [(k, v)]
  | (k', v') :: r =>
    if k < k' then (k, v) :: (k', v') :: r
    else if k' < k then (k', v') :: insertEntry k v r
    else (k, v) :: r

private theorem lt_trichotomy {a b : String} (h : ¬ a < b) (h' : ¬ b < a) : a = b :=
  String.le_antisymm (String.not_lt.mp h') (String.not_lt.mp h)

theorem mem_insertEntry {k : String} {v : β} {es : List (String × β)} {e : String × β}
    (h : e ∈ insertEntry k v es) : e = (k, v) ∨ e ∈ es := by
  induction es with
  | nil => simpa [insertEntry] using h
  | cons a r ih =>
    rw [insertEntry] at h
    split at h
    · simpa using h
    · split at h
      · rcases List.mem_cons.mp h with h | h
        · exact .inr (by simp [h])
        · exact (ih h).imp_right (List.mem_cons_of_mem _)
      · rcases List.mem_cons.mp h with h | h
        · exact .inl h
        · exact .inr (List.mem_cons_of_mem _ h)

theorem pairwise_insertEntry {k : String} {v : β} {es : List (String × β)}
    (h : es.Pairwise fun a b ↦ a.1 < b.1) :
    (insertEntry k v es).Pairwise fun a b ↦ a.1 < b.1 := by
  induction es with
  | nil => simp [insertEntry]
  | cons a r ih =>
    obtain ⟨ha, hr⟩ := List.pairwise_cons.mp h
    rw [insertEntry]
    split
    · next hlt =>
      refine List.pairwise_cons.mpr ⟨fun e he ↦ ?_, h⟩
      rcases List.mem_cons.mp he with rfl | he
      · exact hlt
      · exact String.lt_trans hlt (ha e he)
    · split
      · next hgt =>
        refine List.pairwise_cons.mpr ⟨fun e he ↦ ?_, ih hr⟩
        rcases mem_insertEntry he with rfl | he
        · exact hgt
        · exact ha e he
      · next hge hle =>
        have hk : k = a.1 := lt_trichotomy hge hle
        subst hk
        exact List.pairwise_cons.mpr ⟨ha, hr⟩

def insert (d : Dict β) (k : String) (v : β) : Dict β :=
  ⟨insertEntry k v d.entries, pairwise_insertEntry d.sorted⟩

def get? (d : Dict β) (k : String) : Option β := d.entries.lookup k

theorem lookup_insertEntry_self (k : String) (v : β) (es : List (String × β)) :
    (insertEntry k v es).lookup k = some v := by
  induction es with
  | nil => exact List.lookup_cons_self
  | cons e es ih =>
    obtain ⟨k', v'⟩ := e
    rw [insertEntry]
    split
    · exact List.lookup_cons_self
    · split
      · next hlt =>
        have hne : k ≠ k' := fun heq ↦ String.lt_irrefl k (heq ▸ hlt)
        rw [List.lookup_cons, beq_false_of_ne hne, ih]
      · exact List.lookup_cons_self

@[simp] theorem get?_insert_self (d : Dict β) (k : String) (v : β) :
    (d.insert k v).get? k = some v :=
  lookup_insertEntry_self k v d.entries

theorem lookup_insertEntry_of_ne {k k' : String} (hne : k' ≠ k) (v : β)
    (es : List (String × β)) : (insertEntry k v es).lookup k' = es.lookup k' := by
  have hskip : ∀ es' : List (String × β), ((k, v) :: es').lookup k' = es'.lookup k' := by
    intro es'
    rw [List.lookup_cons, beq_false_of_ne hne]
  induction es with
  | nil => exact hskip []
  | cons e es ih =>
    obtain ⟨k₁, v₁⟩ := e
    rw [insertEntry]
    split
    · exact hskip _
    · split
      · rw [List.lookup_cons, List.lookup_cons, ih]
      · next hge hle =>
        obtain rfl : k = k₁ := lt_trichotomy hge hle
        rw [hskip, List.lookup_cons, beq_false_of_ne hne]

theorem get?_insert_of_ne {k k' : String} (hne : k' ≠ k) (v : β) (d : Dict β) :
    (d.insert k v).get? k' = d.get? k' :=
  lookup_insertEntry_of_ne hne v d.entries

def erase (d : Dict β) (k : String) : Dict β :=
  ⟨d.entries.filter (·.1 ≠ k), d.sorted.filter _⟩

/-- The dictionary with the given entries; of two with one key, the later stays. -/
def ofList (es : List (String × β)) : Dict β := es.foldl (fun d e ↦ d.insert e.1 e.2) empty

theorem ofList_concat (es : List (String × β)) (k : String) (v : β) :
    ofList (es ++ [(k, v)]) = (ofList es).insert k v := by
  rw [ofList, List.foldl_append]
  rfl

theorem mem_entries_foldl_insert {d : Dict β} {es : List (String × β)} {e : String × β}
    (hmem : e ∈ (es.foldl (fun d e ↦ d.insert e.1 e.2) d).entries) : e ∈ d.entries ∨ e ∈ es := by
  induction es generalizing d with
  | nil => exact .inl hmem
  | cons first es ih =>
    rcases ih hmem with hold | hlater
    · rcases mem_insertEntry hold with rfl | hold
      · exact .inr List.mem_cons_self
      · exact .inl hold
    · exact .inr (List.mem_cons_of_mem _ hlater)

theorem mem_of_mem_entries_ofList {es : List (String × β)} {e : String × β}
    (hmem : e ∈ (ofList es).entries) : e ∈ es :=
  (mem_entries_foldl_insert hmem).resolve_left List.not_mem_nil

theorem insertEntry_of_forall_lt {k : String} {es : List (String × β)} (h : ∀ e ∈ es, e.1 < k)
    (v : β) : insertEntry k v es = es ++ [(k, v)] := by
  induction es with
  | nil => rfl
  | cons e es ih =>
    have hlt : e.1 < k := h e List.mem_cons_self
    rw [insertEntry, if_neg (String.lt_asymm hlt), if_pos hlt,
      ih fun e he ↦ h e (List.mem_cons_of_mem _ he), List.cons_append]

theorem entries_foldl_insert {d : Dict β} {es : List (String × β)}
    (hsorted : (d.entries ++ es).Pairwise fun a b ↦ a.1 < b.1) :
    (es.foldl (fun d e ↦ d.insert e.1 e.2) d).entries = d.entries ++ es := by
  induction es generalizing d with
  | nil => simp
  | cons e es ih =>
    have hlast : ∀ e' ∈ d.entries, e'.1 < e.1 := fun e' he' ↦
      (List.pairwise_append.mp hsorted).2.2 e' he' e List.mem_cons_self
    have hinsert : (d.insert e.1 e.2).entries = d.entries ++ [e] :=
      insertEntry_of_forall_lt hlast e.2
    rw [List.foldl_cons, ih (by simpa [hinsert] using hsorted), hinsert, List.append_assoc]
    rfl

/-- Entries by increasing key are the entries of the dictionary that they make. -/
theorem entries_ofList {es : List (String × β)} (hsorted : es.Pairwise fun a b ↦ a.1 < b.1) :
    (ofList es).entries = es :=
  entries_foldl_insert hsorted

/-- The entries of the second dictionary added to the first, and put in place of its own. -/
def union (d d' : Dict β) : Dict β := d'.entries.foldl (fun d e ↦ d.insert e.1 e.2) d

def map (f : β → γ) (d : Dict β) : Dict γ :=
  ⟨d.entries.map fun e ↦ (e.1, f e.2), by
    rw [List.pairwise_map]; exact d.sorted⟩

/-! ## Entries with distinct keys -/

/-- Where no key comes twice, looking up finds whatever there is. -/
theorem lookup_eq_some_iff_mem {es : List (String × β)} (hdistinct : (es.map Prod.fst).Nodup)
    {k : String} {v : β} : es.lookup k = some v ↔ (k, v) ∈ es := by
  induction es with
  | nil => simp
  | cons e es ih =>
    obtain ⟨k', v'⟩ := e
    obtain ⟨hnew, hrest⟩ := List.nodup_cons.mp hdistinct
    by_cases hk : k = k'
    · subst hk
      have hnone : (k, v) ∉ es := fun hmem ↦ hnew (List.mem_map.mpr ⟨_, hmem, rfl⟩)
      simp [hnone, eq_comm]
    · rw [List.lookup_cons, beq_false_of_ne hk, List.mem_cons, Prod.mk.injEq, ih hrest]
      simp [hk]

theorem nodup_keys (d : Dict β) : (d.entries.map Prod.fst).Nodup :=
  List.pairwise_map.mpr (d.sorted.imp fun hlt ↦ String.ne_of_lt hlt)

theorem get?_eq_some_iff {d : Dict β} {k : String} {v : β} :
    d.get? k = some v ↔ (k, v) ∈ d.entries :=
  lookup_eq_some_iff_mem d.nodup_keys

theorem get?_foldl_insert {es : List (String × β)} (hdistinct : (es.map Prod.fst).Nodup)
    (d : Dict β) (k : String) :
    (es.foldl (fun d e ↦ d.insert e.1 e.2) d).get? k = (es.lookup k).or (d.get? k) := by
  induction es generalizing d with
  | nil => rfl
  | cons e es ih =>
    obtain ⟨k', v'⟩ := e
    obtain ⟨hnew, hrest⟩ := List.nodup_cons.mp hdistinct
    rw [List.foldl_cons, ih hrest]
    by_cases hk : k = k'
    · subst hk
      have hnone : es.lookup k = none := List.lookup_eq_none_iff.mpr fun e he ↦
        bne_iff_ne.mpr fun heq ↦ hnew (List.mem_map.mpr ⟨e, he, heq.symm⟩)
      rw [get?_insert_self, List.lookup_cons_self, hnone, Option.none_or, Option.some_or]
    · rw [get?_insert_of_ne hk, List.lookup_cons, beq_false_of_ne hk]

theorem get?_union (d d' : Dict β) (k : String) :
    (d.union d').get? k = (d'.get? k).or (d.get? k) :=
  get?_foldl_insert d'.nodup_keys d k

theorem get?_ofList {es : List (String × β)} (hdistinct : (es.map Prod.fst).Nodup) (k : String) :
    (ofList es).get? k = es.lookup k :=
  (get?_foldl_insert hdistinct empty k).trans Option.or_none

end Dict

end NodeGroups
