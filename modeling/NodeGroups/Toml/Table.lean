import NodeGroups.Datum.Basic

/-!
# Tables of a TOML text

The tables that a text has set up so far. A table comes about by a header of its own, because the
header of a table below it was given, or because a key with dots goes through it; what may still
be added to it depends on that. No header may be given twice, and no key may have two values.
-/

namespace NodeGroups.Toml

/-- How a table came about. -/
inductive Standing
  /-- By its own header, or as the whole text. -/
  | opened
  /-- By the header of a table below it; its own may still follow. -/
  | implied
  /-- By a key with dots. -/
  | dotted
  deriving DecidableEq

/-- What a name in a table stands for. -/
inductive Entry
  | value (value : Datum)
  | table (standing : Standing) (entries : List (String × Entry))
  /-- Tables under one repeated header, in order. -/
  | tables (items : List (List (String × Entry)))

/-- The names in a table with what they stand for. -/
abbrev Entries := List (String × Entry)

namespace Entries

/-- Puts an entry in the place of the one with its name, or at the end. -/
def put (name : String) (entry : Entry) : Entries → Entries
  | [] => [(name, entry)]
  | e :: es => if e.1 = name then (name, entry) :: es else e :: put name entry es

/-- Changes the table at the end of a path. Tables on the way that do not exist are set up with
the standing `fresh`; those that exist must have a standing that `passable` admits. Of tables
under a repeated header the path goes through the last. -/
def change (fresh : Standing) (passable : Standing → Bool)
    (edit : Standing → Entries → Option Entries) :
    List String → Standing → Entries → Option Entries
  | [], standing, es => edit standing es
  | name :: path, _, es =>
    match es.lookup name with
    | none =>
      (change fresh passable edit path fresh []).map fun inner ↦
        es.put name (.table fresh inner)
    | some (.value _) => none
    | some (.table standing inner) =>
      if passable standing then
        (change fresh passable edit path standing inner).map fun inner ↦
          es.put name (.table standing inner)
      else none
    | some (.tables items) =>
      items.getLast?.bind fun last ↦
        (change fresh passable edit path .opened last).map fun inner ↦
          es.put name (.tables (items.dropLast ++ [inner]))

/-- Gives a key its value. The table that the key's path leads to must have come about by such
paths alone. -/
def assign (es : Entries) (key : List String × String) (value : Datum) : Option Entries :=
  change .dotted (· ≠ .opened)
    (fun standing inner ↦
      if (standing = .dotted ∨ key.1 = []) ∧ inner.lookup key.2 = none then
        some (inner.put key.2 (.value value))
      else none)
    key.1 .opened es

def assignAll (es : Entries) (pairs : List ((List String × String) × Datum)) :
    Option Entries :=
  pairs.foldlM (fun es p ↦ es.assign p.1 p.2) es

/-- Adds a table under its own header. -/
def openTable (es : Entries) (header : List String × String)
    (pairs : List ((List String × String) × Datum)) : Option Entries :=
  change .implied (fun _ ↦ true)
    (fun _ inner ↦ do
      let existing ← match inner.lookup header.2 with
        | none => some []
        | some (.table .implied existing) => some existing
        | some _ => none
      pure (inner.put header.2 (.table .opened (← assignAll existing pairs))))
    header.1 .opened es

/-- Adds a table under a repeated header. -/
def pushTable (es : Entries) (header : List String × String)
    (pairs : List ((List String × String) × Datum)) : Option Entries :=
  change .implied (fun _ ↦ true)
    (fun _ inner ↦ do
      let items ← match inner.lookup header.2 with
        | none => some []
        | some (.tables items) => some items
        | some _ => none
      pure (inner.put header.2 (.tables (items ++ [← assignAll [] pairs]))))
    header.1 .opened es

end Entries

mutual

/-- What a name stands for, as a tree of data. -/
def Entry.toDatum : Entry → Datum
  | .value d => d
  | .table _ es => .record (Entry.fieldsOf es)
  | .tables items => .list (Entry.recordsOf items)

/-- The names in a table as the fields of a record. -/
def Entry.fieldsOf : List (String × Entry) → List (String × Datum)
  | [] => []
  | (name, e) :: r => (name, e.toDatum) :: Entry.fieldsOf r

def Entry.recordsOf : List (List (String × Entry)) → List Datum
  | [] => []
  | es :: r => .record (Entry.fieldsOf es) :: Entry.recordsOf r

end

/-- A table as a tree of data. -/
def Entries.toDatum (es : Entries) : Datum := .record (Entry.fieldsOf es)

end NodeGroups.Toml
