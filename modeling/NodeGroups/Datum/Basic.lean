import NodeGroups.Dict

/-!
# Trees of data

The self-describing values that JSON and TOML texts denote: texts, numbers, truth values, lists,
and records of named fields. The types of this library are written to such trees and read from
them; here are the readers for their parts.

A record is read field by field, and fields nobody asks for are ignored. It may also be given
as a list of its fields in order. A notation decides whether such a list may go on after the
last field.
-/

namespace NodeGroups

/-- A tree of data. -/
inductive Datum
  | null
  | bool (value : Bool)
  | int (value : Int)
  /-- A number that is not written as a whole number, as it was written. -/
  | real (text : String)
  | text (value : String)
  | list (items : List Datum)
  /-- Named fields in the order given. -/
  | record (fields : List (String × Datum))
  deriving Inhabited

namespace Datum

/-! ## Leaves -/

def text? : Datum → Option String
  | text s => some s
  | _ => none

/-- Reads a size: a whole number from 0 to 4294967295. -/
def size? : Datum → Option UInt32
  | int n => if 0 ≤ n ∧ n < UInt32.size then some (UInt32.ofNat n.toNat) else none
  | _ => none

/-- Reads a value that may be absent. -/
def optional? {α : Type} (read : Datum → Option α) : Datum → Option (Option α)
  | null => some none
  | d => (read d).map some

def list? {α : Type} (read : Datum → Option α) : Datum → Option (List α)
  | list items => items.mapM read
  | _ => none

/-- Reads a dictionary: a record whose field names are data. -/
def dict? {α : Type} (read : Datum → Option α) : Datum → Option (Dict α)
  | record fields =>
    (fields.mapM fun f ↦ (read f.2).map fun v ↦ (f.1, v)).map Dict.ofList
  | _ => none

/-! ## Records -/

/-- Whether a list that stands for a record may have more items than the record has fields. -/
inductive Surplus
  | refused
  | ignored
  deriving DecidableEq, Repr

/-- The fields of a record on the way to being read. -/
inductive Fields
  | named (fields : List (String × Datum))
  | positional (items : List Datum)

/-- The fields of a record of `count` fields. -/
def fields? (surplus : Surplus) (count : Nat) : Datum → Option Fields
  | record fields => some (.named fields)
  | list items =>
    if surplus = .refused ∧ count < items.length then none else some (.positional items)
  | _ => none

/-- The field at a position with a name, if it is there. -/
def Fields.field? (fs : Fields) (position : Nat) (name : String) : Option Datum :=
  match fs with
  | .named fields => fields.lookup name
  | .positional items => items[position]?

/-- Reads a field that must be there. -/
def Fields.required? {α : Type} (fs : Fields) (position : Nat) (name : String)
    (read : Datum → Option α) : Option α :=
  (fs.field? position name).bind read

/-- Reads a field with a value for when it is missing. -/
def Fields.defaulted? {α : Type} (fs : Fields) (position : Nat) (name : String) (default : α)
    (read : Datum → Option α) : Option α :=
  match fs.field? position name with
  | none => some default
  | some d => read d

/-- Reads a field whose value may be absent. A named field may be missing altogether; in a list
its place must be taken. -/
def Fields.optional? {α : Type} (fs : Fields) (position : Nat) (name : String)
    (read : Datum → Option α) : Option (Option α) :=
  match fs, fs.field? position name with
  | .named _, none => some none
  | .positional _, none => none
  | _, some d => Datum.optional? read d

/-! ### Reading named fields

The first field of a name is read, and fields of other names are passed over. The lemmas are proved
by rewriting: with ones that hold by evaluation, a proof about a whole record would make the kernel
evaluate the comparisons of all names.
-/

section Named

variable {α β : Type} {d : Datum} {fields : List (String × Datum)} {position : Nat}
  {name name' : String} {read : Datum → Option α}

@[simp] theorem some_bind (a : α) (f : α → Option β) : (some a >>= f) = f a := by
  rw [Option.bind_eq_bind, Option.bind_some]

@[simp] theorem fields?_record (surplus : Surplus) (count : Nat) :
    (record fields).fields? surplus count = some (.named fields) := by
  rw [fields?]

@[simp] theorem required?_cons_self :
    (Fields.named ((name, d) :: fields)).required? position name read = read d := by
  simp only [Fields.required?, Fields.field?, List.lookup_cons_self, Option.bind_some]

@[simp] theorem required?_cons_of_ne (hne : name ≠ name') :
    (Fields.named ((name', d) :: fields)).required? position name read
      = (Fields.named fields).required? position name read := by
  simp only [Fields.required?, Fields.field?, List.lookup_cons, beq_false_of_ne hne]

@[simp] theorem defaulted?_cons_self (default : α) :
    (Fields.named ((name, d) :: fields)).defaulted? position name default read = read d := by
  simp only [Fields.defaulted?, Fields.field?, List.lookup_cons_self]

@[simp] theorem defaulted?_cons_of_ne (hne : name ≠ name') (default : α) :
    (Fields.named ((name', d) :: fields)).defaulted? position name default read
      = (Fields.named fields).defaulted? position name default read := by
  simp only [Fields.defaulted?, Fields.field?, List.lookup_cons, beq_false_of_ne hne]

@[simp] theorem optional?_cons_self :
    (Fields.named ((name, d) :: fields)).optional? position name read = d.optional? read := by
  simp only [Fields.optional?, Fields.field?, List.lookup_cons_self]

@[simp] theorem optional?_cons_of_ne (hne : name ≠ name') :
    (Fields.named ((name', d) :: fields)).optional? position name read
      = (Fields.named fields).optional? position name read := by
  simp only [Fields.optional?, Fields.field?, List.lookup_cons, beq_false_of_ne hne]
  cases fields.lookup name <;> rfl

end Named

/-! ## Alternatives -/

/-- Reads one of a set of alternatives that carry no data: its name, or a record that has the
name as its one field and nothing as the value. -/
def alternative? {α : Type} (names : List (String × α)) : Datum → Option α
  | text s => names.lookup s
  | record [(s, null)] => names.lookup s
  | _ => none

/-! ## Writing -/

def ofOption {α : Type} (write : α → Datum) : Option α → Datum
  | none => null
  | some a => write a

def ofSize (n : UInt32) : Datum := int n.toNat

def ofList {α : Type} (write : α → Datum) (as : List α) : Datum := list (as.map write)

def ofDict {α : Type} (write : α → Datum) (d : Dict α) : Datum :=
  record (d.entries.map fun e ↦ (e.1, write e.2))

end Datum

end NodeGroups
