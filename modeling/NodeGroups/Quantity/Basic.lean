/-!
# Resource quantities

An amount of a resource, such as `100m` of a processor or `512Mi` of memory. An amount is kept
in thousandths of a unit, exactly, together with the notation it was written in; finer amounts
are rounded away from zero, so that a request never shrinks. The notation only decides how the
amount is written back: two quantities are compared by their amounts alone.
-/

namespace NodeGroups

namespace Quantity

/-- The notations for quantities. -/
inductive Format
  /-- Powers of ten with a letter, as in `20G`. -/
  | decimalSI
  /-- Powers of two with two letters, as in `8Gi`. -/
  | binarySI
  /-- Powers of ten with an exponent, as in `12e6`. -/
  | decimalExponent
  deriving DecidableEq, Repr

/-- Amounts in thousandths stay below this magnitude, so that they fit into 128 bits. -/
def limit : Nat := Nat.pow 2 127

end Quantity

/-- An amount of a resource and the notation it was written in. -/
structure Quantity where
  /-- The amount in thousandths of a unit. -/
  milli : Int
  /-- The notation for writing the amount back. -/
  format : Quantity.Format
  /-- The amount fits into 128 bits. -/
  bounded : milli.natAbs < Quantity.limit
  deriving DecidableEq

namespace Quantity

/-- Division of magnitudes that rounds up. -/
def ceilDiv (n d : Nat) : Nat := (n + (d - 1)) / d

/-- A magnitude with a sign; zero has none. -/
def signed (negative : Bool) (magnitude : Nat) : Int :=
  if negative then -(magnitude : Int) else magnitude

@[simp] theorem natAbs_signed (negative : Bool) (n : Nat) : (signed negative n).natAbs = n := by
  cases negative <;> simp [signed]

/-- The quantity of a magnitude in thousandths, if it is not too large. -/
def ofMagnitude? (negative : Bool) (n : Nat) (format : Format) : Option Quantity :=
  if h : n < limit then some ⟨signed negative n, format, by simpa using h⟩ else none

def ofMilli (n : Int64) (format : Format) : Quantity where
  milli := n.toInt
  format := format
  bounded := by
    have h1 := n.toInt_lt
    have h2 := n.le_toInt
    simp only [limit, Nat.pow_eq]
    omega

def ofValue (n : Int64) (format : Format) : Quantity where
  milli := n.toInt * 1000
  format := format
  bounded := by
    have h1 := n.toInt_lt
    have h2 := n.le_toInt
    simp only [limit, Nat.pow_eq]
    omega

/-- The amount in whole units, a part of a unit counting as one. -/
def value (q : Quantity) : Int := signed (q.milli < 0) (ceilDiv q.milli.natAbs 1000)

def isZero (q : Quantity) : Bool := q.milli == 0

/-- Quantities of equal amount, whatever their notations. -/
def SameAmount (a b : Quantity) : Prop := a.milli = b.milli

instance (a b : Quantity) : Decidable (SameAmount a b) := inferInstanceAs (Decidable (_ = _))

instance : Ord Quantity := ⟨fun a b ↦ compare a.milli b.milli⟩

instance : Hashable Quantity := ⟨fun q ↦ hash q.milli⟩

/-- The quantities by increasing amount; equal amounts keep their order. -/
def sort (qs : List Quantity) : List Quantity := qs.mergeSort fun a b ↦ a.milli ≤ b.milli

end Quantity

end NodeGroups
