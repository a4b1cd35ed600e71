import NodeGroups.Quantity.Parser

/-!
# Writing quantities

An amount with a part of a unit is written in thousandths. A whole amount is written with the
largest unit of its notation that divides it, and without a unit if none does. Zero is `0` in
every notation.
-/

namespace NodeGroups.Quantity

def signedDigits (n : Int) : List Char :=
  if n < 0 then '-' :: Text.digits n.natAbs else Text.digits n.natAbs

/-- The base of the powers that a notation has units for. -/
def Format.base : Format → Nat
  | .binarySI => 2
  | _ => 10

/-- The units of a notation with their exponents, largest first. -/
def Format.units : Format → List (List Char × Nat)
  | .decimalSI => decimalUnits
  | .binarySI => binaryUnits
  | .decimalExponent => decimalUnits.map fun u ↦ ('e' :: Text.digits u.2, u.2)

/-- What marks thousandths in a notation. -/
def Format.milliSuffix : Format → List Char
  | .decimalExponent => ['e', '-', '3']
  | _ => ['m']

/-- A whole number of units with the largest unit that divides it. -/
def printWhole (format : Format) (value : Int) : List Char :=
  match format.units.find? fun u ↦ value % (format.base.pow u.2 : Nat) == 0 with
  | some (suffix, e) => signedDigits (value / (format.base.pow e : Nat)) ++ suffix
  | none => signedDigits value

/-- The written form of a quantity, as characters. -/
def chars (q : Quantity) : List Char :=
  if q.milli = 0 then ['0']
  else if q.milli % 1000 ≠ 0 then signedDigits q.milli ++ q.format.milliSuffix
  else printWhole q.format (q.milli / 1000)

def print (q : Quantity) : String := String.ofList q.chars

@[simp] theorem toList_print (q : Quantity) : q.print.toList = q.chars := by simp [print]

end NodeGroups.Quantity
