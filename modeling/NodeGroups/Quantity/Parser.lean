import NodeGroups.Quantity.Basic
import NodeGroups.Text.Blank
import NodeGroups.Text.Numeral
import NodeGroups.Text.Quoted

/-!
# Reading quantities

The written form of a quantity is an optional sign, decimal digits with at most one point among
them or beside them, and a suffix: a letter for a power of ten, two letters for a power of two,
`m` for thousandths, or `e` or `E` with an exponent. White space around it is ignored.

The digits before and after the point form one number, the mantissa, and the suffix scales it;
the point lowers the scale by a power of ten for each digit after it. All steps are exact, and a
step whose result would not fit into 128 bits makes the text unreadable, so that no amount is
ever read wrongly.
-/

namespace NodeGroups.Quantity

/-- Why a text is not a quantity. -/
inductive Fault
  | missingDigits
  | secondPoint
  | unknownSuffix
  | mantissaTooLarge
  | valueTooLarge
  deriving DecidableEq, Repr

def Fault.reason : Fault → String
  | missingDigits => "missing digits"
  | secondPoint => "more than one decimal point"
  | unknownSuffix => "unknown suffix"
  | mantissaTooLarge => "number out of range"
  | valueTooLarge => "value out of range"

/-- A text that is not a quantity, and why. -/
structure ParseError where
  /-- The text as it was given, with the white space around it. -/
  input : String
  fault : Fault
  deriving DecidableEq, Repr

def ParseError.message (e : ParseError) : String :=
  "invalid quantity " ++ Text.quoted e.input ++ ": " ++ e.fault.reason

/-! ## The parts of the written form -/

/-- The parts of a written quantity. -/
structure Written where
  negative : Bool
  /-- The digits before the point. -/
  whole : List Char
  /-- The digits after the point. -/
  fraction : List Char
  suffix : List Char
  deriving DecidableEq, Repr

/-- Whether a character belongs to the digits of a quantity. -/
def isNumeric (c : Char) : Bool := c.isDigit || c == '.'

def splitSign : List Char → Bool × List Char
  | '-' :: r => (true, r)
  | '+' :: r => (false, r)
  | s => (false, s)

/-- Splits a trimmed text into the parts of a quantity. -/
def Written.split (s : List Char) : Written :=
  let (negative, rest) := splitSign s
  let number := rest.takeWhile isNumeric
  { negative
    whole := number.takeWhile (· != '.')
    fraction := (number.dropWhile (· != '.')).drop 1
    suffix := rest.dropWhile isNumeric }

def Written.mantissaDigits (w : Written) : List Char := w.whole ++ w.fraction

/-! ## Suffixes -/

/-- What a suffix multiplies the number by. -/
inductive Scale
  | ten (exponent : Int)
  | two (exponent : Nat)
  deriving DecidableEq, Repr

/-- The letters for powers of ten, largest first. -/
def decimalUnits : List (List Char × Nat) :=
  [(['E'], 18), (['P'], 15), (['T'], 12), (['G'], 9), (['M'], 6), (['k'], 3)]

/-- The letters for powers of two, largest first. -/
def binaryUnits : List (List Char × Nat) :=
  [(['E', 'i'], 60), (['P', 'i'], 50), (['T', 'i'], 40), (['G', 'i'], 30), (['M', 'i'], 20),
    (['K', 'i'], 10)]

/-- Exponents of ten are stored in 32 bits. -/
def exponentBound : Nat := Nat.pow 2 31

/-- An exponent of ten: a sign or none, and digits, within 32 bits. -/
def readExponent? : List Char → Option Int
  | 'e' :: r => Text.readInt? exponentBound r
  | 'E' :: r => Text.readInt? exponentBound r
  | _ => none

/-- The scale and the notation that a suffix stands for. -/
def readSuffix? (s : List Char) : Option (Scale × Format) :=
  if s = [] then some (.ten 0, .decimalSI)
  else if s = ['m'] then some (.ten (-3), .decimalSI)
  else match decimalUnits.lookup s with
    | some e => some (.ten e, .decimalSI)
    | none => match binaryUnits.lookup s with
      | some e => some (.two e, .binarySI)
      | none => (readExponent? s).map fun e ↦ (.ten e, .decimalExponent)

/-! ## Scaling -/

/-- A number that still fits into 128 bits. -/
def within? (n : Nat) : Option Nat := if n < limit then some n else none

/-- A power of ten that fits into 128 bits: `10 ^ 38` is the largest below `2 ^ 127`. -/
def tenPower? (e : Nat) : Option Nat := if e ≤ 38 then some (Nat.pow 10 e) else none

theorem tenPower?_eq (e : Nat) (h : e ≤ 38) : tenPower? e = within? (Nat.pow 10 e) := by
  have : Nat.pow 10 e < limit := by
    calc Nat.pow 10 e ≤ Nat.pow 10 38 := Nat.pow_le_pow_right (by decide) h
      _ < limit := by decide
  simp only [tenPower?, within?, if_pos h, if_pos this]

/-- The mantissa times ten to the `shift`. A division rounds up, and one by a power of ten beyond
128 bits leaves nothing of zero and the least amount of any other mantissa. -/
def scaleTen? (mantissa : Nat) (shift : Int) : Option Nat :=
  if 0 ≤ shift then
    (tenPower? shift.toNat).bind fun p ↦ within? (mantissa * p)
  else
    match tenPower? (-shift).toNat with
    | some p => some (ceilDiv mantissa p)
    | none => some (if mantissa = 0 then 0 else 1)

/-- The thousandths in a mantissa with `places` digits after the point, at a given scale. -/
def Scale.thousandths? (mantissa places : Nat) : Scale → Option Nat
  | .ten e =>
    if e + 3 < exponentBound ∧ -(exponentBound : Int) ≤ e + 3 - places then
      scaleTen? mantissa (e + 3 - places)
    else none
  | .two e => do
    let v ← within? (mantissa * Nat.pow 2 e)
    let v ← within? (v * 1000)
    let p ← tenPower? places
    pure (ceilDiv v p)

/-! ## Quantities -/

/-- The quantity that the parts denote. -/
def Written.toQuantity (w : Written) : Except Fault Quantity :=
  if w.whole = [] ∧ w.fraction = [] then .error .missingDigits
  else if '.' ∈ w.fraction then .error .secondPoint
  else match readSuffix? w.suffix with
    | none => .error .unknownSuffix
    | some (scale, format) =>
      match within? (Text.ofDigits w.mantissaDigits) with
      | none => .error .mantissaTooLarge
      | some mantissa =>
        match (scale.thousandths? mantissa w.fraction.length).bind
            (ofMagnitude? w.negative · format) with
        | none => .error .valueTooLarge
        | some q => .ok q

def parse (input : String) : Except ParseError Quantity :=
  match (Written.split (Text.trim input.toList)).toQuantity with
  | .ok q => .ok q
  | .error fault => .error ⟨input, fault⟩

def parse? (input : String) : Option Quantity := (parse input).toOption

end NodeGroups.Quantity
