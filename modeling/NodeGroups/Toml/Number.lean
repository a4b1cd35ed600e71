import NodeGroups.Datum.Basic
import NodeGroups.Text.Numeral
import NodeGroups.Text.Split
import NodeGroups.Toml.Text

/-!
# Numbers in TOML

Whole numbers in four bases that fit into 64 bits, and numbers with a fraction or an exponent,
which are kept as written. Single underscores may stand between digits.
-/

namespace NodeGroups.Toml

/-- The digits of a sequence in which single underscores may stand between them. -/
def ungrouped? (isDigit : Char → Bool) (s : List Char) : Option (List Char) :=
  let groups := Text.splitAll '_' s
  if groups.all fun g ↦ !g.isEmpty && g.all isDigit then some groups.flatten else none

/-- The sign of a number, true for a minus, and what follows it. -/
def splitSign : List Char → Bool × List Char
  | '-' :: r => (true, r)
  | '+' :: r => (false, r)
  | s => (false, s)

/-- The digits of a decimal number. Zero alone may open with a zero. -/
def decimalDigits? (s : List Char) : Option (List Char) := do
  let ds ← ungrouped? Char.isDigit s
  if ds.head? = some '0' ∧ 1 < ds.length then none else some ds

/-- The number that digits denote in a base. -/
def ofDigitsIn (base : Nat) (ds : List Char) : Nat :=
  ds.foldl (fun n c ↦ base * n + hexDigit c) 0

/-- A whole number without a sign in a base other than ten. -/
def basedNat? : List Char → Option Nat
  | '0' :: 'x' :: r => (ungrouped? isHexDigit r).map (ofDigitsIn 16)
  | '0' :: 'o' :: r => (ungrouped? (fun c ↦ '0' ≤ c && c ≤ '7') r).map (ofDigitsIn 8)
  | '0' :: 'b' :: r => (ungrouped? (fun c ↦ c == '0' || c == '1') r).map (ofDigitsIn 2)
  | _ => none

def integer? (s : List Char) : Option Int := do
  let n ← (basedNat? s).map Int.ofNat <|> (do
    let (negative, r) := splitSign s
    let n := Text.ofDigits (← decimalDigits? r)
    pure (if negative then -(n : Int) else n))
  if Int64.minValue.toInt ≤ n ∧ n ≤ Int64.maxValue.toInt then some n else none

/-! ## Fractions and exponents -/

/-- The exponent of a number: its sign and digits. -/
def exponent? (s : List Char) : Option Int := do
  let (negative, r) := splitSign s
  let n := Text.ofDigits (← ungrouped? Char.isDigit r)
  pure (if negative then -(n : Int) else n)

/-- The first `e` of a number in either case cuts it into the part before it and the exponent. -/
def cutExponent? (s : List Char) : Option (List Char × List Char) :=
  let before := s.takeWhile fun c ↦ c != 'e' && c != 'E'
  match s.drop before.length with
  | [] => none
  | _ :: r => some (before, r)

/-- The digits before and after the point, and the exponent, of a number that has a fraction or
an exponent. -/
def scientific? (s : List Char) : Option (List Char × List Char × Int) := do
  match cutExponent? s with
  | some (before, e) =>
    let e ← exponent? e
    match Text.cutFirst? '.' before with
    | some (whole, fraction) =>
      pure (← decimalDigits? whole, ← ungrouped? Char.isDigit fraction, e)
    | none => pure (← decimalDigits? before, [], e)
  | none =>
    let (whole, fraction) ← Text.cutFirst? '.' s
    pure (← decimalDigits? whole, ← ungrouped? Char.isDigit fraction, 0)

/-- From here on, a number is nearer to two to the 1024th power than to any number with an
exponent below that and 53 binary digits. -/
def overflowBound : Nat := Nat.pow 2 1024 - Nat.pow 2 970

/-- Whether a number in scientific form is too large for 64-bit arithmetic. -/
def overflows (digits : List Char) (exponent : Int) : Bool :=
  let significant := digits.dropWhile (· == '0')
  let magnitude := significant.length + exponent
  if significant.isEmpty || magnitude < 300 then false
  else if 320 < magnitude then true
  else
    let n := Text.ofDigits significant
    if 0 ≤ exponent then overflowBound ≤ n * Nat.pow 10 exponent.toNat
    else overflowBound * Nat.pow 10 exponent.natAbs ≤ n

/-- Whether a text is a number with a fraction or an exponent, or one of the words for infinity
and for no number. Too large a number is refused, unless it is negative. -/
def isReal (s : List Char) : Bool :=
  let (negative, r) := splitSign s
  if r = ['i', 'n', 'f'] ∨ r = ['n', 'a', 'n'] then true
  else match scientific? r with
    | some (whole, fraction, e) =>
      negative || !overflows (whole ++ fraction) (e - fraction.length)
    | none => false

def number? (s : List Char) : Option Datum :=
  (integer? s).map Datum.int <|> if isReal s then some (.real (String.ofList s)) else none

end NodeGroups.Toml
