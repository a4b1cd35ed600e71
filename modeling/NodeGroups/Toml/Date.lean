import NodeGroups.Text.Numeral

/-!
# Dates and times in TOML

A date, a time of day, or both with a distance from universal time. The library has no use for
their values, only for whether they are well formed: the days of each month are counted, leap
years included, and a minute may have a sixty-first second.
-/

namespace NodeGroups.Toml

/-- Two digits that denote a number within limits. -/
def isPair (least greatest : Nat) (a b : Char) : Bool :=
  match Text.readDigits? [a, b] with
  | some n => least ≤ n && n ≤ greatest
  | none => false

/-- Whether a year has a twenty-ninth of February. -/
def isLeapYear (year : Nat) : Bool := year % 4 == 0 && (year % 100 != 0 || year % 400 == 0)

/-- The number of days in a month, by its two digits. -/
def daysIn (year : Nat) (month : Nat) : Nat :=
  if month = 2 then if isLeapYear year then 29 else 28
  else if month ∈ [4, 6, 9, 11] then 30
  else 31

/-- The text after a well-formed date. -/
def afterDate? : List Char → Option (List Char)
  | y₁ :: y₂ :: y₃ :: y₄ :: '-' :: m₁ :: m₂ :: '-' :: d₁ :: d₂ :: r => do
    let year ← Text.readDigits? [y₁, y₂, y₃, y₄]
    let month ← Text.readDigits? [m₁, m₂]
    if isPair 1 12 m₁ m₂ && isPair 1 (daysIn year month) d₁ d₂ then some r else none
  | _ => none

/-- The text after a well-formed time of day. -/
def afterTime? : List Char → Option (List Char)
  | h₁ :: h₂ :: ':' :: m₁ :: m₂ :: ':' :: s₁ :: s₂ :: r =>
    if isPair 0 23 h₁ h₂ && isPair 0 59 m₁ m₂ && isPair 0 60 s₁ s₂ then
      match r with
      | '.' :: f =>
        if f.takeWhile Char.isDigit = [] then none else some (f.dropWhile Char.isDigit)
      | _ => some r
    else none
  | _ => none

/-- Whether a text is a well-formed distance from universal time. -/
def isOffset : List Char → Bool
  | ['Z'] | ['z'] => true
  | [sign, h₁, h₂, ':', m₁, m₂] =>
    (sign == '+' || sign == '-') && isPair 0 23 h₁ h₂ && isPair 0 59 m₁ m₂
  | _ => false

/-- Whether a text is a time of day that may be followed by a distance from universal time. -/
def isClock (s : List Char) : Bool :=
  match afterTime? s with
  | some r => r.isEmpty || isOffset r
  | none => false

/-- Whether a text is a date alone. -/
def isDate (s : List Char) : Bool := afterDate? s == some []

/-- Whether a text is a date, a time of day, or both with a `T` between them. -/
def isMoment (s : List Char) : Bool :=
  match afterDate? s with
  | some [] => true
  | some (c :: r) => (c == 'T' || c == 't') && isClock r
  | none => afterTime? s == some []

end NodeGroups.Toml
