import NodeGroups.Text.Blank
import NodeGroups.Text.Numeral

/-!
# Durations

Spans of time in whole milliseconds, below `2 ^ 64`. Configuration writes them as a number and
a unit, `500ms`, `30s`, `5m` or `1h`; a number without a unit is in seconds. White space may
surround the text and may stand before the unit.
-/

namespace NodeGroups

/-- A span of time. -/
structure Duration where
  /-- The whole milliseconds in it. -/
  millis : UInt64
  deriving DecidableEq, Repr

namespace Duration

/-- The number of milliseconds as a natural number, for arithmetic on instants. -/
def ms (d : Duration) : Nat := d.millis.toNat

/-- The duration of a number of milliseconds, if it is below `2 ^ 64`. -/
def ofMillis? (n : Nat) : Option Duration :=
  if n < UInt64.size then some ⟨UInt64.ofNat n⟩ else none

/-- Fifteen seconds, the period after which a group's view is refreshed if none is configured. -/
def defaultRefreshPeriod : Duration := ⟨15000⟩

/-- Thirty seconds, the time one group may take to refresh if none is configured. -/
def defaultGroupTimeout : Duration := ⟨30000⟩

/-- One second, the least time between refresh passes if none is configured. -/
def defaultMinInterval : Duration := ⟨1000⟩

/-! ## Reading -/

/-- Splits a trimmed text into a numeral and the milliseconds in its unit. The unit `ms` is
tried before `s`, in which it ends. -/
def splitUnit (s : List Char) : List Char × Nat :=
  match s.reverse with
  | 's' :: 'm' :: r => (r.reverse, 1)
  | 's' :: r => (r.reverse, 1000)
  | 'm' :: r => (r.reverse, 60000)
  | 'h' :: r => (r.reverse, 3600000)
  | _ => (s, 1000)

def parse? (text : String) : Option Duration :=
  let (number, unit) := splitUnit (Text.trim text.toList)
  (Text.readNat? UInt64.size (Text.trim number)).bind fun n ↦ ofMillis? (n * unit)

/-! ## Writing -/

/-- The digits of a fraction of a second given in milliseconds, without trailing zeros. -/
def fractionDigits (ms : Nat) : List Char :=
  let ds := Text.digits (1000 + ms)
  ((ds.drop 1).reverse.dropWhile (· == '0')).reverse

/-- The written form for messages: milliseconds below one second, otherwise seconds with as many
digits after the point as it takes. -/
def print (d : Duration) : String :=
  if d.ms = 0 then "0ns"
  else if d.ms < 1000 then toString d.ms ++ "ms"
  else if d.ms % 1000 = 0 then toString (d.ms / 1000) ++ "s"
  else toString (d.ms / 1000) ++ "." ++ String.ofList (fractionDigits (d.ms % 1000)) ++ "s"

end Duration

end NodeGroups
