/-!
# Clocks and timers

A clock counts milliseconds, and timers are moments on it. The clock may move on without anybody
looking at the timers; those that are due meanwhile go off only when the clock rings. Until then
whoever waits for them waits on. Timers go off in the order of their moments, and those of one
moment in the order in which they were set.
-/

namespace NodeGroups

/-- A moment at which somebody who waits goes on. -/
structure Timer where
  due : Nat
  /-- Greater for timers that were set later. -/
  order : Nat
  deriving DecidableEq

namespace Timer

/-- Whether a timer goes off before another, or is due and set together with it. -/
def notAfter (a b : Timer) : Bool := a.due < b.due || (a.due == b.due && a.order ≤ b.order)

end Timer

/-- A clock. -/
structure Clock where
  now : Nat
  /-- The moment up to which timers have gone off. -/
  rung : Nat
  deriving DecidableEq

namespace Clock

/-- A clock at its beginning. -/
def start : Clock := ⟨0, 0⟩

/-- Time passes, and no timer goes off yet. -/
def pass (ms : Nat) (c : Clock) : Clock := { c with now := c.now + ms }

/-- The timers that are due go off. -/
def ring (c : Clock) : Clock := { c with rung := c.now }

/-- A timer for a number of milliseconds from now. -/
def timer (c : Clock) (ms order : Nat) : Timer := ⟨c.now + ms, order⟩

/-- The longest delay that can be set for a call or a request: thirty years of 365 days, in
milliseconds. One that is set to be longer is over then. -/
def longestDelay : Nat := 30 * 365 * 24 * 60 * 60 * 1000

/-- Whether a timer has gone off. -/
def isPast (c : Clock) (t : Timer) : Bool := t.due ≤ c.rung

/-- Whether a timer goes off when the clock rings. -/
def isDue (c : Clock) (t : Timer) : Bool := c.rung < t.due && t.due ≤ c.now

end Clock

end NodeGroups
