import RecordLog.Text.BinaryFloat
import RecordLog.Timestamp

/-! Time on the host: a count of nanoseconds that only grows, and the time of day that goes with
it. Stretches of time are in nanoseconds too. -/
namespace RecordLog

structure Clock where
  now : Nat := 0
  /-- The time of day when the count was zero, to the second. -/
  origin : Int := 0
  /-- Seconds east of universal time. -/
  offset : Int := 0
  deriving DecidableEq, Repr

namespace Clock

def ofMillis (n : Nat) : Nat := n * 1000000

def ofSeconds (n : Nat) : Nat := n * 1000000000

/-- A stretch of time in seconds: whole seconds plus the fraction, each rounded, and their sum
rounded again. -/
def inSeconds (time : Nat) : BinaryFloat :=
  (BinaryFloat.nearest (time / 1000000000) 1).add
    (BinaryFloat.nearest (time % 1000000000) 1000000000)

/-- Seconds that a deadline can have at most. -/
def maxSeconds : Nat := 9223372036854775807

/-- A deadline, or `none` if it is too far away to be told. -/
def deadline? (c : Clock) (after : Nat) : Option Nat :=
  if (c.now + after) / 1000000000 ≤ maxSeconds then some (c.now + after) else none

/-- The clock at a later time; it never goes back. -/
def advance (c : Clock) (time : Nat) : Clock := { c with now := max c.now time }

/-- The time of day. -/
def instant (c : Clock) : Instant :=
  { seconds := c.origin + (c.now / 1000000000 : Nat), nanos := c.now % 1000000000 }

/-- The timestamp record for now. -/
def record (c : Clock) : String := Timestamp.record c.instant c.offset

end Clock

end RecordLog
