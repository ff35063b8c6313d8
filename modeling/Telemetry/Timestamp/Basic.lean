import Telemetry.Span.Basic

/-!
# Points in time

A point in time is a whole second since the start of 1970 and the nanoseconds
into it. During a leap second the nanoseconds run on past one second.
-/

set_option autoImplicit false

namespace Telemetry

structure Timestamp where
  seconds : Int
  nanos : Nat
  deriving DecidableEq, Repr, Inhabited

namespace Timestamp

def ofMicros (us : Int) : Timestamp :=
  ⟨us / 1000000, (us % 1000000).toNat * 1000⟩

def toMicros (t : Timestamp) : Int :=
  t.seconds * 1000000 + (t.nanos / 1000 : Nat)

def ofNanos (ns : Int) : Timestamp :=
  ⟨ns / 1000000000, (ns % 1000000000).toNat⟩

def toNanos (t : Timestamp) : Int :=
  t.seconds * 1000000000 + t.nanos

def secondOfDay (t : Timestamp) : Int :=
  t.seconds % 86400

/-- The second that a leap second adds to a difference. It is counted when the
time of day that lies in it comes before the other one, whatever the days are. -/
def leapBetween (t earlier : Timestamp) : Int :=
  if earlier.secondOfDay < t.secondOfDay ∧ 1000000000 ≤ earlier.nanos then 1
  else if t.secondOfDay < earlier.secondOfDay ∧ 1000000000 ≤ t.nanos then -1
  else 0

/-- Nanoseconds from `earlier` to `t`, below zero when `t` comes first. -/
def since (t earlier : Timestamp) : Int :=
  t.toNanos - earlier.toNanos + t.leapBetween earlier * 1000000000

end Timestamp

end Telemetry
