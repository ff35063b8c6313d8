import Telemetry.Span.Basic
import Telemetry.Decimal.Binary64

/-!
# Growing waits

Waits between attempts begin with an initial interval, grow by a factor and
are capped. A wait that would reach past the budget is refused, and a refusal
changes nothing.
-/

set_option autoImplicit false

namespace Telemetry

namespace Span

/-- A length in seconds as a double: whole seconds and the rest are rounded
on their own, and so is their sum. -/
def toSeconds (s : Span) : Decimal.Fraction :=
  let whole := Decimal.Fraction.rounded ⟨wholeSeconds s, 1⟩
  let rest := Decimal.Fraction.rounded ⟨subsecond s, nanosPerSecond⟩
  (whole.add rest).rounded

def scaleBy (s : Span) (factor : Float) : Span :=
  let factor := (Decimal.Binary.ofBits factor.toBits).fraction
  (factor.mul (toSeconds s)).rounded.inUnits nanosPerSecond

/-- Whether a length times a double is a length: the double is a number, the
product is not below zero, and its seconds fit in 64 bits. -/
def scales (s : Span) (factor : Float) : Bool :=
  let bits := factor.toBits.toNat
  let magnitude := bits % Decimal.signBit
  let product := ((Decimal.Binary.ofBits factor.toBits).fraction.mul (toSeconds s)).rounded
  decide (magnitude < Decimal.infinityBits) && (bits == magnitude || product.num == 0) &&
    decide (s.scaleBy factor < bound)

end Span

structure BackoffPolicy where
  initial : Span
  cap : Span
  multiplier : Float
  budget : Span
  deriving DecidableEq, Repr

namespace BackoffPolicy

def standard : BackoffPolicy where
  initial := Span.ofSeconds 10
  cap := Span.ofSeconds 60
  multiplier := 1.5
  budget := Span.ofSeconds 180

def grow (p : BackoffPolicy) (current : Span) : Span :=
  min (current.scaleBy p.multiplier) p.cap

end BackoffPolicy

structure Backoff where
  policy : BackoffPolicy
  current : Span
  deriving DecidableEq, Repr

inductive Backoff.Answer where
  | wait (span : Span)
  | refused
  | overflow
  deriving DecidableEq, Repr

namespace Backoff

def start (p : BackoffPolicy) : Backoff :=
  ⟨p, p.initial⟩

/-- The next wait when it ends within the budget, `elapsed` having passed
since the first attempt. The sum is formed before it is compared, and the
product before it is capped. -/
def ask (b : Backoff) (elapsed : Span) : Answer × Backoff :=
  if Span.bound ≤ elapsed + b.current then (.overflow, b)
  else if b.policy.budget < elapsed + b.current then (.refused, b)
  else if b.current.scales b.policy.multiplier then
    (.wait b.current, { b with current := b.policy.grow b.current })
  else (.overflow, b)

end Backoff

end Telemetry
