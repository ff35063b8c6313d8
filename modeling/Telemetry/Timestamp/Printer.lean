import Telemetry.Timestamp.Basic
import Telemetry.Timestamp.Calendar
import Telemetry.Text.Digits

/-!
# Writing points in time

A point in time is written in UTC with as many groups of three decimal places
as it needs. A year outside four digits has a sign.
-/

set_option autoImplicit false

namespace Telemetry.Timestamp

def yearText (year : Int) : String :=
  if 0 ≤ year ∧ year ≤ 9999 then Text.paddedText 4 year.toNat
  else (if year < 0 then "-" else "+") ++ Text.paddedText 4 year.natAbs

def fractionText (nanos : Nat) : String :=
  if nanos = 0 then ""
  else if nanos % 1000000 = 0 then "." ++ Text.paddedText 3 (nanos / 1000000)
  else if nanos % 1000 = 0 then "." ++ Text.paddedText 6 (nanos / 1000)
  else "." ++ Text.paddedText 9 nanos

def text (t : Timestamp) : String :=
  let date := Date.ofDays (t.seconds / 86400)
  let second := (t.seconds % 86400).toNat
  let leap := if Span.nanosPerSecond ≤ t.nanos then 1 else 0
  yearText date.year ++ "-" ++ Text.paddedText 2 date.month ++ "-"
    ++ Text.paddedText 2 date.day ++ "T" ++ Text.paddedText 2 (second / 3600) ++ ":"
    ++ Text.paddedText 2 (second / 60 % 60) ++ ":"
    ++ Text.paddedText 2 (second % 60 + leap)
    ++ fractionText (t.nanos % Span.nanosPerSecond) ++ "Z"

end Telemetry.Timestamp
