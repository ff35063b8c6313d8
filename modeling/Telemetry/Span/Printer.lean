import Telemetry.Span.Basic
import Telemetry.Text.Split
import Telemetry.Text.Digits

/-!
# Writing lengths of time

The spelled form is a sum of whole units, from years to nanoseconds, and is
read back exactly. The compact form is one number with decimal places in the
largest unit from the nanosecond to the second that is not above the length.
-/

set_option autoImplicit false

namespace Telemetry.Span

def term (n : Nat) (unit : String) : List String :=
  if n = 0 then [] else [Text.natText n ++ unit]

def pluralTerm (n : Nat) (unit : String) : List String :=
  if n = 0 then [] else [Text.natText n ++ (if n = 1 then unit else unit ++ "s")]

def terms (s : Span) : List String :=
  let seconds := s / nanosPerSecond
  let inYear := seconds % 31557600
  let inMonth := inYear % 2630016
  let inDay := inMonth % 86400
  let nanos := s % nanosPerSecond
  pluralTerm (seconds / 31557600) "year"
    ++ pluralTerm (inYear / 2630016) "month"
    ++ pluralTerm (inMonth / 86400) "day"
    ++ term (inDay / 3600) "h"
    ++ term (inDay % 3600 / 60) "m"
    ++ term (inDay % 60) "s"
    ++ term (nanos / 1000000) "ms"
    ++ term (nanos / 1000 % 1000) "us"
    ++ term (nanos % 1000) "ns"

def spelled (s : Span) : String :=
  if s = 0 then "0s" else Text.joinWith " " s.terms

def decimals (width n : Nat) : List Char :=
  if n = 0 then [] else '.' :: ((Text.padded width n).reverse.dropWhile (· == '0')).reverse

def inUnit (s : Span) (unit width : Nat) (name : String) : String :=
  Text.natText (s / unit) ++ String.ofList (decimals width (s % unit)) ++ name

def compact (s : Span) : String :=
  if nanosPerSecond ≤ s then inUnit s nanosPerSecond 9 "s"
  else if 1000000 ≤ s then inUnit s 1000000 6 "ms"
  else if 1000 ≤ s then inUnit s 1000 3 "µs"
  else Text.natText s ++ "ns"

end Telemetry.Span
