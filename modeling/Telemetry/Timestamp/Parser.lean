import Telemetry.Decimal.Power
import Telemetry.Timestamp.Basic
import Telemetry.Timestamp.Calendar
import Telemetry.Text.Blank
import Telemetry.Text.Digits

/-!
# Reading points in time

A date, a letter T or a space, a time of day and an offset from UTC. Fields
may be shorter than usual and have blanks around them. A year needs a sign to
have more than four digits, and only the first nine decimal places count.
-/

set_option autoImplicit false

namespace Telemetry.Timestamp

def field (width : Nat) (cs : List Char) : Option (Nat × List Char) :=
  let cs := Text.trimBlankLeft cs
  let digits := (cs.take width).takeWhile Text.isDigit
  if digits = [] then none
  else some (Text.digitsValue 0 digits, cs.drop digits.length)

def anyWidth (cs : List Char) : Option (Nat × List Char) :=
  let digits := cs.takeWhile Text.isDigit
  if digits = [] then none
  else some (Text.digitsValue 0 digits, cs.dropWhile Text.isDigit)

def yearField (cs : List Char) : Option (Int × List Char) :=
  match Text.trimBlankLeft cs with
  | '-' :: cs => (anyWidth cs).map fun (n, cs) => (-(n : Int), cs)
  | '+' :: cs => (anyWidth cs).map fun (n, cs) => ((n : Int), cs)
  | cs => (field 4 cs).map fun (n, cs) => ((n : Int), cs)

def mark (c : Char) (cs : List Char) : Option (List Char) :=
  match Text.trimBlankLeft cs with
  | d :: cs => if d = c then some cs else none
  | [] => none

def fraction : List Char → Option (Nat × List Char)
  | '.' :: cs =>
    let digits := (cs.take 9).takeWhile Text.isDigit
    if digits = [] then none
    else some (Text.digitsValue 0 digits * Decimal.tenPow (9 - digits.length), cs.dropWhile Text.isDigit)
  | cs => some (0, cs)

def twoDigits : List Char → Option (Nat × List Char)
  | a :: b :: cs =>
    match Text.digit? a, Text.digit? b with
    | some a, some b => some (10 * a + b, cs)
    | _, _ => none
  | _ => none

def offsetAmount (cs : List Char) : Option (Nat × List Char) :=
  match twoDigits cs with
  | none => none
  | some (hours, cs) =>
    match twoDigits (cs.dropWhile fun c => c == ':' || Text.isBlank c) with
    | none => none
    | some (minutes, cs) =>
      let seconds := hours * 3600 + minutes * 60
      if minutes < 60 ∧ seconds < 86400 then some (seconds, cs) else none

def isUtc (cs : List Char) : Bool :=
  (cs.take 3).map Char.toUpper == ['U', 'T', 'C']

def offset (cs : List Char) : Option (Int × List Char) :=
  if isUtc cs then some (0, cs.drop 3)
  else match cs with
    | c :: cs =>
      if c = 'Z' ∨ c = 'z' then some (0, cs)
      else if c = '+' then (offsetAmount cs).map fun (n, cs) => ((n : Int), cs)
      else if c = '-' ∨ c = '−' then (offsetAmount cs).map fun (n, cs) => (-(n : Int), cs)
      else none
    | [] => none

def dateField (cs : List Char) : Option (Date × List Char) := do
  let (year, cs) ← yearField cs
  let cs ← mark '-' cs
  let (month, cs) ← field 2 cs
  let cs ← mark '-' cs
  let (day, cs) ← field 2 cs
  return (⟨year, month, day⟩, cs)

/-- A time of day; a sixtieth second is a leap second. -/
structure Clock where
  hour : Nat
  minute : Nat
  second : Nat
  nanos : Nat
  deriving DecidableEq, Repr

def Clock.valid (c : Clock) : Bool :=
  c.hour < 24 && c.minute < 60 && c.second ≤ 60

def clockField (cs : List Char) : Option (Clock × List Char) := do
  let (hour, cs) ← field 2 cs
  let cs ← mark ':' cs
  let (minute, cs) ← field 2 cs
  let cs ← mark ':' cs
  let (second, cs) ← field 2 cs
  let (nanos, cs) ← fraction cs
  return (⟨hour, minute, second, nanos⟩, Text.trimBlankLeft cs)

def minYear : Int := -262143
def maxYear : Int := 262142

def assemble (d : Date) (c : Clock) (east : Int) : Option Timestamp :=
  if d.valid ∧ c.valid ∧ minYear ≤ d.year ∧ d.year ≤ maxYear then
    let second := min c.second 59
    let nanos := if c.second = 60 then Span.nanosPerSecond + c.nanos else c.nanos
    let seconds := d.toDays * 86400 + (c.hour * 3600 + c.minute * 60 + second : Nat) - east
    let year := (Date.ofDays (seconds / 86400)).year
    if minYear ≤ year ∧ year ≤ maxYear then some ⟨seconds, nanos⟩ else none
  else none

def readChars (cs : List Char) : Option Timestamp := do
  let (date, cs) ← dateField cs
  let cs ← match cs with
    | c :: cs => if c = 'T' ∨ c = 't' ∨ c = ' ' then some cs else none
    | [] => none
  let (clock, cs) ← clockField cs
  let (east, cs) ← offset cs
  if Text.trimBlankLeft cs = [] then assemble date clock east else none

def parse (text : String) : Option Timestamp :=
  readChars text.toList

end Telemetry.Timestamp
