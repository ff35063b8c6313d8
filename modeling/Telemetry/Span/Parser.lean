import Telemetry.Span.Basic
import Telemetry.Text.Blank
import Telemetry.Text.Digits

/-!
# Reading lengths of time

A text such as `1h 30m` is a sum of terms, each a number and a unit. It is
read one character at a time: a state says which part of a term the character
continues, and a term is added to the sum when its unit ends. Places in the
text are counted in bytes from its first character that is not blank.
-/

set_option autoImplicit false

namespace Telemetry.Span

inductive Fault where
  | empty
  | numberExpected (place : Nat)
  | invalidCharacter (place : Nat)
  | unitNeeded (number : Nat)
  | unknownUnit (name : String)
  | tooLarge
  deriving DecidableEq, Repr

def Fault.message : Fault → String
  | .empty => "value was empty"
  | .numberExpected i => "expected number at " ++ Text.natText i
  | .invalidCharacter i => "invalid character at " ++ Text.natText i
  | .unitNeeded n =>
    "time unit needed, for example " ++ Text.natText n ++ "sec or " ++ Text.natText n ++ "ms"
  | .unknownUnit u =>
    "unknown time unit \"" ++ u ++ "\", supported units: ns, us/µs, ms, sec, min, hours, "
      ++ "days, weeks, months, years (and few variations)"
  | .tooLarge =>
    "number is too large or cannot be represented without a lack of precision "
      ++ "(values below 1ns are not supported)"

def fit (n : Nat) : Except Fault Nat :=
  if n < Word.count64 then .ok n else .error .tooLarge

structure Places where
  numerator : Nat
  denominator : Nat
  deriving DecidableEq, Repr

def Places.none : Places := ⟨0, 1⟩

def Places.push (p : Places) (digit : Nat) : Except Fault Places := do
  let denominator ← fit (10 * p.denominator)
  let numerator ← fit (10 * p.numerator + digit)
  return ⟨numerator, denominator⟩

def wholePart (u : TimeUnit) (n : Nat) : Except Fault Nat :=
  if u.seconds = 0 then fit (n * u.nanos)
  else (fit (n * u.seconds)).map ofSeconds

def fractionPart (u : TimeUnit) (p : Places) : Except Fault Nat :=
  if u = .nano then .error .tooLarge
  else if 3600 ≤ u.seconds then do
    let n ← fit (p.numerator * u.seconds)
    if n % p.denominator = 0 then return ofSeconds (n / p.denominator)
    else throw .tooLarge
  else do
    let n ← fit (p.numerator * u.nanos)
    if n % p.denominator = 0 then return n / p.denominator
    else throw .tooLarge

def plus (total added : Span) : Except Fault Span :=
  if bound ≤ total + added then .error .tooLarge else .ok (total + added)

def plusFine (total added : Span) : Except Fault Span := do
  let _ ← fit (subsecond total + added)
  plus total added

def plusIn (u : TimeUnit) (total added : Span) : Except Fault Span :=
  if u.seconds = 0 then plusFine total added else plus total added

/-- Adds a fraction of a unit; only from the hour on is it in whole seconds. -/
def plusFraction (u : TimeUnit) (total added : Span) : Except Fault Span :=
  if 3600 ≤ u.seconds then plus total added else plusFine total added

/-- Which part of a term comes next: a number, which must begin from the
given place on; more of a whole number; more places after a point, the place
of the next character being given; or more of a unit's name. -/
inductive State where
  | number (since : Nat)
  | whole (n : Nat)
  | places (n : Nat) (p : Places) (place : Nat)
  | unit (n : Nat) (p : Option Places) (name : List Char)
  deriving DecidableEq, Repr

def isUnitLetter (c : Char) : Bool :=
  ('a' ≤ c && c ≤ 'z') || ('A' ≤ c && c ≤ 'Z') || c == 'µ'

def addTerm (total : Span) (n : Nat) (p : Option Places) (name : List Char) :
    Except Fault Span :=
  match TimeUnit.ofName? (String.ofList name) with
  | none => .error (if name = [] then .unitNeeded n else .unknownUnit (String.ofList name))
  | some u => do
    let total ← plusIn u total (← wholePart u n)
    match p with
    | none => return total
    | some p => plusFraction u total (← fractionPart u p)

def step (total : Span) (s : State) (i : Nat) (c : Char) : Except Fault (Span × State) :=
  match s with
  | .number since =>
    match Text.digit? c with
    | some d => .ok (total, .whole d)
    | none => if Text.isBlank c then .ok (total, s) else .error (.numberExpected since)
  | .whole n =>
    match Text.digit? c with
    | some d => (fit (10 * n + d)).map fun n => (total, .whole n)
    | none =>
      if Text.isBlank c then .ok (total, s)
      else if isUnitLetter c then .ok (total, .unit n none [c])
      else if c = '.' then .ok (total, .places n .none i)
      else .error (.invalidCharacter i)
  | .places n p place =>
    match Text.digit? c with
    | some d => (p.push d).map fun p => (total, .places n p (i + c.utf8Size))
    | none =>
      if Text.isBlank c then .ok (total, .places n p (i + c.utf8Size))
      else if isUnitLetter c then
        if p.denominator = 1 then .error (.invalidCharacter place)
        else .ok (total, .unit n (some p) [c])
      else .error (.invalidCharacter place)
  | .unit n p name =>
    match Text.digit? c with
    | some d => (addTerm total n p name).map fun total => (total, .whole d)
    | none =>
      if Text.isBlank c then
        (addTerm total n p name).map fun total => (total, .number (i + c.utf8Size))
      else if isUnitLetter c then .ok (total, .unit n p (name ++ [c]))
      else .error (.invalidCharacter i)

def finish (total : Span) : State → Except Fault Span
  | .number _ => .ok total
  | .whole n => addTerm total n none []
  | .places n p place =>
    if p.denominator = 1 then .error (.invalidCharacter place) else addTerm total n (some p) []
  | .unit n p name => addTerm total n p name

def run (total : Span) (s : State) (i : Nat) : List Char → Except Fault Span
  | [] => finish total s
  | c :: cs =>
    match step total s i c with
    | .error e => .error e
    | .ok (total, s) => run total s (i + c.utf8Size) cs

def ofChars (cs : List Char) : Except Fault Span :=
  if cs = ['0'] then .ok 0
  else if cs = [] then .error .empty
  else run 0 (.number 0) 0 cs

structure Error where
  value : String
  fault : Fault
  deriving DecidableEq, Repr

def Error.message (e : Error) : String :=
  "Invalid duration '" ++ e.value ++ "': " ++ e.fault.message

def parse (text : String) : Except Error Span :=
  match ofChars (Text.trimBlank text.toList) with
  | .ok s => .ok s
  | .error fault => .error ⟨text, fault⟩

end Telemetry.Span
