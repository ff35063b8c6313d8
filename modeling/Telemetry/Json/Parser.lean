import Telemetry.Json.Basic
import Telemetry.Decimal.Reading

/-!
# Reading documents

A document is one value with blanks around it. Each level of nesting and each
element takes one unit of fuel, and the length of the text is always enough.
What a number comes to is left to a way of reading numbers. The usual one keeps
integers that fit in 64 bits, and reads every other number by scaling: the
leading digits that fit in 64 bits are made a double, which is multiplied or
divided by a power of ten.
-/

set_option autoImplicit false

namespace Telemetry.Json

def isSpace (c : Char) : Bool :=
  c == ' ' || c == '\t' || c == '\n' || c == '\r'

def skipSpace (cs : List Char) : List Char :=
  cs.dropWhile isSpace

structure Number where
  negative : Bool
  whole : List Char
  places : Option (List Char)
  exponent : Option (Bool × List Char)
  deriving DecidableEq, Repr

def fitDigits (word : Nat) : List Char → Nat × Nat
  | [] => (word, 0)
  | c :: cs =>
    let next := 10 * word + (c.toNat - 48)
    if next < Word.count64 then
      let (w, taken) := fitDigits next cs
      (w, taken + 1)
    else (word, 0)

def powerOfTen (n : Nat) : Float :=
  Decimal.nearestDecimal false 1 n

def scaleDown : Nat → Float → Nat → Float
  | 0, x, _ => x
  | fuel + 1, x, n =>
    if n ≤ 308 then x / powerOfTen n
    else if x == 0 then x
    else scaleDown fuel (x / powerOfTen 308) (n - 308)

def scale (word : Nat) (exponent : Int) : Option Float :=
  let x := Decimal.ofNat word
  if exponent < 0 then some (scaleDown 8 x (-exponent).toNat)
  else if exponent ≤ 308 then
    let y := x * powerOfTen exponent.toNat
    if y.isFinite then some y else none
  else if word = 0 then some x else none

def Number.power (n : Number) : Int :=
  match n.exponent with
  | none => 0
  | some (negative, digits) =>
    let value := Text.digitsValue 0 digits
    if negative then -(value : Int) else value

def Number.scaled (n : Number) : Option Float :=
  let (word, taken) := fitDigits 0 n.whole
  let dropped := n.whole.length - taken
  let (word, places) := fitDigits word (n.places.getD [])
  scale word (n.power + (dropped : Int) - places)

def Number.isInteger (n : Number) : Bool :=
  n.places.isNone && n.exponent.isNone

def Number.value (n : Number) : Json :=
  let whole := Text.digitsValue 0 n.whole
  if n.isInteger && !n.negative && whole < Word.count64 then .int whole
  else if n.isInteger && n.negative && 0 < whole && whole ≤ Word.half64 then .int (-(whole : Int))
  else match n.scaled with
    | some x => .float (if n.negative then -x else x)
    | none => .unreadable

def readWhole (cs : List Char) : Option (List Char × List Char) :=
  match Decimal.spanDigits cs with
  | ([], _) => none
  | ('0' :: _ :: _, _) => none
  | (digits, rest) => some (digits, rest)

def readDigits (cs : List Char) : Option (List Char × List Char) :=
  match Decimal.spanDigits cs with
  | ([], _) => none
  | (digits, rest) => some (digits, rest)

def readPlaces : List Char → Option (Option (List Char) × List Char)
  | '.' :: cs => (readDigits cs).map fun (digits, rest) => (some digits, rest)
  | cs => some (none, cs)

def readSign : List Char → Bool × List Char
  | '-' :: cs => (true, cs)
  | '+' :: cs => (false, cs)
  | cs => (false, cs)

def readPower : List Char → Option (Option (Bool × List Char) × List Char)
  | c :: cs =>
    if c = 'e' ∨ c = 'E' then
      (readDigits (readSign cs).2).map fun (digits, rest) =>
        (some ((readSign cs).1, digits), rest)
    else some (none, c :: cs)
  | [] => some (none, [])

def readNumber (read : Number → Json) (negative : Bool) (cs : List Char) :
    Option (Json × List Char) :=
  match readWhole cs with
  | none => none
  | some (whole, cs) =>
    match readPlaces cs with
    | none => none
    | some (places, cs) =>
      match readPower cs with
      | none => none
      | some (exponent, cs) => some (read ⟨negative, whole, places, exponent⟩, cs)

def hexValue (c : Char) : Option Nat :=
  if '0' ≤ c ∧ c ≤ '9' then some (c.toNat - 48)
  else if 'a' ≤ c ∧ c ≤ 'f' then some (c.toNat - 87)
  else if 'A' ≤ c ∧ c ≤ 'F' then some (c.toNat - 55)
  else none

def escaped (c : Char) : Option Char :=
  if c = '"' ∨ c = '\\' ∨ c = '/' then some c
  else if c = 'b' then some '\x08'
  else if c = 'f' then some '\x0c'
  else if c = 'n' then some '\n'
  else if c = 'r' then some '\r'
  else if c = 't' then some '\t'
  else none

inductive Piece where
  | char (c : Char)
  | unit (n : Nat)
  deriving DecidableEq, Repr

def pieces : List Char → Option (List Piece × List Char)
  | [] => none
  | '"' :: cs => some ([], cs)
  | '\\' :: 'u' :: a :: b :: c :: d :: cs =>
    match hexValue a, hexValue b, hexValue c, hexValue d with
    | some a, some b, some c, some d =>
      (pieces cs).map fun (ps, rest) => (.unit (((a * 16 + b) * 16 + c) * 16 + d) :: ps, rest)
    | _, _, _, _ => none
  | '\\' :: e :: cs =>
    match escaped e with
    | some c => (pieces cs).map fun (ps, rest) => (.char c :: ps, rest)
    | none => none
  | c :: cs =>
    if c.toNat < 32 ∨ c = '\\' then none
    else (pieces cs).map fun (ps, rest) => (.char c :: ps, rest)

/-- Surrogate code units pair up; one that stands alone has no value. -/
def joinPieces : List Piece → Option (List Char)
  | [] => some []
  | .char c :: ps => (joinPieces ps).map (c :: ·)
  | .unit n :: ps =>
    if n < 0xd800 ∨ 0xdfff < n then (joinPieces ps).map (Char.ofNat n :: ·)
    else if n < 0xdc00 then
      match ps with
      | .unit m :: rest =>
        if 0xdc00 ≤ m ∧ m ≤ 0xdfff then
          (joinPieces rest).map
            (Char.ofNat (0x10000 + (n - 0xd800) * 0x400 + (m - 0xdc00)) :: ·)
        else none
      | _ => none
    else none

def readString (cs : List Char) : Option (Option String × List Char) :=
  (pieces cs).map fun (ps, rest) => ((joinPieces ps).map String.ofList, rest)

def dropWord : List Char → List Char → Option (List Char)
  | [], cs => some cs
  | _ :: _, [] => none
  | w :: ws, c :: cs => if w = c then dropWord ws cs else none

def readWord (word : String) (value : Json) (cs : List Char) : Option (Json × List Char) :=
  (dropWord word.toList cs).map fun rest => (value, rest)

section

variable (read : Number → Json)

mutual

def value : Nat → List Char → Option (Json × List Char)
  | 0, _ => none
  | fuel + 1, cs =>
    match skipSpace cs with
    | [] => none
    | '"' :: cs =>
      match readString cs with
      | some (some s, rest) => some (.string s, rest)
      | some (none, rest) => some (.unreadable, rest)
      | none => none
    | '-' :: cs => readNumber read true cs
    | '[' :: cs =>
      match skipSpace cs with
      | ']' :: rest => some (.array [], rest)
      | cs => (elements fuel cs).map fun (es, rest) => (.array es, rest)
    | '\x7b' :: cs =>
      match skipSpace cs with
      | '\x7d' :: rest => some (.object [], rest)
      | cs => (members fuel cs).map fun (ms, rest) =>
          (match ms with
            | some ms => .object ms
            | none => .unreadable, rest)
    | c :: cs =>
      if c = 't' then readWord "rue" (.bool true) cs
      else if c = 'f' then readWord "alse" (.bool false) cs
      else if c = 'n' then readWord "ull" .null cs
      else readNumber read false (c :: cs)

def elements : Nat → List Char → Option (List Json × List Char)
  | 0, _ => none
  | fuel + 1, cs =>
    match value fuel cs with
    | none => none
    | some (e, cs) =>
      match skipSpace cs with
      | ']' :: rest => some ([e], rest)
      | ',' :: rest => (elements fuel rest).map fun (es, rest) => (e :: es, rest)
      | _ => none

/-- One or more members and the brace that closes them; no members when one
of the names has no value. -/
def members : Nat → List Char → Option (Option (List (String × Json)) × List Char)
  | 0, _ => none
  | fuel + 1, cs =>
    match skipSpace cs with
    | '"' :: cs =>
      match readString cs with
      | none => none
      | some (name, cs) =>
        match skipSpace cs with
        | ':' :: cs =>
          match value fuel cs with
          | none => none
          | some (v, cs) =>
            let here := name.map fun n => (n, v)
            match skipSpace cs with
            | '\x7d' :: rest => some (here.map fun m => [m], rest)
            | ',' :: rest => (members fuel rest).map fun (ms, rest) =>
                (match here, ms with
                  | some m, some ms => some (m :: ms)
                  | _, _ => none, rest)
            | _ => none
        | _ => none
    | _ => none

end

def parseWith (text : String) : Option Json :=
  let cs := text.toList
  match value read (2 * cs.length + 2) cs with
  | some (j, rest) => if skipSpace rest = [] then some j else none
  | none => none

end

def parse (text : String) : Option Json :=
  parseWith Number.value text

end Telemetry.Json
