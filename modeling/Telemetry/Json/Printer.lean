import Telemetry.Json.Basic
import Telemetry.Decimal.Notation

/-!
# Writing documents

A document is written without spaces. Inside strings the quote, the backslash
and the control characters are escaped, and everything else stands for
itself. A number that is not finite is written as null.
-/

set_option autoImplicit false

namespace Telemetry.Json

def hexDigit (n : Nat) : Char :=
  if n < 10 then Char.ofNat (48 + n) else Char.ofNat (87 + n)

def escape (c : Char) : List Char :=
  if c = '"' then ['\\', '"']
  else if c = '\\' then ['\\', '\\']
  else if c = '\x08' then ['\\', 'b']
  else if c = '\x0c' then ['\\', 'f']
  else if c = '\n' then ['\\', 'n']
  else if c = '\r' then ['\\', 'r']
  else if c = '\t' then ['\\', 't']
  else if c.toNat < 32 then
    ['\\', 'u', '0', '0', hexDigit (c.toNat / 16), hexDigit (c.toNat % 16)]
  else [c]

def stringChars (s : List Char) : List Char :=
  '"' :: s.flatMap escape ++ ['"']

def floatChars (x : Float) : List Char :=
  if x.isFinite then (Decimal.documentText x).toList else "null".toList

mutual

def chars : Json → List Char
  | null => "null".toList
  | bool true => "true".toList
  | bool false => "false".toList
  | int n => (Text.intText n).toList
  | float x => floatChars x
  | string s => stringChars s.toList
  | array elements => '[' :: elementsChars elements
  | object members => '\x7b' :: membersChars members
  | unreadable => "null".toList

def elementsChars : List Json → List Char
  | [] => [']']
  | [e] => e.chars ++ [']']
  | e :: next :: rest => e.chars ++ ',' :: elementsChars (next :: rest)

def membersChars : List (String × Json) → List Char
  | [] => ['\x7d']
  | [(k, v)] => stringChars k.toList ++ ':' :: v.chars ++ ['\x7d']
  | (k, v) :: next :: rest =>
    stringChars k.toList ++ ':' :: v.chars ++ ',' :: membersChars (next :: rest)

end

def text (j : Json) : String :=
  String.ofList j.chars

end Telemetry.Json
