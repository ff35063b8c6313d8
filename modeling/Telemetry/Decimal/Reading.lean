import Telemetry.Decimal.Binary64
import Telemetry.Text.Blank
import Telemetry.Text.Digits

/-!
# Reading doubles

A decimal text has an optional sign, digits with at most one point, and an
optional exponent. The words for infinity and for an undefined number are
read too, in any case of letters.
-/

set_option autoImplicit false

namespace Telemetry.Decimal

structure Literal where
  whole : List Char
  places : List Char
  exponent : Int
  deriving DecidableEq, Repr

def Literal.value (negative : Bool) (l : Literal) : Float :=
  nearestDecimal negative (Text.digitsValue 0 (l.whole ++ l.places))
    (l.exponent - l.places.length)

def spanDigits (cs : List Char) : List Char × List Char :=
  (cs.takeWhile Text.isDigit, cs.dropWhile Text.isDigit)

def readPlaces : List Char → List Char × List Char
  | '.' :: cs => spanDigits cs
  | cs => ([], cs)

def readExponent : List Char → Option Int
  | '-' :: cs => (Text.readNat cs).map fun n => -(n : Int)
  | '+' :: cs => (Text.readNat cs).map fun n => (n : Int)
  | cs => (Text.readNat cs).map fun n => (n : Int)

def readLiteral (cs : List Char) : Option Literal :=
  let (whole, rest) := spanDigits cs
  let (places, rest) := readPlaces rest
  if whole = [] ∧ places = [] then none
  else match rest with
    | [] => some ⟨whole, places, 0⟩
    | c :: cs =>
      if c = 'e' ∨ c = 'E' then (readExponent cs).map fun e => ⟨whole, places, e⟩ else none

def undefinedNumber : Float :=
  Float.ofBits 0x7ff8000000000000

def readMagnitude (negative : Bool) (cs : List Char) : Option Float :=
  let word := cs.map Char.toLower
  if word = "inf".toList ∨ word = "infinity".toList then some (infinite negative)
  else if word = "nan".toList then some undefinedNumber
  else (readLiteral cs).map (·.value negative)

def readSigned : List Char → Option Float
  | '-' :: cs => readMagnitude true cs
  | '+' :: cs => readMagnitude false cs
  | cs => readMagnitude false cs

def readFloat (text : String) : Option Float :=
  readSigned (Text.trimBlank text.toList)

end Telemetry.Decimal
