import Telemetry.Decimal.Shortest
import Telemetry.Text.Digits

/-!
# Writing doubles

Two forms of the shortest decimal. The plain form always writes every place.
The document form keeps a fractional part, and leaves positional notation
below 10 ^ -5 and from 10 ^ 16 on, where it writes a signed exponent.
-/

set_option autoImplicit false

namespace Telemetry.Decimal

def isNegative (x : Float) : Bool :=
  signBit ≤ x.toBits.toNat

def shortestOf (x : Float) : Numeral :=
  shortest (Binary.ofBits x.toBits)

def withPoint (digits : List Char) (places : Nat) : List Char :=
  let wide := List.replicate (places + 1 - digits.length) '0' ++ digits
  wide.take (wide.length - places) ++ '.' :: wide.drop (wide.length - places)

def Numeral.plain (d : Numeral) : List Char :=
  if 0 ≤ d.exponent then
    if d.digits = 0 then ['0']
    else Text.natDigits d.digits ++ List.replicate d.exponent.toNat '0'
  else withPoint (Text.natDigits d.digits) (-d.exponent).toNat

def Numeral.positional (d : Numeral) : List Char :=
  if 0 ≤ d.exponent then d.plain ++ ['.', '0'] else d.plain

def Numeral.scientific (d : Numeral) : List Char :=
  let digits := Text.natDigits d.digits
  let power := d.exponent + (digits.length : Int) - 1
  let mantissa := match digits with
    | [] => []
    | [c] => [c]
    | c :: rest => c :: '.' :: rest
  mantissa ++ 'e' :: (if power < 0 then '-' else '+') :: Text.natDigits power.natAbs

def Numeral.document (d : Numeral) : List Char :=
  let power := d.exponent + ((Text.natDigits d.digits).length : Int) - 1
  if d.digits = 0 ∨ (-5 ≤ power ∧ power ≤ 15) then d.positional else d.scientific

def signed (x : Float) (magnitude : List Char) : String :=
  String.ofList (if isNegative x then '-' :: magnitude else magnitude)

def documentText (x : Float) : String :=
  signed x (shortestOf x).document

end Telemetry.Decimal
