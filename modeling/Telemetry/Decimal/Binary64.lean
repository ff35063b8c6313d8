import Telemetry.Decimal.Power

/-!
# Binary floating point in exact arithmetic

A finite double is a natural mantissa times a power of two. A nonnegative
fraction is rounded to the nearest double, a half going to the even mantissa,
so that subnormal and normal results come out of one formula.
-/

set_option autoImplicit false

namespace Telemetry.Decimal

def roundDiv (num den : Nat) : Nat :=
  let quotient := num / den
  let twice := 2 * (num % den)
  if twice < den then quotient
  else if den < twice then quotient + 1
  else if quotient % 2 = 0 then quotient else quotient + 1

structure Binary where
  mantissa : Nat
  exponent : Int
  deriving DecidableEq, Repr

def signBit : Nat := 0x8000000000000000

def hiddenBit : Nat := 0x10000000000000

def infinityBits : Nat := 0x7ff0000000000000

def Binary.ofBits (bits : UInt64) : Binary :=
  let magnitude : Nat := bits.toNat % signBit
  let field : Nat := magnitude / hiddenBit
  let fraction : Nat := magnitude % hiddenBit
  if field = 0 then ⟨fraction, -1074⟩ else ⟨fraction + hiddenBit, (field : Int) - 1075⟩

structure Fraction where
  num : Nat
  den : Nat
  deriving DecidableEq, Repr

namespace Fraction

def add (x y : Fraction) : Fraction :=
  ⟨x.num * y.den + y.num * x.den, x.den * y.den⟩

def mul (x y : Fraction) : Fraction :=
  ⟨x.num * y.num, x.den * y.den⟩

def inUnits (x : Fraction) (n : Nat) : Nat :=
  roundDiv (x.num * n) x.den

end Fraction

def Binary.fraction (b : Binary) : Fraction :=
  ⟨b.mantissa * twoPow b.exponent.toNat, twoPow (-b.exponent).toNat⟩

def encodeWith (num den : Nat) (unit : Int) : Nat :=
  (unit + 1074).toNat * hiddenBit
    + roundDiv (num * twoPow (-unit).toNat) (den * twoPow unit.toNat)

/-- Exponent of the last place of a double near `num / den`. -/
def lastPlace (num den : Nat) : Int :=
  let guess := (num.log2 : Int) - (den.log2 : Int) - 52
  let small := num * twoPow (-guess).toNat < hiddenBit * (den * twoPow guess.toNat)
  max (if small then guess - 1 else guess) (-1074)

def Fraction.rounded (x : Fraction) : Fraction :=
  if x.num = 0 then ⟨0, 1⟩
  else
    let unit := lastPlace x.num x.den
    let mantissa := roundDiv (x.num * twoPow (-unit).toNat) (x.den * twoPow unit.toNat)
    Binary.fraction ⟨mantissa, unit⟩

def nearestBits (num den : Nat) : Nat :=
  if num = 0 then 0
  else min infinityBits (encodeWith num den (lastPlace num den))

def signedBits (negative : Bool) (magnitude : Nat) : Float :=
  Float.ofBits (UInt64.ofNat ((if negative then signBit else 0) + magnitude))

def nearest (negative : Bool) (num den : Nat) : Float :=
  signedBits negative (nearestBits num den)

def infinite (negative : Bool) : Float :=
  signedBits negative infinityBits

def ofNat (n : Nat) : Float :=
  nearest false n 1

def ofInt (n : Int) : Float :=
  nearest (decide (n < 0)) n.natAbs 1

/-- The double nearest to plus or minus `digits * 10 ^ exponent`. Far outside
the range the answer is known without writing the power out. -/
def nearestDecimal (negative : Bool) (digits : Nat) (exponent : Int) : Float :=
  let size : Int := digits.log2 / 3 + 1
  if digits = 0 ∨ exponent + size < -400 then nearest negative 0 1
  else if 400 < exponent then infinite negative
  else nearest negative (digits * tenPow exponent.toNat) (tenPow (-exponent).toNat)

end Telemetry.Decimal
