import Telemetry.Decimal.Binary64

/-!
# Shortest decimal of a double

The decimals that read back as a given double fill an interval around it. A
grid holds the multiples of one power of ten. The grids are tried from the
coarsest to the finest, and the first one with a point in the interval gives
the digits: of its two points next to the value the nearer one, an exact tie
going to the even one.
-/

set_option autoImplicit false

namespace Telemetry.Decimal

structure Numeral where
  digits : Nat
  exponent : Int
  deriving DecidableEq, Repr

/-- The reals that round to a double: the value and the ends are in units of
2 ^ `unit`, and the ends belong to it when the mantissa is even. -/
structure Interval where
  low : Nat
  value : Nat
  high : Nat
  unit : Int
  closed : Bool
  deriving DecidableEq, Repr

def Interval.around (b : Binary) : Interval :=
  let below := if b.mantissa = hiddenBit ∧ b.exponent ≠ -1074 then 1 else 2
  ⟨4 * b.mantissa - below, 4 * b.mantissa, 4 * b.mantissa + 2, b.exponent - 2, b.mantissa % 2 = 0⟩

def Interval.binaryScale (i : Interval) (exponent : Int) (x : Nat) : Nat :=
  x * twoPow i.unit.toNat * tenPow (-exponent).toNat

def Interval.decimalScale (i : Interval) (exponent : Int) (d : Nat) : Nat :=
  d * tenPow exponent.toNat * twoPow (-i.unit).toNat

def Interval.holds (i : Interval) (exponent : Int) (d : Nat) : Bool :=
  let x := i.decimalScale exponent d
  let low := i.binaryScale exponent i.low
  let high := i.binaryScale exponent i.high
  if i.closed then low ≤ x && x ≤ high else low < x && x < high

def Interval.onGrid (i : Interval) (exponent : Int) : Option Nat :=
  let value := i.binaryScale exponent i.value
  let step := i.decimalScale exponent 1
  let below := value / step
  match i.holds exponent below && below != 0, i.holds exponent (below + 1) with
  | true, true =>
    let twice := 2 * (value % step)
    if twice < step || (twice == step && below % 2 == 0) then some below else some (below + 1)
  | true, false => some below
  | false, true => some (below + 1)
  | false, false => none

/-- The first grid with a point, going down from `exponent`. -/
def Interval.search (i : Interval) : Nat → Int → Numeral
  | 0, exponent => ⟨i.binaryScale exponent i.value / i.decimalScale exponent 1, exponent⟩
  | fuel + 1, exponent =>
    match i.onGrid exponent with
    | some d => ⟨d, exponent⟩
    | none => i.search fuel (exponent - 1)

def gridAbove (b : Binary) : Int :=
  ((b.mantissa.log2 : Int) + b.exponent + 1) * 30103 / 100000 + 2

def shortest (b : Binary) : Numeral :=
  if b.mantissa = 0 then ⟨0, 0⟩
  else (Interval.around b).search 30 (gridAbove b)

end Telemetry.Decimal
