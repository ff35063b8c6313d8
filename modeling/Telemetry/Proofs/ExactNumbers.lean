import Telemetry.Proofs.ShortestReading
import Telemetry.Proofs.WrittenNumbers

/-!
# Numbers read exactly

A number without places and exponent has a whole value, and any other number
the double nearest to it. Read so, every integer and every finite double comes
back from its text in a document.
-/

set_option autoImplicit false

namespace Telemetry.ExactNumbers

open Json (Number)
open Decimal (Numeral Literal isNegative)
open ShortestReading
open WrittenNumbers

def exactValue (n : Number) : Json :=
  if n.isInteger then
    let whole : ℤ := Text.digitsValue 0 n.whole
    .int (if n.negative then -whole else whole)
  else .float (Literal.value n.negative ⟨n.whole, n.places.getD [], n.power⟩)

theorem exactValue_ofInt (n : ℤ) : exactValue (ofInt n) = .int n := by
  unfold exactValue
  rw [if_pos (ofInt_isInteger n), ofInt_whole, ofInt_negative]
  by_cases h : n < 0
  · have hback : -(n.natAbs : ℤ) = n := by omega
    simp only [h, decide_true, if_true, hback]
  · have hback : (n.natAbs : ℤ) = n := by omega
    simp only [h, decide_false, Bool.false_eq_true, if_false, hback]

theorem digitsValue_append (start : ℕ) (ds es : List Char) :
    Text.digitsValue start (ds ++ es) = Text.digitsValue (Text.digitsValue start ds) es :=
  List.foldl_append

theorem digitsValue_zeros (start n : ℕ) :
    Text.digitsValue start (List.replicate n '0') = start * 10 ^ n := by
  induction n generalizing start with
  | zero => simp [Text.digitsValue]
  | succ n ih =>
    have hstep : Text.digitsValue start (List.replicate (n + 1) '0') =
        Text.digitsValue (10 * start) (List.replicate n '0') := rfl
    rw [hstep, ih, pow_succ]
    ring

def decimal (n : Number) : ℚ :=
  Text.digitsValue 0 (n.whole ++ n.places.getD []) *
    10 ^ (n.power - ((n.places.getD []).length : ℤ))

theorem plain_value {d : Numeral} (h : 0 ≤ d.exponent) :
    Text.digitsValue 0 (d.plain ++ ['0']) = d.digits * 10 ^ (d.exponent.toNat + 1) := by
  have hlast : ['0'] = List.replicate 1 '0' := rfl
  unfold Numeral.plain
  rw [if_pos h]
  split
  · rename_i hzero
    rw [hzero, zero_mul]
    rfl
  · rw [hlast, List.append_assoc, List.replicate_append_replicate, digitsValue_append,
      digitsValue_zeros, Text.digitsValue_natDigits]

theorem wide_value (n places : ℕ) : Text.digitsValue 0 (wide (Text.natDigits n) places) = n := by
  rw [wide, digitsValue_append, digitsValue_zeros, zero_mul, Text.digitsValue_natDigits]

theorem decimal_positional (negative : Bool) (d : Numeral) :
    decimal (positional negative d) = d.digits * 10 ^ d.exponent := by
  unfold decimal positional
  split
  · rename_i h
    obtain ⟨n, hn⟩ := Int.eq_ofNat_of_zero_le h
    show ((Text.digitsValue 0 (d.plain ++ ['0']) : ℕ) : ℚ) * 10 ^ ((0 : ℤ) - (1 : ℕ)) = _
    rw [plain_value h, hn, Int.toNat_natCast]
    push_cast
    rw [zpow_neg, zpow_one, zpow_natCast, pow_succ]
    field_simp
  · rename_i h
    obtain ⟨n, hn⟩ := Int.eq_ofNat_of_zero_le (Int.neg_nonneg_of_nonpos (not_le.mp h).le)
    have hlength := wide_length (Text.natDigits d.digits) (-d.exponent).toNat
    have hplaces : (List.drop ((wide (Text.natDigits d.digits) (-d.exponent).toNat).length -
        (-d.exponent).toNat) (wide (Text.natDigits d.digits) (-d.exponent).toNat)).length =
        (-d.exponent).toNat := by
      rw [List.length_drop, hlength]
      omega
    dsimp only [Option.getD_some]
    rw [List.take_append_drop, wide_value, hplaces]
    show (d.digits : ℚ) * 10 ^ ((0 : ℤ) - ((-d.exponent).toNat : ℤ)) = _
    congr 2
    omega

theorem power_scientific (negative : Bool) (d : Numeral) :
    (scientific negative d).power = power d := by
  have hvalue := Text.digitsValue_natDigits (power d).natAbs
  show (if decide (power d < 0) = true
    then -(Text.digitsValue 0 (Text.natDigits (power d).natAbs) : ℤ)
    else (Text.digitsValue 0 (Text.natDigits (power d).natAbs) : ℤ)) = power d
  rw [hvalue]
  by_cases h : power d < 0
  · rw [if_pos (by simpa using h)]
    omega
  · rw [if_neg (by simpa using h)]
    omega

theorem decimal_scientific (negative : Bool) (d : Numeral) :
    decimal (scientific negative d) = d.digits * 10 ^ d.exponent := by
  have hvalue := Text.digitsValue_natDigits d.digits
  have hplaces : (scientific negative d).places.getD [] = (Text.natDigits d.digits).tail := by
    show (if (Text.natDigits d.digits).tail = [] then none
      else some (Text.natDigits d.digits).tail).getD [] = _
    split
    · rename_i hnil
      rw [hnil]
      rfl
    · rfl
  have hwhole : (scientific negative d).whole = (Text.natDigits d.digits).take 1 := rfl
  unfold decimal
  rw [hplaces, hwhole, power_scientific, power]
  cases hds : Text.natDigits d.digits with
  | nil => exact absurd hds (natDigits_run _).nonempty
  | cons c tail =>
    rw [hds] at hvalue
    show (Text.digitsValue 0 (c :: tail) : ℚ) *
      10 ^ (d.exponent + ((c :: tail).length : ℤ) - 1 - (tail.length : ℤ)) = _
    rw [hvalue, List.length_cons]
    congr 2
    push_cast
    omega

theorem decimal_ofNumeral (negative : Bool) (d : Numeral) :
    decimal (ofNumeral negative d) = d.digits * 10 ^ d.exponent := by
  unfold ofNumeral
  split
  · exact decimal_positional negative d
  · exact decimal_scientific negative d

theorem exactValue_ofFloat {x : Float} (h : x.isFinite = true) : exactValue (ofFloat x) = .float x := by
  have hnegative : (ofFloat x).negative = isNegative x := ofNumeral_negative _ _
  unfold exactValue
  rw [ofFloat_fractional, if_neg Bool.false_ne_true, Literal.value, hnegative]
  exact congrArg Json.float (nearestDecimal_shortest h (decimal_ofNumeral _ _))

end Telemetry.ExactNumbers
