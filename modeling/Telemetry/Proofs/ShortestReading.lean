import Telemetry.Proofs.NearestDouble
import Telemetry.Proofs.DoubleSigns
import Telemetry.Decimal.Notation

/-!
# Shortest decimals read back

The search for the shortest decimal of a double ends on a grid with a point in
the double's interval: thirty grids down the points lie closer together than
half a unit of the last place. A decimal in the interval is read as the double,
so a finite double is the one nearest to its shortest decimal, its sign
included.
-/

set_option autoImplicit false

namespace Telemetry.ShortestReading

open Decimal
open NearestDouble
open Float.Model (Format)
open Float.Model.UnpackedFloat (unpack pack pack_unpack unpackExponent)
open WaitGrowth (twoPow_pos twoPow_div)

theorem tenPow_pos (n : ℕ) : 0 < tenPow n := Nat.pow_pos (by decide)

/-- A power of ten with a whole exponent, as the quotient in which it is
written. -/
theorem tenPow_div (k : ℤ) : (tenPow k.toNat : ℚ) / tenPow (-k).toNat = (10 : ℚ) ^ k := by
  have hpow : ∀ n, (tenPow n : ℚ) = 10 ^ n := fun n => by simp [tenPow]
  rcases Int.le_total 0 k with hk | hk
  · obtain ⟨n, rfl⟩ := Int.eq_ofNat_of_zero_le hk
    simp [hpow]
  · obtain ⟨n, hn⟩ := Int.eq_ofNat_of_zero_le (Int.neg_nonneg_of_nonpos hk)
    obtain rfl : k = -n := by omega
    simp [hpow]

def scale (i : Interval) (k : ℤ) : ℚ :=
  tenPow (-k).toNat * twoPow (-i.unit).toNat

theorem scale_pos (i : Interval) (k : ℤ) : 0 < scale i k := by
  have hten : (0 : ℚ) < tenPow (-k).toNat := by exact_mod_cast tenPow_pos _
  have htwo : (0 : ℚ) < twoPow (-i.unit).toNat := by exact_mod_cast twoPow_pos _
  exact mul_pos hten htwo

theorem decimalScale_eq (i : Interval) (k : ℤ) (d : ℕ) :
    (i.decimalScale k d : ℚ) = d * 10 ^ k * scale i k := by
  have hten : (tenPow (-k).toNat : ℚ) ≠ 0 := by exact_mod_cast (tenPow_pos _).ne'
  unfold Interval.decimalScale scale
  rw [← tenPow_div]
  push_cast
  field_simp

theorem binaryScale_eq (i : Interval) (k : ℤ) (x : ℕ) :
    (i.binaryScale k x : ℚ) = x * 2 ^ i.unit * scale i k := by
  have htwo : (twoPow (-i.unit).toNat : ℚ) ≠ 0 := by exact_mod_cast (twoPow_pos _).ne'
  unfold Interval.binaryScale scale
  rw [← twoPow_div]
  push_cast
  field_simp

theorem scaled_le {i : Interval} {k : ℤ} {x d : ℕ} :
    i.binaryScale k x ≤ i.decimalScale k d ↔ (x * 2 ^ i.unit : ℚ) ≤ d * 10 ^ k := by
  rw [← mul_le_mul_iff_left₀ (scale_pos i k), ← binaryScale_eq, ← decimalScale_eq]
  exact_mod_cast Iff.rfl

theorem le_scaled {i : Interval} {k : ℤ} {x d : ℕ} :
    i.decimalScale k d ≤ i.binaryScale k x ↔ (d * 10 ^ k : ℚ) ≤ x * 2 ^ i.unit := by
  rw [← mul_le_mul_iff_left₀ (scale_pos i k), ← binaryScale_eq, ← decimalScale_eq]
  exact_mod_cast Iff.rfl

theorem holds_iff {i : Interval} {k : ℤ} {d : ℕ} :
    i.holds k d = true ↔ Within i (d * 10 ^ k) := by
  unfold Interval.holds Within
  dsimp only
  cases i.closed with
  | true =>
    simp only [if_true, Bool.and_eq_true, decide_eq_true_eq]
    rw [scaled_le, le_scaled]
  | false =>
    simp only [Bool.false_eq_true, if_false, Bool.and_eq_true, decide_eq_true_eq]
    rw [← not_le, ← not_le, ← not_le, ← not_le, scaled_le, le_scaled]

theorem within_of_onGrid {i : Interval} {k : ℤ} {d : ℕ} (h : i.onGrid k = some d) :
    Within i (d * 10 ^ k) ∧ d ≠ 0 := by
  unfold Interval.onGrid at h
  dsimp only at h
  generalize hbelow : i.binaryScale k i.value / i.decimalScale k 1 = below at h
  have hdown : (i.holds k below && below != 0) = true → Within i (below * 10 ^ k) ∧ below ≠ 0 := by
    intro hheld
    rw [Bool.and_eq_true, bne_iff_ne] at hheld
    exact ⟨holds_iff.mp hheld.1, hheld.2⟩
  have hup : i.holds k (below + 1) = true →
      Within i ((below + 1 : ℕ) * 10 ^ k) ∧ below + 1 ≠ 0 :=
    fun hheld => ⟨holds_iff.mp hheld, by omega⟩
  split at h
  · rename_i hfirst hsecond
    split at h
    · cases h
      exact hdown hfirst
    · cases h
      exact hup hsecond
  · rename_i hfirst _
    cases h
    exact hdown hfirst
  · rename_i _ hsecond
    cases h
    exact hup hsecond
  · cases h

theorem decimalScale_mul (i : Interval) (k : ℤ) (d : ℕ) :
    i.decimalScale k d = d * i.decimalScale k 1 := by
  simp only [Interval.decimalScale, one_mul, mul_assoc]

theorem below_bounds (i : Interval) (k : ℤ) :
    ((i.binaryScale k i.value / i.decimalScale k 1 : ℕ) * 10 ^ k : ℚ) ≤ i.value * 2 ^ i.unit ∧
      (i.value * 2 ^ i.unit : ℚ) <
        (i.binaryScale k i.value / i.decimalScale k 1 + 1 : ℕ) * 10 ^ k := by
  have hstep : 0 < i.decimalScale k 1 :=
    Nat.mul_pos (Nat.mul_pos Nat.one_pos (tenPow_pos _)) (twoPow_pos _)
  constructor
  · rw [← le_scaled, decimalScale_mul]
    exact Nat.div_mul_le_self _ _
  · rw [← not_le, ← le_scaled, decimalScale_mul, not_le]
    exact Nat.lt_mul_of_div_lt (Nat.lt_succ_self _) hstep

/-- On a grid finer than the upper half of the interval the next point above
the value is in the interval. -/
theorem onGrid_fine {i : Interval} {k : ℤ} (hlow : i.low < i.value)
    (hfine : (10 : ℚ) ^ k < (i.high - i.value) * 2 ^ i.unit) : ∃ d, i.onGrid k = some d := by
  have hnext : i.holds k (i.binaryScale k i.value / i.decimalScale k 1 + 1) = true := by
    obtain ⟨hbelow, habove⟩ := below_bounds i k
    have hunit : (0 : ℚ) < 2 ^ i.unit := by positivity
    have hvalue : (i.low : ℚ) * 2 ^ i.unit < i.value * 2 ^ i.unit := by
      have hlow' : (i.low : ℚ) < i.value := by exact_mod_cast hlow
      gcongr
    rw [holds_iff]
    generalize i.binaryScale k i.value / i.decimalScale k 1 = below at *
    have hhigh : ((below + 1 : ℕ) * 10 ^ k : ℚ) < i.high * 2 ^ i.unit := by
      push_cast
      linarith
    have hlow' : (i.low * 2 ^ i.unit : ℚ) < (below + 1 : ℕ) * 10 ^ k := hvalue.trans habove
    unfold Within
    split
    · exact ⟨hlow'.le, hhigh.le⟩
    · exact ⟨hlow', hhigh⟩
  unfold Interval.onGrid
  dsimp only
  rw [hnext]
  split
  · split <;> exact ⟨_, rfl⟩
  · rename_i hno
    cases hno
  · exact ⟨_, rfl⟩
  · rename_i hno
    cases hno

theorem search_within {i : Interval} (hlow : i.low < i.value) (fuel steps : ℕ) (k : ℤ)
    (hsteps : steps < fuel)
    (hfine : (10 : ℚ) ^ (k - steps) < (i.high - i.value) * 2 ^ i.unit) :
    Within i ((i.search fuel k).digits * 10 ^ (i.search fuel k).exponent) ∧
      (i.search fuel k).digits ≠ 0 := by
  induction fuel generalizing k steps with
  | zero => omega
  | succ fuel ih =>
    rw [Interval.search]
    cases hgrid : i.onGrid k with
    | some d => exact within_of_onGrid hgrid
    | none =>
      dsimp only
      cases steps with
      | zero =>
        obtain ⟨d, hd⟩ := onGrid_fine (k := k) hlow (by simpa using hfine)
        rw [hgrid] at hd
        cases hd
      | succ steps =>
        apply ih steps (k - 1) (by omega)
        have heq : k - 1 - (steps : ℤ) = k - (steps + 1 : ℕ) := by
          push_cast
          ring
        rw [heq]
        exact hfine

theorem tenPow_lt_up {n : ℕ} {j : ℤ} (h : 10 * (n / 3 : ℕ) + 10 ≤ j) :
    (10 : ℚ) ^ (n : ℤ) < 2 ^ j := by
  have hnat : 10 ^ n < 2 ^ (10 * (n / 3) + 10) := by
    calc 10 ^ n < 10 ^ (3 * (n / 3 + 1)) := Nat.pow_lt_pow_right (by decide) (by omega)
      _ = (10 ^ 3) ^ (n / 3 + 1) := pow_mul 10 3 _
      _ ≤ (2 ^ 10) ^ (n / 3 + 1) := Nat.pow_le_pow_left (by decide) _
      _ = 2 ^ (10 * (n / 3) + 10) := (pow_mul 2 10 _).symm
  have hrat : (10 : ℚ) ^ (n : ℤ) < 2 ^ ((10 * (n / 3) + 10 : ℕ) : ℤ) := by exact_mod_cast hnat
  exact hrat.trans_le (zpow_le_zpow_right₀ (by norm_num) (by omega))

theorem tenPow_lt_down {n : ℕ} {j : ℤ} (h : -(13 * (n / 4 : ℕ) : ℤ) < j) :
    (10 : ℚ) ^ (-n : ℤ) < 2 ^ j := by
  have hnat : 2 ^ (13 * (n / 4)) ≤ 10 ^ n := by
    calc 2 ^ (13 * (n / 4)) = (2 ^ 13) ^ (n / 4) := pow_mul 2 13 _
      _ ≤ (10 ^ 4) ^ (n / 4) := Nat.pow_le_pow_left (by decide) _
      _ = 10 ^ (4 * (n / 4)) := (pow_mul 10 4 _).symm
      _ ≤ 10 ^ n := Nat.pow_le_pow_right (by decide) (by omega)
  have hrat : (2 : ℚ) ^ ((13 * (n / 4) : ℕ) : ℤ) ≤ 10 ^ (n : ℤ) := by exact_mod_cast hnat
  have hinv : (10 : ℚ) ^ (-n : ℤ) ≤ 2 ^ (-((13 * (n / 4) : ℕ) : ℤ)) := by
    rw [zpow_neg, zpow_neg]
    exact inv_anti₀ (by positivity) hrat
  exact hinv.trans_lt (zpow_lt_zpow_right₀ (by norm_num) (by push_cast; omega))

theorem finest_grid {b : Binary} (hb : Held b) :
    (10 : ℚ) ^ (gridAbove b - (29 : ℕ)) < 2 ^ (b.exponent - 1) := by
  have hlog : b.mantissa.log2 ≤ 52 := by
    have hlt := (Nat.log2_lt hb.positive.ne').mpr hb.short
    omega
  have hlow := hb.low
  have hhigh := hb.high
  unfold gridAbove
  generalize b.mantissa.log2 = l at *
  generalize b.exponent = e at *
  obtain ⟨n, hn⟩ | ⟨n, hn⟩ : (∃ n : ℕ, ((l : ℤ) + e + 1) * 30103 / 100000 + 2 - (29 : ℕ) = n) ∨
      ∃ n : ℕ, ((l : ℤ) + e + 1) * 30103 / 100000 + 2 - (29 : ℕ) = -n := by
    rcases Int.le_total 0 (((l : ℤ) + e + 1) * 30103 / 100000 + 2 - (29 : ℕ)) with h | h
    · exact .inl (Int.eq_ofNat_of_zero_le h)
    · obtain ⟨n, hn⟩ := Int.eq_ofNat_of_zero_le (Int.neg_nonneg_of_nonpos h)
      exact .inr ⟨n, by omega⟩
  · rw [hn]
    apply tenPow_lt_up
    omega
  · rw [hn]
    apply tenPow_lt_down
    omega

theorem shortest_within {b : Binary} (hb : Held b) :
    Within (Interval.around b) ((shortest b).digits * 10 ^ (shortest b).exponent) ∧
      (shortest b).digits ≠ 0 := by
  have hpos := hb.positive
  have hlow : (Interval.around b).low < (Interval.around b).value := by
    unfold Interval.around
    dsimp only
    split <;> omega
  have hhalf : (((Interval.around b).high : ℚ) - (Interval.around b).value) *
      2 ^ (Interval.around b).unit = 2 ^ (b.exponent - 1) := by
    have hunit : (2 : ℚ) ^ (b.exponent - 1) = 2 * 2 ^ (b.exponent - 2) := by
      rw [show b.exponent - 1 = b.exponent - 2 + 1 by ring, zpow_add_one₀ (by norm_num), mul_comm]
    rw [hunit]
    unfold Interval.around
    push_cast
    ring
  unfold shortest
  rw [if_neg hpos.ne']
  apply search_within hlow 30 29 _ (by decide)
  rw [hhalf]
  exact finest_grid hb

theorem within_bounds {b : Binary} (hb : Held b) {x : ℚ} (hx : Within (Interval.around b) x) :
    (2 : ℚ) ^ (-1075 : ℤ) ≤ x ∧ x < 2 ^ (1024 : ℤ) := by
  have hnear := near_of_within hb.positive hx
  have hu : (0 : ℚ) < 2 ^ b.exponent := by positivity
  have hone : (1 : ℚ) ≤ b.mantissa := by exact_mod_cast hb.positive
  have htop : (b.mantissa : ℚ) + 1 ≤ 2 ^ (53 : ℤ) := by exact_mod_cast hb.short
  have hlow : 1 / 2 ≤ x / 2 ^ b.exponent := by linarith [hnear.low, (reach_bounds b).2]
  have hhigh : x / 2 ^ b.exponent < 2 ^ (53 : ℤ) := by linarith [hnear.high]
  rw [le_div_iff₀ hu] at hlow
  rw [div_lt_iff₀ hu, ← zpow_add₀ (by norm_num)] at hhigh
  constructor
  · calc (2 : ℚ) ^ (-1075 : ℤ) ≤ 2 ^ (b.exponent - 1) :=
          zpow_le_zpow_right₀ (by norm_num) (by linarith [hb.low])
      _ = 1 / 2 * 2 ^ b.exponent := by
        rw [zpow_sub_one₀ (by norm_num)]
        ring
      _ ≤ x := hlow
  · exact hhigh.trans_le (zpow_le_zpow_right₀ (by norm_num) (by linarith [hb.high]))

theorem digits_lt (d : ℕ) : (d : ℚ) < 10 ^ ((d.log2 / 3 + 1 : ℕ) : ℤ) := by
  have hnat : d < 10 ^ (d.log2 / 3 + 1) := by
    calc d < 2 ^ (d.log2 + 1) := Nat.lt_log2_self
      _ ≤ 2 ^ (3 * (d.log2 / 3 + 1)) := Nat.pow_le_pow_right (by decide) (by omega)
      _ = (2 ^ 3) ^ (d.log2 / 3 + 1) := pow_mul 2 3 _
      _ ≤ 10 ^ (d.log2 / 3 + 1) := Nat.pow_le_pow_left (by decide) _
  exact_mod_cast hnat

/-- A decimal in the interval around a double is not so far outside the range
that its exponent alone decides. -/
theorem exponent_bounds {b : Binary} (hb : Held b) {d : ℕ} {k : ℤ} (hd : d ≠ 0)
    (hx : Within (Interval.around b) (d * 10 ^ k)) :
    -400 ≤ k + ((d.log2 / 3 + 1 : ℕ) : ℤ) ∧ k ≤ 400 := by
  obtain ⟨hlow, hhigh⟩ := within_bounds hb hx
  have hten : (0 : ℚ) < 10 ^ k := by positivity
  constructor
  · by_contra hlt
    have hsmall : (d : ℚ) * 10 ^ k < 10 ^ (-(400 : ℕ) : ℤ) := by
      calc (d : ℚ) * 10 ^ k < 10 ^ ((d.log2 / 3 + 1 : ℕ) : ℤ) * 10 ^ k := by
            have hdigits := digits_lt d
            gcongr
        _ = 10 ^ (((d.log2 / 3 + 1 : ℕ) : ℤ) + k) := by rw [zpow_add₀ (by norm_num)]
        _ ≤ 10 ^ (-(400 : ℕ) : ℤ) := zpow_le_zpow_right₀ (by norm_num) (by push_cast at hlt ⊢; omega)
    have hless := tenPow_lt_down (n := 400) (j := -1075) (by decide)
    exact lt_irrefl _ (hlow.trans_lt (hsmall.trans hless))
  · by_contra hlt
    obtain ⟨n, rfl⟩ := Int.eq_ofNat_of_zero_le (show 0 ≤ k by omega)
    have hless := tenPow_lt_down (n := n) (j := -1024) (by omega)
    have hone : (1 : ℚ) ≤ d := by exact_mod_cast Nat.pos_of_ne_zero hd
    have hlarge : (2 : ℚ) ^ (1024 : ℤ) < 10 ^ (n : ℤ) := by
      rw [zpow_neg, zpow_neg] at hless
      exact (inv_lt_inv₀ (by positivity) (by positivity)).mp hless
    have hmany : (10 : ℚ) ^ (n : ℤ) ≤ d * 10 ^ (n : ℤ) := le_mul_of_one_le_left hten.le hone
    exact lt_irrefl _ (hlarge.trans (hmany.trans_lt hhigh))

theorem nearestDecimal_within {b : Binary} (hb : Held b) (negative : Bool) {d : ℕ} {k : ℤ}
    (hd : d ≠ 0) (hx : Within (Interval.around b) (d * 10 ^ k)) :
    nearestDecimal negative d k = signedBits negative (code b) := by
  obtain ⟨hlow, hhigh⟩ := exponent_bounds hb hd hx
  have hnum : d * tenPow k.toNat ≠ 0 := Nat.mul_ne_zero hd (tenPow_pos _).ne'
  have hvalue : ((d * tenPow k.toNat : ℕ) : ℚ) / (tenPow (-k).toNat : ℕ) = d * 10 ^ k := by
    rw [← tenPow_div]
    push_cast
    ring
  have hbits : nearestBits (d * tenPow k.toNat) (tenPow (-k).toNat) = code b := by
    apply nearestBits_within hb hnum (tenPow_pos _).ne'
    rw [hvalue]
    exact hx
  unfold nearestDecimal
  dsimp only
  rw [if_neg (by push_cast at hlow; omega), if_neg (by omega), nearest, hbits]

theorem ofBits_toBits (x : Float) : Float.ofBits x.toBits = x := by
  obtain ⟨⟨bits, hvalid⟩⟩ := x
  have hpack : pack Format.binary64 (unpack Format.binary64 bits.toBitVec) = bits.toBitVec := by
    rw [pack_unpack]
    split
    · rename_i hnan
      obtain ⟨hfield, hfraction⟩ := of_decide_eq_true hnan
      exact (hvalid.eq_packedNaN hfield hfraction).symm
    · rfl
  have hbits : UInt64.ofBitVec (pack Format.binary64 (unpack Format.binary64 bits.toBitVec)) = bits := by
    rw [hpack]
  show Float.ofModel ⟨UInt64.ofBitVec (pack Format.binary64 (unpack Format.binary64 bits.toBitVec)), _⟩ = _
  congr 2

theorem magnitude_lt {x : Float} (h : x.isFinite = true) :
    x.toBits.toNat % signBit < infinityBits := by
  by_contra hge
  have hfield := DoubleSigns.exponent_bits x.toBits.toBitVec
  have hall : @unpackExponent Format.binary64 x.toBits.toBitVec = -1#11 := by
    apply BitVec.eq_of_toNat_eq
    have hbits : x.toBits.toBitVec.toNat = x.toBits.toNat := rfl
    rw [hfield, hbits]
    have hlt := x.toBits.toNat_lt
    unfold signBit infinityBits at hge
    show x.toBits.toNat / 2 ^ 52 % 2 ^ 11 = 2047
    omega
  have hunpack : (unpack Format.binary64 x.toBits.toBitVec).isFinite = false := by
    unfold unpack
    dsimp only
    rw [if_pos hall]
    split <;> rfl
  exact Bool.false_ne_true (hunpack.symm.trans h)

theorem ofBits_held {bits : UInt64} (hzero : (Binary.ofBits bits).mantissa ≠ 0)
    (hfinite : bits.toNat % signBit < infinityBits) : Held (Binary.ofBits bits) := by
  unfold Binary.ofBits at hzero ⊢
  unfold infinityBits at hfinite
  unfold hiddenBit at *
  dsimp only at *
  split at hzero
  · rename_i hfield
    rw [if_pos hfield]
    constructor <;> dsimp only at * <;> omega
  · rename_i hfield
    rw [if_neg hfield]
    constructor <;> dsimp only at * <;> omega

theorem ofBits_code {bits : UInt64} : code (Binary.ofBits bits) = bits.toNat % signBit := by
  unfold code Binary.ofBits hiddenBit
  dsimp only
  split
  · dsimp only
    omega
  · dsimp only
    omega

theorem signedBits_self (x : Float) :
    signedBits (isNegative x) (x.toBits.toNat % signBit) = x := by
  have hlt := x.toBits.toNat_lt
  have hbits : (if isNegative x then signBit else 0) + x.toBits.toNat % signBit = x.toBits.toNat := by
    unfold isNegative signBit
    by_cases h : 0x8000000000000000 ≤ x.toBits.toNat
    · simp only [h, decide_true, if_true]
      omega
    · simp only [h, decide_false, Bool.false_eq_true, if_false]
      omega
  rw [signedBits, hbits, UInt64.ofNat_toNat, ofBits_toBits]

/-- A finite double is the one nearest to its shortest decimal, however that
is spelled. -/
theorem nearestDecimal_shortest {x : Float} (h : x.isFinite = true) {d : ℕ} {k : ℤ}
    (hvalue : (d : ℚ) * 10 ^ k = (shortestOf x).digits * 10 ^ (shortestOf x).exponent) :
    nearestDecimal (isNegative x) d k = x := by
  have hfinite := magnitude_lt h
  have hten : (10 : ℚ) ^ k ≠ 0 := by positivity
  have hshortest : shortestOf x = shortest (Binary.ofBits x.toBits) := rfl
  by_cases hzero : (Binary.ofBits x.toBits).mantissa = 0
  · have hdigits : (shortestOf x).digits = 0 := by rw [hshortest, shortest, if_pos hzero]
    have hd : d = 0 := by
      rw [hdigits, Nat.cast_zero, zero_mul, mul_eq_zero, or_iff_left hten] at hvalue
      exact_mod_cast hvalue
    have hbits : x.toBits.toNat % signBit = 0 := by
      unfold Binary.ofBits hiddenBit at hzero
      dsimp only at hzero
      split at hzero
      · dsimp only at hzero
        omega
      · dsimp only at hzero
        omega
    have hnone : nearestDecimal (isNegative x) d k = signedBits (isNegative x) 0 := by
      unfold nearestDecimal
      rw [if_pos (.inl hd)]
      rfl
    rw [hnone, ← hbits, signedBits_self]
  · have hheld := ofBits_held hzero hfinite
    obtain ⟨hwithin, hdigits⟩ := shortest_within hheld
    rw [← hshortest, ← hvalue] at hwithin
    have hd : d ≠ 0 := by
      intro hd
      rw [hd, Nat.cast_zero, zero_mul, eq_comm, mul_eq_zero] at hvalue
      rcases hvalue with hvalue | hvalue
      · exact hdigits (by exact_mod_cast hvalue)
      · exact absurd hvalue (by positivity)
    rw [nearestDecimal_within hheld _ hd hwithin, ofBits_code, signedBits_self]

end Telemetry.ShortestReading
