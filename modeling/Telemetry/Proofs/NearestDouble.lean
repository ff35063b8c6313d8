import Telemetry.Proofs.WaitGrowth
import Telemetry.Decimal.Shortest

/-!
# The double nearest to a fraction

A fraction is brought to units of a last place, which is the place where its
first 53 binary digits end, or the last one that doubles have. A fraction in
the interval around a double comes out as that double, also where the interval
reaches below the binade and the last place is found one place further down.
-/

set_option autoImplicit false

namespace Telemetry.NearestDouble

open Decimal
open WaitGrowth (twoPow_pos twoPow_div)

/-- A whole number no more than one half away, and even where it is just that
far away, is the rounded quotient. -/
theorem roundDiv_near {num den q : ℕ} (hlow : 2 * q * den ≤ 2 * num + den)
    (hhigh : 2 * num ≤ 2 * q * den + den)
    (htie : q % 2 = 0 ∨ 2 * q * den < 2 * num + den ∧ 2 * num < 2 * q * den + den)
    (hden : 0 < den) : roundDiv num den = q := by
  have hsplit := Nat.div_add_mod num den
  have hmod := Nat.mod_lt num hden
  unfold roundDiv
  dsimp only
  generalize num / den = k at *
  generalize num % den = r at *
  have hle : k ≤ q := by
    by_contra hlt
    have hstep : (q + 1) * den ≤ k * den := Nat.mul_le_mul_right den (by omega)
    nlinarith
  have hge : q ≤ k + 1 := by
    by_contra hlt
    have hstep : (k + 2) * den ≤ q * den := Nat.mul_le_mul_right den (by omega)
    nlinarith
  -- the remainder decides between the quotient and the number above it
  rcases (show q = k ∨ q = k + 1 by omega) with rfl | rfl
  · have htwice : 2 * r ≤ den := by nlinarith
    have heven : 2 * r = den → q % 2 = 0 := by
      intro heq
      rcases htie with h | ⟨-, h⟩
      · exact h
      · nlinarith
    rw [if_neg (by omega : ¬den < 2 * r)]
    split
    · rfl
    · rw [if_pos (heven (by omega))]
  · have htwice : den ≤ 2 * r := by nlinarith
    have heven : 2 * r = den → (k + 1) % 2 = 0 := by
      intro heq
      rcases htie with h | ⟨h, -⟩
      · exact h
      · nlinarith
    rw [if_neg (by omega : ¬2 * r < den)]
    split
    · rfl
    · have hodd := heven (by omega)
      rw [if_neg (by omega)]

theorem roundDiv_of_near {num den q : ℕ} (hden : 0 < den) (hlow : (q : ℚ) - 1 / 2 ≤ num / den)
    (hhigh : (num : ℚ) / den ≤ q + 1 / 2)
    (htie : q % 2 = 0 ∨ (q : ℚ) - 1 / 2 < num / den ∧ (num : ℚ) / den < q + 1 / 2) :
    roundDiv num den = q := by
  have hd : (0 : ℚ) < den := by exact_mod_cast hden
  rw [le_div_iff₀ hd] at hlow
  rw [div_le_iff₀ hd] at hhigh
  rw [lt_div_iff₀ hd, div_lt_iff₀ hd] at htie
  refine roundDiv_near ?_ ?_ ?_ hden
  · have h : 2 * (q : ℚ) * den ≤ 2 * num + den := by linarith
    exact_mod_cast h
  · have h : 2 * (num : ℚ) ≤ 2 * q * den + den := by linarith
    exact_mod_cast h
  · refine htie.imp_right fun ⟨hbelow, habove⟩ => ⟨?_, ?_⟩
    · have h : 2 * (q : ℚ) * den < 2 * num + den := by linarith
      exact_mod_cast h
    · have h : 2 * (num : ℚ) < 2 * q * den + den := by linarith
      exact_mod_cast h

theorem scaled_div (num den : ℕ) (unit : ℤ) :
    ((num * twoPow (-unit).toNat : ℕ) : ℚ) / (den * twoPow unit.toNat : ℕ) =
      num / den / (2 : ℚ) ^ unit := by
  have hup : (twoPow unit.toNat : ℚ) ≠ 0 := by exact_mod_cast (twoPow_pos _).ne'
  have hdown : (twoPow (-unit).toNat : ℚ) ≠ 0 := by exact_mod_cast (twoPow_pos _).ne'
  rw [← twoPow_div]
  push_cast
  field_simp

theorem small_iff {num den : ℕ} (hden : den ≠ 0) (guess : ℤ) :
    num * twoPow (-guess).toNat < hiddenBit * (den * twoPow guess.toNat) ↔
      (num : ℚ) / den < (2 : ℚ) ^ (52 + guess) := by
  have hd : (0 : ℚ) < (den * twoPow guess.toNat : ℕ) := by
    exact_mod_cast Nat.mul_pos (Nat.pos_of_ne_zero hden) (twoPow_pos _)
  have hu : (0 : ℚ) < (2 : ℚ) ^ guess := by positivity
  have hhidden : (hiddenBit : ℚ) = 2 ^ (52 : ℤ) := by norm_num [hiddenBit]
  rw [zpow_add₀ (by norm_num : (2 : ℚ) ≠ 0), ← hhidden, ← div_lt_iff₀ hu, ← scaled_div,
    div_lt_iff₀ hd]
  exact_mod_cast Iff.rfl

/-- A quotient to within a factor of four, from the lengths of its terms. -/
theorem quotient_bounds {num den : ℕ} (hnum : num ≠ 0) (hden : den ≠ 0) :
    (2 : ℚ) ^ ((num.log2 : ℤ) - den.log2 - 1) ≤ num / den ∧
      (num : ℚ) / den < 2 ^ ((num.log2 : ℤ) - den.log2 + 1) := by
  have hd : (0 : ℚ) < den := by exact_mod_cast Nat.pos_of_ne_zero hden
  have hnumLow : (2 : ℚ) ^ (num.log2 : ℤ) ≤ num := by exact_mod_cast Nat.log2_self_le hnum
  have hnumHigh : (num : ℚ) < 2 ^ ((num.log2 : ℤ) + 1) := by exact_mod_cast Nat.lt_log2_self
  have hdenLow : (2 : ℚ) ^ (den.log2 : ℤ) ≤ den := by exact_mod_cast Nat.log2_self_le hden
  have hdenHigh : (den : ℚ) < 2 ^ ((den.log2 : ℤ) + 1) := by exact_mod_cast Nat.lt_log2_self
  rw [le_div_iff₀ hd, div_lt_iff₀ hd]
  constructor
  · calc (2 : ℚ) ^ ((num.log2 : ℤ) - den.log2 - 1) * den
        ≤ 2 ^ ((num.log2 : ℤ) - den.log2 - 1) * 2 ^ ((den.log2 : ℤ) + 1) := by gcongr
      _ = 2 ^ (num.log2 : ℤ) := by
        rw [← zpow_add₀ (by norm_num)]
        congr 1
        omega
      _ ≤ num := hnumLow
  · calc (num : ℚ) < 2 ^ ((num.log2 : ℤ) + 1) := hnumHigh
      _ = 2 ^ ((num.log2 : ℤ) - den.log2 + 1) * 2 ^ (den.log2 : ℤ) := by
        rw [← zpow_add₀ (by norm_num)]
        congr 1
        omega
      _ ≤ 2 ^ ((num.log2 : ℤ) - den.log2 + 1) * den := by gcongr

/-- The last place, if there were no last one at all: the fraction has 53
binary digits down to it. -/
theorem lastPlace_spec {num den : ℕ} (hnum : num ≠ 0) (hden : den ≠ 0) :
    ∃ place : ℤ, lastPlace num den = max place (-1074) ∧
      (2 : ℚ) ^ (52 + place) ≤ num / den ∧ (num : ℚ) / den < (2 : ℚ) ^ (53 + place) := by
  obtain ⟨hlow, hhigh⟩ := quotient_bounds hnum hden
  obtain ⟨guess, hguess⟩ : ∃ guess : ℤ, guess = (num.log2 : ℤ) - den.log2 - 52 := ⟨_, rfl⟩
  have hplace : lastPlace num den =
      max (if (num : ℚ) / den < 2 ^ (52 + guess) then guess - 1 else guess) (-1074) := by
    simp only [← small_iff hden, hguess]
    rfl
  by_cases hsmall : (num : ℚ) / den < 2 ^ (52 + guess)
  · rw [if_pos hsmall] at hplace
    refine ⟨guess - 1, hplace, ?_, ?_⟩
    · rwa [show 52 + (guess - 1) = (num.log2 : ℤ) - den.log2 - 1 by omega]
    · rwa [show 53 + (guess - 1) = 52 + guess by ring]
  · rw [if_neg hsmall] at hplace
    refine ⟨guess, hplace, not_lt.mp hsmall, ?_⟩
    rwa [show 53 + guess = (num.log2 : ℤ) - den.log2 + 1 by omega]

structure Held (b : Binary) : Prop where
  positive : 0 < b.mantissa
  short : b.mantissa < 2 ^ 53
  low : -1074 ≤ b.exponent
  full : b.exponent = -1074 ∨ 2 ^ 52 ≤ b.mantissa
  high : b.exponent ≤ 971

def code (b : Binary) : ℕ :=
  (b.exponent + 1074).toNat * hiddenBit + b.mantissa

theorem code_lt {b : Binary} (h : Held b) : code b < infinityBits := by
  obtain ⟨-, hshort, hlow, hfull, hhigh⟩ := h
  unfold code hiddenBit infinityBits
  omega

def Within (i : Interval) (x : ℚ) : Prop :=
  if i.closed then i.low * (2 : ℚ) ^ i.unit ≤ x ∧ x ≤ i.high * (2 : ℚ) ^ i.unit
  else i.low * (2 : ℚ) ^ i.unit < x ∧ x < i.high * (2 : ℚ) ^ i.unit

def reach (b : Binary) : ℚ :=
  if b.mantissa = hiddenBit ∧ b.exponent ≠ -1074 then 1 / 4 else 1 / 2

structure Near (b : Binary) (y : ℚ) : Prop where
  low : b.mantissa - reach b ≤ y
  high : y ≤ b.mantissa + 1 / 2
  tie : b.mantissa % 2 = 0 ∨ b.mantissa - reach b < y ∧ y < b.mantissa + 1 / 2

theorem around_low {b : Binary} (h : 0 < b.mantissa) :
    ((Interval.around b).low : ℚ) * 2 ^ (Interval.around b).unit =
      (b.mantissa - reach b) * 2 ^ b.exponent := by
  have hquarter : (2 : ℚ) ^ (b.exponent - 2) = 2 ^ b.exponent / 4 := by
    rw [zpow_sub₀ (by norm_num)]
    norm_num
  unfold Interval.around reach
  dsimp only
  rw [hquarter]
  split
  · rw [Nat.cast_sub (by omega)]
    push_cast
    ring
  · rw [Nat.cast_sub (by omega)]
    push_cast
    ring

theorem around_high (b : Binary) :
    ((Interval.around b).high : ℚ) * 2 ^ (Interval.around b).unit =
      (b.mantissa + 1 / 2) * 2 ^ b.exponent := by
  have hquarter : (2 : ℚ) ^ (b.exponent - 2) = 2 ^ b.exponent / 4 := by
    rw [zpow_sub₀ (by norm_num)]
    norm_num
  unfold Interval.around
  dsimp only
  rw [hquarter]
  push_cast
  ring

theorem near_of_within {b : Binary} (h : 0 < b.mantissa) {x : ℚ}
    (hx : Within (Interval.around b) x) : Near b (x / 2 ^ b.exponent) := by
  have hu : (0 : ℚ) < 2 ^ b.exponent := by positivity
  have hclosed : (Interval.around b).closed = decide (b.mantissa % 2 = 0) := rfl
  unfold Within at hx
  rw [around_low h, around_high, hclosed, ← le_div_iff₀ hu, ← div_le_iff₀ hu, ← lt_div_iff₀ hu,
    ← div_lt_iff₀ hu] at hx
  by_cases heven : b.mantissa % 2 = 0
  · rw [if_pos (by simpa using heven)] at hx
    exact ⟨hx.1, hx.2, .inl heven⟩
  · rw [if_neg (by simpa using heven)] at hx
    exact ⟨hx.1.le, hx.2.le, .inr hx⟩

theorem reach_bounds (b : Binary) : 1 / 4 ≤ reach b ∧ reach b ≤ 1 / 2 := by
  unfold reach
  split <;> norm_num

theorem roundDiv_same {num den : ℕ} {b : Binary} (hden : den ≠ 0)
    (hnear : Near b (num / den / 2 ^ b.exponent)) :
    roundDiv (num * twoPow (-b.exponent).toNat) (den * twoPow b.exponent.toNat) = b.mantissa := by
  have hreach := (reach_bounds b).2
  apply roundDiv_of_near (Nat.mul_pos (Nat.pos_of_ne_zero hden) (twoPow_pos _))
  · rw [scaled_div]
    linarith [hnear.low]
  · rw [scaled_div]
    exact hnear.high
  · rw [scaled_div]
    exact hnear.tie.imp_right fun h => ⟨by linarith [h.1], h.2⟩

/-- In units of the place below, which a fraction under the binade has. -/
theorem roundDiv_below {num den : ℕ} {e : ℤ} (hden : den ≠ 0)
    (hlow : (2 : ℚ) ^ 52 - 1 / 4 ≤ num / den / 2 ^ e) (hhigh : (num : ℚ) / den / 2 ^ e ≤ 2 ^ 52) :
    roundDiv (num * twoPow (-(e - 1)).toNat) (den * twoPow (e - 1).toNat) = 2 ^ 53 := by
  have hhalf : (num : ℚ) / den / 2 ^ (e - 1) = 2 * (num / den / 2 ^ e) := by
    rw [zpow_sub₀ (by norm_num)]
    field_simp
  apply roundDiv_of_near (Nat.mul_pos (Nat.pos_of_ne_zero hden) (twoPow_pos _))
  · rw [scaled_div, hhalf]
    push_cast
    linarith
  · rw [scaled_div, hhalf]
    push_cast
    linarith
  · exact .inl (by norm_num)

theorem encodeWith_same {num den : ℕ} {b : Binary} (hden : den ≠ 0)
    (hnear : Near b (num / den / 2 ^ b.exponent)) : encodeWith num den b.exponent = code b := by
  rw [encodeWith, roundDiv_same hden hnear, code]

theorem near_low {b : Binary} {y : ℚ} (he : -1074 < b.exponent) (hm : b.mantissa = hiddenBit)
    (hnear : Near b y) : (2 : ℚ) ^ 52 - 1 / 4 ≤ y := by
  have hreach : reach b = 1 / 4 := if_pos ⟨hm, he.ne'⟩
  have hlow := hnear.low
  have hbits : (hiddenBit : ℚ) = 2 ^ 52 := by norm_num [hiddenBit]
  rwa [hreach, hm, hbits] at hlow

theorem encodeWith_below {num den : ℕ} {b : Binary} (hden : den ≠ 0) (he : -1074 < b.exponent)
    (hm : b.mantissa = hiddenBit) (hnear : Near b (num / den / 2 ^ b.exponent))
    (hunder : (num : ℚ) / den / 2 ^ b.exponent ≤ 2 ^ 52) :
    encodeWith num den (b.exponent - 1) = code b := by
  rw [encodeWith, roundDiv_below hden (near_low he hm hnear) hunder, code, hm]
  unfold hiddenBit
  omega

/-- The last place is that of the double, or the place below it where the
fraction lies under the double's binade. -/
theorem lastPlace_near {num den : ℕ} {b : Binary} (hb : Held b) (hnum : num ≠ 0) (hden : den ≠ 0)
    (hnear : Near b (num / den / 2 ^ b.exponent)) :
    lastPlace num den = b.exponent ∨ lastPlace num den = b.exponent - 1 ∧
      -1074 < b.exponent ∧ b.mantissa = hiddenBit ∧
      (num : ℚ) / den / 2 ^ b.exponent ≤ 2 ^ 52 := by
  obtain ⟨place, hplace, hlow, hhigh⟩ := lastPlace_spec hnum hden
  have hu : (0 : ℚ) < 2 ^ b.exponent := by positivity
  have htop : place ≤ b.exponent := by
    have hmantissa : (b.mantissa : ℚ) + 1 ≤ 2 ^ (53 : ℤ) := by exact_mod_cast hb.short
    have hfits : (num : ℚ) / den / 2 ^ b.exponent < 2 ^ (53 : ℤ) := by linarith [hnear.high]
    rw [div_lt_iff₀ hu, ← zpow_add₀ (by norm_num)] at hfits
    have hexp := (zpow_lt_zpow_iff_right₀ (by norm_num)).mp (hlow.trans_lt hfits)
    omega
  by_cases hsame : lastPlace num den = b.exponent
  · exact .inl hsame
  · -- only under a power of two is a fraction that close in a finer binade
    have hnormal : -1074 < b.exponent ∧ 2 ^ 52 ≤ b.mantissa := by
      have hlowest := hb.low
      have hfull := hb.full
      omega
    have hunder : (num : ℚ) / den / 2 ^ b.exponent < 2 ^ 52 := by
      have hle : (2 : ℚ) ^ (53 + place) ≤ 2 ^ (52 + b.exponent) :=
        zpow_le_zpow_right₀ (by norm_num) (by omega)
      rw [div_lt_iff₀ hu]
      calc (num : ℚ) / den < 2 ^ (53 + place) := hhigh
        _ ≤ 2 ^ (52 + b.exponent) := hle
        _ = 2 ^ 52 * 2 ^ b.exponent := by
          rw [zpow_add₀ (by norm_num)]
          norm_num
    have hm : b.mantissa = hiddenBit := by
      have hlt : (b.mantissa : ℚ) < 2 ^ 52 + 1 := by
        linarith [hnear.low, (reach_bounds b).2]
      have hnat : b.mantissa < 2 ^ 52 + 1 := by exact_mod_cast hlt
      unfold hiddenBit
      omega
    have hbottom : b.exponent - 1 ≤ place := by
      have hbits : (hiddenBit : ℚ) = 2 ^ 52 := by norm_num [hiddenBit]
      have hmany := hnear.low
      rw [hm, hbits] at hmany
      have hlarge : (2 : ℚ) ^ (51 + b.exponent) < 2 ^ (53 + place) := by
        refine lt_of_le_of_lt ?_ hhigh
        rw [zpow_add₀ (by norm_num), ← le_div_iff₀ hu]
        linarith [(reach_bounds b).2]
      have hexp := (zpow_lt_zpow_iff_right₀ (by norm_num)).mp hlarge
      omega
    exact .inr ⟨by omega, hnormal.1, hm, hunder.le⟩

/-- A fraction in the interval around a double is read as that double. -/
theorem nearestBits_within {num den : ℕ} {b : Binary} (hb : Held b) (hnum : num ≠ 0)
    (hden : den ≠ 0) (hx : Within (Interval.around b) (num / den)) :
    nearestBits num den = code b := by
  have hnear := near_of_within hb.positive hx
  have hencode : encodeWith num den (lastPlace num den) = code b := by
    rcases lastPlace_near hb hnum hden hnear with hlast | ⟨hlast, he, hm, hunder⟩
    · rw [hlast]
      exact encodeWith_same hden hnear
    · rw [hlast]
      exact encodeWith_below hden he hm hnear hunder
  rw [nearestBits, if_neg hnum, hencode]
  exact min_eq_right (code_lt hb).le

end Telemetry.NearestDouble
