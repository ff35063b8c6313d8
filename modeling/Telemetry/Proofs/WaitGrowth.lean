import Mathlib.Algebra.Order.Field.Power
import Mathlib.Data.Rat.Floor
import Mathlib.Tactic.FieldSimp
import Mathlib.Tactic.Linarith
import Mathlib.Tactic.Positivity
import Telemetry.Proofs.BackoffSchedule

/-!
# Waits that grow

A wait is scaled by way of seconds as doubles, and every step of that rounds.
A rounding to 53 bits loses far less than a tenth, so a factor of one and a
half never makes a wait shorter. The budget of a policy then bounds the
attempts made under it, and a sequence of attempts comes to its end.
-/

set_option autoImplicit false

namespace Telemetry.WaitGrowth

open Decimal

def value (x : Fraction) : ℚ := x.num / x.den

theorem value_nonneg (x : Fraction) : 0 ≤ value x := by
  unfold value
  positivity

theorem value_add (x y : Fraction) (hx : 0 < x.den) (hy : 0 < y.den) :
    value (x.add y) = value x + value y := by
  have hx' : (x.den : ℚ) ≠ 0 := by exact_mod_cast hx.ne'
  have hy' : (y.den : ℚ) ≠ 0 := by exact_mod_cast hy.ne'
  simp only [value, Fraction.add, Nat.cast_add, Nat.cast_mul]
  field_simp

theorem value_mul (x y : Fraction) : value (x.mul y) = value x * value y := by
  simp only [value, Fraction.mul, Nat.cast_mul]
  rw [div_mul_div_comm]

theorem twoPow_pos (n : ℕ) : 0 < twoPow n := Nat.two_pow_pos n

/-- A power of two with a whole exponent, as the quotient in which it is
written. -/
theorem twoPow_div (e : ℤ) : (twoPow e.toNat : ℚ) / twoPow (-e).toNat = (2 : ℚ) ^ e := by
  rcases Int.le_total 0 e with he | he
  · obtain ⟨n, rfl⟩ := Int.eq_ofNat_of_zero_le he
    simp [twoPow]
  · obtain ⟨n, hn⟩ := Int.eq_ofNat_of_zero_le (Int.neg_nonneg_of_nonpos he)
    obtain rfl : e = -n := by omega
    simp [twoPow]

theorem value_binary (m : ℕ) (e : ℤ) : value (Binary.fraction ⟨m, e⟩) = m * (2 : ℚ) ^ e := by
  rw [← twoPow_div, value, Binary.fraction, Nat.cast_mul, mul_div_assoc]

theorem roundDiv_half (num den : ℕ) (hd : 0 < den) :
    (num : ℚ) / den - 1 / 2 ≤ roundDiv num den := by
  have hd' : (0 : ℚ) < den := by exact_mod_cast hd
  have hsplit := Nat.div_add_mod num den
  have hn : 2 * num ≤ (2 * roundDiv num den + 1) * den := by
    have hlt := Nat.mod_lt num hd
    unfold roundDiv
    generalize num / den = q at *
    generalize num % den = m at *
    subst hsplit
    have hq : (2 * q + 1) * den = 2 * (den * q) + den := by ring
    have hq' : (2 * (q + 1) + 1) * den = 2 * (den * q) + 3 * den := by ring
    dsimp only
    split
    · omega
    · split
      · omega
      · split <;> omega
  have hq : (2 : ℚ) * num ≤ (2 * roundDiv num den + 1) * den := by exact_mod_cast hn
  rw [sub_le_iff_le_add, div_le_iff₀ hd']
  linarith

theorem div_le_roundDiv (num den : ℕ) : num / den ≤ roundDiv num den := by
  unfold roundDiv
  dsimp only
  repeat' split
  all_goals omega

theorem roundDiv_mono {a b d : ℕ} (h : a ≤ b) : roundDiv a d ≤ roundDiv b d := by
  have hquotient : a / d ≤ b / d := Nat.div_le_div_right h
  have ha := Nat.div_add_mod a d
  have hb := Nat.div_add_mod b d
  unfold roundDiv
  dsimp only
  rcases hquotient.lt_or_eq with hlt | heq
  · repeat' split
    all_goals omega
  · rw [heq] at ha ⊢
    repeat' split
    all_goals omega

/-- The last place of a double lies 51 binary places below the value, unless
the value is so small that the double is subnormal. -/
theorem lastPlace_le (num den : ℕ) (hn : num ≠ 0) (hd : 0 < den) (hk : den.log2 ≤ 1000) :
    (2 : ℚ) ^ (51 + lastPlace num den) ≤ num / den ∧ -(den.log2 : ℤ) - 53 ≤ lastPlace num den := by
  have hle : lastPlace num den ≤ (num.log2 : ℤ) - den.log2 - 52 ∧
      -(den.log2 : ℤ) - 53 ≤ lastPlace num den := by
    unfold lastPlace
    dsimp only
    split <;> omega
  refine ⟨?_, hle.2⟩
  have hd' : (0 : ℚ) < den := by exact_mod_cast hd
  have hnum : (2 : ℚ) ^ (num.log2 : ℤ) ≤ num := by exact_mod_cast Nat.log2_self_le hn
  have hden : (den : ℚ) ≤ (2 : ℚ) ^ ((den.log2 : ℤ) + 1) := by
    exact_mod_cast (Nat.lt_log2_self (n := den)).le
  rw [le_div_iff₀ hd']
  calc (2 : ℚ) ^ (51 + lastPlace num den) * den
      ≤ (2 : ℚ) ^ (51 + lastPlace num den) * (2 : ℚ) ^ ((den.log2 : ℤ) + 1) := by gcongr
    _ = (2 : ℚ) ^ (51 + lastPlace num den + ((den.log2 : ℤ) + 1)) := by
        rw [zpow_add₀ two_ne_zero (51 + lastPlace num den)]
    _ ≤ (2 : ℚ) ^ (num.log2 : ℤ) := zpow_le_zpow_right₀ (by norm_num) (by omega)
    _ ≤ num := hnum

theorem log2_le {n k : ℕ} (h : n ≤ 2 ^ k) : n.log2 ≤ k := by
  by_cases h0 : n = 0
  · simp [h0]
  · exact (Nat.pow_le_pow_iff_right (by omega)).mp ((Nat.log2_self_le h0).trans h)

theorem mul_le_pow {a b i j : ℕ} (ha : a ≤ 2 ^ i) (hb : b ≤ 2 ^ j) : a * b ≤ 2 ^ (i + j) := by
  rw [Nat.pow_add]
  exact Nat.mul_le_mul ha hb

theorem rounded_den (x : Fraction) (k : ℕ) (hx : 0 < x.den) (hk : x.den ≤ 2 ^ k)
    (hle : k ≤ 1000) : 0 < x.rounded.den ∧ x.rounded.den ≤ 2 ^ (k + 53) := by
  unfold Fraction.rounded
  split
  · exact ⟨Nat.one_pos, Nat.one_le_two_pow⟩
  · rename_i hn
    have hlog := log2_le hk
    have hu := (lastPlace_le x.num x.den hn hx (by omega)).2
    refine ⟨twoPow_pos _, Nat.pow_le_pow_right (by omega) ?_⟩
    dsimp only
    omega

theorem rounded_ge (x : Fraction) (k : ℕ) (hx : 0 < x.den) (hk : x.den ≤ 2 ^ k)
    (hle : k ≤ 1000) : 9 / 10 * value x ≤ value x.rounded := by
  by_cases hn : x.num = 0
  · simp [value, hn, Fraction.rounded]
  · have hlog := log2_le hk
    have hu := (lastPlace_le x.num x.den hn hx (by omega)).1
    have hpos : (0 : ℚ) < 2 ^ lastPlace x.num x.den := by positivity
    rw [Fraction.rounded, if_neg hn]
    generalize lastPlace x.num x.den = u at *
    dsimp only
    rw [value_binary]
    have hhalf := roundDiv_half (x.num * twoPow (-u).toNat) (x.den * twoPow u.toNat)
      (Nat.mul_pos hx (twoPow_pos _))
    have hscale : ((x.num * twoPow (-u).toNat : ℕ) : ℚ) / (x.den * twoPow u.toNat : ℕ) =
        value x / 2 ^ u := by
      have h1 : (twoPow u.toNat : ℚ) ≠ 0 := by exact_mod_cast (twoPow_pos _).ne'
      have h2 : (twoPow (-u).toNat : ℚ) ≠ 0 := by exact_mod_cast (twoPow_pos _).ne'
      rw [← twoPow_div, value]
      push_cast
      field_simp
    rw [hscale] at hhalf
    rw [zpow_add₀ (by norm_num)] at hu
    have hlow : 5 * (2 : ℚ) ^ u ≤ value x := by
      refine le_trans ?_ hu
      gcongr
      norm_num
    calc 9 / 10 * value x ≤ value x - 1 / 2 * 2 ^ u := by linarith
      _ = (value x / 2 ^ u - 1 / 2) * 2 ^ u := by field_simp
      _ ≤ _ := by gcongr

def whole (s : Span) : Fraction := ⟨Span.wholeSeconds s, 1⟩

def rest (s : Span) : Fraction := ⟨Span.subsecond s, Span.nanosPerSecond⟩

theorem toSeconds_eq (s : Span) :
    Span.toSeconds s = ((whole s).rounded.add (rest s).rounded).rounded := rfl

theorem value_whole_rest (s : Span) :
    value (whole s) + value (rest s) = (s : ℚ) / Span.nanosPerSecond := by
  have hs : (s : ℚ) = Span.nanosPerSecond * (Span.wholeSeconds s) + Span.subsecond s := by
    exact_mod_cast (Nat.div_add_mod s Span.nanosPerSecond).symm
  have hn : (Span.nanosPerSecond : ℚ) ≠ 0 := by norm_num [Span.nanosPerSecond]
  rw [hs, value, value, whole, rest]
  field_simp
  push_cast
  ring

theorem whole_den (s : Span) : 0 < (whole s).rounded.den ∧ (whole s).rounded.den ≤ 2 ^ 53 :=
  rounded_den (whole s) 0 Nat.one_pos (le_refl 1) (by omega)

theorem rest_unit (s : Span) : 0 < (rest s).den ∧ (rest s).den ≤ 2 ^ 30 :=
  ⟨(by decide : 0 < Span.nanosPerSecond), (by decide : Span.nanosPerSecond ≤ 2 ^ 30)⟩

theorem rest_den (s : Span) : 0 < (rest s).rounded.den ∧ (rest s).rounded.den ≤ 2 ^ 83 :=
  rounded_den (rest s) 30 (rest_unit s).1 (rest_unit s).2 (by omega)

theorem sum_den (s : Span) :
    0 < ((whole s).rounded.add (rest s).rounded).den ∧
    ((whole s).rounded.add (rest s).rounded).den ≤ 2 ^ 136 :=
  ⟨Nat.mul_pos (whole_den s).1 (rest_den s).1, mul_le_pow (whole_den s).2 (rest_den s).2⟩

theorem toSeconds_den (s : Span) :
    0 < (Span.toSeconds s).den ∧ (Span.toSeconds s).den ≤ 2 ^ 189 :=
  rounded_den _ 136 (sum_den s).1 (sum_den s).2 (by omega)

theorem toSeconds_ge (s : Span) :
    81 / 100 * ((s : ℚ) / Span.nanosPerSecond) ≤ value (Span.toSeconds s) := by
  have hw := rounded_ge (whole s) 0 Nat.one_pos (le_refl 1) (by omega)
  have hr := rounded_ge (rest s) 30 (rest_unit s).1 (rest_unit s).2 (by omega)
  have hs := rounded_ge _ 136 (sum_den s).1 (sum_den s).2 (by omega)
  rw [value_add _ _ (whole_den s).1 (rest_den s).1] at hs
  rw [toSeconds_eq, ← value_whole_rest]
  linarith

def factor (m : Float) : Fraction := (Binary.ofBits m.toBits).fraction

theorem factor_den (m : Float) (hm : 1 ≤ value (factor m)) :
    0 < (factor m).den ∧ (factor m).den ≤ 2 ^ 53 := by
  refine ⟨twoPow_pos _, Nat.pow_le_pow_right (by omega) ?_⟩
  have hlt : (Binary.ofBits m.toBits).mantissa < 2 ^ 53 := by
    unfold Binary.ofBits
    have hmod := Nat.mod_lt (m.toBits.toNat % signBit) (show 0 < hiddenBit by decide)
    have hbit : 2 * hiddenBit = 2 ^ 53 := by decide
    dsimp only
    split <;> dsimp only <;> omega
  unfold factor at hm
  generalize Binary.ofBits m.toBits = b at *
  obtain ⟨mantissa, e⟩ := b
  rw [value_binary] at hm
  by_contra hcon
  have he : e ≤ -53 := by
    dsimp only at hcon
    omega
  have hsmall : (mantissa : ℚ) * 2 ^ e < 1 := by
    have hm53 : (mantissa : ℚ) < 2 ^ (53 : ℤ) := by exact_mod_cast hlt
    calc (mantissa : ℚ) * 2 ^ e < 2 ^ (53 : ℤ) * 2 ^ e := by gcongr
      _ = 2 ^ (53 + e) := by rw [zpow_add₀ two_ne_zero]
      _ ≤ 2 ^ (0 : ℤ) := zpow_le_zpow_right₀ (by norm_num) (by omega)
      _ = 1 := zpow_zero _
  exact absurd hm (not_le.mpr hsmall)

theorem scaleBy_eq (s : Span) (m : Float) : s.scaleBy m =
    ((factor m).mul (Span.toSeconds s)).rounded.inUnits Span.nanosPerSecond := rfl

/-- A wait is never made shorter by a factor of one and a half or more. -/
theorem scaleBy_ge (s : Span) (m : Float) (hm : 3 / 2 ≤ value (factor m)) :
    s ≤ s.scaleBy m := by
  have hd := factor_den m (by linarith)
  have hden : 0 < ((factor m).mul (Span.toSeconds s)).den ∧
      ((factor m).mul (Span.toSeconds s)).den ≤ 2 ^ 242 :=
    ⟨Nat.mul_pos hd.1 (toSeconds_den s).1, mul_le_pow hd.2 (toSeconds_den s).2⟩
  have hr := rounded_ge _ 242 hden.1 hden.2 (by omega)
  have hrd := (rounded_den _ 242 hden.1 hden.2 (by omega)).1
  rw [value_mul] at hr
  have hs := toSeconds_ge s
  rw [scaleBy_eq, Fraction.inUnits]
  refine le_trans ?_ (div_le_roundDiv _ _)
  generalize ((factor m).mul (Span.toSeconds s)).rounded = x at *
  rw [Nat.le_div_iff_mul_le hrd]
  have hx : (0 : ℚ) < x.den := by exact_mod_cast hrd
  have hprod : 3 / 2 * (81 / 100 * ((s : ℚ) / Span.nanosPerSecond)) ≤
      value (factor m) * value (Span.toSeconds s) :=
    mul_le_mul hm hs (by positivity) (value_nonneg _)
  have hlow : (s : ℚ) / Span.nanosPerSecond ≤ value x := by
    have h0 : (0 : ℚ) ≤ (s : ℚ) / Span.nanosPerSecond := by positivity
    linarith
  rw [value, div_le_div_iff₀ (by norm_num [Span.nanosPerSecond]) hx] at hlow
  exact_mod_cast hlow

theorem standard_factor : value (factor BackoffPolicy.standard.multiplier) = 3 / 2 := by
  have hf : factor BackoffPolicy.standard.multiplier = ⟨6755399441055744, 4503599627370496⟩ := by
    decide
  rw [hf]
  norm_num [value]

theorem grow_ge (p : BackoffPolicy) (current : Span) (hcap : p.initial ≤ p.cap)
    (hgrow : 3 / 2 ≤ value (factor p.multiplier)) (hc : p.initial ≤ current) :
    p.initial ≤ p.grow current :=
  le_min (hc.trans (scaleBy_ge current p.multiplier hgrow)) hcap

theorem wait_fits {started attempts initial clock now wait budget : ℕ}
    (hc : started + attempts * initial ≤ clock) (hnow : clock ≤ now) (hw : initial ≤ wait)
    (hfit : now - started + wait ≤ budget) :
    started + (attempts + 1) * initial ≤ now + wait ∧ (attempts + 1) * initial ≤ budget := by
  rw [Nat.succ_mul]
  omega

/-- When waits do not shrink and attempts do not turn the clock back, every
attempt uses up at least the first wait of what the budget allows. -/
theorem run_ends {σ α ε : Type} (op : Span → σ → Except ε α × Span × σ)
    (hop : ∀ clock s, clock ≤ (op clock s).2.1) (p : BackoffPolicy) (hcap : p.initial ≤ p.cap)
    (hgrow : 3 / 2 ≤ value (factor p.multiplier)) (hpos : 0 < p.initial) (fuel : ℕ)
    (current : Span) (told attempts : ℕ) (started clock : Span) (s : σ)
    (hw : p.initial ≤ current) (hc : started + attempts * p.initial ≤ clock)
    (hb : attempts * p.initial ≤ p.budget) (hf : p.budget / p.initial < attempts + fuel) :
    (Retry.run op fuel ⟨⟨p, current⟩, told, started⟩ clock s).1 ≠ .unfinished := by
  -- kept by every wait: the attempts so far took the first wait each, within the budget
  induction fuel generalizing current told attempts clock s with
  | zero =>
    have hle : attempts ≤ p.budget / p.initial := (Nat.le_div_iff_mul_le hpos).mpr hb
    exact absurd hf (Nat.not_lt.mpr hle)
  | succ fuel ih =>
    have hclock := hop clock s
    cases ho : op clock s with
    | mk result rest =>
      obtain ⟨now, next⟩ := rest
      rw [ho] at hclock
      cases result with
      | ok v => simp [Retry.run, ho]
      | error e =>
        rcases BackoffSchedule.failed_cases ⟨⟨p, current⟩, told, started⟩ now with
          ⟨hr, hfit, _⟩ | ⟨hr, _⟩ | ⟨hr, _⟩
        · have hlater := wait_fits hc hclock hw hfit
          simp only [Retry.run, ho, hr]
          apply ih
          · exact grow_ge p current hcap hgrow hw
          · exact hlater.1
          · exact hlater.2
          · rwa [Nat.add_assoc, Nat.add_comm 1]
        · simp [Retry.run, ho, hr]
        · simp [Retry.run, ho, hr]

theorem perform_ends {σ α ε : Type} (op : Span → σ → Except ε α × Span × σ)
    (hop : ∀ clock s, clock ≤ (op clock s).2.1) (p : BackoffPolicy) (hpos : 0 < p.initial)
    (hcap : p.initial ≤ p.cap) (hgrow : 3 / 2 ≤ value (factor p.multiplier)) (clock : Span)
    (s : σ) : (Retry.perform p op clock s).1 ≠ .unfinished := by
  refine run_ends op hop p hcap hgrow hpos _ _ _ 0 clock clock s (Nat.le_refl _) ?_ ?_ ?_
  · simp
  · simp
  · rw [Nat.zero_add]
    exact Nat.lt_of_lt_of_le (Nat.lt_add_of_pos_right (by decide)) (Nat.le_max_right _ _)

end Telemetry.WaitGrowth
