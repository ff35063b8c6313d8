import Telemetry.Proofs.NearestDouble

/-!
# Rounding keeps order

A larger fraction is never rounded to a smaller double. Within a binade its
mantissa is not smaller, and a mantissa that is carried past the binade comes
no further than the first double of the next. Seconds as doubles are rounded in
two parts and once more as a sum. They are in order too: where whole seconds
are so many that doubles skip some of them, a part of a second is too small to
reach the next double. So of two waits the longer one never grows to the
shorter one.
-/

set_option autoImplicit false

namespace Telemetry.DoubleOrder

open Decimal WaitGrowth NearestDouble

theorem roundDiv_scale {k : ℕ} (hk : 0 < k) (num den : ℕ) :
    roundDiv (k * num) (k * den) = roundDiv num den := by
  have htwice : 2 * (k * num % (k * den)) = k * (2 * (num % den)) := by
    rw [Nat.mul_mod_mul_left]
    ring
  unfold roundDiv
  simp only [htwice, Nat.mul_div_mul_left _ _ hk, Nat.mul_lt_mul_left hk]

theorem roundDiv_le {num den num' den' : ℕ} (hd : 0 < den) (hd' : 0 < den')
    (h : (num : ℚ) / den ≤ num' / den') : roundDiv num den ≤ roundDiv num' den' := by
  have hq : (0 : ℚ) < den := by exact_mod_cast hd
  have hq' : (0 : ℚ) < den' := by exact_mod_cast hd'
  rw [div_le_div_iff₀ hq hq'] at h
  have hcross : den' * num ≤ den * num' := by
    rw [Nat.mul_comm den', Nat.mul_comm den]
    exact_mod_cast h
  calc roundDiv num den = roundDiv (den' * num) (den' * den) := (roundDiv_scale hd' _ _).symm
    _ ≤ roundDiv (den * num') (den' * den) := roundDiv_mono hcross
    _ = roundDiv num' den' := by rw [Nat.mul_comm den', roundDiv_scale hd]

theorem roundDiv_one (n : ℕ) : roundDiv n 1 = n := by
  simp [roundDiv, Nat.mod_one]

def units (x : Fraction) (place : ℤ) : ℕ :=
  roundDiv (x.num * twoPow (-place).toNat) (x.den * twoPow place.toNat)

section Units

variable {x y : Fraction} {place : ℤ} {n : ℕ}

theorem units_mono (hx : 0 < x.den) (hy : 0 < y.den) (h : value x ≤ value y) :
    units x place ≤ units y place := by
  apply roundDiv_le (Nat.mul_pos hx (twoPow_pos _)) (Nat.mul_pos hy (twoPow_pos _))
  rw [scaled_div, scaled_div]
  exact div_le_div_of_nonneg_right h (by positivity)

theorem units_le (hx : 0 < x.den) (h : value x ≤ n * 2 ^ place) : units x place ≤ n := by
  rw [← roundDiv_one n]
  apply roundDiv_le (Nat.mul_pos hx (twoPow_pos _)) Nat.one_pos
  rw [scaled_div, Nat.cast_one, div_one]
  exact (div_le_iff₀ (by positivity)).mpr h

theorem le_units (hx : 0 < x.den) (h : n * 2 ^ place ≤ value x) : n ≤ units x place := by
  rw [← roundDiv_one n]
  apply roundDiv_le Nat.one_pos (Nat.mul_pos hx (twoPow_pos _))
  rw [scaled_div, Nat.cast_one, div_one]
  exact (le_div_iff₀ (by positivity)).mpr h

theorem value_rounded (hx : x.num ≠ 0) :
    value x.rounded = units x (lastPlace x.num x.den) * 2 ^ lastPlace x.num x.den := by
  rw [Fraction.rounded, if_neg hx]
  exact value_binary _ _

end Units

theorem rounded_pos (x : Fraction) : 0 < x.rounded.den := by
  unfold Fraction.rounded
  split
  · exact Nat.one_pos
  · exact twoPow_pos _

theorem value_pos {x : Fraction} (hx : 0 < x.den) : 0 < value x ↔ x.num ≠ 0 := by
  have hd : (0 : ℚ) < x.den := by exact_mod_cast hx
  rw [value, div_pos_iff_of_pos_right hd, Nat.cast_pos, Nat.pos_iff_ne_zero]

theorem rounded_mono {x y : Fraction} (hx : 0 < x.den) (hy : 0 < y.den)
    (h : value x ≤ value y) : value x.rounded ≤ value y.rounded := by
  by_cases hx0 : x.num = 0
  · have hzero : value x.rounded = 0 := by simp [Fraction.rounded, hx0, value]
    rw [hzero]
    exact value_nonneg _
  have hy0 : y.num ≠ 0 := (value_pos hy).mp (((value_pos hx).mpr hx0).trans_le h)
  obtain ⟨p, hp, hplow, hphigh⟩ := lastPlace_spec hx0 hx.ne'
  obtain ⟨q, hq, hqlow, hqhigh⟩ := lastPlace_spec hy0 hy.ne'
  have hpq : p ≤ q := by
    have hexp := (zpow_lt_zpow_iff_right₀ (by norm_num)).mp ((hplow.trans h).trans_lt hqhigh)
    omega
  rw [value_rounded hx0, value_rounded hy0]
  generalize lastPlace x.num x.den = u at *
  generalize lastPlace y.num y.den = v at *
  have huv : u ≤ v := by omega
  rcases huv.lt_or_eq with hlt | rfl
  · -- what is carried out of the lower binade is where the upper one begins
    have hup : (units x u : ℚ) ≤ 2 ^ 53 := by
      have hle : value x ≤ (2 ^ 53 : ℕ) * 2 ^ u := by
        calc value x ≤ 2 ^ (53 + p) := hphigh.le
          _ ≤ 2 ^ (53 + u) := zpow_le_zpow_right₀ (by norm_num) (by omega)
          _ = (2 ^ 53 : ℕ) * 2 ^ u := by
            rw [zpow_add₀ (by norm_num)]
            norm_num
      exact_mod_cast units_le hx hle
    have hlow : (2 : ℚ) ^ 52 ≤ units y v := by
      have hle : (2 ^ 52 : ℕ) * 2 ^ v ≤ value y := by
        calc ((2 ^ 52 : ℕ) : ℚ) * 2 ^ v = 2 ^ (52 + q) := by
              rw [show v = q by omega, zpow_add₀ (by norm_num)]
              norm_num
          _ ≤ value y := hqlow
      exact_mod_cast le_units hy hle
    calc (units x u : ℚ) * 2 ^ u ≤ 2 ^ 53 * 2 ^ u := by gcongr
      _ = 2 ^ 52 * 2 ^ (u + 1) := by
        rw [zpow_add₀ (by norm_num)]
        ring
      _ ≤ 2 ^ 52 * 2 ^ v := by
        gcongr
        · norm_num
        · omega
      _ ≤ units y v * 2 ^ v := by gcongr
  · have hunits : (units x u : ℚ) ≤ units y u := by exact_mod_cast units_mono hx hy h
    gcongr

theorem value_fraction (b : Binary) : value b.fraction = b.mantissa * 2 ^ b.exponent :=
  value_binary _ _

section Near

variable {x : Fraction} {b : Binary}

theorem rounded_near (hb : Held b) (hx : x.num ≠ 0) (hd : 0 < x.den)
    (h : Near b (value x / 2 ^ b.exponent)) : value x.rounded = value b.fraction := by
  rw [value_rounded hx, value_fraction, units]
  rcases lastPlace_near hb hx hd.ne' h with hlast | ⟨hlast, he, hm, hunder⟩
  · rw [hlast, roundDiv_same hd.ne' h]
  · have hbits : (hiddenBit : ℚ) = 2 ^ 52 := by norm_num [hiddenBit]
    rw [hlast, roundDiv_below hd.ne' (near_low he hm h) hunder, hm, hbits,
      zpow_sub₀ (by norm_num)]
    push_cast
    ring

/-- A double and less than a half of its last place are rounded to it. -/
theorem rounded_above (hb : Held b) (hd : 0 < x.den) (hlow : value b.fraction ≤ value x)
    (hhigh : value x < value b.fraction + 2 ^ b.exponent / 2) :
    value x.rounded = value b.fraction := by
  have hu : (0 : ℚ) < 2 ^ b.exponent := by positivity
  have hm : (0 : ℚ) < b.mantissa := by exact_mod_cast hb.positive
  have hreach := (reach_bounds b).1
  rw [value_fraction] at hlow hhigh
  have hx : x.num ≠ 0 := (value_pos hd).mp ((mul_pos hm hu).trans_le hlow)
  have hbelow : (b.mantissa : ℚ) ≤ value x / 2 ^ b.exponent := (le_div_iff₀ hu).mpr hlow
  have habove : value x / 2 ^ b.exponent < b.mantissa + 1 / 2 := by
    rw [div_lt_iff₀ hu]
    linarith
  exact rounded_near hb hx hd ⟨by linarith, habove.le, Or.inr ⟨by linarith, habove⟩⟩

theorem rounded_same (hb : Held b) (hd : 0 < x.den) (h : value x = value b.fraction) :
    value x.rounded = value b.fraction := by
  have hhalf : (0 : ℚ) < 2 ^ b.exponent / 2 := by positivity
  exact rounded_above hb hd h.ge (by linarith)

end Near

theorem value_whole (n : ℕ) : value ⟨n, 1⟩ = n := by
  simp [value]

/-- A whole number is a multiple of every place that is not above the first. -/
theorem whole_places (n : ℕ) {place : ℤ} (h : place ≤ 0) :
    ∃ k : ℕ, (n : ℚ) = k * 2 ^ place := by
  obtain ⟨j, hj⟩ := Int.eq_ofNat_of_zero_le (Int.neg_nonneg_of_nonpos h)
  obtain rfl : place = -j := by omega
  refine ⟨n * 2 ^ j, ?_⟩
  rw [Nat.cast_mul, mul_assoc, zpow_neg, zpow_natCast]
  simp

theorem held_of_units {m : ℕ} {u : ℤ} (hlow : 2 ^ 52 ≤ m) (hhigh : m ≤ 2 ^ 53)
    (hu : -1074 ≤ u) (hu' : u ≤ 970) :
    ∃ b, Held b ∧ value b.fraction = m * 2 ^ u ∧ u ≤ b.exponent := by
  rcases hhigh.lt_or_eq with hshort | rfl
  · have hheld : Held ⟨m, u⟩ :=
      ⟨(by omega : 0 < m), hshort, hu, Or.inr hlow, (by omega : u ≤ 971)⟩
    exact ⟨⟨m, u⟩, hheld, value_fraction _, le_refl u⟩
  · have hheld : Held ⟨2 ^ 52, u + 1⟩ :=
      ⟨Nat.two_pow_pos 52, (by decide : 2 ^ 52 < 2 ^ 53), (by omega : -1074 ≤ u + 1),
        Or.inr (le_refl _), (by omega : u + 1 ≤ 971)⟩
    refine ⟨⟨2 ^ 52, u + 1⟩, hheld, ?_, (by omega : u ≤ u + 1)⟩
    rw [value_fraction, zpow_add₀ (by norm_num)]
    push_cast
    ring

/-- A whole number of 64 bits is rounded to a double, and is that double unless
the last place lies above the first. -/
theorem whole_rounded {n : ℕ} (hn : n ≠ 0) (h64 : n < 2 ^ 64) :
    ∃ b, Held b ∧ value (Fraction.rounded ⟨n, 1⟩) = value b.fraction ∧
      (value b.fraction = n ∨ 1 ≤ b.exponent) := by
  have hone : 0 < (⟨n, 1⟩ : Fraction).den := Nat.one_pos
  obtain ⟨u, hu, hlow, hhigh⟩ := lastPlace_spec hn Nat.one_ne_zero
  rw [Nat.cast_one, div_one] at hlow hhigh
  have hfirst : -53 < u := by
    have hle : (2 : ℚ) ^ (0 : ℤ) ≤ n := by exact_mod_cast Nat.pos_of_ne_zero hn
    have hexp := (zpow_lt_zpow_iff_right₀ (by norm_num)).mp (hle.trans_lt hhigh)
    omega
  have hlast : u < 12 := by
    have hlt : (n : ℚ) < 2 ^ (64 : ℤ) := by exact_mod_cast h64
    have hexp := (zpow_lt_zpow_iff_right₀ (by norm_num)).mp (hlow.trans_lt hlt)
    omega
  rw [max_eq_left (show -1074 ≤ u by omega)] at hu
  have hvalue := value_rounded (x := ⟨n, 1⟩) hn
  rw [hu] at hvalue
  have hmlow : 2 ^ 52 ≤ units ⟨n, 1⟩ u := by
    apply le_units hone
    rw [value_whole]
    rw [zpow_add₀ (by norm_num)] at hlow
    exact_mod_cast hlow
  have hmhigh : units ⟨n, 1⟩ u ≤ 2 ^ 53 := by
    apply units_le hone
    rw [value_whole]
    rw [zpow_add₀ (by norm_num)] at hhigh
    exact_mod_cast hhigh.le
  obtain ⟨b, hb, hfraction, hplace⟩ := held_of_units (u := u) hmlow hmhigh (by omega) (by omega)
  refine ⟨b, hb, hvalue.trans hfraction.symm, ?_⟩
  by_cases hwhole : u ≤ 0
  · obtain ⟨k, hk⟩ := whole_places n hwhole
    have hunits : units ⟨n, 1⟩ u = k := by
      apply le_antisymm
      · exact units_le hone ((value_whole n).trans hk).le
      · exact le_units hone ((value_whole n).trans hk).ge
    rw [hfraction, hunits]
    exact Or.inl hk.symm
  · exact Or.inr (by omega)

theorem whole_rounded_again {n : ℕ} (h64 : n < 2 ^ 64) :
    value (Fraction.rounded ⟨n, 1⟩).rounded = value (Fraction.rounded ⟨n, 1⟩) := by
  by_cases hn : n = 0
  · subst hn
    rfl
  · obtain ⟨b, hb, hvalue, -⟩ := whole_rounded hn h64
    rw [rounded_same hb (rounded_pos _) hvalue, hvalue]

theorem rest_rounded (s : Span) : value (rest s).rounded < 1 := by
  have hlast : (rest s).num ≤ 999999999 := by
    have hlt : Span.subsecond s < Span.nanosPerSecond := Nat.mod_lt _ (by decide)
    exact Nat.le_of_lt_succ hlt
  have hle : value (rest s) ≤ value ⟨999999999, Span.nanosPerSecond⟩ := by
    have hcast : ((rest s).num : ℚ) ≤ (999999999 : ℕ) := by exact_mod_cast hlast
    exact div_le_div_of_nonneg_right hcast (by positivity)
  have hlarge : Fraction.rounded ⟨999999999, Span.nanosPerSecond⟩ =
      ⟨9007199245733793, 9007199254740992⟩ := by
    decide
  apply (rounded_mono (rest_unit s).1 (by decide) hle).trans_lt
  rw [hlarge]
  norm_num [value]

def unrounded (s : Span) : Fraction := (whole s).rounded.add (rest s).rounded

theorem value_unrounded (s : Span) :
    value (unrounded s) = value (whole s).rounded + value (rest s).rounded :=
  value_add _ _ (rounded_pos _) (rounded_pos _)

theorem unrounded_pos (s : Span) : 0 < (unrounded s).den :=
  Nat.mul_pos (rounded_pos _) (rounded_pos _)

/-- Seconds do not come out above the whole second that follows. -/
theorem toSeconds_le (s : Span) (h : Span.wholeSeconds s < 2 ^ 64) :
    value s.toSeconds ≤ value (Fraction.rounded ⟨Span.wholeSeconds s + 1, 1⟩) := by
  have hsum := value_unrounded s
  have hrest := rest_rounded s
  have hnext : value (whole s) ≤ value ⟨Span.wholeSeconds s + 1, 1⟩ := by
    rw [whole, value_whole, value_whole]
    exact_mod_cast Nat.le_succ _
  by_cases hdown : value (whole s).rounded ≤ Span.wholeSeconds s
  · apply rounded_mono (unrounded_pos s) Nat.one_pos
    rw [value_whole]
    push_cast
    linarith
  · -- what is rounded up has a last place of two or more, and the rest is under half of that
    have hn : Span.wholeSeconds s ≠ 0 := by
      intro hzero
      apply hdown
      simp [whole, hzero, Fraction.rounded, value]
    obtain ⟨b, hb, hvalue, hexact | hplace⟩ := whole_rounded hn h
    · exact absurd (hvalue.trans hexact).le hdown
    · have hhalf : (1 : ℚ) ≤ 2 ^ b.exponent / 2 := by
        have hpow : (2 : ℚ) ^ (1 : ℤ) ≤ 2 ^ b.exponent :=
          zpow_le_zpow_right₀ (by norm_num) hplace
        linarith [zpow_one (2 : ℚ)]
      have hwhole : value (whole s).rounded = value b.fraction := hvalue
      have hback : value (unrounded s).rounded = value b.fraction := by
        apply rounded_above hb (unrounded_pos s)
        · linarith [value_nonneg (rest s).rounded]
        · linarith
      calc value s.toSeconds = value (whole s).rounded := hback.trans hwhole.symm
        _ ≤ _ := rounded_mono Nat.one_pos Nat.one_pos hnext

theorem toSeconds_mono {s t : Span} (h : s ≤ t) (ht : t < Span.bound) :
    value s.toSeconds ≤ value t.toSeconds := by
  have htop : Span.wholeSeconds t < 2 ^ 64 := Nat.div_lt_of_lt_mul (Nat.mul_comm _ _ ▸ ht)
  have hseconds : Span.wholeSeconds s ≤ Span.wholeSeconds t := Nat.div_le_div_right h
  rcases hseconds.lt_or_eq with hlt | heq
  · have hnext : value ⟨Span.wholeSeconds s + 1, 1⟩ ≤ value (whole t) := by
      rw [whole, value_whole, value_whole]
      exact_mod_cast hlt
    calc value s.toSeconds
        ≤ value (Fraction.rounded ⟨Span.wholeSeconds s + 1, 1⟩) := toSeconds_le s (hlt.trans htop)
      _ ≤ value (whole t).rounded := rounded_mono Nat.one_pos Nat.one_pos hnext
      _ = value (whole t).rounded.rounded := (whole_rounded_again htop).symm
      _ ≤ value t.toSeconds := by
        apply rounded_mono (rounded_pos _) (unrounded_pos t)
        linarith [value_unrounded t, value_nonneg (rest t).rounded]
  · have hrest : value (rest s) ≤ value (rest t) := by
      have hs := value_whole_rest s
      have hq := value_whole_rest t
      have hwhole : whole s = whole t := by rw [whole, whole, heq]
      have hcast : (s : ℚ) / Span.nanosPerSecond ≤ (t : ℚ) / Span.nanosPerSecond := by
        have hle : (s : ℚ) ≤ t := by exact_mod_cast h
        exact div_le_div_of_nonneg_right hle (by positivity)
      rw [hwhole] at hs
      linarith
    have hrounded := rounded_mono (rest_unit s).1 (rest_unit t).1 hrest
    apply rounded_mono (unrounded_pos s) (unrounded_pos t)
    rw [value_unrounded, value_unrounded, whole, whole, heq]
    linarith

theorem scaleBy_mono (m : Float) {s t : Span} (h : s ≤ t) (ht : t < Span.bound) :
    s.scaleBy m ≤ t.scaleBy m := by
  have hpos (x : Span) : 0 < ((factor m).mul x.toSeconds).den :=
    Nat.mul_pos (twoPow_pos _) (rounded_pos _)
  have hproduct : value ((factor m).mul s.toSeconds) ≤ value ((factor m).mul t.toSeconds) := by
    rw [value_mul, value_mul]
    exact mul_le_mul_of_nonneg_left (toSeconds_mono h ht) (value_nonneg _)
  have hrounded := rounded_mono (hpos s) (hpos t) hproduct
  rw [scaleBy_eq, scaleBy_eq, Fraction.inUnits, Fraction.inUnits]
  apply roundDiv_le (rounded_pos _) (rounded_pos _)
  rw [Nat.cast_mul, Nat.cast_mul, mul_div_right_comm, mul_div_right_comm]
  exact mul_le_mul_of_nonneg_right hrounded (by positivity)

end Telemetry.DoubleOrder
