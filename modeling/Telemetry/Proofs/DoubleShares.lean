import Telemetry.Proofs.DoubleSigns

/-!
# Shares as doubles

A share is the quotient of two whole numbers, the second at least as large as
the first. Each of them is rounded to a double, and the quotient is rounded
again. Rounding keeps the order of whole numbers and does not carry a quotient
below one past it, so a share of one or more out of a 64-bit count is a double
above zero and at most one.
-/

set_option autoImplicit false

namespace Telemetry.DoubleShares

open Float.Model (Format UnpackedFloat totalExponent)
open Float.Model.UnpackedFloat
open DoubleSigns
open WaitGrowth (roundDiv_mono)

theorem unpack_pack_normal {m : ℕ} {e : ℤ} (h : 0 < m) (hm : m.log2 = 52) (hlow : -1074 ≤ e)
    (hhigh : e ≤ 0) :
    unpack Format.binary64 (pack Format.binary64 (.finite .positive m e h)) =
      .finite .positive m e h := by
  have hrange := (Nat.log2_eq_iff h.ne').mp hm
  have hbias : e + (Format.binary64.exponentBias : ℤ) + (52 : ℕ) = e + 1075 := by
    show e + (1023 : ℕ) + (52 : ℕ) = e + 1075
    omega
  have hfield : (BitVec.ofNat 11 (e + 1075).toNat).toNat = (e + 1075).toNat := by
    rw [BitVec.toNat_ofNat, Nat.mod_eq_of_lt (by omega)]
  have hfinite : BitVec.ofNat 11 (e + 1075).toNat ≠ -1#11 := field_ne (by omega)
  have hnormal : BitVec.ofNat 11 (e + 1075).toNat ≠ 0#11 := by
    intro heq
    have hnat := congrArg BitVec.toNat heq
    rw [hfield] at hnat
    simp at hnat
    omega
  have hmantissa : (1#1 ++ BitVec.ofNat 52 m).toNat = m := by
    rw [leading_bit, BitVec.toNat_ofNat]
    omega
  have hpack : pack Format.binary64 (.finite .positive m e h) =
      packComponents Format.binary64 .positive (BitVec.ofNat 11 (e + 1075).toNat)
        (BitVec.ofNat 52 m) := by
    rw [pack]
    simp only [hbias]
    rw [if_neg (by show ¬2 ^ 11 ≤ (e + 1075).toNat + 1; omega), if_pos (by rw [hm]; rfl)]
  rw [hpack]
  unfold unpack
  simp only [unpackExponent_packComponents, unpackMantissa_packComponents,
    unpackSign_packComponents, Sign.ofBitVec_toBitVec]
  rw [if_neg hfinite, if_neg hnormal]
  congr 1
  rw [hfield]
  show ((e + 1075).toNat : ℤ) - ((1023 : ℕ) + (52 : ℕ)) = e
  omega

theorem nearestBits_mono {a b : ℕ} (ha : a ≠ 0) (h : a ≤ b) :
    Decimal.nearestBits a 1 ≤ Decimal.nearestBits b 1 := by
  have hb : b ≠ 0 := by omega
  have hlog : a.log2 ≤ b.log2 := (Nat.le_log2 hb).mpr ((Nat.log2_self_le ha).trans h)
  rw [nearestBits_whole ha, nearestBits_whole hb]
  refine min_le_min_left _ ?_
  rcases hlog.lt_or_eq with hlt | heq
  · -- a first place higher up makes good what rounding may have carried
    have hup := (wholeMantissa_bounds ha).2
    have hlow := (wholeMantissa_bounds hb).1
    unfold Decimal.hiddenBit
    omega
  · rw [heq, wholeMantissa, wholeMantissa, heq]
    exact Nat.add_le_add_left (roundDiv_mono (Nat.mul_le_mul_right _ h)) _

/-- A 64-bit count above zero as a normal double, with its bits. -/
theorem ofNat_normal {n : ℕ} (hn : n ≠ 0) (h64 : n < 2 ^ 64) :
    ∃ m e h, (Decimal.ofNat n).toModel.unpack = .finite .positive m e h ∧ m.log2 = 52 ∧
      (Decimal.nearestBits n 1 : ℤ) = (e + 1074) * Decimal.hiddenBit + m ∧ -52 ≤ e ∧ e ≤ 12 := by
  have hlog : n.log2 < 64 := (Nat.log2_lt hn).mpr h64
  have hlow := nearestBits_positive hn
  have hhigh : Decimal.nearestBits n 1 ≤ 1087 * Decimal.hiddenBit := by
    have hup := (wholeMantissa_bounds hn).2
    rw [nearestBits_whole hn]
    refine (min_le_right _ _).trans ?_
    unfold Decimal.hiddenBit
    omega
  have hbits : (UInt64.ofNat (wholeBits n)).toBitVec.toNat = Decimal.nearestBits n 1 := by
    rw [wholeBits_toNat, wholeBits, if_neg (by omega), Nat.zero_add, Int.natAbs_natCast]
  have hofNat : Decimal.ofNat n = Decimal.ofInt n := by
    rw [Decimal.ofNat, Decimal.ofInt, Int.natAbs_natCast, decide_eq_false (by omega)]
  unfold Decimal.hiddenBit at hlow hhigh
  obtain ⟨m, e, h, hunpack, hm, heq⟩ :=
    unpack_normal (b := (UInt64.ofNat (wholeBits n)).toBitVec)
      (by rw [hbits]; unfold Decimal.hiddenBit; omega)
      (by rw [hbits]; unfold Decimal.infinityBits; omega)
  have hrange := (Nat.log2_eq_iff h.ne').mp hm
  rw [hbits] at heq
  refine ⟨m, e, h, by rw [hofNat, ofInt_unpack, hunpack], hm, heq, ?_⟩
  unfold Decimal.hiddenBit at heq
  omega

theorem roundedMantissa_le (x : ExtendedMantissa) : x.roundedMantissa ≤ x.mantissa + 1 := by
  rcases x with ⟨m, round, sticky⟩
  cases round <;> cases sticky <;>
    simp [ExtendedMantissa.roundedMantissa, ExtendedMantissa.accuracy,
      Accuracy.roundToNearestEven]
  omega

/-- Rounding a quotient below one leaves a normal double of at most one. -/
theorem round_below_one {q k : ℕ} (a : Accuracy) (hq : 2 ^ 52 ≤ q) (hlt : q < 2 ^ k)
    (hk : k ≤ 1000) :
    ∃ m e h, roundWithAccuracy Format.binary64 .positive q (-k) a = .finite .positive m e h ∧
      m.log2 = 52 ∧ -1000 ≤ e ∧ (e < -52 ∨ e = -52 ∧ m = 2 ^ 52) := by
  have hpos : 0 < q := by omega
  have hfirst : 52 ≤ q.log2 := (Nat.le_log2 hpos.ne').mpr hq
  have hlast : q.log2 < k := (Nat.log2_lt hpos.ne').mpr hlt
  have hdropped : dropped q (-k) = q.log2 - 52 := dropped_eq (by omega)
  have hlow : 2 ^ 52 ≤ (shortened q (-k) a).mantissa := by
    rw [shortened_mantissa, hdropped, Nat.le_div_iff_mul_le (Nat.two_pow_pos _), ← Nat.pow_add,
      Nat.add_sub_cancel' hfirst]
    exact Nat.log2_self_le hpos.ne'
  have hhigh := (shortened_bounds a hpos (show (-1074 : ℤ) ≤ -k by omega)).2
  have hround := le_roundedMantissa (shortened q (-k) a)
  have hcarry := roundedMantissa_le (shortened q (-k) a)
  have hagain := dropped_eq (m := (shortened q (-k) a).roundedMantissa)
    (show (-1074 : ℤ) ≤ -k + dropped q (-k) by omega)
  rw [round_eq]
  generalize (shortened q (-k) a).roundedMantissa = r at *
  simp only [shortened_mantissa, hagain]
  rcases Nat.lt_or_ge r (2 ^ 53) with hfits | hcarried
  · have hlog : r.log2 = 52 := (Nat.log2_eq_iff (by omega)).mpr ⟨by omega, by omega⟩
    simp only [hlog, Nat.sub_self, Nat.pow_zero, Nat.div_one]
    rw [dif_neg (by omega)]
    exact ⟨r, _, by omega, rfl, hlog, by omega, Or.inl (by omega)⟩
  · obtain rfl : r = 2 ^ 53 := by omega
    have hlog : Nat.log2 (2 ^ 53) = 53 := by decide
    simp only [hlog]
    exact ⟨2 ^ 52, _, by decide, rfl, by decide, by omega, by omega⟩

/-- A normal double over one that is not smaller is at most one. -/
theorem div_at_most_one {m n : ℕ} {e f : ℤ} (h : 0 < m) (h' : 0 < n) (hm : m.log2 = 52)
    (hn : n.log2 = 52) (he : -900 ≤ e - f) (hle : e < f ∨ e = f ∧ m ≤ n) :
    ∃ m' e' h'', div Format.binary64 (.finite .positive m e h) (.finite .positive n f h') =
        .finite .positive m' e' h'' ∧
      m'.log2 = 52 ∧ -1000 ≤ e' ∧ (e' < -52 ∨ e' = -52 ∧ m' = 2 ^ 52) := by
  have hrange := (Nat.log2_eq_iff h.ne').mp hm
  have hrange' := (Nat.log2_eq_iff h'.ne').mp hn
  rw [div_normal h h' hm hn (by omega)]
  by_cases hself : e = f ∧ m = n
  · obtain ⟨rfl, rfl⟩ := hself
    have hquotient : (m <<< 53) / m = 2 ^ 53 := by
      rw [Nat.shiftLeft_eq, Nat.mul_div_cancel_left _ h]
    have hexact : accuracyOfFraction ((m <<< 53) % m) m = .exact := by
      rw [Nat.shiftLeft_eq, Nat.mul_mod_right]
      exact if_pos rfl
    have hzero : e - e - 53 = -53 := by omega
    rw [hquotient, hexact, hzero]
    exact ⟨2 ^ 52, -52, by decide, rfl, by decide, by decide, Or.inr ⟨rfl, rfl⟩⟩
  · obtain ⟨k, hk⟩ : ∃ k : ℕ, e - f - 53 = -k := ⟨(53 - (e - f)).toNat, by omega⟩
    have hlow : 2 ^ 52 ≤ (m <<< 53) / n := by
      rw [Nat.le_div_iff_mul_le h', Nat.shiftLeft_eq]
      omega
    have hhigh : (m <<< 53) / n < 2 ^ k := by
      rw [Nat.div_lt_iff_lt_mul h', Nat.shiftLeft_eq]
      rcases hle with hlt | ⟨heq, hle⟩
      · have hpow : 2 ^ 54 ≤ 2 ^ k := Nat.pow_le_pow_right (by decide) (by omega)
        calc m * 2 ^ 53 < 2 ^ 54 * 2 ^ 52 := by omega
          _ ≤ 2 ^ k * n := Nat.mul_le_mul hpow hrange'.1
      · obtain rfl : k = 53 := by omega
        have hne : m ≠ n := fun hmn => hself ⟨heq, hmn⟩
        omega
    rw [hk]
    exact round_below_one _ hlow hhigh (by omega)

theorem share_bounds {hits total : ℕ} (hpos : 1 ≤ hits) (hle : hits ≤ total)
    (h64 : total < 2 ^ 64) :
    0.0 < Decimal.ofNat hits / Decimal.ofNat total ∧
      Decimal.ofNat hits / Decimal.ofNat total ≤ 1.0 := by
  obtain ⟨m, e, h, hhits, hm, hbits, he⟩ := ofNat_normal (n := hits) (by omega) (by omega)
  obtain ⟨n, f, h', htotal, hn, hbits', hf⟩ := ofNat_normal (n := total) (by omega) h64
  have hrange := (Nat.log2_eq_iff h.ne').mp hm
  have hrange' := (Nat.log2_eq_iff h'.ne').mp hn
  have hmono : (Decimal.nearestBits hits 1 : ℤ) ≤ Decimal.nearestBits total 1 := by
    exact_mod_cast nearestBits_mono (by omega) hle
  rw [hbits, hbits', Decimal.hiddenBit] at hmono
  obtain ⟨m', e', h'', hdiv, hm', he', hone⟩ :=
    div_at_most_one (e := e) (f := f) h h' hm hn (by omega) (by omega)
  have hquotient : (Decimal.ofNat hits / Decimal.ofNat total).toModel.unpack =
      .finite .positive m' e' h'' := by
    show unpack Format.binary64 (pack Format.binary64 (div Format.binary64
      (Decimal.ofNat hits).toModel.unpack (Decimal.ofNat total).toModel.unpack)) = _
    rw [hhits, htotal, hdiv, unpack_pack_normal h'' hm' (by omega) (by omega)]
  constructor
  · show decide ((0.0 : Float).toModel < (Decimal.ofNat hits / Decimal.ofNat total).toModel) = true
    rw [decide_eq_true_iff]
    show (UnpackedFloat.zero .positive).lt (Decimal.ofNat hits / Decimal.ofNat total).toModel.unpack
      = true
    rw [hquotient]
    rfl
  · show decide ((Decimal.ofNat hits / Decimal.ofNat total).toModel ≤ (1.0 : Float).toModel) = true
    rw [decide_eq_true_iff]
    show (Decimal.ofNat hits / Decimal.ofNat total).toModel.unpack.le
      (.finite .positive (2 ^ 52) (-52) (by decide)) = true
    rw [hquotient]
    rcases hone with hlt | ⟨rfl, rfl⟩
    · simp [UnpackedFloat.le, UnpackedFloat.compare, Int.compare_eq_lt.mpr hlt]
    · rfl

end Telemetry.DoubleShares
