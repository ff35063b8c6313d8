import Mathlib
import Telemetry.Proofs.WaitGrowth

/-!
# Signs of doubles

A double is kept as bits and computed with as a sign, a mantissa and an
exponent. Packing and rounding keep the sign, and what lies in the range of
the normal doubles does not become zero. So whole milliseconds that are turned
into a double and divided into seconds are above zero exactly when they are.
-/

set_option autoImplicit false

namespace Telemetry.DoubleSigns

open Float.Model (Format UnpackedFloat totalExponent)
open Float.Model.UnpackedFloat

def sign? : UnpackedFloat → Option Sign
  | .notANumber => none
  | .infinity s => some s
  | .zero s => some s
  | .finite s _ _ _ => some s

def isZero : UnpackedFloat → Bool
  | .zero _ => true
  | _ => false

theorem le_zero_of_negative {u : UnpackedFloat} (h : sign? u = some .negative) :
    u.le (.zero .positive) = true := by
  cases u <;> cases h <;> rfl

theorem le_zero_of_positive {u : UnpackedFloat} (h : sign? u = some .positive) :
    u.le (.zero .positive) = isZero u := by
  cases u <;> cases h <;> rfl

theorem unpack_components (s : Sign) (e : BitVec 11) (m : BitVec 52) (he : e ≠ -1#11) :
    sign? (unpack Format.binary64 (packComponents Format.binary64 s e m)) = some s ∧
    (isZero (unpack Format.binary64 (packComponents Format.binary64 s e m)) = true →
      e = 0#11 ∧ m = 0#52) := by
  unfold unpack
  simp only [unpackExponent_packComponents, unpackMantissa_packComponents,
    unpackSign_packComponents, Sign.ofBitVec_toBitVec]
  rw [if_neg he]
  split
  · rename_i hzero
    split
    · rename_i hm
      exact ⟨rfl, fun _ => ⟨hzero, hm⟩⟩
    · exact ⟨rfl, fun h => by cases h⟩
  · exact ⟨rfl, fun h => by cases h⟩

theorem unpack_infinity (s : Sign) :
    unpack Format.binary64 (packedInfinity Format.binary64 s) = .infinity s := by
  cases s <;> rfl

theorem field_ne {k : ℕ} (h : k + 1 < 2 ^ 11) : BitVec.ofNat 11 k ≠ -1#11 := by
  intro heq
  have hnat := congrArg BitVec.toNat heq
  rw [BitVec.toNat_ofNat, Nat.mod_eq_of_lt (by omega)] at hnat
  simp at hnat
  omega

theorem pack_finite (s : Sign) {m : ℕ} {e : ℤ} (h : 0 < m) :
    sign? (unpack Format.binary64 (pack Format.binary64 (.finite s m e h))) = some s ∧
    (m < 2 ^ 53 → -1074 ≤ e →
      isZero (unpack Format.binary64 (pack Format.binary64 (.finite s m e h))) = false) := by
  have hbias : e + (Format.binary64.exponentBias : ℤ) + (52 : ℕ) = e + 1075 := by
    show e + (1023 : ℕ) + (52 : ℕ) = e + 1075
    omega
  rw [pack]
  simp only [hbias]
  split
  · rw [unpack_infinity]
    exact ⟨rfl, fun _ _ => rfl⟩
  rename_i hfield
  have hne := field_ne (Nat.lt_of_not_le hfield)
  split
  · rename_i hnormal
    obtain ⟨hsign, hzero⟩ := unpack_components s _ (BitVec.ofNat 52 m) hne
    refine ⟨hsign, fun _ he => Bool.eq_false_iff.mpr fun hz => ?_⟩
    -- a normal double has a field above zero
    have hnat := congrArg BitVec.toNat (hzero hz).1
    rw [BitVec.toNat_ofNat, Nat.mod_eq_of_lt (by omega)] at hnat
    simp at hnat
    omega
  · rename_i hsmall
    obtain ⟨hsign, hzero⟩ := unpack_components s 0#11 (BitVec.ofNat 52 m) (by decide)
    refine ⟨hsign, fun hm _ => Bool.eq_false_iff.mpr fun hz => ?_⟩
    -- and a smaller one has its whole mantissa in the fraction
    have hlog : m.log2 < 53 := (Nat.log2_lt h.ne').mpr hm
    have hlt : m < 2 ^ 52 := (Nat.log2_lt h.ne').mp (by
      have hbits : Format.binary64.mantissaBits = 53 := rfl
      omega)
    have hnat := congrArg BitVec.toNat (hzero hz).2
    rw [BitVec.toNat_ofNat, Nat.mod_eq_of_lt hlt] at hnat
    simp at hnat
    omega

theorem pack_sign {u : UnpackedFloat} {s : Sign} (h : sign? u = some s) :
    sign? (unpack Format.binary64 (pack Format.binary64 u)) = some s := by
  cases u with
  | notANumber => cases h
  | infinity t =>
    cases h
    exact congrArg sign? (unpack_infinity s)
  | zero t =>
    cases h
    exact (unpack_components s 0#11 0#52 (by decide)).1
  | finite t m e hm =>
    cases h
    exact (pack_finite s hm).1

def dropped (m : ℕ) (e : ℤ) : ℕ :=
  (Format.binary64.targetExponent (totalExponent m e) - e).toNat

def shortened (m : ℕ) (e : ℤ) (a : Accuracy) : ExtendedMantissa :=
  ExtendedMantissa.ofMantissaAndAccuracy m a >>> dropped m e

theorem shiftRight_mantissa (x : ExtendedMantissa) (k : ℕ) :
    (x >>> k).mantissa = x.mantissa / 2 ^ k := by
  induction k with
  | zero => exact (Nat.div_one _).symm
  | succ k ih =>
    show (x >>> k).mantissa / 2 = _
    rw [ih, Nat.div_div_eq_div_mul, Nat.pow_succ]

theorem shortened_mantissa (m : ℕ) (e : ℤ) (a : Accuracy) :
    (shortened m e a).mantissa = m / 2 ^ dropped m e := by
  have hstart : (ExtendedMantissa.ofMantissaAndAccuracy m a).mantissa = m := by
    rcases a with _ | o
    · rfl
    · cases o <;> rfl
  rw [shortened, shiftRight_mantissa, hstart]

theorem le_roundedMantissa (x : ExtendedMantissa) : x.mantissa ≤ x.roundedMantissa := by
  rcases x with ⟨m, round, sticky⟩
  cases round <;> cases sticky <;>
    simp [ExtendedMantissa.roundedMantissa, ExtendedMantissa.accuracy,
      Accuracy.roundToNearestEven]

theorem dropped_eq {m : ℕ} {e : ℤ} (he : -1074 ≤ e) : dropped m e = m.log2 - 52 := by
  have htarget : Format.binary64.targetExponent (totalExponent m e) =
      max (m.log2 + 1 + e - 53) (-1074) := rfl
  rw [dropped, htarget]
  omega

theorem shortened_bounds {m : ℕ} {e : ℤ} (a : Accuracy) (hm : 0 < m) (he : -1074 ≤ e) :
    0 < (shortened m e a).mantissa ∧ (shortened m e a).mantissa < 2 ^ 53 := by
  have hlow := Nat.log2_self_le hm.ne'
  have hhigh : m < 2 ^ (m.log2 + 1) := Nat.lt_log2_self
  rw [shortened_mantissa, dropped_eq he]
  constructor
  · exact Nat.div_pos ((Nat.pow_le_pow_right (by decide) (Nat.sub_le _ _)).trans hlow)
      (Nat.two_pow_pos _)
  · rw [Nat.div_lt_iff_lt_mul (Nat.two_pow_pos _), ← Nat.pow_add]
    exact hhigh.trans_le (Nat.pow_le_pow_right (by decide) (by omega))

/-- A mantissa is shortened, rounded, and shortened again if it has grown. -/
theorem round_eq (s : Sign) (m : ℕ) (e : ℤ) (a : Accuracy) :
    roundWithAccuracy Format.binary64 s m e a =
      if h : (shortened (shortened m e a).roundedMantissa (e + dropped m e) .exact).mantissa = 0
      then .zero s
      else .finite s
        (shortened (shortened m e a).roundedMantissa (e + dropped m e) .exact).mantissa
        (e + dropped m e + dropped (shortened m e a).roundedMantissa (e + dropped m e))
        (Nat.pos_of_ne_zero h) :=
  rfl

theorem round_sign (s : Sign) (m : ℕ) (e : ℤ) (a : Accuracy) :
    sign? (roundWithAccuracy Format.binary64 s m e a) = some s := by
  rw [round_eq]
  split <;> rfl

/-- Rounding leaves something of what lies above the least exponent. -/
theorem round_finite (s : Sign) {m : ℕ} {e : ℤ} (a : Accuracy) (hm : 0 < m) (he : -1074 ≤ e) :
    ∃ m' e' h, roundWithAccuracy Format.binary64 s m e a = .finite s m' e' h ∧
      m' < 2 ^ 53 ∧ -1074 ≤ e' := by
  have hround : 0 < (shortened m e a).roundedMantissa :=
    Nat.lt_of_lt_of_le (shortened_bounds a hm he).1 (le_roundedMantissa _)
  have hexponent : -1074 ≤ e + dropped m e := by omega
  obtain ⟨hpos, hlt⟩ := shortened_bounds .exact hround hexponent
  rw [round_eq, dif_neg hpos.ne']
  exact ⟨_, _, hpos, rfl, hlt, by omega⟩

def thousand : UnpackedFloat :=
  .finite .positive 8796093022208000 (-43) (by decide)

theorem thousand_eq : (1000.0 : Float).toModel.unpack = thousand := rfl

theorem div_thousand_sign {u : UnpackedFloat} {s : Sign} (h : sign? u = some s) :
    sign? (div Format.binary64 u thousand) = some s := by
  have hs : s / Sign.positive = s := by cases s <;> rfl
  cases u with
  | notANumber => cases h
  | infinity t =>
    cases h
    exact congrArg some hs
  | zero t =>
    cases h
    exact congrArg some hs
  | finite t m e hm =>
    cases h
    show sign? (roundWithAccuracy Format.binary64 (s / Sign.positive) _ _ _) = some s
    rw [hs, round_sign]

/-- A quotient of normal doubles is rounded from one with 53 places more. -/
theorem div_normal {m n : ℕ} {e f : ℤ} (h : 0 < m) (h' : 0 < n) (hm : m.log2 = 52)
    (hn : n.log2 = 52) (he : -1021 ≤ e - f) :
    div Format.binary64 (.finite .positive m e h) (.finite .positive n f h') =
      roundWithAccuracy Format.binary64 .positive ((m <<< 53) / n) (e - f - 53)
        (accuracyOfFraction ((m <<< 53) % n) n) := by
  have htarget : min (e - f) (Format.binary64.targetExponent
      (totalExponent m e - totalExponent n f)) = e - f - 53 := by
    have hmax : Format.binary64.targetExponent (totalExponent m e - totalExponent n f) =
        max ((m.log2 + 1 + e) - (n.log2 + 1 + f) - 53) (-1074) := rfl
    rw [hmax, hm, hn]
    omega
  have hshift : (e - f - (e - f - 53)).toNat = 53 := by omega
  have hcore : divCore Format.binary64 m e n f =
      ((m <<< 53) / n, e - f - 53, accuracyOfFraction ((m <<< 53) % n) n) := by
    unfold divCore
    dsimp only
    rw [htarget, hshift]
  rw [div, hcore]
  rfl

theorem div_thousand_normal {m : ℕ} {e : ℤ} (h : 0 < m) (hm : m.log2 = 52) (he : -52 ≤ e) :
    isZero (unpack Format.binary64 (pack Format.binary64
      (div Format.binary64 (.finite .positive m e h) thousand))) = false := by
  have hrange := (Nat.log2_eq_iff h.ne').mp hm
  have hquotient : 0 < (m <<< 53) / 8796093022208000 := by
    rw [Nat.shiftLeft_eq]
    omega
  obtain ⟨m', e', h', hround, hm', he'⟩ := round_finite .positive
    (accuracyOfFraction ((m <<< 53) % 8796093022208000) 8796093022208000) hquotient
    (show -1074 ≤ e - -43 - 53 by omega)
  rw [thousand, div_normal h _ hm (by decide) (by omega), hround]
  exact (pack_finite .positive h').2 hm' he'

theorem exponent_bits (b : BitVec 64) :
    (@unpackExponent Format.binary64 b).toNat = b.toNat / 2 ^ 52 % 2 ^ 11 := by
  simp [unpackExponent, Nat.shiftRight_eq_div_pow]

theorem mantissa_bits (b : BitVec 64) :
    (@unpackMantissa Format.binary64 b).toNat = b.toNat % 2 ^ 52 := by
  simp [unpackMantissa]

theorem sign_bits (b : BitVec 64) :
    Sign.ofBitVec (@unpackSign Format.binary64 b) =
      if b.toNat < Decimal.signBit then .positive else .negative := by
  have hbit : (@unpackSign Format.binary64 b).toNat = b.toNat / 2 ^ 63 % 2 := by
    simp [unpackSign, Nat.shiftRight_eq_div_pow]
  have hiff : @unpackSign Format.binary64 b = 0#1 ↔ b.toNat < Decimal.signBit := by
    have hb := b.isLt
    rw [← BitVec.toNat_inj, hbit]
    show b.toNat / 2 ^ 63 % 2 = 0 ↔ b.toNat < 0x8000000000000000
    omega
  rw [Sign.ofBitVec]
  simp only [hiff]

theorem unpack_sign {b : BitVec 64} (h : b.toNat % Decimal.signBit ≤ Decimal.infinityBits) :
    sign? (unpack Format.binary64 b) =
      some (if b.toNat < Decimal.signBit then .positive else .negative) := by
  unfold unpack
  simp only [sign_bits]
  split
  · rename_i hfield
    split
    · rfl
    · rename_i hfraction
      exfalso
      apply hfraction
      have hnat := congrArg BitVec.toNat hfield
      rw [exponent_bits] at hnat
      rw [← BitVec.toNat_inj, mantissa_bits]
      simp at hnat
      unfold Decimal.signBit Decimal.infinityBits at h
      show b.toNat % 2 ^ 52 = 0
      omega
  · split
    · split <;> rfl
    · rfl

theorem leading_bit (v : BitVec 52) : (1#1 ++ v).toNat = 2 ^ 52 + v.toNat := by
  rw [BitVec.toNat_append, ← Nat.shiftLeft_add_eq_or_of_lt v.isLt, Nat.shiftLeft_eq]
  rfl

/-- Bits with an exponent field are those of a normal double, and their number
is made of its exponent and its mantissa. -/
theorem unpack_normal {b : BitVec 64} (hlow : Decimal.hiddenBit ≤ b.toNat)
    (hhigh : b.toNat < Decimal.infinityBits) :
    ∃ m e h, unpack Format.binary64 b = .finite .positive m e h ∧ m.log2 = 52 ∧
      (b.toNat : ℤ) = (e + 1074) * Decimal.hiddenBit + m := by
  unfold Decimal.hiddenBit at hlow
  unfold Decimal.infinityBits at hhigh
  have hsign : Sign.ofBitVec (@unpackSign Format.binary64 b) = .positive := by
    rw [sign_bits, if_pos]
    unfold Decimal.signBit
    omega
  have hfield := exponent_bits b
  have hone : (1#1 ++ @unpackMantissa Format.binary64 b).toNat =
      2 ^ 52 + b.toNat % 2 ^ 52 :=
    (leading_bit _).trans (congrArg (2 ^ 52 + ·) (mantissa_bits b))
  have hpos : 0 < (1#1 ++ @unpackMantissa Format.binary64 b).toNat := by omega
  refine ⟨_, (@unpackExponent Format.binary64 b).toNat - ((1023 : ℕ) + (52 : ℕ)), hpos, ?_, ?_, ?_⟩
  · unfold unpack
    simp only [hsign]
    rw [if_neg, if_neg]
    · rfl
    · intro hzero
      rw [hzero] at hfield
      simp at hfield
      omega
    · intro hinf
      rw [hinf] at hfield
      simp at hfield
      omega
  · rw [hone, Nat.log2_eq_iff (by omega)]
    omega
  · rw [hone, hfield]
    unfold Decimal.hiddenBit
    omega

/-- Bits from those of one on are those of a normal double, or of infinity. -/
theorem unpack_large {b : BitVec 64} (hlow : 1023 * Decimal.hiddenBit ≤ b.toNat)
    (hhigh : b.toNat ≤ Decimal.infinityBits) :
    unpack Format.binary64 b = .infinity .positive ∨
    ∃ m e h, unpack Format.binary64 b = .finite .positive m e h ∧ m.log2 = 52 ∧ -52 ≤ e := by
  rcases hhigh.lt_or_eq with hfinite | hinf
  · obtain ⟨m, e, h, hb, hm, hbits⟩ := unpack_normal (by omega) hfinite
    have hrange := (Nat.log2_eq_iff h.ne').mp hm
    unfold Decimal.hiddenBit at hlow hbits
    exact Or.inr ⟨m, e, h, hb, hm, by omega⟩
  · obtain rfl : b = BitVec.ofNat 64 Decimal.infinityBits := BitVec.eq_of_toNat_eq hinf
    exact Or.inl rfl

theorem unpack_ofBits {a : UInt64} {s : Sign}
    (h : sign? (unpack Format.binary64 a.toBitVec) = some s) :
    (Float.ofBits a).toModel.unpack = unpack Format.binary64 a.toBitVec := by
  have hnumber : @isNaNBits Format.binary64 a.toBitVec ≠ true := by
    intro hnan
    obtain ⟨hfield, hfraction⟩ := of_decide_eq_true hnan
    have hunpack : unpack Format.binary64 a.toBitVec = .notANumber := by
      unfold unpack
      dsimp only
      rw [if_pos hfield, if_neg hfraction]
    rw [hunpack] at h
    cases h
  show unpack Format.binary64 (pack Format.binary64 (unpack Format.binary64 a.toBitVec)) = _
  rw [pack_unpack, if_neg hnumber]

def wholeMantissa (n : ℕ) : ℕ :=
  Decimal.roundDiv (n * 2 ^ (52 - (n.log2 : ℤ)).toNat) (2 ^ ((n.log2 : ℤ) - 52).toNat)

theorem wholeMantissa_bounds {n : ℕ} (hn : n ≠ 0) :
    2 ^ 52 ≤ wholeMantissa n ∧ wholeMantissa n ≤ 2 ^ 53 := by
  have hsplit : n.log2 + (52 - (n.log2 : ℤ)).toNat = 52 + ((n.log2 : ℤ) - 52).toNat := by omega
  have hlow : 2 ^ 52 ≤ n * 2 ^ (52 - (n.log2 : ℤ)).toNat / 2 ^ ((n.log2 : ℤ) - 52).toNat := by
    rw [Nat.le_div_iff_mul_le (Nat.two_pow_pos _), ← Nat.pow_add, ← hsplit, Nat.pow_add]
    exact Nat.mul_le_mul_right _ (Nat.log2_self_le hn)
  have hhigh : n * 2 ^ (52 - (n.log2 : ℤ)).toNat / 2 ^ ((n.log2 : ℤ) - 52).toNat < 2 ^ 53 := by
    rw [Nat.div_lt_iff_lt_mul (Nat.two_pow_pos _), ← Nat.pow_add]
    calc n * 2 ^ (52 - (n.log2 : ℤ)).toNat
        < 2 ^ (n.log2 + 1) * 2 ^ (52 - (n.log2 : ℤ)).toNat :=
          Nat.mul_lt_mul_of_pos_right Nat.lt_log2_self (Nat.two_pow_pos _)
      _ = 2 ^ (53 + ((n.log2 : ℤ) - 52).toNat) := by
          rw [← Nat.pow_add]
          congr 1
          omega
  have hup : wholeMantissa n ≤
      n * 2 ^ (52 - (n.log2 : ℤ)).toNat / 2 ^ ((n.log2 : ℤ) - 52).toNat + 1 := by
    unfold wholeMantissa Decimal.roundDiv
    dsimp only
    repeat' split
    all_goals omega
  exact ⟨hlow.trans (WaitGrowth.div_le_roundDiv _ _), by omega⟩

/-- The last place of a whole number lies 52 places below its first. -/
theorem nearestBits_whole {n : ℕ} (hn : n ≠ 0) :
    Decimal.nearestBits n 1 = min Decimal.infinityBits
      ((n.log2 + 1022) * Decimal.hiddenBit + wholeMantissa n) := by
  have hone : Nat.log2 1 = 0 := by decide
  have hguess : (n.log2 : ℤ) - ((0 : ℕ) : ℤ) - 52 = (n.log2 : ℤ) - 52 := by omega
  have hneg : (-((n.log2 : ℤ) - 52)).toNat = (52 - (n.log2 : ℤ)).toNat := by omega
  have hscaled : 2 ^ 52 * 2 ^ ((n.log2 : ℤ) - 52).toNat ≤ n * 2 ^ (52 - (n.log2 : ℤ)).toNat := by
    calc 2 ^ 52 * 2 ^ ((n.log2 : ℤ) - 52).toNat
        = 2 ^ n.log2 * 2 ^ (52 - (n.log2 : ℤ)).toNat := by
          rw [← Nat.pow_add, ← Nat.pow_add]
          congr 1
          omega
      _ ≤ n * 2 ^ (52 - (n.log2 : ℤ)).toNat := Nat.mul_le_mul_right _ (Nat.log2_self_le hn)
  have hplace : Decimal.lastPlace n 1 = (n.log2 : ℤ) - 52 := by
    unfold Decimal.lastPlace
    rw [hone]
    dsimp only
    rw [hguess, if_neg]
    · omega
    · simp only [Decimal.twoPow, Nat.one_mul, Nat.not_lt, hneg]
      exact hscaled
  have hunit : ((n.log2 : ℤ) - 52 + 1074).toNat = n.log2 + 1022 := by omega
  rw [Decimal.nearestBits, if_neg hn, hplace, Decimal.encodeWith, hunit, hneg, wholeMantissa,
    Nat.one_mul]
  rfl

theorem nearestBits_positive {n : ℕ} (hn : n ≠ 0) :
    1023 * Decimal.hiddenBit ≤ Decimal.nearestBits n 1 := by
  have hlow := (wholeMantissa_bounds hn).1
  rw [nearestBits_whole hn]
  refine le_min (by decide) ?_
  unfold Decimal.hiddenBit
  omega

theorem nearestBits_le (num den : ℕ) : Decimal.nearestBits num den ≤ Decimal.infinityBits := by
  unfold Decimal.nearestBits
  split
  · exact Nat.zero_le _
  · exact min_le_left _ _

def wholeBits (n : ℤ) : ℕ :=
  (if n < 0 then Decimal.signBit else 0) + Decimal.nearestBits n.natAbs 1

theorem ofInt_bits (n : ℤ) : Decimal.ofInt n = Float.ofBits (UInt64.ofNat (wholeBits n)) := by
  simp only [Decimal.ofInt, Decimal.nearest, Decimal.signedBits, wholeBits, decide_eq_true_eq]

theorem wholeBits_toNat (n : ℤ) : (UInt64.ofNat (wholeBits n)).toBitVec.toNat = wholeBits n := by
  have hbits := nearestBits_le n.natAbs 1
  unfold Decimal.infinityBits at hbits
  rw [UInt64.toNat_toBitVec, UInt64.toNat_ofNat', wholeBits]
  unfold Decimal.signBit
  split <;> omega

theorem wholeBits_sign (n : ℤ) :
    sign? (unpack Format.binary64 (UInt64.ofNat (wholeBits n)).toBitVec) =
      some (if n < 0 then .negative else .positive) := by
  have hbits := nearestBits_le n.natAbs 1
  rw [unpack_sign] <;> rw [wholeBits_toNat, wholeBits]
  · unfold Decimal.infinityBits at hbits
    unfold Decimal.signBit
    by_cases hn : n < 0 <;> simp [hn]
    omega
  · unfold Decimal.infinityBits at *
    unfold Decimal.signBit
    split <;> omega

theorem ofInt_unpack (n : ℤ) :
    (Decimal.ofInt n).toModel.unpack =
      unpack Format.binary64 (UInt64.ofNat (wholeBits n)).toBitVec := by
  rw [ofInt_bits]
  exact unpack_ofBits (wholeBits_sign n)

theorem ofInt_sign (n : ℤ) :
    sign? (Decimal.ofInt n).toModel.unpack = some (if n < 0 then .negative else .positive) := by
  rw [ofInt_unpack, wholeBits_sign]

/-- A whole number above zero is turned into a normal double from one on, or
into infinity. -/
theorem ofInt_positive {n : ℤ} (hn : 0 < n) :
    (Decimal.ofInt n).toModel.unpack = .infinity .positive ∨
    ∃ m e h, (Decimal.ofInt n).toModel.unpack = .finite .positive m e h ∧ m.log2 = 52 ∧
      -52 ≤ e := by
  have hlow := nearestBits_positive (show n.natAbs ≠ 0 by omega)
  have hhigh := nearestBits_le n.natAbs 1
  have hbits : (UInt64.ofNat (wholeBits n)).toBitVec.toNat = Decimal.nearestBits n.natAbs 1 := by
    rw [wholeBits_toNat, wholeBits, if_neg (by omega), Nat.zero_add]
  rw [ofInt_unpack]
  exact unpack_large (hbits.symm ▸ hlow) (hbits.symm ▸ hhigh)

/-- Whole milliseconds are seconds above zero exactly when they are above
zero themselves. -/
theorem seconds_nonpos (n : ℤ) : Decimal.ofInt n / 1000.0 ≤ 0.0 ↔ n ≤ 0 := by
  have hle : Decimal.ofInt n / 1000.0 ≤ 0.0 ↔
      (unpack Format.binary64 (pack Format.binary64
        (div Format.binary64 (Decimal.ofInt n).toModel.unpack thousand))).le
          (.zero .positive) = true := by
    rw [← thousand_eq]
    show decide ((Decimal.ofInt n / 1000.0).toModel ≤ (0.0 : Float).toModel) = true ↔ _
    rw [decide_eq_true_iff]
    exact Iff.rfl
  rw [hle]
  rcases Int.lt_trichotomy n 0 with hn | hn | hn
  · have hsign := pack_sign (div_thousand_sign (ofInt_sign n))
    rw [if_pos hn] at hsign
    rw [le_zero_of_negative hsign]
    simp only [true_iff]
    exact hn.le
  · subst hn
    decide
  · have hsign := pack_sign (div_thousand_sign (ofInt_sign n))
    rw [if_neg (by omega)] at hsign
    rw [le_zero_of_positive hsign]
    rcases ofInt_positive hn with hinf | ⟨m, e, h, hfin, hm, he⟩
    · have hzero : isZero (unpack Format.binary64 (pack Format.binary64
          (div Format.binary64 (.infinity .positive) thousand))) = false := rfl
      rw [hinf, hzero]
      simp
      omega
    · rw [hfin, div_thousand_normal h hm he]
      simp
      omega

end Telemetry.DoubleSigns
