import Mathlib.Data.Nat.Basic
import Mathlib.Data.String.Basic
import Mathlib.Tactic.IntervalCases
import Mathlib.Tactic.Positivity

/-!
# The bytes of texts

A text is kept as the bytes of its characters, one character after the other.
Bytes keep the order of texts, so a listing in the order of texts is one in the
order of bytes. A byte below 128 stands for one character and is no part of
any other, so a text can be cut at such a character by looking at bytes.
-/

set_option autoImplicit false

namespace Telemetry.TextBytes

def encoded (cs : List Char) : List UInt8 := cs.flatMap String.utf8EncodeChar

theorem toUTF8_encoded (s : String) : s.toUTF8.data.toList = encoded s.toList := by
  conv => lhs; rw [← String.ofList_toList (s := s)]
  exact List.toList_data_toByteArray

def continued : ℕ → ℕ → List UInt8
  | 0, _ => []
  | k + 1, v => UInt8.ofNat (v / 64 ^ k % 64 + 128) :: continued k v

/-- A character of so many bytes after the first one: what the first byte adds
to its share of the code, and the codes that are written so. -/
structure Shape where
  mark : ℕ
  low : ℕ
  high : ℕ

def shape : ℕ → Shape
  | 0 => ⟨0, 0, 0x80⟩
  | 1 => ⟨192, 0x80, 0x800⟩
  | 2 => ⟨224, 0x800, 0x10000⟩
  | _ => ⟨240, 0x10000, 0x110000⟩

theorem code_lt (c : Char) : c.toNat < 0x110000 := by
  have h : c.val.toNat < 0xD800 ∨ 0xDFFF < c.val.toNat ∧ c.val.toNat < 0x110000 := c.valid
  show c.val.toNat < 0x110000
  omega

theorem encode_shape (c : Char) : ∃ k, k < 4 ∧ (shape k).low ≤ c.toNat ∧ c.toNat < (shape k).high ∧
    String.utf8EncodeChar c = UInt8.ofNat (c.toNat / 64 ^ k + (shape k).mark) :: continued k c.toNat := by
  have hcode := code_lt c
  have hval : c.val.toNat = c.toNat := rfl
  unfold String.utf8EncodeChar
  rw [hval]
  dsimp only
  split
  · exact ⟨0, by decide, by simp [shape], by simp only [shape]; omega, by simp [shape, continued]⟩
  split
  · refine ⟨1, by decide, by simp only [shape]; omega, by simp only [shape]; omega, ?_⟩
    rw [Nat.mod_eq_of_lt (by omega)]
    simp [shape, continued]
  split
  · refine ⟨2, by decide, by simp only [shape]; omega, by simp only [shape]; omega, ?_⟩
    rw [Nat.mod_eq_of_lt (by omega)]
    simp [shape, continued]
  · refine ⟨3, by decide, by simp only [shape]; omega, by simp only [shape]; omega, ?_⟩
    rw [Nat.mod_eq_of_lt (by omega)]
    simp [shape, continued]

/-- Two bytes that differ decide, and equal ones leave it to the rest. -/
theorem cons_lt {m n : ℕ} {x y : List UInt8} (hn : n < 256) (h : m < n ∨ m = n ∧ x < y) :
    UInt8.ofNat m :: x < UInt8.ofNat n :: y := by
  rw [List.cons_lt_cons_iff]
  rcases h with h | ⟨rfl, h⟩
  · left
    rw [UInt8.lt_iff_toNat_lt, UInt8.toNat_ofNat', UInt8.toNat_ofNat']
    omega
  · exact Or.inr ⟨rfl, h⟩

theorem continued_lt {k m n : ℕ} (h : m % 64 ^ k < n % 64 ^ k) (x y : List UInt8) :
    continued k m ++ x < continued k n ++ y := by
  induction k with
  | zero => simp [Nat.mod_one] at h
  | succ k ih =>
    apply cons_lt (by omega)
    have hm : m % 64 ^ (k + 1) = 64 ^ k * (m / 64 ^ k % 64) + m % 64 ^ k := by
      rw [pow_succ, Nat.mod_mul, Nat.add_comm]
    have hn : n % 64 ^ (k + 1) = 64 ^ k * (n / 64 ^ k % 64) + n % 64 ^ k := by
      rw [pow_succ, Nat.mod_mul, Nat.add_comm]
    rw [hm, hn] at h
    rcases Nat.lt_trichotomy (m / 64 ^ k % 64) (n / 64 ^ k % 64) with hlt | heq | hgt
    · left
      omega
    · right
      rw [heq] at h ⊢
      exact ⟨rfl, ih (by omega)⟩
    · have hover := Nat.mul_le_mul_left (64 ^ k) (Nat.succ_le_of_lt hgt)
      have hrest : n % 64 ^ k < 64 ^ k := Nat.mod_lt _ (by positivity)
      rw [Nat.mul_succ] at hover
      omega

/-- A character before another one has bytes before its bytes, whatever
follows. -/
theorem encode_lt {c d : Char} (h : c.toNat < d.toNat) (x y : List UInt8) :
    String.utf8EncodeChar c ++ x < String.utf8EncodeChar d ++ y := by
  obtain ⟨j, hj, hjlow, hjhigh, hc⟩ := encode_shape c
  obtain ⟨k, hk, hklow, hkhigh, hd⟩ := encode_shape d
  rw [hc, hd]
  rcases Nat.lt_trichotomy j k with hlt | rfl | hgt
  · apply cons_lt
    · interval_cases k <;> simp only [shape] at * <;> omega
    · left
      interval_cases k <;> interval_cases j <;> simp only [shape] at * <;> omega
  · apply cons_lt
    · interval_cases j <;> simp only [shape] at * <;> omega
    · rcases Nat.lt_or_eq_of_le (Nat.div_le_div_right (c := 64 ^ j) h.le) with hlt | heq
      · left
        omega
      · right
        rw [heq]
        refine ⟨rfl, continued_lt ?_ x y⟩
        have hc := Nat.div_add_mod c.toNat (64 ^ j)
        have hd := Nat.div_add_mod d.toNat (64 ^ j)
        rw [heq] at hc
        omega
  · exfalso
    interval_cases j <;> interval_cases k <;> simp only [shape] at * <;> omega

theorem continued_large {k v : ℕ} {b : UInt8} (hb : b ∈ continued k v) : 128 ≤ b.toNat := by
  induction k with
  | zero => cases hb
  | succ k ih =>
    rcases List.mem_cons.mp hb with rfl | hb
    · rw [UInt8.toNat_ofNat']
      omega
    · exact ih hb

/-- A byte below 128 stands for the character of that code, and only for it. -/
theorem mem_encode_iff {b : UInt8} (hb : b.toNat < 128) (c : Char) :
    b ∈ String.utf8EncodeChar c ↔ c.toNat = b.toNat := by
  obtain ⟨k, hk, hlow, hhigh, hc⟩ := encode_shape c
  have hlast : b ∉ continued k c.toNat := fun h => absurd (continued_large h) (by omega)
  have hfirst : b = UInt8.ofNat (c.toNat / 64 ^ k + (shape k).mark) ↔ c.toNat = b.toNat := by
    rw [← UInt8.toNat_inj, UInt8.toNat_ofNat']
    interval_cases k <;> simp only [shape] at * <;> omega
  rw [hc, List.mem_cons, hfirst, or_iff_left hlast]

theorem encoded_lt {cs ds : List Char} (h : cs < ds) : encoded cs < encoded ds := by
  induction cs generalizing ds with
  | nil =>
    cases ds with
    | nil => simp at h
    | cons d ds =>
      obtain ⟨k, -, -, -, hd⟩ := encode_shape d
      rw [encoded, encoded, List.flatMap_cons, hd]
      exact List.nil_lt_cons _ _
  | cons c cs ih =>
    cases ds with
    | nil => simp at h
    | cons d ds =>
      rw [List.cons_lt_cons_iff] at h
      rcases h with h | ⟨rfl, h⟩
      · exact encode_lt h _ _
      · exact List.append_left_lt (ih h)

theorem lt_iff_bytes (s t : String) :
    s < t ↔ s.toUTF8.data.toList < t.toUTF8.data.toList := by
  have hbytes : ∀ s t : String, s < t → s.toUTF8.data.toList < t.toUTF8.data.toList := by
    intro s t h
    rw [toUTF8_encoded, toUTF8_encoded]
    exact encoded_lt h
  constructor
  · exact hbytes s t
  · intro h
    rcases lt_trichotomy s t with hlt | rfl | hgt
    · exact hlt
    · exact absurd h (List.lt_irrefl _)
    · exact absurd h (List.lt_asymm (hbytes t s hgt))

theorem mem_encoded_iff {c : Char} (hc : c.toNat < 128) (cs : List Char) :
    UInt8.ofNat c.toNat ∈ encoded cs ↔ c ∈ cs := by
  have hb : (UInt8.ofNat c.toNat).toNat = c.toNat := by
    rw [UInt8.toNat_ofNat']
    omega
  rw [encoded, List.mem_flatMap]
  constructor
  · rintro ⟨d, hd, hmem⟩
    rw [mem_encode_iff (by omega), hb] at hmem
    rwa [← Char.toNat_inj.mp hmem]
  · intro h
    exact ⟨c, h, (mem_encode_iff (by omega) c).mpr hb.symm⟩

end Telemetry.TextBytes
