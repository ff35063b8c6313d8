import Telemetry.Json.Parser
import Telemetry.Json.Printer
import Mathlib.Data.Nat.Basic
import Mathlib.Tactic.IntervalCases

/-!
# Numbers as they are written

A number in a document is a sign, digits, the digits after a point and an
exponent. Every integer and every finite double is written as one number, and
what stands behind the number does not change how it is read.
-/

set_option autoImplicit false

namespace Telemetry.WrittenNumbers

open Json (Number)
open Decimal (Numeral)

structure Run (ds : List Char) : Prop where
  nonempty : ds ≠ []
  digits : ∀ c ∈ ds, Text.isDigit c = true

theorem natDigits_run (n : ℕ) : Run (Text.natDigits n) :=
  ⟨Nat.toDigits_ne_nil, fun _ => Text.isDigit_natDigits⟩

theorem Run.append {ds es : List Char} (h : Run ds) (he : ∀ c ∈ es, Text.isDigit c = true) :
    Run (ds ++ es) := by
  constructor
  · simp [h.nonempty]
  · intro c hc
    rcases List.mem_append.mp hc with hc | hc
    · exact h.digits c hc
    · exact he c hc

theorem isDigit_zeros {n : ℕ} {c : Char} (h : c ∈ List.replicate n '0') :
    Text.isDigit c = true := by
  rw [List.eq_of_mem_replicate h]
  decide

theorem zero_run : Run ['0'] := by
  constructor
  · exact List.cons_ne_nil _ _
  · intro c hc
    rw [List.mem_singleton.mp hc]
    decide

theorem natDigits_step {n : ℕ} (h : 10 ≤ n) :
    Text.natDigits n = Text.natDigits (n / 10) ++ Text.natDigits (n % 10) := by
  have hmod : n % 10 < 10 := Nat.mod_lt n (by decide)
  have hpos : 0 < n / 10 := Nat.div_pos h (by decide)
  have hsplit : 10 * (n / 10) + n % 10 = n := Nat.div_add_mod n 10
  unfold Text.natDigits
  rw [Nat.toDigits_append_toDigits (by decide) hpos hmod, hsplit]

theorem natDigits_head {n : ℕ} {tail : List Char} (h : Text.natDigits n = '0' :: tail) :
    n = 0 := by
  induction n using Nat.strong_induction_on generalizing tail with
  | _ n ih =>
    by_cases hn : n < 10
    · have hone : Text.natDigits n = [n.digitChar] := Nat.toDigits_of_lt_base hn
      have hzero : n.digitChar = '0' := (List.cons.inj (hone.symm.trans h)).1
      interval_cases n
      · rfl
      all_goals exact absurd hzero (by decide)
    · have hstep := natDigits_step (Nat.not_lt.mp hn)
      cases hfront : Text.natDigits (n / 10) with
      | nil => exact absurd hfront (natDigits_run _).nonempty
      | cons c front =>
        rw [hfront, h, List.cons_append] at hstep
        have hc : c = '0' := (List.cons.inj hstep).1.symm
        have hquotient := ih (n / 10) (by omega) (hc ▸ hfront)
        omega

def Plain (ds : List Char) : Prop := ∀ tail, ds = '0' :: tail → tail = []

theorem natDigits_plain (n : ℕ) : Plain (Text.natDigits n) := by
  intro tail h
  have hn := natDigits_head h
  subst hn
  exact (List.cons.inj h).2.symm

def placesChars : Option (List Char) → List Char
  | none => []
  | some ds => '.' :: ds

def powerChars : Option (Bool × List Char) → List Char
  | none => []
  | some (negative, ds) => 'e' :: (if negative then '-' else '+') :: ds

def magnitude (n : Number) : List Char :=
  n.whole ++ (placesChars n.places ++ powerChars n.exponent)

structure Proper (n : Number) : Prop where
  whole : Run n.whole
  plain : Plain n.whole
  places : ∀ ds ∈ n.places, Run ds
  power : ∀ p ∈ n.exponent, Run p.2

def Stops (rest : List Char) : Prop :=
  ∀ c ∈ rest.head?, Text.isDigit c = false ∧ c ≠ '.' ∧ c ≠ 'e' ∧ c ≠ 'E'

theorem spanDigits_run {ds rest : List Char} (h : Run ds)
    (hrest : ∀ c ∈ rest.head?, Text.isDigit c = false) :
    Decimal.spanDigits (ds ++ rest) = (ds, rest) := by
  have htake : rest.takeWhile Text.isDigit = [] := by
    cases rest with
    | nil => rfl
    | cons c rest => exact List.takeWhile_cons_of_neg (by simp [hrest c rfl])
  have hdrop : rest.dropWhile Text.isDigit = rest := by
    cases rest with
    | nil => rfl
    | cons c rest => exact List.dropWhile_cons_of_neg (by simp [hrest c rfl])
  unfold Decimal.spanDigits
  rw [List.takeWhile_append_of_pos h.digits, List.dropWhile_append_of_pos h.digits, htake, hdrop,
    List.append_nil]

theorem readDigits_run {ds rest : List Char} (h : Run ds)
    (hrest : ∀ c ∈ rest.head?, Text.isDigit c = false) :
    Json.readDigits (ds ++ rest) = some (ds, rest) := by
  unfold Json.readDigits
  rw [spanDigits_run h hrest]
  cases ds with
  | nil => exact absurd rfl h.nonempty
  | cons c ds => rfl

theorem readWhole_run {ds rest : List Char} (h : Run ds) (hplain : Plain ds)
    (hrest : ∀ c ∈ rest.head?, Text.isDigit c = false) :
    Json.readWhole (ds ++ rest) = some (ds, rest) := by
  unfold Json.readWhole
  rw [spanDigits_run h hrest]
  split
  · rename_i hnil
    exact absurd (congrArg Prod.fst hnil) h.nonempty
  · rename_i next tail _ hzero
    have htail := hplain (next :: tail) (congrArg Prod.fst hzero)
    cases htail
  · rename_i heq
    cases heq
    rfl

theorem powerChars_stops {p : Option (Bool × List Char)} {rest : List Char} (hrest : Stops rest) :
    ∀ c ∈ (powerChars p ++ rest).head?, Text.isDigit c = false ∧ c ≠ '.' := by
  intro c hc
  cases p with
  | none => exact ⟨(hrest c hc).1, (hrest c hc).2.1⟩
  | some p =>
    cases hc
    decide

theorem readPower_chars {p : Option (Bool × List Char)} {rest : List Char}
    (hp : ∀ q ∈ p, Run q.2) (hrest : Stops rest) :
    Json.readPower (powerChars p ++ rest) = some (p, rest) := by
  cases p with
  | none =>
    cases rest with
    | nil => rfl
    | cons c rest =>
      obtain ⟨-, -, hsmall, hlarge⟩ := hrest c rfl
      show Json.readPower (c :: rest) = some (none, c :: rest)
      rw [Json.readPower, if_neg (by simp [hsmall, hlarge])]
  | some q =>
    obtain ⟨negative, ds⟩ := q
    have hread := readDigits_run (hp _ rfl) fun c hc => (hrest c hc).1
    cases negative <;> simp [powerChars, Json.readPower, Json.readSign, hread]

theorem readPlaces_chars {places : Option (List Char)} {rest : List Char}
    (hp : ∀ ds ∈ places, Run ds)
    (hrest : ∀ c ∈ rest.head?, Text.isDigit c = false ∧ c ≠ '.') :
    Json.readPlaces (placesChars places ++ rest) = some (places, rest) := by
  cases places with
  | none =>
    cases rest with
    | nil => rfl
    | cons c rest =>
      have hpoint := (hrest c rfl).2
      show Json.readPlaces (c :: rest) = some (none, c :: rest)
      unfold Json.readPlaces
      split
      · rename_i heq
        exact absurd (List.cons.inj heq).1 hpoint
      · rfl
  | some ds =>
    have hread := readDigits_run (hp ds rfl) fun c hc => (hrest c hc).1
    show Json.readPlaces ('.' :: (ds ++ rest)) = some (some ds, rest)
    rw [Json.readPlaces, hread]
    rfl

theorem placesChars_stops {places : Option (List Char)} {rest : List Char}
    (hrest : ∀ c ∈ rest.head?, Text.isDigit c = false ∧ c ≠ '.') :
    ∀ c ∈ (placesChars places ++ rest).head?, Text.isDigit c = false := by
  intro c hc
  cases places with
  | none => exact (hrest c hc).1
  | some ds =>
    cases hc
    decide

theorem readNumber_magnitude (read : Number → Json) {n : Number} {rest : List Char}
    (h : Proper n) (hrest : Stops rest) :
    Json.readNumber read n.negative (magnitude n ++ rest) = some (read n, rest) := by
  have hpower := powerChars_stops (p := n.exponent) hrest
  have hplaces : ∀ c ∈ (placesChars n.places ++ (powerChars n.exponent ++ rest)).head?,
      Text.isDigit c = false := placesChars_stops hpower
  unfold Json.readNumber magnitude
  rw [List.append_assoc, List.append_assoc, readWhole_run h.whole h.plain hplaces]
  dsimp only
  rw [readPlaces_chars h.places hpower]
  dsimp only
  rw [readPower_chars h.power hrest]

theorem magnitude_head {n : Number} (h : Proper n) :
    ∃ c tail, magnitude n = c :: tail ∧ Text.isDigit c = true := by
  cases hw : n.whole with
  | nil => exact absurd hw h.whole.nonempty
  | cons c tail =>
    refine ⟨c, tail ++ (placesChars n.places ++ powerChars n.exponent), ?_, ?_⟩
    · rw [magnitude, hw, List.cons_append]
    · exact h.whole.digits c (by simp [hw])

def ofInt (n : ℤ) : Number :=
  ⟨decide (n < 0), Text.natDigits n.natAbs, none, none⟩

theorem ofInt_negative (n : ℤ) : (ofInt n).negative = decide (n < 0) := rfl

theorem ofInt_isInteger (n : ℤ) : (ofInt n).isInteger = true := rfl

theorem ofInt_whole (n : ℤ) : Text.digitsValue 0 (ofInt n).whole = n.natAbs :=
  Text.digitsValue_natDigits _

theorem ofInt_proper (n : ℤ) : Proper (ofInt n) :=
  ⟨natDigits_run _, natDigits_plain _, by simp [ofInt], by simp [ofInt]⟩

def signed (n : Number) : List Char :=
  if n.negative then '-' :: magnitude n else magnitude n

theorem intText_chars (n : ℤ) : (Text.intText n).toList = signed (ofInt n) := by
  have hmagnitude : magnitude (ofInt n) = Text.natDigits n.natAbs := by
    simp [magnitude, ofInt, placesChars, powerChars]
  unfold Text.intText Text.natText signed
  rw [hmagnitude, ofInt_negative]
  by_cases h : n < 0
  · simp [h]
  · simp [h]

def wide (digits : List Char) (places : ℕ) : List Char :=
  List.replicate (places + 1 - digits.length) '0' ++ digits

def positional (negative : Bool) (d : Numeral) : Number :=
  if 0 ≤ d.exponent then ⟨negative, d.plain, some ['0'], none⟩
  else
    let places := (-d.exponent).toNat
    let digits := wide (Text.natDigits d.digits) places
    ⟨negative, digits.take (digits.length - places), some (digits.drop (digits.length - places)),
      none⟩

def power (d : Numeral) : ℤ :=
  d.exponent + ((Text.natDigits d.digits).length : ℤ) - 1

def scientific (negative : Bool) (d : Numeral) : Number :=
  let digits := Text.natDigits d.digits
  ⟨negative, digits.take 1, if digits.tail = [] then none else some digits.tail,
    some (decide (power d < 0), Text.natDigits (power d).natAbs)⟩

def ofNumeral (negative : Bool) (d : Numeral) : Number :=
  if d.digits = 0 ∨ (-5 ≤ power d ∧ power d ≤ 15) then positional negative d
  else scientific negative d

def ofFloat (x : Float) : Number :=
  ofNumeral (Decimal.isNegative x) (Decimal.shortestOf x)

theorem plain_digits (d : Numeral) (h : 0 ≤ d.exponent) : Run d.plain ∧ Plain d.plain := by
  unfold Decimal.Numeral.plain
  rw [if_pos h]
  split
  · exact ⟨zero_run, fun tail htail => (List.cons.inj htail).2.symm⟩
  · rename_i hzero
    refine ⟨(natDigits_run _).append fun _ => isDigit_zeros, fun tail htail => ?_⟩
    cases hds : Text.natDigits d.digits with
    | nil => exact absurd hds (natDigits_run _).nonempty
    | cons c ds =>
      rw [hds, List.cons_append] at htail
      have hc : c = '0' := (List.cons.inj htail).1
      exact absurd (natDigits_head (hc ▸ hds)) hzero

theorem wide_digits {digits : List Char} (h : Run digits) (places : ℕ) :
    ∀ c ∈ wide digits places, Text.isDigit c = true := by
  intro c hc
  rcases List.mem_append.mp hc with hc | hc
  · exact isDigit_zeros hc
  · exact h.digits c hc

theorem wide_length (digits : List Char) (places : ℕ) :
    (wide digits places).length = max (places + 1) digits.length := by
  simp only [wide, List.length_append, List.length_replicate]
  omega

theorem wide_plain {digits : List Char} (h : Plain digits) (places : ℕ) :
    Plain ((wide digits places).take ((wide digits places).length - places)) := by
  intro tail htail
  have hlength := congrArg List.length htail
  rw [List.length_take, wide_length] at hlength
  by_cases hshort : digits.length ≤ places + 1
  · apply List.eq_nil_of_length_eq_zero
    rw [List.length_cons] at hlength
    omega
  · have hwide : wide digits places = digits := by
      rw [wide, show places + 1 - digits.length = 0 by omega]
      rfl
    rw [hwide] at htail
    cases digits with
    | nil => simp at htail
    | cons c ds =>
      rw [List.take_cons (by simp at hshort ⊢; omega)] at htail
      have hds := h ds (by rw [(List.cons.inj htail).1])
      simp [hds] at hshort

theorem positional_proper (negative : Bool) (d : Numeral) : Proper (positional negative d) := by
  unfold positional
  split
  · rename_i h
    obtain ⟨hrun, hplain⟩ := plain_digits d h
    refine ⟨hrun, hplain, fun ds hds => ?_, by simp⟩
    cases hds
    exact zero_run
  · rename_i h
    have hrun := natDigits_run d.digits
    have hlength := wide_length (Text.natDigits d.digits) (-d.exponent).toNat
    refine ⟨⟨?_, fun c hc => wide_digits hrun _ c (List.mem_of_mem_take hc)⟩,
      wide_plain (natDigits_plain _) _, fun ds hds => ?_, by simp⟩
    · apply List.ne_nil_of_length_pos
      rw [List.length_take, hlength]
      omega
    · cases hds
      refine ⟨?_, fun c hc => wide_digits hrun _ c (List.mem_of_mem_drop hc)⟩
      apply List.ne_nil_of_length_pos
      rw [List.length_drop, hlength]
      omega

theorem scientific_proper (negative : Bool) (d : Numeral) : Proper (scientific negative d) := by
  have hrun := natDigits_run d.digits
  cases hds : Text.natDigits d.digits with
  | nil => exact absurd hds hrun.nonempty
  | cons c tail =>
    rw [hds] at hrun
    have htail : ∀ e ∈ tail, Text.isDigit e = true :=
      fun e he => hrun.digits e (List.mem_cons_of_mem c he)
    unfold scientific
    rw [hds]
    refine ⟨⟨by simp, ?_⟩, ?_, ?_, ?_⟩
    · intro e he
      exact hrun.digits e (List.mem_of_mem_take he)
    · intro rest hrest
      exact (List.cons.inj hrest).2.symm
    · intro places hplaces
      by_cases hnil : tail = []
      · simp [hnil] at hplaces
      · have heq : tail = places := by simpa [hnil] using hplaces
        exact heq ▸ ⟨hnil, htail⟩
    · intro p hp
      cases hp
      exact natDigits_run _

theorem ofNumeral_proper (negative : Bool) (d : Numeral) : Proper (ofNumeral negative d) := by
  unfold ofNumeral
  split
  · exact positional_proper negative d
  · exact scientific_proper negative d

theorem ofNumeral_negative (negative : Bool) (d : Numeral) :
    (ofNumeral negative d).negative = negative := by
  unfold ofNumeral positional scientific
  split
  · split <;> rfl
  · rfl

theorem magnitude_positional (negative : Bool) (d : Numeral) :
    magnitude (positional negative d) = d.positional := by
  unfold positional Decimal.Numeral.positional
  split
  · rfl
  · rename_i h
    unfold Decimal.Numeral.plain Decimal.withPoint magnitude
    rw [if_neg h]
    simp [placesChars, powerChars, wide]

theorem magnitude_scientific (negative : Bool) (d : Numeral) :
    magnitude (scientific negative d) = d.scientific := by
  have hnonempty := (natDigits_run d.digits).nonempty
  unfold magnitude scientific Decimal.Numeral.scientific power
  cases hds : Text.natDigits d.digits with
  | nil => exact absurd hds hnonempty
  | cons c tail => cases tail <;> simp [placesChars, powerChars]

theorem magnitude_ofNumeral (negative : Bool) (d : Numeral) :
    magnitude (ofNumeral negative d) = d.document := by
  have hdocument : d.document =
      if d.digits = 0 ∨ (-5 ≤ power d ∧ power d ≤ 15) then d.positional else d.scientific := rfl
  rw [hdocument, ofNumeral]
  split
  · exact magnitude_positional negative d
  · exact magnitude_scientific negative d

theorem ofFloat_proper (x : Float) : Proper (ofFloat x) :=
  ofNumeral_proper _ _

theorem documentText_chars (x : Float) : (Decimal.documentText x).toList = signed (ofFloat x) := by
  unfold Decimal.documentText Decimal.signed signed ofFloat
  rw [ofNumeral_negative, magnitude_ofNumeral, String.toList_ofList]

theorem ofFloat_fractional (x : Float) : (ofFloat x).isInteger = false := by
  unfold ofFloat ofNumeral positional scientific Json.Number.isInteger
  split
  · split <;> rfl
  · simp

end Telemetry.WrittenNumbers
