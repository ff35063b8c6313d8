/-!
# Decimal digits

Naturals written in decimal digits and read back, with leading zeros where a
field has a fixed width.
-/

set_option autoImplicit false

namespace Telemetry.Text

def digit? (c : Char) : Option Nat :=
  if '0' ≤ c ∧ c ≤ '9' then some (c.toNat - 48) else none

def isDigit (c : Char) : Bool :=
  decide ('0' ≤ c) && decide (c ≤ '9')

theorem digit?_eq (c : Char) :
    digit? c = if isDigit c = true then some (c.toNat - 48) else none := by
  simp [digit?, isDigit]

def digitsValue (start : Nat) (cs : List Char) : Nat :=
  cs.foldl (fun n c => 10 * n + (c.toNat - 48)) start

theorem le_digitsValue (start : Nat) (cs : List Char) : start ≤ digitsValue start cs := by
  induction cs generalizing start with
  | nil => exact Nat.le_refl start
  | cons c cs ih => exact Nat.le_trans (by omega) (ih (10 * start + (c.toNat - 48)))

def readNat (cs : List Char) : Option Nat :=
  if cs ≠ [] ∧ cs.all isDigit then some (digitsValue 0 cs) else none

def readBounded (bound : Nat) (cs : List Char) : Option Nat :=
  let body := match cs with
    | '+' :: rest => rest
    | _ => cs
  match readNat body with
  | some n => if n < bound then some n else none
  | none => none

def natDigits (n : Nat) : List Char :=
  Nat.toDigits 10 n

theorem isDigit_natDigits {n : Nat} {c : Char} (h : c ∈ natDigits n) : isDigit c = true :=
  Nat.isDigit_of_mem_toDigits (by decide) (by decide) h

/-- Digits that are written are read back. -/
theorem digitsValue_natDigits (n : Nat) : digitsValue 0 (natDigits n) = n :=
  Nat.ofDigitChars_toDigits (by decide) (by decide)

def padded (width n : Nat) : List Char :=
  let ds := natDigits n
  List.replicate (width - ds.length) '0' ++ ds

def paddedText (width n : Nat) : String :=
  String.ofList (padded width n)

def natText (n : Nat) : String :=
  String.ofList (natDigits n)

def intText (n : Int) : String :=
  if n < 0 then "-" ++ natText n.natAbs else natText n.natAbs

end Telemetry.Text
