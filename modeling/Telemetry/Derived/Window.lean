import Telemetry.Timestamp.Basic
import Telemetry.Decimal.Binary64

/-!
# Observation windows

A window opens with the first sample that crosses, counts every sample from
then on, and closes with the sample that makes it full or old enough. It
gives the share of crossing samples among those it has room for, and is then
as it was at first.
-/

set_option autoImplicit false

namespace Telemetry

structure Window where
  config : Nat
  hits : Nat
  start : Option Timestamp
  seen : Nat
  total : Nat
  deriving DecidableEq, Repr

namespace Window

def fresh (config total : Nat) : Window :=
  ⟨config, 0, none, 0, total⟩

def record (w : Window) (now : Timestamp) (crossed : Bool) : Window :=
  if crossed then
    { w with
      hits := w.hits + 1
      start := if w.hits = 0 then some now else w.start
      seen := w.seen + 1 }
  else if w.hits = 0 then w
  else { w with seen := w.seen + 1 }

def elapsed (w : Window) (now : Timestamp) (length : Span) : Bool :=
  match w.start with
  | some start => (length : Int) ≤ now.since start
  | none => false

/-- Crossing samples as a share of the samples the window has room for. -/
def frequency (w : Window) : Float :=
  Decimal.ofNat w.hits / Decimal.ofNat w.total

def complete (w : Window) (now : Timestamp) (length : Span) : Option Float × Window :=
  if w.hits ≠ 0 ∧ (w.total ≤ w.seen ∨ w.elapsed now length = true) then
    (some w.frequency, fresh w.config w.total)
  else (none, w)

end Window

end Telemetry
