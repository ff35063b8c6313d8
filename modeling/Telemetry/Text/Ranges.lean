/-!
# Ranges of code points

A set of characters given by inclusive ranges in increasing order.
-/

set_option autoImplicit false

namespace Telemetry.Text

def inRanges (n : Nat) : List (Nat × Nat) → Bool
  | [] => false
  | (low, high) :: rest =>
    if n < low then false else if n ≤ high then true else inRanges n rest

end Telemetry.Text
