/-!
# Powers

Powers of the two bases in which doubles are held and written.
-/

set_option autoImplicit false

namespace Telemetry.Decimal

def twoPow (n : Nat) : Nat :=
  Nat.pow 2 n

def tenPow (n : Nat) : Nat :=
  Nat.pow 10 n

end Telemetry.Decimal
