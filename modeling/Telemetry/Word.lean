/-!
# Word sizes

How many values words of 16, 32 and 64 bits have, and the half of the last,
where signed words end.
-/

set_option autoImplicit false

namespace Telemetry.Word

def count16 : Nat := 0x10000

def count32 : Nat := 0x100000000

def count64 : Nat := 0x10000000000000000

def half64 : Nat := 0x8000000000000000

end Telemetry.Word
