import Telemetry.Word

/-!
# Documents

A document tree keeps the members of an object as they were written, in
their order and with repeated names. A scalar that is well formed but has no
value, such as a number beyond the range of doubles or half of a surrogate
pair, is kept as unreadable: it does no harm where nobody reads it.
-/

set_option autoImplicit false

namespace Telemetry

inductive Json where
  | null
  | bool (b : Bool)
  | int (n : Int)
  | float (x : Float)
  | string (s : String)
  | array (elements : List Json)
  | object (members : List (String × Json))
  | unreadable
  deriving Repr, Inhabited

end Telemetry
