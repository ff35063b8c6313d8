import Telemetry.Metric.Namespace
import Telemetry.Timestamp.Basic
import Telemetry.Decimal.Reading
import Telemetry.Dict

/-!
# Metrics

A metric is a value under a namespace at a point in time, with tags. An entry
of a catalog has no value.
-/

set_option autoImplicit false

namespace Telemetry

abbrev Tags := Dict String

namespace Metric

inductive Value where
  | null
  | int (n : Int64)
  | float (x : Float)
  | text (s : String)
  deriving DecidableEq, Repr

def Value.toFloat? : Value → Option Float
  | .null => none
  | .int n => some (Decimal.ofInt n.toInt)
  | .float x => some x
  | .text s => Decimal.readFloat s

end Metric

structure Metric where
  ns : Namespace
  timestamp : Timestamp
  value : Metric.Value
  tags : Tags
  unit : String
  version : Nat
  deriving DecidableEq, Repr

namespace Metric

def name (m : Metric) : String :=
  m.ns.key

def ofType (ns : Namespace) (unit : String) : Metric :=
  ⟨ns, ⟨0, 0⟩, .null, ∅, unit, 1⟩

def withTag (m : Metric) (key value : String) : Metric :=
  { m with tags := m.tags.insert key value }

end Metric

end Telemetry
