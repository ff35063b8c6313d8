import Telemetry.Pattern.Matching
import Telemetry.Pattern.Segments
import Telemetry.Metric.Basic

/-!
# Selecting names by configured keys

A key selects a name when its pattern matches. A key without operators also
selects every name that continues it, and every name that it continues.
-/

set_option autoImplicit false

namespace Telemetry

structure Selection where
  patterns : List Pattern
  deriving DecidableEq, Repr

namespace Selection

def ofKeys [Pattern.SizeLimit] (keys : List String) : Except PatternError Selection :=
  (Pattern.compileAll keys).map Selection.mk

/-- A pattern selects a name it matches; a literal one also selects along
common segments. -/
def selectedBy (name : String) (p : Pattern) : Bool :=
  p.matchesName name
    || (p.isLiteral
      && (beginsWith name.toList p.raw || beginsWith p.raw name.toList))

def isSelected (s : Selection) (name : String) : Bool :=
  s.patterns.any (selectedBy name)

def select (s : Selection) (catalog : List Metric) : List Metric :=
  catalog.filter fun m => s.isSelected m.name

end Selection

end Telemetry
