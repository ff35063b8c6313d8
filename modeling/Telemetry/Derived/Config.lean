import Telemetry.Metric.Document
import Telemetry.Span.Basic

/-!
# Derived metric configurations

A derived metric says how often a source metric crosses a threshold within an
observation window. The source may be a pattern, may be divided by another
metric, and may have to carry certain tags.
-/

set_option autoImplicit false

namespace Telemetry

inductive Direction where
  | upper
  | lower
  deriving DecidableEq, Repr

namespace Direction

def name : Direction → String
  | upper => "UB"
  | lower => "LB"

def ofName? (n : String) : Option Direction :=
  if n = "UB" then some upper else if n = "LB" then some lower else none

def crosses : Direction → Float → Float → Bool
  | upper, value, threshold => threshold ≤ value
  | lower, value, threshold => value ≤ threshold

def ofJson : Json → Option Direction
  | .string n => ofName? n
  | .object [(n, .null)] => ofName? n
  | _ => none

end Direction

structure Threshold where
  direction : Direction
  value : Float
  unit : String
  deriving DecidableEq, Repr

structure DerivedConfig where
  metricName : String
  metricType : String
  resource : String
  normalizer : Option String
  windowSeconds : Nat
  tags : Tags
  threshold : Threshold
  deriving DecidableEq, Repr

def Threshold.toJson (t : Threshold) : Json :=
  .object [("type", .string t.direction.name), ("value", .float t.value),
    ("unit", .string t.unit)]

def Threshold.ofJson (j : Json) : Option Threshold := do
  let r ← j.asRecord ["type", "value", "unit"]
  return {
    direction := ← r.required "type" Direction.ofJson
    value := ← r.required "value" Json.asFloat
    unit := ← r.withDefault "unit" "" Json.asString }

namespace DerivedConfig

def window (c : DerivedConfig) : Span :=
  Span.ofSeconds c.windowSeconds

def toJson (c : DerivedConfig) : Json :=
  .object
    ([("metric_name", .string c.metricName), ("type", .string c.metricType),
      ("resource", .string c.resource)]
      ++ (match c.normalizer with
        | some n => [("normalizer", .string n)]
        | none => [])
      ++ [("observation_window_sec", .int c.windowSeconds)]
      ++ (if c.tags.entries = [] then [] else [("tags", Metric.tagsToJson c.tags)])
      ++ [("threshold", c.threshold.toJson)])

def ofJson (j : Json) : Option DerivedConfig := do
  let r ← j.asRecord ["metric_name", "type", "resource", "normalizer",
    "observation_window_sec", "tags", "threshold"]
  return {
    metricName := ← r.required "metric_name" Json.asString
    metricType := ← r.withDefault "type" "" Json.asString
    resource := ← r.withDefault "resource" "" Json.asString
    normalizer := ← r.withDefault "normalizer" none (Json.nullable Json.asString)
    windowSeconds := ← r.required "observation_window_sec" Json.asWord64
    tags := ← r.withDefault "tags" ∅ (Json.asDict Json.asString)
    threshold := ← r.required "threshold" Threshold.ofJson }

def listOfJson (j : Json) : Option (List DerivedConfig) :=
  Json.asList ofJson j

def ofDocument (j : Json) : Option (List DerivedConfig) := do
  let r ← j.asRecord ["configs"]
  r.required "configs" listOfJson

end DerivedConfig

end Telemetry
