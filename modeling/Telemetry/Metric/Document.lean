import Telemetry.Metric.Basic
import Telemetry.Timestamp.Parser
import Telemetry.Timestamp.Printer
import Telemetry.Json.Printer
import Telemetry.Json.Reader

/-!
# Metrics as documents

A metric is written as an object with its fields in a fixed order. An element
of its namespace leaves out an empty description and an absent placeholder. A
value is written plainly, so reading tells its kind from its form: whole
numbers of 64 bits with sign are integers and all other numbers are floats.
-/

set_option autoImplicit false

namespace Telemetry

namespace Namespace

def Element.toJson (e : Element) : Json :=
  .object
    ([("value", .string e.value)]
      ++ (if e.description = "" then [] else [("description", .string e.description)])
      ++ match e.placeholder with
        | some name => [("name", .string name)]
        | none => [])

def toJson (ns : Namespace) : Json :=
  .array (ns.elements.map (·.toJson))

def Element.ofJson (j : Json) : Option Element := do
  let r ← j.asRecord ["value", "description", "name"]
  return {
    value := ← r.required "value" Json.asString
    description := ← r.withDefault "description" "" Json.asString
    placeholder := ← r.withDefault "name" none (Json.nullable Json.asString) }

def ofJson (j : Json) : Option Namespace :=
  (Json.asList Element.ofJson j).map Namespace.mk

end Namespace

namespace Metric

def Value.toJson : Value → Json
  | .null => .null
  | .int n => .int n.toInt
  | .float x => .float x
  | .text s => .string s

def Value.ofJson : Json → Option Value
  | .null => some .null
  | .int n =>
    if -(Word.half64 : Int) ≤ n ∧ n < (Word.half64 : Int) then some (.int (Int64.ofInt n))
    else some (.float (Decimal.ofInt n))
  | .float x => some (.float x)
  | .string s => some (.text s)
  | _ => none

def tagsToJson (tags : Tags) : Json :=
  .object (tags.toList.map fun (k, v) => (k, .string v))

def toJson (m : Metric) : Json :=
  .object [
    ("namespace", m.ns.toJson),
    ("timestamp", .string m.timestamp.text),
    ("data", m.value.toJson),
    ("tags", tagsToJson m.tags),
    ("unit", .string m.unit),
    ("version", .int m.version)]

def readTimestamp (j : Json) : Option Timestamp :=
  j.asString.bind Timestamp.parse

def ofJson (j : Json) : Option Metric := do
  let r ← j.asRecord ["namespace", "timestamp", "data", "tags", "unit", "version"]
  return {
    ns := ← r.required "namespace" Namespace.ofJson
    timestamp := ← r.required "timestamp" readTimestamp
    value := ← r.required "data" Value.ofJson
    tags := ← r.withDefault "tags" ∅ (Json.asDict Json.asString)
    unit := ← r.withDefault "unit" "" Json.asString
    version := ← r.withDefault "version" 0 Json.asWord32 }

end Metric

end Telemetry
