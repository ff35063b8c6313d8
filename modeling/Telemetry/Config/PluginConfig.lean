import Telemetry.Error
import Telemetry.Json.Printer
import Telemetry.Json.Reader
import Telemetry.Decimal.Reading

/-!
# Plugin configuration

A plugin is configured by a free object. Its values are read by kind: a
number may be written as text, and a length of time as a text with units or
as a whole number of nanoseconds.
-/

set_option autoImplicit false

namespace Telemetry

structure PluginConfig where
  values : Dict Json

namespace PluginConfig

def empty : PluginConfig := ⟨∅⟩

instance : Inhabited PluginConfig := ⟨empty⟩

def insert (c : PluginConfig) (key : String) (value : Json) : PluginConfig :=
  ⟨c.values.insert key value⟩

def get? (c : PluginConfig) (key : String) : Option Json :=
  c.values.get? key

def contains (c : PluginConfig) (key : String) : Bool :=
  c.values.contains key

def toJson (c : PluginConfig) : Json :=
  .object c.values.toList

def text (c : PluginConfig) : String :=
  c.toJson.text

def ofJson (outer : Nat) (j : Json) : Option PluginConfig :=
  (j.asFreeObject outer).map PluginConfig.mk

def getText (c : PluginConfig) (key : String) : Option String :=
  (c.get? key).bind Json.asString

def requireText (c : PluginConfig) (key : String) : Except PluginError String :=
  match c.getText key with
  | some s => .ok s
  | none => .error (.missingConfig key)

def getNumber (c : PluginConfig) (key : String) : Option Float :=
  match c.get? key with
  | some (.string s) => Decimal.readFloat s
  | some j => j.asFloat
  | none => none

def getFlag (c : PluginConfig) (key : String) : Option Bool :=
  match c.get? key with
  | some (.bool b) => some b
  | some (.string s) =>
    let word := String.ofList (Text.trimBlank s.toList)
    if word = "true" then some true else if word = "false" then some false else none
  | _ => none

def readSpan (s : String) : Except ConfigError Span :=
  match Text.readBounded Word.count64 (Text.trimBlank s.toList) with
  | some n => .ok n
  | none =>
    match Span.parse s with
    | .ok d => .ok d
    | .error e => .error (.duration e)

def getSpan (c : PluginConfig) (key : String) : Except ConfigError (Option Span) :=
  match c.get? key with
  | none => .ok none
  | some (.string s) => (readSpan s).map some
  | some (.int n) =>
    if 0 ≤ n then .ok (some n.toNat)
    else .error (.invalid ("'" ++ key ++ "' must be a non-negative number of nanoseconds"))
  | some (.float _) =>
    .error (.invalid ("'" ++ key ++ "' must be a non-negative number of nanoseconds"))
  | some j => .error (.invalid ("'" ++ key ++ "' must be a duration, got " ++ j.text))

end PluginConfig

end Telemetry
