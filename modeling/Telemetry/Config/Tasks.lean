import Telemetry.Config.Settings
import Telemetry.Config.PluginConfig
import Telemetry.Metric.Basic

/-!
# Task definitions

A definition lists tasks and publish targets. A task says how often it runs,
what it collects, how metrics are processed and analyzed, and where they go.
-/

set_option autoImplicit false

namespace Telemetry

structure Schedule where
  interval : String
  deriving DecidableEq, Repr

structure CollectDefinition where
  plugin : String
  metrics : Dict Nat
  config : PluginConfig
  tags : Dict Tags

structure ProcessDefinition where
  plugin : String
  config : PluginConfig

structure AnalyzeDefinition where
  plugin : String
  config : PluginConfig
  publish : List String

structure TaskDefinition where
  id : String
  schedule : Schedule
  collect : CollectDefinition
  process : Option ProcessDefinition
  analyze : Option AnalyzeDefinition
  publish : List String

structure PublishDefinition where
  id : String
  plugin : String
  config : PluginConfig
  delivery : Option DeliveryOverrides

structure Definition where
  tasks : List TaskDefinition
  publish : List PublishDefinition

namespace Schedule

def standard : Span := Span.ofSeconds 5

/-- The interval as written, or the standard one when it is zero or cannot be
read; with the warning that goes with it. -/
def read (s : Schedule) : Span × List Log.Event :=
  match parseSpan s.interval with
  | .ok d =>
    if d = 0 then
      (standard, [Log.warn ("Schedule interval must be positive, using " ++ standard.compact)])
    else (d, [])
  | .error e => (standard, [Log.warn (e.message ++ ", using " ++ standard.compact)])

def span (s : Schedule) : Span := s.read.1

def warnings (s : Schedule) : List Log.Event := s.read.2

def ofJson (j : Json) : Option Schedule := do
  let r ← j.asRecord ["interval"]
  return { interval := ← r.required "interval" Json.asString }

end Schedule

def readVersion (j : Json) : Option Nat := do
  let r ← j.asRecord ["version"]
  r.withDefault "version" 0 Json.asWord32

def taskConfigDepth : Nat := 4

def publishConfigDepth : Nat := 3

def readConfig (outer : Nat) (r : Json.Record) : Option PluginConfig :=
  r.withDefault "config" .empty (PluginConfig.ofJson outer)

def readIds (r : Json.Record) : Option (List String) :=
  r.withDefault "publish" [] (Json.asList Json.asString)

def CollectDefinition.ofJson (j : Json) : Option CollectDefinition := do
  let r ← j.asRecord ["plugin", "metrics", "config", "tags"]
  return {
    plugin := ← r.required "plugin" Json.asString
    metrics := ← r.withDefault "metrics" ∅ (Json.asDict readVersion)
    config := ← readConfig taskConfigDepth r
    tags := ← r.withDefault "tags" ∅ (Json.asDict (Json.asDict Json.asString)) }

def ProcessDefinition.ofJson (j : Json) : Option ProcessDefinition := do
  let r ← j.asRecord ["plugin", "config"]
  return {
    plugin := ← r.required "plugin" Json.asString
    config := ← readConfig taskConfigDepth r }

def AnalyzeDefinition.ofJson (j : Json) : Option AnalyzeDefinition := do
  let r ← j.asRecord ["plugin", "config", "publish"]
  return {
    plugin := ← r.required "plugin" Json.asString
    config := ← readConfig taskConfigDepth r
    publish := ← readIds r }

def TaskDefinition.ofJson (j : Json) : Option TaskDefinition := do
  let r ← j.asRecord ["id", "schedule", "collect", "process", "analyze", "publish"]
  return {
    id := ← r.required "id" Json.asString
    schedule := ← r.required "schedule" Schedule.ofJson
    collect := ← r.required "collect" CollectDefinition.ofJson
    process := ← r.withDefault "process" none (Json.nullable ProcessDefinition.ofJson)
    analyze := ← r.withDefault "analyze" none (Json.nullable AnalyzeDefinition.ofJson)
    publish := ← readIds r }

def PublishDefinition.ofJson (j : Json) : Option PublishDefinition := do
  let r ← j.asRecord ["id", "plugin", "config", "delivery"]
  return {
    id := ← r.required "id" Json.asString
    plugin := ← r.required "plugin" Json.asString
    config := ← readConfig publishConfigDepth r
    delivery := ← r.withDefault "delivery" none (Json.nullable DeliveryOverrides.ofJson) }

namespace Definition

def empty : Definition := ⟨[], []⟩

def ofJson (j : Json) : Option Definition := do
  let r ← j.asRecord ["tasks", "publish"]
  return {
    tasks := ← r.withDefault "tasks" [] (Json.asList TaskDefinition.ofJson)
    publish := ← r.withDefault "publish" [] (Json.asList PublishDefinition.ofJson) }

def parse (text : String) : Except ConfigError Definition :=
  match (Json.parse text).bind ofJson with
  | some d => .ok d
  | none => .error unreadableDocument

def ofFile (files : FileTree) (path : String) : Except ConfigError Definition :=
  match files.readText path with
  | .ok text => parse text
  | .error e => .error (.io path e)

end Definition

end Telemetry
