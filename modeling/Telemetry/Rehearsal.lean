import Telemetry.Builtin

/-!
# Rehearsals

Scripted plugins beside the built-in ones, for trying out an agent without
the things it watches. A script says what collecting gives and which stages
fail. Publishers whose names begin with `rec` write to sinks that remember
every batch, and that fail as often as they are told to.
-/

set_option autoImplicit false

namespace Telemetry.Rehearsal

inductive Collection where
  | fail (text : String)
  | metrics (batch : List Metric)
  | fixed

structure Script where
  catalog : List Metric
  catalogFailure : Option String
  collection : Collection
  processFailure : Option String
  analyzeFailure : Option String

structure Delivery where
  label : Option String
  batch : List Metric

/-- A sink: the calls made, the failures to come, endless when below zero, and
the batches accepted. -/
structure Sink where
  calls : Nat
  failures : Int
  deliveries : List Delivery

def Sink.fresh : Sink := ⟨0, 0, []⟩

structure World where
  host : Host
  script : Script
  sinks : Dict Sink

inductive Actor (α : Type) where
  | builtin (plugin : α)
  | scripted

inductive Outlet where
  | file
  | sink (name : String)

def scriptedName : String := "mock"

def choose {α : Type} (find : String → Except ConfigError α) (n : String) :
    Except ConfigError (Actor α) :=
  if n = scriptedName then .ok .scripted else (find n).map .builtin

def publisher (n : String) : Except ConfigError Outlet :=
  if "rec".toList.isPrefixOf n.toList then .ok (.sink n)
  else (Builtin.publisher n).map fun _ => .file

def acted {α β : Type} (r : β × α) : β × Actor α :=
  (r.1, .builtin r.2)

def catalog (w : World) (a : Actor Procfs) (c : PluginConfig) :
    Except PluginError (List Metric) × Actor Procfs :=
  match a with
  | .builtin p => acted (Builtin.catalog w.host p c)
  | .scripted =>
    match w.script.catalogFailure with
    | some text => (.error (.other text), .scripted)
    | none => (.ok w.script.catalog, .scripted)

def collect (w : World) (a : Actor Procfs) (types : List Metric) :
    Except PluginError (List Metric) × Actor Procfs :=
  match a with
  | .builtin p => acted (Builtin.collect w.host p types)
  | .scripted =>
    (match w.script.collection with
      | .fail text => .error (.other text)
      | .metrics batch => .ok batch
      | .fixed => .ok (types.map fun t => { t with value := .float 90.0 }), .scripted)

def mark (batch : List Metric) (c : PluginConfig) : Except PluginError (List Metric) :=
  (c.requireText "mark").map fun m => batch.map (·.withTag "proc" m)

def process [Pattern.SizeLimit] (w : World) (a : Actor Rates) (batch : List Metric)
    (c : PluginConfig) :
    Except PluginError (List Metric) × Actor Rates :=
  match a with
  | .builtin r => acted (r.process batch c)
  | .scripted =>
    (match w.script.processFailure with
      | some text => .error (.other text)
      | none => mark batch c, .scripted)

def summary (w : World) (batch : List Metric) (c : PluginConfig) : Metric :=
  let interval := ((c.get? Analyzer.intervalKey).getD .null).text
  { Metric.ofType (Namespace.ofValues ["interval", interval]) "" with
    value := .int (Int64.ofNat batch.length), timestamp := w.host.now }

def analyze [Pattern.SizeLimit] (w : World) (a : Actor Analyzer) (batch : List Metric)
    (c : PluginConfig) :
    Except PluginError (List Metric) × Actor Analyzer :=
  match a with
  | .builtin n => acted (n.analyze w.host.fetch batch c)
  | .scripted =>
    (match w.script.analyzeFailure with
      | some text => .error (.other text)
      | none => .ok [summary w batch c], .scripted)

def Sink.call (s : Sink) (name : String) (batch : List Metric) (c : PluginConfig) :
    Except PluginError Unit × Sink :=
  let s := { s with calls := s.calls + 1 }
  if s.failures = 0 then
    (.ok (), { s with deliveries := s.deliveries ++ [⟨c.getText "label", batch⟩] })
  else
    (.error (.other (name ++ " unavailable")),
      if 0 < s.failures then { s with failures := s.failures - 1 } else s)

def publish (w : World) (o : Outlet) (batch : List Metric) (c : PluginConfig) :
    Except PluginError Unit × World :=
  match o with
  | .file =>
    let (result, host) := Builtin.publish w.host batch c
    (result, { w with host })
  | .sink name =>
    let (result, s) := ((w.sinks.get? name).getD .fresh).call name batch c
    (result, { w with sinks := w.sinks.insert name s })

end Telemetry.Rehearsal

namespace Telemetry

attribute [local instance] Pattern.SizeLimit.ofAnys

/-- The platform of scripted and built-in plugins. -/
def rehearsal : Platform where
  World := Rehearsal.World
  Collector := Rehearsal.Actor Procfs
  Processor := Rehearsal.Actor Rates
  Analyzer := Rehearsal.Actor Analyzer
  Publisher := Rehearsal.Outlet
  now := fun w => w.host.now
  collector := Rehearsal.choose Builtin.collector
  processor := Rehearsal.choose Builtin.processor
  analyzer := Rehearsal.choose Builtin.analyzer
  publisher := Rehearsal.publisher
  catalog := Rehearsal.catalog
  collect := Rehearsal.collect
  process := Rehearsal.process
  analyze := Rehearsal.analyze
  publish := Rehearsal.publish

end Telemetry
