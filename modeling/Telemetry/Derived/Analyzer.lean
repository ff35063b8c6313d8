import Telemetry.Derived.Engine
import Telemetry.Config.PluginConfig
import Telemetry.Json.Parser

/-!
# Threshold analyzer

The analyzer makes its engine on the first call whose configuration allows
it, and keeps that engine. The list of derived metrics stands in the
configuration or is downloaded. A metric is normalized by the value that the
same batch holds for its normalizer, wherever in the batch it stands.
-/

set_option autoImplicit false

namespace Telemetry

structure Analyzer where
  engine : Option Engine

namespace Analyzer

def fresh : Analyzer := ⟨none⟩

def intervalKey : String := "sampleInterval"

/-- The configurations in a downloaded document. `fetch` gives the document
at an address, if it can be had. -/
def download (fetch : String → Option String) (url : String) :
    Except PluginError (List DerivedConfig) :=
  match ((fetch url).bind Json.parse).bind DerivedConfig.ofDocument with
  | some configs => .ok configs
  | none => .error (.http ("no derived metric configs at " ++ url))

def readConfigs (fetch : String → Option String) (c : PluginConfig) :
    Except PluginError (List DerivedConfig) :=
  match c.get? "configs" with
  | some j =>
    match DerivedConfig.listOfJson j with
    | some configs => .ok configs
    | none => .error (.document "configs is not a list of derived metrics")
  | none =>
    match c.requireText "configUrl" with
    | .ok url => download fetch url
    | .error e => .error e

def readInterval (c : PluginConfig) : Except PluginError Span :=
  match c.getSpan intervalKey with
  | .ok (some d) => .ok d
  | .ok none => .error (.missingConfig intervalKey)
  | .error e => .error (.config e)

def prepare [Pattern.SizeLimit] (fetch : String → Option String) (c : PluginConfig) :
    Except PluginError Engine :=
  match readConfigs fetch c with
  | .error e => .error e
  | .ok configs =>
    match readInterval c with
    | .error e => .error e
    | .ok interval => (Engine.create interval configs).mapError .config

def batchValues (batch : List Metric) : Dict Float :=
  Dict.ofList (batch.filterMap fun m => m.value.toFloat?.map fun x => (m.name, x))

def derivedMetric (m : Metric) (d : Derived) : Metric where
  ns := Namespace.parse d.name
  timestamp := m.timestamp
  value := .float d.value
  tags := m.tags
  unit := ""
  version := m.version

def feedMetric (values : Dict Float) (e : Engine) (m : Metric) : List Metric × Engine :=
  match m.value.toFloat? with
  | none => ([], e)
  | some x =>
    let normalizer := (e.normalizerKey m.name).bind values.get?
    let (d, e) := e.feed m.timestamp m.name x m.tags normalizer
    (d.toList.map (derivedMetric m), e)

def feedAll (values : Dict Float) (e : Engine) : List Metric → List Metric × Engine
  | [] => ([], e)
  | m :: ms =>
    let (here, e) := feedMetric values e m
    let (later, e) := feedAll values e ms
    (here ++ later, e)

def analyze [Pattern.SizeLimit] (fetch : String → Option String) (a : Analyzer)
    (batch : List Metric) (c : PluginConfig) : Except PluginError (List Metric) × Analyzer :=
  let ready : Except PluginError Engine := match a.engine with
    | some e => .ok e
    | none => prepare fetch c
  match ready with
  | .error e => (.error e, a)
  | .ok e =>
    let (derived, e) := feedAll (batchValues batch) e batch
    (.ok derived, ⟨some e⟩)

end Analyzer

end Telemetry
