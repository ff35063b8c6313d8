import Telemetry.Config.Tasks
import Telemetry.Derived.Analyzer
import Telemetry.Selection
import Telemetry.Surroundings

/-!
# Pipelines

A pipeline collects metrics, has them processed, hands them to its targets,
has them analyzed, and hands derived metrics to further targets. A failing
stage ends the tick: what was handed over before stays so, the failure is
counted, reported and logged.
-/

set_option autoImplicit false

namespace Telemetry

inductive PipelineState where
  | idle
  | collecting
  | processing
  | publishing
  | analyzing
  | publishingDerived
  deriving DecidableEq, Repr

def PipelineState.name : PipelineState → String
  | idle => "Idle"
  | collecting => "Collecting"
  | processing => "Processing"
  | publishing => "Publishing"
  | analyzing => "Analyzing"
  | publishingDerived => "PublishingDerived"

structure Stage (α : Type) where
  plugin : String
  tool : α
  config : PluginConfig

structure Pipeline (P : Platform) (τ : Type) where
  id : String
  interval : Span
  collector : Stage P.Collector
  types : List Metric
  tagOverrides : Dict Tags
  processor : Option (Stage P.Processor)
  analyzer : Option (Stage P.Analyzer)
  primary : List τ
  derived : List τ
  failures : Nat

structure StageFailure where
  plugin : String
  error : TaskError
  deriving DecidableEq, Repr

/-- What one tick did: the states it went through and the batches it handed
over, in order, and the stage that failed. -/
structure Tick (P : Platform) (τ : Type) where
  pipeline : Pipeline P τ
  visited : List PipelineState
  puts : List (τ × List Metric)
  failure : Option StageFailure

namespace Pipeline

variable {P : Platform} {τ : Type}

def applyOverride (m : Metric) (o : String × Tags) : Metric :=
  if hasSegmentStart m.name o.1 then { m with tags := m.tags.update o.2 } else m

/-- Overrides in the order of their keys, so the last that defines a tag
decides it. -/
def applyTags (overrides : Dict Tags) (m : Metric) : Metric :=
  overrides.entries.foldl applyOverride m

def runCollector (p : Pipeline P τ) (w : P.World) :
    Except StageFailure (List Metric) × Pipeline P τ :=
  let (result, tool) := P.collect w p.collector.tool p.types
  (result.mapError fun e => ⟨p.collector.plugin, .collect e⟩,
    { p with collector := { p.collector with tool } })

def runProcessor (p : Pipeline P τ) (w : P.World) (batch : List Metric) :
    Except StageFailure (List Metric) × Pipeline P τ :=
  match p.processor with
  | none => (.ok batch, p)
  | some s =>
    let (result, tool) := P.process w s.tool batch s.config
    (result.mapError fun e => ⟨s.plugin, .process e⟩,
      { p with processor := some { s with tool } })

def runAnalyzer (p : Pipeline P τ) (w : P.World) (batch : List Metric) :
    Except StageFailure (List Metric) × Pipeline P τ :=
  match p.analyzer with
  | none => (.ok [], p)
  | some s =>
    let (result, tool) := P.analyze w s.tool batch s.config
    (result.mapError fun e => ⟨s.plugin, .analyze e⟩,
      { p with analyzer := some { s with tool } })

def tickAnalysis (p : Pipeline P τ) (w : P.World) (batch : List Metric)
    (visited : List PipelineState) (puts : List (τ × List Metric)) : Tick P τ :=
  if p.analyzer.isNone then ⟨p, visited, puts, none⟩
  else
    let visited := visited ++ [.analyzing]
    match p.runAnalyzer w batch with
    | (.error f, p) => ⟨p, visited, puts, some f⟩
    | (.ok [], p) => ⟨p, visited, puts, none⟩
    | (.ok (m :: ms), p) =>
      ⟨p, visited ++ [.publishingDerived], puts ++ p.derived.map (·, m :: ms), none⟩

def tickProcessing (p : Pipeline P τ) (w : P.World) (batch : List Metric) : Tick P τ :=
  let visited := .collecting :: if p.processor.isSome then [.processing] else []
  match p.runProcessor w batch with
  | (.error f, p) => ⟨p, visited, [], some f⟩
  | (.ok batch, p) =>
    p.tickAnalysis w batch (visited ++ [.publishing]) (p.primary.map (·, batch))

def tick (p : Pipeline P τ) (w : P.World) : Tick P τ :=
  match p.runCollector w with
  | (.error f, p) => ⟨p, [.collecting], [], some f⟩
  | (.ok batch, p) => p.tickProcessing w (batch.map (applyTags p.tagOverrides))

structure Run (P : Platform) (τ : Type) where
  pipeline : Pipeline P τ
  visited : List PipelineState
  puts : List (τ × List Metric)
  around : Surroundings P

def fail (p : Pipeline P τ) (f : StageFailure) (around : Surroundings P) :
    Pipeline P τ × Surroundings P :=
  let p := { p with failures := p.failures + 1 }
  let report := around.report p.id f.plugin f.error.message p.failures
  let around := { around with reports := around.reports.setTask p.id report }
  (p, around.record (Log.error ("Task " ++ p.id ++ " failed: " ++ f.error.message)))

def runOnce (p : Pipeline P τ) (around : Surroundings P) : Run P τ :=
  let t := p.tick around.world
  match t.failure with
  | none => ⟨t.pipeline, t.visited ++ [.idle], t.puts, around⟩
  | some f =>
    let (p, around) := t.pipeline.fail f around
    ⟨p, t.visited ++ [.idle], t.puts, around⟩

end Pipeline

end Telemetry
