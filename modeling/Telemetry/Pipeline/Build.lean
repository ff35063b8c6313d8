import Telemetry.Pipeline.Basic

/-!
# Building pipelines

A pipeline is built from its definition: the collector's catalog is narrowed
to the metrics asked for, of which there must be at least one, and the
analyzer is told the interval of the schedule unless it has one of its own.
-/

set_option autoImplicit false

namespace Telemetry.Pipeline

variable [Pattern.SizeLimit] {P : Platform} {τ : Type}

structure Source (P : Platform) where
  collector : P.Collector
  types : List Metric
  catalogSize : Nat

def buildSource (w : P.World) (d : TaskDefinition) : Except TaskError (Source P) :=
  match Selection.ofKeys d.collect.metrics.keys with
  | .error e => .error (.pattern e)
  | .ok selection =>
    match P.collector d.collect.plugin with
    | .error e => .error (.config e)
    | .ok collector =>
      match P.catalog w collector d.collect.config with
      | (.error e, _) => .error (.collect e)
      | (.ok catalog, collector) =>
        match selection.select catalog with
        | [] => .error (.noMatchingMetrics d.id d.collect.plugin)
        | m :: ms => .ok ⟨collector, m :: ms, catalog.length⟩

def buildProcessor : Option ProcessDefinition → Except TaskError (Option (Stage P.Processor))
  | none => .ok none
  | some d =>
    match P.processor d.plugin with
    | .error e => .error (.config e)
    | .ok tool => .ok (some ⟨d.plugin, tool, d.config⟩)

def withInterval (c : PluginConfig) (interval : Span) : PluginConfig :=
  if c.contains Analyzer.intervalKey then c
  else c.insert Analyzer.intervalKey (.string interval.spelled)

def buildAnalyzer (interval : Span) :
    Option AnalyzeDefinition → Except TaskError (Option (Stage P.Analyzer))
  | none => .ok none
  | some d =>
    match P.analyzer d.plugin with
    | .error e => .error (.config e)
    | .ok tool => .ok (some ⟨d.plugin, tool, withInterval d.config interval⟩)

def build (w : P.World) (d : TaskDefinition) (primary derived : List τ) :
    Except TaskError (Pipeline P τ) :=
  match buildSource (P := P) w d with
  | .error e => .error e
  | .ok source =>
    match buildProcessor d.process with
    | .error e => .error e
    | .ok processor =>
      match buildAnalyzer d.schedule.span d.analyze with
      | .error e => .error e
      | .ok analyzer => .ok {
          id := d.id
          interval := d.schedule.span
          collector := ⟨d.collect.plugin, source.collector, d.collect.config⟩
          types := source.types
          tagOverrides := d.collect.tags
          processor, analyzer, primary, derived
          failures := 0 }

def selectionEvents (w : P.World) (d : TaskDefinition) : List Log.Event :=
  match buildSource (P := P) w d with
  | .ok s =>
    [Log.debug ("Task " ++ d.id ++ " selected " ++ Text.natText s.types.length ++ " of "
      ++ Text.natText s.catalogSize ++ " metric types")]
  | .error _ => []

def buildEvents (w : P.World) (d : TaskDefinition) : List Log.Event :=
  d.schedule.warnings ++ selectionEvents (P := P) w d

end Telemetry.Pipeline
