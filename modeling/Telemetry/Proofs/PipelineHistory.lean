import Mathlib.Data.List.Basic
import Telemetry.Pipeline.Build
import Telemetry.Publisher.Channel
import Telemetry.Rehearsal

/-!
# The history of a pipeline

The plugins of a pipeline may answer anything in any tick, and between ticks
the world changes and other tasks and publishers leave reports. What the
plugins answered decides which states a tick goes through, which batches it
hands over and which stage fails. A run adds these up: the count of failures
is the number of ticks that failed, and the report is that of the last one.
-/

set_option autoImplicit false

namespace Telemetry.PipelineHistory

variable {P : Platform} {τ : Type}

abbrev Answer := Option (Except PluginError (List Metric))

def Answer.metrics : Answer → Option Batch
  | some (.ok ms) => some ms
  | _ => none

def Answer.refusal : Answer → Option PluginError
  | some (.error e) => some e
  | _ => none

def collected (p : Pipeline P τ) (w : P.World) : Answer :=
  some (P.collect w p.collector.tool p.types).1

def tagged (p : Pipeline P τ) (w : P.World) : Option Batch :=
  (collected p w).metrics.map fun ms => ms.map (Pipeline.applyTags p.tagOverrides)

def askProcessor (p : Pipeline P τ) (w : P.World) (batch : Batch) : Answer :=
  p.processor.map fun s => (P.process w s.tool batch s.config).1

def askAnalyzer (p : Pipeline P τ) (w : P.World) (batch : Batch) : Answer :=
  p.analyzer.map fun s => (P.analyze w s.tool batch s.config).1

def processed (p : Pipeline P τ) (w : P.World) : Answer :=
  (tagged p w).bind (askProcessor p w)

def prepared (p : Pipeline P τ) (w : P.World) : Option Batch :=
  if p.processor.isSome then (processed p w).metrics else tagged p w

def analyzed (p : Pipeline P τ) (w : P.World) : Answer :=
  (prepared p w).bind (askAnalyzer p w)

def derived (p : Pipeline P τ) (w : P.World) : Batch :=
  (analyzed p w).metrics.getD []

def failing (p : Pipeline P τ) (w : P.World) : Option StageFailure :=
  match (collected p w).refusal, (processed p w).refusal, (analyzed p w).refusal with
  | some e, _, _ => some ⟨p.collector.plugin, .collect e⟩
  | none, some e, _ => p.processor.map fun s => ⟨s.plugin, .process e⟩
  | none, none, some e => p.analyzer.map fun s => ⟨s.plugin, .analyze e⟩
  | none, none, none => none

def visit (occurs : Bool) (s : PipelineState) : List PipelineState :=
  if occurs then [s] else []

def path (p : Pipeline P τ) (w : P.World) : List PipelineState :=
  [.collecting]
    ++ visit ((collected p w).metrics.isSome && p.processor.isSome) .processing
    ++ visit (prepared p w).isSome .publishing
    ++ visit ((prepared p w).isSome && p.analyzer.isSome) .analyzing
    ++ visit (!(derived p w).isEmpty) .publishingDerived
    ++ [.idle]

def toAll (targets : List τ) (batch : Batch) : List (τ × Batch) :=
  targets.map fun t => (t, batch)

/-- The batches that a tick hands over: prepared metrics to every primary
target, also when the analyzer fails, and derived ones to every further target. -/
def given (primary further : List τ) (p : Pipeline P τ) (w : P.World) : List (τ × Batch) :=
  (prepared p w).toList.flatMap (toAll primary)
    ++ if derived p w = [] then [] else toAll further (derived p w)

def plan {α : Type} (s : Stage α) : String × PluginConfig := (s.plugin, s.config)

structure SamePlan (p q : Pipeline P τ) : Prop where
  id : p.id = q.id
  interval : p.interval = q.interval
  types : p.types = q.types
  tags : p.tagOverrides = q.tagOverrides
  primary : p.primary = q.primary
  derived : p.derived = q.derived
  collector : plan p.collector = plan q.collector
  processor : p.processor.map plan = q.processor.map plan
  analyzer : p.analyzer.map plan = q.analyzer.map plan

theorem samePlan_refl (p : Pipeline P τ) : SamePlan p p :=
  ⟨rfl, rfl, rfl, rfl, rfl, rfl, rfl, rfl, rfl⟩

theorem samePlan_trans {p q r : Pipeline P τ} (h : SamePlan p q) (k : SamePlan q r) :
    SamePlan p r := by
  constructor
  · exact h.id.trans k.id
  · exact h.interval.trans k.interval
  · exact h.types.trans k.types
  · exact h.tags.trans k.tags
  · exact h.primary.trans k.primary
  · exact h.derived.trans k.derived
  · exact h.collector.trans k.collector
  · exact h.processor.trans k.processor
  · exact h.analyzer.trans k.analyzer

theorem tickAnalysis_eq (p : Pipeline P τ) (w : P.World) (batch : Batch)
    (visited : List PipelineState) (puts : List (τ × Batch)) :
    ∃ analyzer, analyzer.map plan = p.analyzer.map plan ∧
      p.tickAnalysis w batch visited puts =
        ⟨{ p with analyzer },
          visited ++ visit p.analyzer.isSome .analyzing
            ++ visit (!((askAnalyzer p w batch).metrics.getD []).isEmpty) .publishingDerived,
          puts ++ (if (askAnalyzer p w batch).metrics.getD [] = [] then []
            else toAll p.derived ((askAnalyzer p w batch).metrics.getD [])),
          (askAnalyzer p w batch).refusal.bind fun e =>
            p.analyzer.map fun s => ⟨s.plugin, .analyze e⟩⟩ := by
  cases hs : p.analyzer with
  | none =>
    refine ⟨none, rfl, ?_⟩
    simp [Pipeline.tickAnalysis, askAnalyzer, hs, visit, Answer.metrics, Answer.refusal]
    rw [← hs]
  | some s =>
    cases ha : P.analyze w s.tool batch s.config with
    | mk answer tool =>
      refine ⟨some { s with tool }, rfl, ?_⟩
      cases answer with
      | error e =>
        simp [Pipeline.tickAnalysis, Pipeline.runAnalyzer, askAnalyzer, hs, ha, visit,
          Answer.metrics, Answer.refusal, Except.mapError]
      | ok ms =>
        cases ms with
        | nil =>
          simp [Pipeline.tickAnalysis, Pipeline.runAnalyzer, askAnalyzer, hs, ha, visit,
            Answer.metrics, Answer.refusal, Except.mapError]
        | cons m ms =>
          simp [Pipeline.tickAnalysis, Pipeline.runAnalyzer, askAnalyzer, hs, ha, visit,
            Answer.metrics, Answer.refusal, Except.mapError, toAll]

structure Told (p : Pipeline P τ) (w : P.World) (t : Tick P τ) : Prop where
  visited : t.visited ++ [.idle] = path p w
  puts : t.puts = given p.primary p.derived p w
  failure : t.failure = failing p w
  plan : SamePlan t.pipeline p
  failures : t.pipeline.failures = p.failures

/-- Once the metrics are prepared, the analysis decides the rest of a tick. -/
theorem told_prepared (p : Pipeline P τ) (w : P.World) (ms batch : Batch)
    (collector : Stage P.Collector) (processor : Option (Stage P.Processor))
    (hcol : (collected p w).metrics = some ms) (hrefused : (processed p w).refusal = none)
    (hpre : prepared p w = some batch) (hcollector : plan collector = plan p.collector)
    (hprocessor : processor.map plan = p.processor.map plan) :
    Told p w (Pipeline.tickAnalysis { p with collector, processor } w batch
      ([.collecting] ++ visit p.processor.isSome .processing ++ [.publishing])
      (toAll p.primary batch)) := by
  obtain ⟨analyzer, hanalyzer, ht⟩ := tickAnalysis_eq { p with collector, processor } w batch
    ([.collecting] ++ visit p.processor.isSome .processing ++ [.publishing])
    (toAll p.primary batch)
  have hana : analyzed p w = askAnalyzer p w batch := by rw [analyzed, hpre]; rfl
  have hder : (askAnalyzer p w batch).metrics.getD [] = derived p w := by rw [derived, hana]
  have hnone : (collected p w).refusal = none := by
    unfold collected at hcol ⊢
    cases ha : (P.collect w p.collector.tool p.types).1 with
    | error e => simp [ha, Answer.metrics] at hcol
    | ok ms => rfl
  rw [ht]
  refine ⟨?_, ?_, ?_, ⟨rfl, rfl, rfl, rfl, rfl, rfl, hcollector, hprocessor, hanalyzer⟩, rfl⟩
  · change _ ++ visit _ _ ++ visit (!((askAnalyzer p w batch).metrics.getD []).isEmpty) _ ++ _ = _
    rw [hder, path, hcol, hpre]
    simp [visit]
  · change _ ++ (if (askAnalyzer p w batch).metrics.getD [] = [] then [] else
      toAll p.derived ((askAnalyzer p w batch).metrics.getD [])) = _
    rw [hder, given, hpre]
    simp
  · change ((askAnalyzer p w batch).refusal.bind _) = _
    rw [failing, hnone, hrefused, hana]
    cases (askAnalyzer p w batch).refusal <;> rfl

theorem told_uncollected (p : Pipeline P τ) (w : P.World) (e : PluginError)
    (tool : P.Collector) (hc : P.collect w p.collector.tool p.types = (.error e, tool)) :
    Told p w (p.tick w) := by
  have hcol : collected p w = some (.error e) := by rw [collected, hc]
  have htag : tagged p w = none := by simp [tagged, hcol, Answer.metrics]
  have hpre : prepared p w = none := by simp [prepared, processed, htag, Answer.metrics]
  have hder : derived p w = [] := by simp [derived, analyzed, hpre, Answer.metrics]
  have ht : p.tick w = ⟨{ p with collector := { p.collector with tool } }, [.collecting], [],
      some ⟨p.collector.plugin, .collect e⟩⟩ := by
    simp [Pipeline.tick, Pipeline.runCollector, hc, Except.mapError]
  rw [ht]
  refine ⟨?_, ?_, ?_, ⟨rfl, rfl, rfl, rfl, rfl, rfl, rfl, rfl, rfl⟩, rfl⟩
  · simp [path, visit, hcol, hpre, hder, Answer.metrics]
  · simp [given, hpre, hder]
  · simp [failing, hcol, Answer.refusal]

theorem told_unprocessed (p : Pipeline P τ) (w : P.World) (ms : Batch) (e : PluginError)
    (s : Stage P.Processor) (collector : Stage P.Collector) (after : P.Processor)
    (hs : p.processor = some s) (hcol : collected p w = some (.ok ms))
    (hpro : processed p w = some (.error e)) (hcollector : plan collector = plan p.collector) :
    Told p w ⟨{ p with collector, processor := some { s with tool := after } },
      [.collecting, .processing], [], some ⟨s.plugin, .process e⟩⟩ := by
  have hpre : prepared p w = none := by simp [prepared, hs, hpro, Answer.metrics]
  have hder : derived p w = [] := by simp [derived, analyzed, hpre, Answer.metrics]
  have hstage : (some { s with tool := after }).map plan = p.processor.map plan := by
    rw [hs]
    rfl
  refine ⟨?_, ?_, ?_, ⟨rfl, rfl, rfl, rfl, rfl, rfl, hcollector, hstage, rfl⟩, rfl⟩
  · simp [path, visit, hcol, hs, hpre, hder, Answer.metrics]
  · simp [given, hpre, hder]
  · simp [failing, hcol, hpro, hs, Answer.refusal]

theorem tick_told (p : Pipeline P τ) (w : P.World) : Told p w (p.tick w) := by
  cases hc : P.collect w p.collector.tool p.types with
  | mk answer tool =>
    cases answer with
    | error e => exact told_uncollected p w e tool hc
    | ok ms =>
      have hcol : collected p w = some (.ok ms) := by rw [collected, hc]
      have hms : (collected p w).metrics = some ms := by rw [hcol]; rfl
      have htag : tagged p w = some (ms.map (Pipeline.applyTags p.tagOverrides)) := by
        rw [tagged, hms]
        rfl
      have ht : p.tick w = Pipeline.tickProcessing
          { p with collector := { p.collector with tool } } w
          (ms.map (Pipeline.applyTags p.tagOverrides)) := by
        simp [Pipeline.tick, Pipeline.runCollector, hc, Except.mapError]
      rw [ht]
      cases hs : p.processor with
      | none =>
        have hpro : processed p w = none := by simp [processed, htag, askProcessor, hs]
        have hpre : prepared p w = some (ms.map (Pipeline.applyTags p.tagOverrides)) := by
          simp [prepared, hs, htag]
        have h := told_prepared p w ms _ { p.collector with tool } p.processor hms
          (by rw [hpro]; rfl) hpre rfl rfl
        simpa [Pipeline.tickProcessing, Pipeline.runProcessor, hs, visit, toAll] using h
      | some s =>
        cases ha : P.process w s.tool (ms.map (Pipeline.applyTags p.tagOverrides)) s.config with
        | mk answer after =>
          have hpro : processed p w = some answer := by
            simp [processed, htag, askProcessor, hs, ha]
          cases answer with
          | error e =>
            have h := told_unprocessed p w ms e s { p.collector with tool } after hs hcol hpro rfl
            simpa [Pipeline.tickProcessing, Pipeline.runProcessor, hs, ha, Except.mapError] using h
          | ok batch =>
            have hpre : prepared p w = some batch := by simp [prepared, hs, hpro, Answer.metrics]
            have h := told_prepared p w ms batch { p.collector with tool }
              (some { s with tool := after }) hms (by rw [hpro]; rfl) hpre rfl (by rw [hs]; rfl)
            simpa [Pipeline.tickProcessing, Pipeline.runProcessor, hs, ha, Except.mapError, visit,
              toAll] using h

def failed (p : Pipeline P τ) (w : P.World) : Bool := (failing p w).isSome

def reportOf (p : Pipeline P τ) (w : P.World) (failures : ℕ) (f : StageFailure) : FailureReport :=
  .create (P.now w) p.id f.plugin f.error.message failures

theorem runOnce_none (p : Pipeline P τ) (around : Surroundings P)
    (h : (p.tick around.world).failure = none) :
    p.runOnce around = ⟨(p.tick around.world).pipeline, (p.tick around.world).visited ++ [.idle],
      (p.tick around.world).puts, around⟩ := by
  simp [Pipeline.runOnce, h]

theorem runOnce_some (p : Pipeline P τ) (around : Surroundings P) (f : StageFailure)
    (h : (p.tick around.world).failure = some f) :
    p.runOnce around = ⟨((p.tick around.world).pipeline.fail f around).1,
      (p.tick around.world).visited ++ [.idle], (p.tick around.world).puts,
      ((p.tick around.world).pipeline.fail f around).2⟩ := by
  simp [Pipeline.runOnce, h]

theorem fail_plan (p : Pipeline P τ) (f : StageFailure) (around : Surroundings P) :
    SamePlan (p.fail f around).1 p :=
  ⟨rfl, rfl, rfl, rfl, rfl, rfl, rfl, rfl, rfl⟩

theorem runOnce_trace (p : Pipeline P τ) (around : Surroundings P) :
    (p.runOnce around).visited = path p around.world ∧
    (p.runOnce around).puts = given p.primary p.derived p around.world ∧
    SamePlan (p.runOnce around).pipeline p := by
  have h := tick_told p around.world
  cases hf : (p.tick around.world).failure with
  | none =>
    rw [runOnce_none p around hf]
    exact ⟨h.visited, h.puts, h.plan⟩
  | some f =>
    rw [runOnce_some p around f hf]
    exact ⟨h.visited, h.puts, samePlan_trans (fail_plan _ f around) h.plan⟩

theorem runOnce_quiet (p : Pipeline P τ) (around : Surroundings P)
    (hf : failed p around.world = false) :
    (p.runOnce around).pipeline.failures = p.failures ∧ (p.runOnce around).around = around := by
  have h := tick_told p around.world
  have hn : (p.tick around.world).failure = none := by
    rw [h.failure]
    simpa [failed] using hf
  rw [runOnce_none p around hn]
  exact ⟨h.failures, rfl⟩

theorem runOnce_loud (p : Pipeline P τ) (around : Surroundings P)
    (hf : failed p around.world = true) :
    ∃ f, failing p around.world = some f ∧
      (p.runOnce around).pipeline.failures = p.failures + 1 ∧
      (p.runOnce around).around.reports =
        around.reports.setTask p.id (reportOf p around.world (p.failures + 1) f) := by
  have h := tick_told p around.world
  obtain ⟨f, hf⟩ := Option.isSome_iff_exists.mp hf
  have hs : (p.tick around.world).failure = some f := h.failure.trans hf
  rw [runOnce_some p around f hs, ← h.failures]
  refine ⟨f, hf, rfl, ?_⟩
  unfold reportOf
  rw [← h.plan.id]
  rfl

structure State (P : Platform) (τ : Type) where
  pipeline : Pipeline P τ
  around : Surroundings P
  handed : List (τ × Batch)

/-- What happens next. Apart from calls of the task, the world changes, and
other loops that share the reports fail. -/
inductive Act (P : Platform) where
  | call
  | pass (world : P.World)
  | taskFails (id : String) (r : FailureReport)
  | publisherFails (id : String) (r : FailureReport)

def Act.spares (id : String) : Act P → Prop
  | .taskFails other _ => other ≠ id
  | .call | .pass _ | .publisherFails _ _ => True

def step (s : State P τ) : Act P → State P τ
  | .call =>
    let r := s.pipeline.runOnce s.around
    ⟨r.pipeline, r.around, s.handed ++ r.puts⟩
  | .pass world => { s with around := { s.around with world } }
  | .taskFails id r =>
    { s with around := { s.around with reports := s.around.reports.setTask id r } }
  | .publisherFails id r =>
    { s with around := { s.around with reports := s.around.reports.setPublisher id r } }

def run : List (Act P) → State P τ → State P τ
  | [], s => s
  | a :: acts, s => run acts (step s a)

def begun (s : State P τ) : Act P → List (State P τ)
  | .call => [s]
  | .pass _ | .taskFails _ _ | .publisherFails _ _ => []

def calls : List (Act P) → State P τ → List (State P τ)
  | [], _ => []
  | a :: acts, s => begun s a ++ calls acts (step s a)

def State.failed (s : State P τ) : Bool := PipelineHistory.failed s.pipeline s.around.world

def State.given (s : State P τ) : List (τ × Batch) :=
  PipelineHistory.given s.pipeline.primary s.pipeline.derived s.pipeline s.around.world

def State.report? (s : State P τ) : Option FailureReport :=
  s.around.reports.task? s.pipeline.id

/-- An act is a call, or it leaves the task and its report as they are. -/
theorem begun_cases (s : State P τ) (a : Act P) (ha : a.spares s.pipeline.id) :
    (a = .call ∧ begun s a = [s]) ∨
    (begun s a = [] ∧ (step s a).pipeline = s.pipeline ∧ (step s a).handed = s.handed ∧
      (step s a).report? = s.report?) := by
  cases a with
  | call => exact Or.inl ⟨rfl, rfl⟩
  | pass world => exact Or.inr ⟨rfl, rfl, rfl, rfl⟩
  | publisherFails id r => exact Or.inr ⟨rfl, rfl, rfl, rfl⟩
  | taskFails id r =>
    refine Or.inr ⟨rfl, rfl, rfl, ?_⟩
    change (s.around.reports.tasks.insert id r).get? s.pipeline.id = _
    rw [Dict.get?_insert, if_neg fun h => ha h.symm]
    rfl

theorem step_plan (s : State P τ) (a : Act P) : SamePlan (step s a).pipeline s.pipeline := by
  cases a with
  | call => exact (runOnce_trace s.pipeline s.around).2.2
  | pass world => exact samePlan_refl _
  | taskFails id r => exact samePlan_refl _
  | publisherFails id r => exact samePlan_refl _

theorem run_plan (acts : List (Act P)) (s : State P τ) :
    SamePlan (run acts s).pipeline s.pipeline := by
  induction acts generalizing s with
  | nil => exact samePlan_refl _
  | cons a acts ih => exact samePlan_trans (ih (step s a)) (step_plan s a)

theorem calls_plan (acts : List (Act P)) (s : State P τ) :
    ∀ t ∈ calls acts s, SamePlan t.pipeline s.pipeline := by
  induction acts generalizing s with
  | nil => simp [calls]
  | cons a acts ih =>
    intro t ht
    rcases List.mem_append.mp ht with ht | ht
    · cases a with
      | call =>
        rw [begun, List.mem_singleton] at ht
        exact ht ▸ samePlan_refl _
      | pass world => cases ht
      | taskFails id r => cases ht
      | publisherFails id r => cases ht
    · exact samePlan_trans (ih (step s a) t ht) (step_plan s a)

theorem run_handed (acts : List (Act P)) (s : State P τ)
    (ha : ∀ a ∈ acts, a.spares s.pipeline.id) :
    (run acts s).handed = s.handed ++ (calls acts s).flatMap State.given := by
  induction acts generalizing s with
  | nil => simp [run, calls]
  | cons a acts ih =>
    have hid := (step_plan s a).id
    have hrest := ih (step s a) fun b hb => hid ▸ ha b (List.mem_cons_of_mem a hb)
    rw [run, hrest, calls, List.flatMap_append, ← List.append_assoc]
    congr 1
    rcases begun_cases s a (ha a List.mem_cons_self) with ⟨rfl, hb⟩ | ⟨hb, _, hh, _⟩
    · rw [hb, List.flatMap_singleton, step, (runOnce_trace s.pipeline s.around).2.1]
      rfl
    · rw [hb, hh, List.flatMap_nil, List.append_nil]

theorem step_failures (s : State P τ) (a : Act P) (ha : a.spares s.pipeline.id) :
    (step s a).pipeline.failures = s.pipeline.failures + (begun s a).countP State.failed := by
  rcases begun_cases s a ha with ⟨rfl, hb⟩ | ⟨hb, hp, _, _⟩
  · rw [hb, List.countP_singleton, State.failed]
    cases hf : failed s.pipeline s.around.world with
    | true =>
      obtain ⟨f, _, hcount, _⟩ := runOnce_loud s.pipeline s.around hf
      exact hcount
    | false => exact (runOnce_quiet s.pipeline s.around hf).1
  · rw [hb, hp]
    rfl

theorem run_failures (acts : List (Act P)) (s : State P τ)
    (ha : ∀ a ∈ acts, a.spares s.pipeline.id) :
    (run acts s).pipeline.failures =
      s.pipeline.failures + (calls acts s).countP State.failed := by
  induction acts generalizing s with
  | nil => rfl
  | cons a acts ih =>
    have hid := (step_plan s a).id
    rw [run, ih (step s a) fun b hb => hid ▸ ha b (List.mem_cons_of_mem a hb),
      step_failures s a (ha a List.mem_cons_self), calls, List.countP_append, Nat.add_assoc]

/-- Without a call that fails the count and the report stay as they are. -/
theorem run_quiet (acts : List (Act P)) (s : State P τ)
    (ha : ∀ a ∈ acts, a.spares s.pipeline.id) (h : (calls acts s).filter State.failed = []) :
    (run acts s).pipeline.failures = s.pipeline.failures ∧ (run acts s).report? = s.report? := by
  induction acts generalizing s with
  | nil => exact ⟨rfl, rfl⟩
  | cons a acts ih =>
    have hid := (step_plan s a).id
    rw [calls, List.filter_append, List.append_eq_nil_iff] at h
    obtain ⟨hfailures, hreport⟩ :=
      ih (step s a) (fun b hb => hid ▸ ha b (List.mem_cons_of_mem a hb)) h.2
    rw [run, hfailures, hreport]
    rcases begun_cases s a (ha a List.mem_cons_self) with ⟨rfl, hb⟩ | ⟨hb, hp, _, hr⟩
    · have hf : failed s.pipeline s.around.world = false := by simpa [hb, State.failed] using h.1
      obtain ⟨hcount, haround⟩ := runOnce_quiet s.pipeline s.around hf
      refine ⟨hcount, ?_⟩
      change (s.pipeline.runOnce s.around).around.reports.task? _ = _
      rw [haround]
      exact congrArg _ hid
    · exact ⟨by rw [hp], hr⟩

def Reported (t now : State P τ) : Prop :=
  ∃ f, failing t.pipeline t.around.world = some f ∧
    now.report? = some (reportOf t.pipeline t.around.world now.pipeline.failures f)

theorem step_reported (s : State P τ) (hf : s.failed = true) : Reported s (step s .call) := by
  obtain ⟨f, hs, hcount, hreports⟩ := runOnce_loud s.pipeline s.around hf
  refine ⟨f, hs, ?_⟩
  have hid : (s.pipeline.runOnce s.around).pipeline.id = s.pipeline.id :=
    (step_plan s .call).id
  change (s.pipeline.runOnce s.around).around.reports.task?
    (s.pipeline.runOnce s.around).pipeline.id =
    some (reportOf _ _ (s.pipeline.runOnce s.around).pipeline.failures f)
  rw [hreports, hcount, hid, Reports.task?, Reports.setTask, Dict.get?_insert, if_pos rfl]

theorem run_reported (acts : List (Act P)) (s t : State P τ)
    (ha : ∀ a ∈ acts, a.spares s.pipeline.id)
    (ht : ((calls acts s).filter State.failed).getLast? = some t) : Reported t (run acts s) := by
  induction acts generalizing s with
  | nil => simp [calls] at ht
  -- the last call that failed is among the later acts, or it is this one and none follows
  | cons a acts ih =>
    have hid := (step_plan s a).id
    have hrest : ∀ b ∈ acts, b.spares (step s a).pipeline.id :=
      fun b hb => hid ▸ ha b (List.mem_cons_of_mem a hb)
    rw [calls, List.filter_append, List.getLast?_append] at ht
    cases hl : ((calls acts (step s a)).filter State.failed).getLast? with
    | some u =>
      rw [hl] at ht
      obtain rfl : u = t := Option.some.inj ht
      exact ih (step s a) hrest hl
    | none =>
      rw [hl, Option.none_or] at ht
      have hnil := List.getLast?_eq_none_iff.mp hl
      rcases begun_cases s a (ha a List.mem_cons_self) with ⟨rfl, hb⟩ | ⟨hb, _⟩
      · cases hf : s.failed with
        | true =>
          obtain rfl : s = t := by simpa [hb, hf] using ht
          obtain ⟨f, hs, hreport⟩ := step_reported s hf
          obtain ⟨hcount, hsame⟩ := run_quiet acts (step s .call) hrest hnil
          exact ⟨f, hs, by rw [run, hsame, hreport, hcount]⟩
        | false => simp [hb, hf] at ht
      · simp [hb] at ht

structure Planned (d : TaskDefinition) (primary further : List τ) (p : Pipeline P τ) : Prop where
  id : p.id = d.id
  interval : p.interval = d.schedule.span
  tags : p.tagOverrides = d.collect.tags
  collector : plan p.collector = (d.collect.plugin, d.collect.config)
  processor : p.processor.map plan = d.process.map fun s => (s.plugin, s.config)
  analyzer : p.analyzer.map plan =
    d.analyze.map fun s => (s.plugin, Pipeline.withInterval s.config d.schedule.span)
  primary : p.primary = primary
  further : p.derived = further

theorem buildProcessor_plan (d : Option ProcessDefinition) (s : Option (Stage P.Processor))
    (hs : Pipeline.buildProcessor d = .ok s) :
    s.map plan = d.map fun s => (s.plugin, s.config) := by
  cases d with
  | none =>
    obtain rfl := Except.ok.inj hs
    rfl
  | some d =>
    cases ht : P.processor d.plugin with
    | error e => simp [Pipeline.buildProcessor, ht] at hs
    | ok tool =>
      obtain rfl : some ⟨d.plugin, tool, d.config⟩ = s := by
        simpa [Pipeline.buildProcessor, ht] using hs
      rfl

theorem buildAnalyzer_plan (interval : Span) (d : Option AnalyzeDefinition)
    (s : Option (Stage P.Analyzer)) (hs : Pipeline.buildAnalyzer interval d = .ok s) :
    s.map plan = d.map fun s => (s.plugin, Pipeline.withInterval s.config interval) := by
  cases d with
  | none =>
    obtain rfl := Except.ok.inj hs
    rfl
  | some d =>
    cases ht : P.analyzer d.plugin with
    | error e => simp [Pipeline.buildAnalyzer, ht] at hs
    | ok tool =>
      obtain rfl : some ⟨d.plugin, tool, Pipeline.withInterval d.config interval⟩ = s := by
        simpa [Pipeline.buildAnalyzer, ht] using hs
      rfl

theorem build_planned [Pattern.SizeLimit] (w : P.World) (d : TaskDefinition)
    (primary further : List τ) (p : Pipeline P τ)
    (hp : Pipeline.build w d primary further = .ok p) :
    Planned d primary further p ∧ p.failures = 0 := by
  unfold Pipeline.build at hp
  cases hsource : Pipeline.buildSource (P := P) w d with
  | error e => simp [hsource] at hp
  | ok source =>
    cases hprocessor : Pipeline.buildProcessor (P := P) d.process with
    | error e => simp [hsource, hprocessor] at hp
    | ok processor =>
      cases hanalyzer : Pipeline.buildAnalyzer (P := P) d.schedule.span d.analyze with
      | error e => simp [hsource, hprocessor, hanalyzer] at hp
      | ok analyzer =>
        simp only [hsource, hprocessor, hanalyzer, Except.ok.injEq] at hp
        subst hp
        exact ⟨⟨rfl, rfl, rfl, rfl, buildProcessor_plan _ _ hprocessor,
          buildAnalyzer_plan _ _ _ hanalyzer, rfl, rfl⟩, rfl⟩

/-- What a run has made of a task, told by what its plugins answered. -/
structure History (d : TaskDefinition) (primary further : List τ) (acts : List (Act P))
    (start : State P τ) : Prop where
  planned : ∀ t ∈ calls acts start, Planned d primary further t.pipeline
  visited : ∀ t ∈ calls acts start,
    (t.pipeline.runOnce t.around).visited = path t.pipeline t.around.world
  handed : (run acts start).handed = start.handed ++
    (calls acts start).flatMap fun t => given primary further t.pipeline t.around.world
  counted : (run acts start).pipeline.failures = (calls acts start).countP State.failed
  reported : ((run acts start).around.reports.task? d.id).isSome ↔
    0 < (run acts start).pipeline.failures
  /-- The report is that of the last call that failed. -/
  latest : ∀ t, ((calls acts start).filter State.failed).getLast? = some t →
    ∃ f, failing t.pipeline t.around.world = some f ∧
      (run acts start).around.reports.task? d.id =
        some (.create (P.now t.around.world) d.id f.plugin f.error.message
          (run acts start).pipeline.failures)

theorem planned_of_plan {d : TaskDefinition} {primary further : List τ} {p q : Pipeline P τ}
    (h : SamePlan q p) (hp : Planned d primary further p) : Planned d primary further q := by
  constructor
  · exact h.id.trans hp.id
  · exact h.interval.trans hp.interval
  · exact h.tags.trans hp.tags
  · exact h.collector.trans hp.collector
  · exact h.processor.trans hp.processor
  · exact h.analyzer.trans hp.analyzer
  · exact h.primary.trans hp.primary
  · exact h.derived.trans hp.further

/-- Whatever the plugins of a task answer, every call goes through the states
that the answers ask for, hands over what was prepared and derived in it, and
is counted and reported just when a stage of it failed. -/
theorem pipeline_history [Pattern.SizeLimit] (w : P.World) (d : TaskDefinition)
    (primary further : List τ) (p : Pipeline P τ)
    (hp : Pipeline.build w d primary further = .ok p) (around : Surroundings P)
    (hquiet : around.reports.task? d.id = none) (acts : List (Act P))
    (hothers : ∀ a ∈ acts, a.spares d.id) : History d primary further acts ⟨p, around, []⟩ := by
  obtain ⟨hplanned, hzero⟩ := build_planned w d primary further p hp
  have hspares : ∀ a ∈ acts, a.spares p.id := fun a ha => hplanned.id ▸ hothers a ha
  have hcalls : ∀ t ∈ calls acts ⟨p, around, []⟩, Planned d primary further t.pipeline :=
    fun t ht => planned_of_plan (calls_plan acts _ t ht) hplanned
  have hcount := run_failures acts ⟨p, around, []⟩ hspares
  rw [hzero, Nat.zero_add] at hcount
  have hid : (run acts ⟨p, around, []⟩).pipeline.id = d.id :=
    (run_plan acts ⟨p, around, []⟩).id.trans hplanned.id
  constructor
  · exact hcalls
  · intro t _
    exact (runOnce_trace t.pipeline t.around).1
  · rw [run_handed acts _ hspares]
    congr 1
    apply List.flatMap_congr
    intro t ht
    rw [State.given, (hcalls t ht).primary, (hcalls t ht).further]
  · exact hcount
  · rw [hcount, List.countP_eq_length_filter, ← hid]
    constructor
    · intro hsome
      by_contra h0
      have hnil := List.eq_nil_of_length_eq_zero (Nat.eq_zero_of_not_pos h0)
      have hsame := (run_quiet acts ⟨p, around, []⟩ hspares hnil).2
      have hnone : around.reports.task? p.id = none := hplanned.id ▸ hquiet
      change ((run acts ⟨p, around, []⟩).report?).isSome at hsome
      rw [hsame, State.report?, hnone] at hsome
      cases hsome
    · intro hlt
      obtain ⟨t, ht⟩ := Option.isSome_iff_exists.mp
        (List.getLast?_isSome.mpr (List.ne_nil_of_length_pos hlt))
      obtain ⟨f, _, hreport⟩ := run_reported acts _ t hspares ht
      change ((run acts ⟨p, around, []⟩).report?).isSome
      rw [hreport]
      rfl
  · intro t ht
    obtain ⟨f, hf, hreport⟩ := run_reported acts _ t hspares ht
    refine ⟨f, hf, ?_⟩
    have hmem := List.mem_of_mem_filter (List.mem_of_getLast? ht)
    rw [State.report?, hid, reportOf, (hcalls t hmem).id] at hreport
    exact hreport

def mixedTask : TaskDefinition where
  id := "node"
  schedule := ⟨"1m"⟩
  collect := ⟨"mock", Dict.ofList [("load", 0)], .empty,
    Dict.ofList [("load/one", Dict.ofList [("zone", "a")])]⟩
  process := some ⟨"mock", PluginConfig.empty.insert "mark" (.string "seen")⟩
  analyze := some ⟨"mock", .empty, ["trends"]⟩
  publish := ["store", "store"]

def scripted (collection : Rehearsal.Collection) (processing analyzing : Option String) :
    Rehearsal.World where
  host := ⟨.empty [], default, fun _ => none⟩
  script := ⟨[.ofType (.parse "load/one") ""], none, collection, processing, analyzing⟩
  sinks := ∅

def mixedCalls : List (Act rehearsal) :=
  [.call, .pass (scripted (.fail "no source") none none), .call,
    .pass (scripted .fixed (some "no memory") none), .call,
    .taskFails "disk" ⟨"disk", "procfs", "no disk", 0, 1⟩,
    .pass (scripted .fixed none (some "no model")), .call,
    .pass (scripted .fixed none none), .call]

def loadKey : Pattern where
  raw := ['l', 'o', 'a', 'd']
  items := ['l', 'o', 'a', 'd'].map fun c => .atom (.char c)

attribute [local instance] Pattern.SizeLimit.ofAnys

theorem selection_load : Selection.ofKeys mixedTask.collect.metrics.keys = .ok ⟨[loadKey]⟩ := by
  have hkeys : mixedTask.collect.metrics.keys = ["load"] := rfl
  rw [hkeys]
  cbv

theorem build_mixed : ∃ p : Pipeline rehearsal String,
    Pipeline.build (scripted .fixed none none) mixedTask ["store", "store"] ["trends"] = .ok p := by
  have hsource : Pipeline.buildSource (P := rehearsal) (scripted .fixed none none) mixedTask =
      .ok ⟨.scripted, [.ofType (.parse "load/one") ""], 1⟩ := by
    unfold Pipeline.buildSource
    rw [selection_load]
    rfl
  unfold Pipeline.build
  rw [hsource]
  exact ⟨_, rfl⟩

theorem pipeline_history_mixed :
    ∃ p : Pipeline rehearsal String,
      Pipeline.build (scripted .fixed none none) mixedTask ["store", "store"] ["trends"] = .ok p ∧
      (∀ a ∈ mixedCalls, a.spares "node") ∧
      History mixedTask ["store", "store"] ["trends"] mixedCalls
        ⟨p, .create (scripted .fixed none none), []⟩ := by
  obtain ⟨p, hp⟩ := build_mixed
  have hothers : ∀ a ∈ mixedCalls, a.spares "node" := by simp [mixedCalls, Act.spares]
  exact ⟨p, hp, hothers, pipeline_history (scripted .fixed none none) mixedTask ["store", "store"]
    ["trends"] p hp (.create (scripted .fixed none none)) rfl mixedCalls hothers⟩

end Telemetry.PipelineHistory
