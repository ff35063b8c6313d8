import Telemetry.Builtin
import Telemetry.Proofs.AnalyzerLife
import Telemetry.Proofs.PipelineHistory
import Telemetry.Proofs.SpelledSpans

/-!
# The interval of a task

The interval of a schedule is positive and can be represented. It is told to
the task's analyzer as a spelled length of time, which is read back exactly,
so every engine that the analyzer comes to have takes samples at the interval
of the task.
-/

set_option autoImplicit false

namespace Telemetry.TaskInterval

open PipelineHistory

theorem span_cases (s : Schedule) :
    s.span = Schedule.standard ∨ Span.parse s.interval = .ok s.span ∧ s.span ≠ 0 := by
  unfold Schedule.span Schedule.read parseSpan
  cases Span.parse s.interval with
  | error e => exact Or.inl rfl
  | ok d =>
    by_cases hd : d = 0
    · exact Or.inl (by simp [Except.mapError, hd])
    · exact Or.inr (by simp [Except.mapError, hd])

theorem span_pos (s : Schedule) : 0 < s.span := by
  rcases span_cases s with h | ⟨_, h⟩
  · rw [h]
    decide
  · exact Nat.pos_of_ne_zero h

theorem span_bound (s : Schedule) : s.span < Span.bound := by
  rcases span_cases s with h | ⟨h, _⟩
  · rw [h]
    decide
  · exact SpelledSpans.parse_bound h

theorem readSpan_spelled {s : Span} (h : s < Span.bound) :
    PluginConfig.readSpan s.spelled = .ok s := by
  rw [PluginConfig.readSpan, SpelledSpans.readBounded_spelled, SpelledSpans.parse_spelled h]

theorem getSpan_withInterval {c : PluginConfig} (hkey : c.contains "sampleInterval" = false)
    {interval : Span} (h : interval < Span.bound) :
    (Pipeline.withInterval c interval).getSpan "sampleInterval" = .ok (some interval) := by
  have hget : (Pipeline.withInterval c interval).get? "sampleInterval" =
      some (.string interval.spelled) := by
    rw [Pipeline.withInterval, show Analyzer.intervalKey = "sampleInterval" from rfl, hkey]
    exact (Dict.get?_insert _ _ _ _).trans (if_pos rfl)
  rw [PluginConfig.getSpan, hget]
  dsimp only
  rw [readSpan_spelled h]
  rfl

theorem get?_withInterval (c : PluginConfig) (interval : Span) {key : String}
    (h : key ≠ "sampleInterval") : (Pipeline.withInterval c interval).get? key = c.get? key := by
  unfold Pipeline.withInterval
  split
  · rfl
  · exact (Dict.get?_insert _ _ _ _).trans (if_neg h)

theorem prepare_interval [Pattern.SizeLimit] {fetch : String → Option String} {c : PluginConfig}
    {interval : Span} (hc : c.getSpan "sampleInterval" = .ok (some interval)) {e : Engine}
    (h : Analyzer.prepare fetch c = .ok e) : e.interval = interval := by
  have hread := (AnalyzerLife.readInterval_ok c interval).mpr hc
  unfold Analyzer.prepare at h
  cases hconfigs : Analyzer.readConfigs fetch c with
  | error err =>
    rw [hconfigs] at h
    cases h
  | ok configs =>
    rw [hconfigs, hread] at h
    dsimp only at h
    cases hcreate : Engine.create interval configs with
    | error err =>
      rw [hcreate] at h
      cases h
    | ok e' =>
      rw [hcreate] at h
      obtain rfl : e' = e := Except.ok.inj h
      obtain ⟨-, ks, -, rfl⟩ := WindowReference.create_ok.mp hcreate
      rfl

def Samples (a : Analyzer) (c : PluginConfig) : Prop :=
  ∀ interval, c.getSpan "sampleInterval" = .ok (some interval) →
    ∀ e, a.engine = some e → e.interval = interval

theorem analyze_samples [Pattern.SizeLimit] {a : Analyzer} {c : PluginConfig} (h : Samples a c)
    (fetch : String → Option String) (batch : List Metric) :
    Samples (a.analyze fetch batch c).2 c := by
  intro interval hc e he
  cases ha : a.engine with
  | some e' =>
    obtain rfl : Analyzer.mk (some e') = a := by rw [← ha]
    obtain rfl := Option.some.inj he
    exact (AnalyzerLife.feedAll_settled _ e' batch).1.trans (h interval hc e' rfl)
  | none =>
    obtain rfl : Analyzer.mk none = a := by rw [← ha]
    cases hp : Analyzer.prepare fetch c with
    | error err =>
      rw [Analyzer.analyze] at he
      dsimp only at he
      rw [hp] at he
      cases he
    | ok e' =>
      rw [Analyzer.analyze] at he
      dsimp only at he
      rw [hp] at he
      obtain rfl := Option.some.inj he
      exact (AnalyzerLife.feedAll_settled _ e' batch).1.trans (prepare_interval hc hp)

section Runs

variable {P : Platform} {τ : Type}

def Holds (I : P.Analyzer → PluginConfig → Prop) (p : Pipeline P τ) : Prop :=
  ∀ s, p.analyzer = some s → I s.tool s.config

variable {I : P.Analyzer → PluginConfig → Prop}

theorem runAnalyzer_holds (hI : ∀ w k batch c, I k c → I (P.analyze w k batch c).2 c)
    {p : Pipeline P τ} (h : Holds I p) (w : P.World) (batch : List Metric) :
    Holds I (p.runAnalyzer w batch).2 := by
  unfold Pipeline.runAnalyzer
  cases hs : p.analyzer with
  | none => exact h
  | some s =>
    intro t ht
    obtain rfl := Option.some.inj ht
    exact hI w s.tool batch s.config (h s hs)

theorem tickAnalysis_pipeline (p : Pipeline P τ) (w : P.World) (batch : List Metric)
    (visited : List PipelineState) (puts : List (τ × List Metric)) :
    (p.tickAnalysis w batch visited puts).pipeline = (p.runAnalyzer w batch).2 := by
  unfold Pipeline.tickAnalysis
  cases hs : p.analyzer with
  | none =>
    simp [Pipeline.runAnalyzer, hs]
  | some s =>
    simp only [Option.isNone_some, Bool.false_eq_true, if_false]
    split <;> rename_i hrun <;> rw [hrun]

theorem runProcessor_analyzer (p : Pipeline P τ) (w : P.World) (batch : List Metric) :
    (p.runProcessor w batch).2.analyzer = p.analyzer := by
  unfold Pipeline.runProcessor
  split <;> rfl

theorem tickProcessing_holds (hI : ∀ w k batch c, I k c → I (P.analyze w k batch c).2 c)
    {p : Pipeline P τ} (h : Holds I p) (w : P.World) (batch : List Metric) :
    Holds I (p.tickProcessing w batch).pipeline := by
  have hprocessed : Holds I (p.runProcessor w batch).2 := by
    intro s hs
    rw [runProcessor_analyzer] at hs
    exact h s hs
  unfold Pipeline.tickProcessing
  dsimp only
  split
  · rename_i hrun
    rwa [hrun] at hprocessed
  · rename_i hrun
    rw [hrun] at hprocessed
    rw [tickAnalysis_pipeline]
    exact runAnalyzer_holds hI hprocessed w _

theorem tick_holds (hI : ∀ w k batch c, I k c → I (P.analyze w k batch c).2 c)
    {p : Pipeline P τ} (h : Holds I p) (w : P.World) : Holds I (p.tick w).pipeline := by
  have hcollected : Holds I (p.runCollector w).2 := h
  unfold Pipeline.tick
  split
  · rename_i hrun
    rwa [hrun] at hcollected
  · rename_i hrun
    rw [hrun] at hcollected
    exact tickProcessing_holds hI hcollected w _

theorem runOnce_holds (hI : ∀ w k batch c, I k c → I (P.analyze w k batch c).2 c)
    {p : Pipeline P τ} (h : Holds I p) (around : Surroundings P) :
    Holds I (p.runOnce around).pipeline := by
  have htick := tick_holds hI h around.world
  unfold Pipeline.runOnce
  dsimp only
  split
  · exact htick
  · exact htick

theorem run_holds (hI : ∀ w k batch c, I k c → I (P.analyze w k batch c).2 c)
    (acts : List (Act P)) {s : State P τ} (h : Holds I s.pipeline) :
    Holds I (run acts s).pipeline := by
  induction acts generalizing s with
  | nil => exact h
  | cons a acts ih =>
    refine ih ?_
    cases a with
    | call => exact runOnce_holds hI h s.around
    | pass world => exact h
    | taskFails id r => exact h
    | publisherFails id r => exact h

theorem build_analyzer [Pattern.SizeLimit] {w : P.World} {d : TaskDefinition}
    {a : AnalyzeDefinition} (ha : d.analyze = some a) {primary further : List τ}
    {p : Pipeline P τ} (hp : Pipeline.build w d primary further = .ok p) :
    ∃ tool, P.analyzer a.plugin = .ok tool ∧
      p.analyzer = some ⟨a.plugin, tool, Pipeline.withInterval a.config d.schedule.span⟩ := by
  unfold Pipeline.build at hp
  split at hp
  · cases hp
  · split at hp
    · cases hp
    · split at hp
      · cases hp
      · rename_i analyzer hanalyzer
        obtain rfl := Except.ok.inj hp
        rw [ha, Pipeline.buildAnalyzer] at hanalyzer
        split at hanalyzer
        · cases hanalyzer
        · rename_i tool htool
          exact ⟨tool, htool, (Except.ok.inj hanalyzer).symm⟩

end Runs

/-- The built-in analyzer samples at the interval it has been told, and is
built from every usable list of configurations. -/
theorem initializes_withInterval [Pattern.SizeLimit] {c : PluginConfig}
    (hkey : c.contains "sampleInterval" = false) (s : Schedule) (fetch : String → Option String)
    (batch : List Metric) :
    AnalyzerLife.Initializes ⟨fetch, Pipeline.withInterval c s.span, batch⟩ ↔
      ∃ configs, AnalyzerLife.listed? ⟨fetch, c, batch⟩ = some configs ∧
        ∀ k ∈ configs, AnalyzerLife.Usable k := by
  have hlisted : AnalyzerLife.listed? ⟨fetch, Pipeline.withInterval c s.span, batch⟩ =
      AnalyzerLife.listed? ⟨fetch, c, batch⟩ := by
    simp only [AnalyzerLife.listed?, PluginConfig.getText]
    rw [get?_withInterval c s.span (by decide), get?_withInterval c s.span (by decide)]
  have hspan := getSpan_withInterval hkey (span_bound s)
  constructor
  · rintro ⟨configs, interval, hconfigs, _, _, husable⟩
    exact ⟨configs, hlisted ▸ hconfigs, husable⟩
  · rintro ⟨configs, hconfigs, husable⟩
    exact ⟨configs, s.span, hlisted.symm ▸ hconfigs, hspan, Nat.ne_of_gt (span_pos s), husable⟩

theorem builtin_fresh {n : String} {tool : Analyzer} (h : Builtin.analyzer n = .ok tool) :
    tool = .fresh := by
  unfold Builtin.analyzer Builtin.find at h
  split at h
  · exact (Except.ok.inj h).symm
  · cases h

/-- The built-in analyzer of a task keeps to the interval of the task. -/
theorem run_samples [Pattern.SizeLimit] {τ : Type} {host : Host} {d : TaskDefinition}
    {a : AnalyzeDefinition} (ha : d.analyze = some a) {primary further : List τ}
    {p : Pipeline builtin τ} (hp : Pipeline.build (P := builtin) host d primary further = .ok p)
    (around : Surroundings builtin) (acts : List (Act builtin)) {s : Stage Analyzer}
    (hs : (run acts ⟨p, around, []⟩).pipeline.analyzer = some s) :
    s.config = Pipeline.withInterval a.config d.schedule.span ∧ Samples s.tool s.config := by
  obtain ⟨tool, htool, hanalyzer⟩ := build_analyzer ha hp
  have hstart : Holds (P := builtin) Samples p := by
    intro t ht interval _ e he
    rw [hanalyzer] at ht
    obtain rfl := Option.some.inj ht
    rw [builtin_fresh htool] at he
    cases he
  constructor
  · have hplan := (run_plan acts ⟨p, around, []⟩).analyzer
    rw [hs, hanalyzer] at hplan
    exact congrArg Prod.snd (Option.some.inj hplan)
  · have hkeeps : ∀ (w : builtin.World) (k : builtin.Analyzer) batch c, Samples k c →
        Samples (builtin.analyze w k batch c).2 c :=
      fun w k batch c h => analyze_samples h w.fetch batch
    exact run_holds hkeeps acts hstart s hs

/-- Every schedule has a positive interval. The analyzer of a task that sets no
interval of its own reads the interval of the task's schedule, and the
configuration is otherwise as it was. Over every run of the task the engine of
the built-in analyzer samples at that interval; it can be made whenever the
listed configurations are usable. -/
theorem interval_kept [Pattern.SizeLimit] {d : TaskDefinition} {a : AnalyzeDefinition}
    (ha : d.analyze = some a) (hkey : a.config.contains "sampleInterval" = false) :
    (∀ schedule : Schedule, 0 < schedule.span) ∧
    (∀ (P : Platform) (τ : Type) (w : P.World) (primary further : List τ) (p : Pipeline P τ),
      Pipeline.build w d primary further = .ok p →
      p.interval = d.schedule.span ∧
      ∃ s, p.analyzer = some s ∧ s.plugin = a.plugin ∧
        s.config.getSpan "sampleInterval" = .ok (some d.schedule.span) ∧
        (∀ key, key ≠ "sampleInterval" → s.config.get? key = a.config.get? key) ∧
        ∀ fetch batch, AnalyzerLife.Initializes ⟨fetch, s.config, batch⟩ ↔
          ∃ configs, AnalyzerLife.listed? ⟨fetch, a.config, batch⟩ = some configs ∧
            ∀ k ∈ configs, AnalyzerLife.Usable k) ∧
    ∀ (τ : Type) (host : Host) (primary further : List τ) (p : Pipeline builtin τ),
      Pipeline.build (P := builtin) host d primary further = .ok p →
      ∀ (around : Surroundings builtin) (acts : List (Act builtin)) (s : Stage Analyzer) (e : Engine),
        (run acts ⟨p, around, []⟩).pipeline.analyzer = some s → s.tool.engine = some e →
        e.interval = d.schedule.span ∧ 0 < e.interval := by
  have hspan := getSpan_withInterval hkey (span_bound d.schedule)
  refine ⟨span_pos, ?_, ?_⟩
  · intro P τ w primary further p hp
    obtain ⟨tool, _, hanalyzer⟩ := build_analyzer ha hp
    exact ⟨(build_planned w d primary further p hp).1.interval, _, hanalyzer, rfl, hspan,
      fun key => get?_withInterval a.config d.schedule.span,
      initializes_withInterval hkey d.schedule⟩
  · intro τ host primary further p hp around acts s e hs he
    obtain ⟨hconfig, hsamples⟩ := run_samples ha hp around acts hs
    have hinterval := hsamples d.schedule.span (hconfig ▸ hspan) e he
    exact ⟨hinterval, hinterval ▸ span_pos d.schedule⟩

def slowTask : TaskDefinition where
  id := "node"
  schedule := ⟨"1year 1s 5ns"⟩
  collect := ⟨"procfs", Dict.ofList [("procfs/load", 0)], .empty, ∅⟩
  process := none
  analyze := some ⟨"nodeanalyzer", PluginConfig.empty.insert "configs" (.array []), []⟩
  publish := []

def bareHost : Host := ⟨.empty [], ⟨0, 0⟩, fun _ => none⟩

theorem slow_span : slowTask.schedule.span = 31557601000000005 := by
  cbv

def loadPattern : Pattern where
  raw := "procfs/load".toList
  items := "procfs/load".toList.map fun c => .atom (.char c)

attribute [local instance] Pattern.SizeLimit.ofAnys

theorem selection_procfs :
    Selection.ofKeys slowTask.collect.metrics.keys = .ok ⟨[loadPattern]⟩ := by
  have hkeys : slowTask.collect.metrics.keys = ["procfs/load"] := rfl
  rw [hkeys]
  cbv

theorem slow_built : ∃ p : Pipeline builtin String,
    Pipeline.build (P := builtin) bareHost slowTask [] [] = .ok p := by
  have hsource : ∃ source, Pipeline.buildSource (P := builtin) bareHost slowTask = .ok source := by
    unfold Pipeline.buildSource
    rw [selection_procfs]
    exact ⟨_, rfl⟩
  obtain ⟨source, hsource⟩ := hsource
  unfold Pipeline.build
  rw [hsource]
  exact ⟨_, rfl⟩

/-- Over a year there is still a nanosecond to be told. -/
theorem interval_kept_slow :
    slowTask.analyze = some ⟨"nodeanalyzer", PluginConfig.empty.insert "configs" (.array []), []⟩ ∧
    (PluginConfig.empty.insert "configs" (.array [])).contains "sampleInterval" = false ∧
    ∃ p : Pipeline builtin String,
      Pipeline.build (P := builtin) bareHost slowTask [] [] = .ok p ∧
      p.interval = 31557601000000005 ∧
      (∃ s, p.analyzer = some s ∧
        s.config.getSpan "sampleInterval" = .ok (some 31557601000000005)) ∧
      ∀ around acts s e, (run acts ⟨p, around, []⟩).pipeline.analyzer = some s →
        s.tool.engine = some e → e.interval = 31557601000000005 ∧ 0 < e.interval := by
  have hkey : (PluginConfig.empty.insert "configs" (.array [])).contains "sampleInterval" = false := by
    decide
  obtain ⟨p, hp⟩ := slow_built
  obtain ⟨_, hbuilt, hrun⟩ := interval_kept (d := slowTask) rfl hkey
  obtain ⟨hinterval, s, hs, _, hspan, _, _⟩ := hbuilt builtin String bareHost [] [] p hp
  rw [slow_span] at hinterval hspan
  refine ⟨rfl, hkey, p, hp, hinterval, ⟨s, hs, hspan⟩, fun around acts s e hs he => ?_⟩
  rw [← slow_span]
  exact hrun String bareHost [] [] p hp around acts s e hs he

end Telemetry.TaskInterval
