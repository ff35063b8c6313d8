import Telemetry.Derived.Analyzer
import Telemetry.Proofs.WindowReference

/-!
# The life of an analyzer

An analyzer is new until a call comes that it can be initialized from. That
call settles its configurations and its interval, and every later call is
answered from them, whatever configuration comes with it.
-/

set_option autoImplicit false

namespace Telemetry.AnalyzerLife

structure Call where
  fetch : String → Option String
  config : PluginConfig
  batch : List Metric

def listed? (call : Call) : Option (List DerivedConfig) :=
  match call.config.get? "configs" with
  | some inline => DerivedConfig.listOfJson inline
  | none => do
    let url ← call.config.getText "configUrl"
    let text ← call.fetch url
    let document ← Json.parse text
    DerivedConfig.ofDocument document

theorem readConfigs_ok (call : Call) (configs : List DerivedConfig) :
    Analyzer.readConfigs call.fetch call.config = .ok configs ↔ listed? call = some configs := by
  unfold Analyzer.readConfigs listed?
  cases call.config.get? "configs" with
  | some inline =>
    dsimp only
    cases DerivedConfig.listOfJson inline <;> simp
  | none =>
    rw [PluginConfig.requireText]
    cases call.config.getText "configUrl" with
    | none => simp
    | some url =>
      show Analyzer.download call.fetch url = .ok configs ↔
        ((call.fetch url).bind fun text => (Json.parse text).bind DerivedConfig.ofDocument) =
          some configs
      rw [Analyzer.download, Option.bind_assoc]
      cases (call.fetch url).bind fun text => (Json.parse text).bind DerivedConfig.ofDocument <;>
        simp

theorem readInterval_ok (c : PluginConfig) (interval : Span) :
    Analyzer.readInterval c = .ok interval ↔
      c.getSpan "sampleInterval" = .ok (some interval) := by
  unfold Analyzer.readInterval
  rw [show Analyzer.intervalKey = "sampleInterval" from rfl]
  cases c.getSpan "sampleInterval" with
  | error e => simp
  | ok d => cases d <;> simp

def Settled (e : Engine) (a : Analyzer) : Prop :=
  ∃ e', a = ⟨some e'⟩ ∧ e'.interval = e.interval ∧ e'.configs = e.configs

theorem feed_settled (e : Engine) (now : Timestamp) (name : String) (value : Float) (tags : Tags)
    (normalizer : Option Float) :
    (e.feed now name value tags normalizer).2.interval = e.interval ∧
    (e.feed now name value tags normalizer).2.configs = e.configs := by
  unfold Engine.feed
  split
  · exact ⟨rfl, rfl⟩
  · split <;> exact ⟨rfl, rfl⟩

theorem feedAll_settled (values : Dict Float) (e : Engine) (ms : List Metric) :
    (Analyzer.feedAll values e ms).2.interval = e.interval ∧
    (Analyzer.feedAll values e ms).2.configs = e.configs := by
  induction ms generalizing e with
  | nil => exact ⟨rfl, rfl⟩
  | cons m ms ih =>
    have hm : (Analyzer.feedMetric values e m).2.interval = e.interval ∧
        (Analyzer.feedMetric values e m).2.configs = e.configs := by
      unfold Analyzer.feedMetric
      split
      · exact ⟨rfl, rfl⟩
      · exact feed_settled e _ _ _ _ _
    obtain ⟨hinterval, hconfigs⟩ := ih (Analyzer.feedMetric values e m).2
    exact ⟨hinterval.trans hm.1, hconfigs.trans hm.2⟩

section Limited

variable [Pattern.SizeLimit]

def answer (a : Analyzer) (call : Call) : Except PluginError (List Metric) :=
  (a.analyze call.fetch call.batch call.config).1

def next (a : Analyzer) (call : Call) : Analyzer :=
  (a.analyze call.fetch call.batch call.config).2

def answers : Analyzer → List Call → List (Except PluginError (List Metric))
  | _, [] => []
  | a, call :: calls => answer a call :: answers (next a call) calls

def after (a : Analyzer) (calls : List Call) : Analyzer :=
  calls.foldl next a

/-- A window that is not empty and can be compared with times, for names that
a pattern can be read from. -/
structure Usable (c : DerivedConfig) : Prop where
  positive : c.windowSeconds ≠ 0
  representable : c.windowSeconds ≤ 9223372036854775
  readable : ∃ p, Pattern.compile c.metricName = .ok p

/-- A call that a new analyzer can be initialized from. -/
def Initializes (call : Call) : Prop :=
  ∃ configs interval, listed? call = some configs ∧
    call.config.getSpan "sampleInterval" = .ok (some interval) ∧ interval ≠ 0 ∧
    ∀ c ∈ configs, Usable c

theorem compile_usable (interval : Span) (c : DerivedConfig) :
    (∃ k, CompiledConfig.compile interval c = .ok k) ↔ Usable c := by
  unfold CompiledConfig.compile
  constructor
  · rintro ⟨k, h⟩
    split at h
    · cases h
    · rename_i hzero
      cases hp : Pattern.compile c.metricName with
      | error e =>
        rw [hp] at h
        cases h
      | ok p =>
        rw [hp] at h
        dsimp only at h
        split at h
        · cases h
        · rename_i hmax
          exact ⟨hzero, Nat.le_of_not_lt hmax, p, hp⟩
  · rintro ⟨hzero, hmax, p, hp⟩
    rw [if_neg hzero, hp]
    exact ⟨_, if_neg (Nat.not_lt_of_le hmax)⟩

theorem compileAll_usable (interval : Span) (configs : List DerivedConfig) :
    (∃ ks, CompiledConfig.compileAll interval configs = .ok ks) ↔ ∀ c ∈ configs, Usable c := by
  induction configs with
  | nil => simp [CompiledConfig.compileAll]
  | cons c configs ih =>
    rw [List.forall_mem_cons, ← compile_usable interval c, ← ih, CompiledConfig.compileAll]
    cases CompiledConfig.compile interval c with
    | error e => simp
    | ok k => cases CompiledConfig.compileAll interval configs <;> simp

theorem create_usable (interval : Span) (configs : List DerivedConfig) :
    (∃ e, Engine.create interval configs = .ok e) ↔
      interval ≠ 0 ∧ ∀ c ∈ configs, Usable c := by
  rw [← compileAll_usable interval configs, Engine.create]
  by_cases hzero : interval = 0
  · simp [hzero]
  · rw [if_neg hzero]
    cases CompiledConfig.compileAll interval configs <;> simp [hzero, Except.map]

theorem prepare_ok (call : Call) :
    (∃ e, Analyzer.prepare call.fetch call.config = .ok e) ↔ Initializes call := by
  unfold Analyzer.prepare Initializes
  simp only [← readConfigs_ok, ← readInterval_ok]
  cases Analyzer.readConfigs call.fetch call.config with
  | error e => simp
  | ok configs =>
    cases Analyzer.readInterval call.config with
    | error e => simp
    | ok interval =>
      have hcreate : (∃ e, (Engine.create interval configs).mapError PluginError.config = .ok e) ↔
          interval ≠ 0 ∧ ∀ c ∈ configs, Usable c := by
        rw [← create_usable]
        cases Engine.create interval configs <;> simp [Except.mapError]
      simpa using hcreate

theorem fresh_failed {call : Call} (h : ¬Initializes call) :
    (∃ err, answer .fresh call = .error err) ∧ next .fresh call = .fresh := by
  unfold answer next Analyzer.analyze
  cases hp : Analyzer.prepare call.fetch call.config with
  | error err => exact ⟨⟨err, by rw [Analyzer.fresh]⟩, rfl⟩
  | ok e => exact absurd ((prepare_ok call).mp ⟨e, hp⟩) h

theorem fresh_prepared {call : Call} {e : Engine}
    (h : Analyzer.prepare call.fetch call.config = .ok e) :
    answer .fresh call = answer ⟨some e⟩ call ∧ next .fresh call = next ⟨some e⟩ call := by
  unfold answer next Analyzer.analyze Analyzer.fresh
  rw [h]
  exact ⟨rfl, rfl⟩

theorem next_settled {e : Engine} {a : Analyzer} (h : Settled e a) (call : Call) :
    Settled e (next a call) := by
  obtain ⟨e', rfl, hinterval, hconfigs⟩ := h
  have hall := feedAll_settled (Analyzer.batchValues call.batch) e' call.batch
  exact ⟨_, rfl, hall.1.trans hinterval, hall.2.trans hconfigs⟩

/-- Of a call to an analyzer with an engine only the batch counts. -/
theorem settled_batch {e : Engine} {a : Analyzer} (h : Settled e a) {call call' : Call}
    (hbatch : call.batch = call'.batch) :
    answer a call = answer a call' ∧ next a call = next a call' := by
  obtain ⟨e', rfl, -, -⟩ := h
  unfold answer next Analyzer.analyze
  rw [hbatch]
  exact ⟨rfl, rfl⟩

theorem settled_answered {e : Engine} {a : Analyzer} (h : Settled e a) (call : Call) :
    ∃ derived, answer a call = .ok derived := by
  obtain ⟨e', rfl, -, -⟩ := h
  exact ⟨_, rfl⟩

theorem answers_append (a : Analyzer) (calls later : List Call) :
    answers a (calls ++ later) = answers a calls ++ answers (after a calls) later := by
  induction calls generalizing a with
  | nil => rfl
  | cons call calls ih =>
    rw [List.cons_append, answers, answers, ih, List.cons_append]
    rfl

theorem after_append (a : Analyzer) (calls later : List Call) :
    after a (calls ++ later) = after (after a calls) later :=
  List.foldl_append

theorem after_failed {calls : List Call} (h : ∀ call ∈ calls, ¬Initializes call) :
    after .fresh calls = .fresh := by
  induction calls with
  | nil => rfl
  | cons call calls ih =>
    obtain ⟨hcall, hcalls⟩ := List.forall_mem_cons.mp h
    show after (next .fresh call) calls = .fresh
    rw [(fresh_failed hcall).2]
    exact ih hcalls

theorem answers_failed {calls : List Call} (h : ∀ call ∈ calls, ¬Initializes call) :
    ∃ errors : List PluginError, answers .fresh calls = errors.map .error := by
  induction calls with
  | nil => exact ⟨[], rfl⟩
  | cons call calls ih =>
    obtain ⟨hcall, hcalls⟩ := List.forall_mem_cons.mp h
    obtain ⟨⟨err, herr⟩, hnext⟩ := fresh_failed hcall
    obtain ⟨errors, herrors⟩ := ih hcalls
    exact ⟨err :: errors, by rw [answers, herr, hnext, herrors, List.map_cons]⟩

theorem after_settled {e : Engine} {a : Analyzer} (h : Settled e a) (calls : List Call) :
    Settled e (after a calls) := by
  induction calls generalizing a with
  | nil => exact h
  | cons call calls ih => exact ih (next_settled h call)

theorem answers_settled {e : Engine} {a : Analyzer} (h : Settled e a) (calls : List Call) :
    ∃ results : List (List Metric), answers a calls = results.map .ok := by
  induction calls generalizing a with
  | nil => exact ⟨[], rfl⟩
  | cons call calls ih =>
    obtain ⟨derived, hderived⟩ := settled_answered h call
    obtain ⟨results, hresults⟩ := ih (next_settled h call)
    exact ⟨derived :: results, by rw [answers, hderived, hresults, List.map_cons]⟩

theorem answers_batches {e : Engine} {a : Analyzer} (h : Settled e a) {calls calls' : List Call}
    (hbatches : calls.map Call.batch = calls'.map Call.batch) :
    answers a calls = answers a calls' := by
  induction calls generalizing a calls' with
  | nil =>
    rw [List.map_nil, eq_comm, List.map_eq_nil_iff] at hbatches
    rw [hbatches]
  | cons call calls ih =>
    obtain ⟨call', calls'', rfl, hcall, hcalls⟩ := List.map_eq_cons_iff.mp hbatches.symm
    obtain ⟨hanswer, hnext⟩ := settled_batch h hcall.symm
    rw [answers, answers, hanswer, hnext, ih (next_settled h call') hcalls.symm]

theorem answers_prepared {first : Call} {e : Engine}
    (h : Analyzer.prepare first.fetch first.config = .ok e) (later : List Call) :
    answers .fresh (first :: later) = answers ⟨some e⟩ (first :: later) := by
  obtain ⟨hanswer, hnext⟩ := fresh_prepared h
  rw [answers, answers, hanswer, hnext]

/-- Calls fail and leave the analyzer new until the first one that it can be
initialized from. From then on all calls are answered, by engines with the
interval and the configurations of that one call, as a new analyzer answers
that call and then the batches of the later ones, whatever comes with them. -/
theorem life_cycle {early : List Call} (h : ∀ call ∈ early, ¬Initializes call) :
    (∀ call, (∃ e, Analyzer.prepare call.fetch call.config = .ok e) ↔ Initializes call) ∧
    (∃ errors : List PluginError, answers .fresh early = errors.map .error) ∧
    (∀ k, after .fresh (early.take k) = .fresh) ∧
    ∀ first later, Initializes first →
      ∃ (e : Engine) (results : List (List Metric)),
        Analyzer.prepare first.fetch first.config = .ok e ∧
        answers .fresh (early ++ first :: later) = answers .fresh early ++ results.map .ok ∧
        (∀ calls, calls.map Call.batch = later.map Call.batch →
          answers .fresh (first :: calls) = results.map .ok) ∧
        ∀ k, Settled e (after .fresh (early ++ first :: later.take k)) := by
  refine ⟨prepare_ok, answers_failed h, fun k => ?_, fun first later hfirst => ?_⟩
  · exact after_failed fun call hcall => h call (List.mem_of_mem_take hcall)
  · obtain ⟨e, he⟩ := (prepare_ok first).mpr hfirst
    have hsettled : Settled e ⟨some e⟩ := ⟨e, rfl, rfl, rfl⟩
    obtain ⟨results, hresults⟩ := answers_settled hsettled (first :: later)
    refine ⟨e, results, he, ?_, fun calls hcalls => ?_, fun k => ?_⟩
    · rw [answers_append, after_failed h, answers_prepared he, hresults]
    · rw [answers_prepared he, ← hresults]
      exact answers_batches hsettled (by rw [List.map_cons, List.map_cons, hcalls])
    · rw [after_append, after_failed h]
      show Settled e (after (next .fresh first) (later.take k))
      rw [(fresh_prepared he).2]
      exact after_settled (next_settled hsettled first) _

end Limited

def offline (batch : List Metric) : Call :=
  ⟨fun _ => none, ⟨Dict.ofList [("configUrl", .string "http://analyzer/configs")]⟩, batch⟩

def loads : Json :=
  .array [.object [("metric_name", .string "load/*"), ("observation_window_sec", .int 30),
    ("threshold", .object [("type", .string "UB"), ("value", .float 0.8)])]]

def listing (batch : List Metric) : Call :=
  ⟨fun _ => none,
    ⟨Dict.ofList [("configs", loads), ("sampleInterval", .string "10s")]⟩, batch⟩

attribute [local instance] Pattern.SizeLimit.ofAnys

theorem offline_fails (batch : List Metric) : ¬Initializes (offline batch) := by
  rintro ⟨configs, interval, hlisted, -⟩
  have hnone : listed? (offline batch) = none := by
    unfold listed?
    rfl
  rw [hnone] at hlisted
  cases hlisted

theorem listing_initializes (batch : List Metric) : Initializes (listing batch) := by
  refine ⟨[⟨"load/*", "", "", none, 30, ∅, ⟨.upper, 0.8, ""⟩⟩], Span.ofSeconds 10, ?_, ?_, ?_, ?_⟩
  · rfl
  · rfl
  · decide
  · intro c hc
    obtain rfl := List.mem_singleton.mp hc
    exact ⟨by decide, by decide, WindowReference.loadPattern, WindowReference.compile_load⟩

def load (n : Int64) : Metric :=
  ⟨Namespace.parse "load/one", ⟨100, 0⟩, .int n, ∅, "", 1⟩

def offlineTwice : List Call :=
  [offline [load 1], offline []]

/-- Two calls that fail, one that initializes, and one that could not. -/
theorem life_cycle_offline :
    (∀ call ∈ offlineTwice, ¬Initializes call) ∧ Initializes (listing [load 2]) ∧
    after .fresh (offlineTwice.take 1) = .fresh ∧
    ∃ (e : Engine) (results : List (List Metric)),
      Analyzer.prepare (listing [load 2]).fetch (listing [load 2]).config = .ok e ∧
      answers .fresh (offlineTwice ++ [listing [load 2], offline [load 3]]) =
        answers .fresh offlineTwice ++ results.map .ok ∧
      answers .fresh [listing [load 2], listing [load 3]] = results.map .ok ∧
      Settled e (after .fresh (offlineTwice ++ [listing [load 2], offline [load 3]])) := by
  have hearly : ∀ call ∈ offlineTwice, ¬Initializes call := by
    intro call hcall
    rcases List.mem_pair.mp hcall with rfl | rfl
    · exact offline_fails [load 1]
    · exact offline_fails []
  have hfirst := listing_initializes [load 2]
  obtain ⟨-, -, hfresh, hlife⟩ := life_cycle hearly
  obtain ⟨e, results, he, hanswers, hsame, hsettled⟩ :=
    hlife (listing [load 2]) [offline [load 3]] hfirst
  exact ⟨hearly, hfirst, hfresh 1, e, results, he, hanswers, hsame [listing [load 3]] rfl,
    hsettled 1⟩

end Telemetry.AnalyzerLife
