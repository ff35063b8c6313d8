import Telemetry.Proofs.ObservedCalls
import Telemetry.Proofs.PipelineHistory
import Telemetry.Proofs.PlatformView

/-!
# Calls and their answers

A platform on which every plugin remembers what it answered tells whether a
call has failed. A tick after which no failed answer is remembered has gone
through, and so a turn of a service has delivered everything it found queued.
-/

set_option autoImplicit false

namespace Telemetry.AnsweredCalls

open AgentMoves (Move run)
open ObservedCalls (Call observed)

variable {P : Platform} {τ : Type}

structure Recalled (α : Type) where
  tool : α
  answers : List (Except PluginError Batch)

def Recalled.fresh {α : Type} (tool : α) : Recalled α := ⟨tool, []⟩

def Recalled.answer {α : Type} (k : Recalled α) (r : Except PluginError Batch × α) :
    Except PluginError Batch × Recalled α :=
  (r.1, ⟨r.2, k.answers ++ [r.1]⟩)

/-- A platform whose plugins remember their answers. -/
def answering (P : Platform) : Platform where
  World := P.World × List Call
  Collector := Recalled P.Collector
  Processor := Recalled P.Processor
  Analyzer := Recalled P.Analyzer
  Publisher := P.Publisher
  now w := P.now w.1
  collector n := (P.collector n).map .fresh
  processor n := (P.processor n).map .fresh
  analyzer n := (P.analyzer n).map .fresh
  publisher := P.publisher
  catalog w k c :=
    let (catalog, tool) := P.catalog w.1 k.tool c
    (catalog, ⟨tool, k.answers⟩)
  collect w k types := k.answer (P.collect w.1 k.tool types)
  process w k batch c := k.answer (P.process w.1 k.tool batch c)
  analyze w k batch c := k.answer (P.analyze w.1 k.tool batch c)
  publish := (observed P).publish

def forgetting (P : Platform) : View (answering P) P where
  world := Prod.fst
  collector := Recalled.tool
  processor := Recalled.tool
  analyzer := Recalled.tool
  publisher := id
  now _ := rfl
  collectors n := by
    show _ = ((P.collector n).map Recalled.fresh).map _
    cases P.collector n <;> rfl
  processors n := by
    show _ = ((P.processor n).map Recalled.fresh).map _
    cases P.processor n <;> rfl
  analyzers n := by
    show _ = ((P.analyzer n).map Recalled.fresh).map _
    cases P.analyzer n <;> rfl
  publishers n := by
    show _ = (P.publisher n).map id
    cases P.publisher n <;> rfl
  catalog _ _ _ := rfl
  collect _ _ _ := rfl
  process _ _ _ _ := rfl
  analyze _ _ _ _ := rfl
  publish _ _ _ _ := rfl

def remembering : Move P → Move (answering P)
  | .pass target => .pass target
  | .change f => .change fun w => (f w.1, w.2)

theorem run_forgetting (ms : List (Move P)) (a : Agent (answering P)) :
    (forgetting P).agent (run (ms.map remembering) a) = run ms ((forgetting P).agent a) := by
  refine ((forgetting P).run_seen ?_ a).symm
  rw [List.forall₂_map_left_iff, List.forall₂_same]
  intro m _
  cases m with
  | pass target => exact .pass target
  | change f => exact .change _ f fun _ => rfl

def recalled {α : Type} : Option (Stage (Recalled α)) → List (Except PluginError Batch)
  | none => []
  | some s => s.tool.answers

def answers (p : Pipeline (answering P) τ) : List (Except PluginError Batch) :=
  p.collector.tool.answers ++ recalled p.processor ++ recalled p.analyzer

def ticks (p : Pipeline (answering P) τ) : ℕ := p.collector.tool.answers.length

def Untroubled (p : Pipeline (answering P) τ) : Prop := ∀ r ∈ answers p, r.isOk = true

theorem untroubled_error {p : Pipeline (answering P) τ} (h : Untroubled p) {e : PluginError}
    (he : .error e ∈ answers p) : False := by
  have herror := h _ he
  cases herror

theorem tickAnalysis_untroubled (p : Pipeline (answering P) τ) (w : (answering P).World)
    (batch : Batch) (visited : List PipelineState) (puts : List (τ × Batch)) :
    (p.tickAnalysis w batch visited puts).pipeline.collector = p.collector ∧
    (Untroubled (p.tickAnalysis w batch visited puts).pipeline →
      (p.tickAnalysis w batch visited puts).failure = none) := by
  cases hs : p.analyzer with
  | none => simp [Pipeline.tickAnalysis, hs]
  | some s =>
    cases ha : P.analyze w.1 s.tool.tool batch s.config with
    | mk answer tool =>
      have hcall : (answering P).analyze w s.tool batch s.config =
          (answer, ⟨tool, s.tool.answers ++ [answer]⟩) := by
        show s.tool.answer (P.analyze w.1 s.tool.tool batch s.config) = _
        rw [ha]
        rfl
      cases answer with
      | error e =>
        simp only [Pipeline.tickAnalysis, Pipeline.runAnalyzer, hs, hcall, Except.mapError,
          Option.isNone_some, Bool.false_eq_true, if_false, true_and]
        intro h
        exact (untroubled_error h (e := e) (by simp [answers, recalled])).elim
      | ok ms =>
        cases ms with
        | nil => simp [Pipeline.tickAnalysis, Pipeline.runAnalyzer, hs, hcall, Except.mapError]
        | cons m ms =>
          simp [Pipeline.tickAnalysis, Pipeline.runAnalyzer, hs, hcall, Except.mapError]

theorem tickProcessing_untroubled (p : Pipeline (answering P) τ) (w : (answering P).World)
    (batch : Batch) :
    (p.tickProcessing w batch).pipeline.collector = p.collector ∧
    (Untroubled (p.tickProcessing w batch).pipeline →
      (p.tickProcessing w batch).failure = none) := by
  cases hs : p.processor with
  | none =>
    simp only [Pipeline.tickProcessing, Pipeline.runProcessor, hs]
    exact tickAnalysis_untroubled p w batch _ _
  | some s =>
    cases ha : P.process w.1 s.tool.tool batch s.config with
    | mk answer tool =>
      have hcall : (answering P).process w s.tool batch s.config =
          (answer, ⟨tool, s.tool.answers ++ [answer]⟩) := by
        show s.tool.answer (P.process w.1 s.tool.tool batch s.config) = _
        rw [ha]
        rfl
      cases answer with
      | error e =>
        simp only [Pipeline.tickProcessing, Pipeline.runProcessor, hs, hcall, Except.mapError,
          true_and]
        intro h
        exact (untroubled_error h (e := e) (by simp [answers, recalled])).elim
      | ok ms =>
        simp only [Pipeline.tickProcessing, Pipeline.runProcessor, hs, hcall, Except.mapError]
        exact tickAnalysis_untroubled _ w ms _ _

/-- A tick collects once, and has gone through when all answers are good. -/
theorem tick_untroubled (p : Pipeline (answering P) τ) (w : (answering P).World) :
    ticks (p.tick w).pipeline = ticks p + 1 ∧
    (Untroubled (p.tick w).pipeline → (p.tick w).failure = none) := by
  cases ha : P.collect w.1 p.collector.tool.tool p.types with
  | mk answer tool =>
    have hcall : (answering P).collect w p.collector.tool p.types =
        (answer, ⟨tool, p.collector.tool.answers ++ [answer]⟩) := by
      show p.collector.tool.answer (P.collect w.1 p.collector.tool.tool p.types) = _
      rw [ha]
      rfl
    cases answer with
    | error e =>
      simp only [Pipeline.tick, Pipeline.runCollector, hcall, Except.mapError, ticks,
        List.length_append, List.length_singleton, true_and]
      intro h
      exact (untroubled_error h (e := e) (by simp [answers])).elim
    | ok ms =>
      simp only [Pipeline.tick, Pipeline.runCollector, hcall, Except.mapError]
      obtain ⟨hcollector, hthrough⟩ := tickProcessing_untroubled
        { p with collector :=
            { p.collector with tool := ⟨tool, p.collector.tool.answers ++ [.ok ms]⟩ } } w
        (ms.map (Pipeline.applyTags p.tagOverrides))
      refine ⟨?_, hthrough⟩
      rw [ticks, hcollector, List.length_append]
      rfl

/-- A run of a pipeline after which all answers are good counts no failure and
leaves no report. -/
theorem runOnce_untroubled (p : Pipeline (answering P) τ) (around : Surroundings (answering P))
    (h : Untroubled (p.runOnce around).pipeline) :
    (p.runOnce around).pipeline.failures = p.failures ∧ (p.runOnce around).around = around ∧
    ticks (p.runOnce around).pipeline = ticks p + 1 := by
  obtain ⟨hticks, hthrough⟩ := tick_untroubled p around.world
  cases hf : (p.tick around.world).failure with
  | none =>
    obtain ⟨hcount, haround⟩ := PipelineHistory.runOnce_quiet p around (by
      rw [PipelineHistory.failed, ← (PipelineHistory.tick_told p around.world).failure, hf]
      rfl)
    refine ⟨hcount, haround, ?_⟩
    rw [PipelineHistory.runOnce_none p around hf]
    exact hticks
  | some f =>
    rw [PipelineHistory.runOnce_some p around f hf] at h
    have hnone := hthrough h
    rw [hf] at hnone
    cases hnone

theorem call_remembered (s : Service (answering P)) (batch : Batch)
    (around : Surroundings (answering P)) :
    ∃ answer world, s.call batch around = (answer, { around with
      world := (world, around.world.2 ++ [⟨batch, s.config, answer⟩]) }) :=
  ⟨_, _, rfl⟩

theorem proceed_calls (fuel : ℕ) (s : Service (answering P)) (flight : Option Flight)
    (clock : Span) (around : Surroundings (answering P)) :
    ∃ made, (s.proceed fuel flight clock around).around.world.2 = around.world.2 ++ made := by
  induction fuel generalizing s flight around with
  | zero => exact ⟨[], (List.append_nil _).symm⟩
  | succ fuel ih =>
    cases flight with
    | some f =>
      obtain ⟨answer, world, hcall⟩ := call_remembered s f.batch around
      rw [Service.proceed, hcall]
      cases answer with
      | ok u =>
        obtain ⟨made, hmade⟩ := ih s none
          (s.accept f.batch f.retry.number { around with
            world := (world, around.world.2 ++ [⟨f.batch, s.config, .ok u⟩]) })
        exact ⟨_ :: made, hmade.trans (List.append_assoc _ [_] made)⟩
      | error e =>
        dsimp only
        split
        · exact ⟨[_], rfl⟩
        · exact ⟨[_], rfl⟩
        · obtain ⟨made, hmade⟩ := ih (s.giveUp f.batch ⟨_, _, e⟩ _).1 none
            (s.giveUp f.batch ⟨_, _, e⟩ { around with
              world := (world, around.world.2 ++ [⟨f.batch, s.config, .error e⟩]) }).2
          exact ⟨_ :: made, hmade.trans (List.append_assoc _ [_] made)⟩
    | none =>
      rw [Service.proceed]
      split
      · exact ih _ _ _
      · split
        · exact ih _ _ _
        · exact ⟨[], (List.append_nil _).symm⟩

def emptied (s : Service (answering P)) : Service (answering P) :=
  { s with channel := { s.channel with queue := [], permit := false } }

def relieved (s : Service (answering P)) : Service (answering P) :=
  { s with channel := { s.channel with
      queue := s.channel.queue.drop (max 1 s.delivery.batchSize) } }

/-- The turn of a service that delivered all it found and went to rest. -/
structure Delivered (s : Service (answering P)) (clock : Span)
    (around : Surroundings (answering P)) (p : Parked (answering P)) : Prop where
  loop : p.loop = ⟨emptied s, none⟩
  wakeAt : p.wakeAt = some (clock + s.delivery.idle)
  reports : p.around.reports = around.reports
  calls : ∃ made, p.around.world.2 = around.world.2 ++ made ∧
    (made.map (·.batch)).flatten = s.channel.queue.flatten

theorem proceed_empty (fuel : ℕ) (s : Service (answering P)) (clock : Span)
    (around : Surroundings (answering P)) (hq : s.channel.queue = []) :
    s.proceed (fuel + 2) none clock around =
      ⟨⟨emptied s, none⟩, some (clock + s.delivery.idle), around⟩ := by
  obtain ⟨id, plugin, publisher, config, delivery, capacity, queue, failures, dropped, permit⟩ := s
  obtain rfl : queue = [] := hq
  cases permit with
  | true => rfl
  | false => rfl

/-- What is taken goes into one call; the service goes on when it is accepted. -/
theorem proceed_taken (fuel : ℕ) (s : Service (answering P)) (clock : Span)
    (around : Surroundings (answering P)) (hq : s.channel.queue ≠ [])
    (h : ∀ c ∈ (s.proceed (fuel + 2) none clock around).around.world.2, c.accepted = true) :
    ∃ c after, c.batch = (s.channel.share s.delivery.batchSize).flatten ∧
      after.reports = around.reports ∧ after.world.2 = around.world.2 ++ [c] ∧
      s.proceed (fuel + 2) none clock around = (relieved s).proceed fuel none clock after := by
  have htake : s.channel.take s.delivery.batchSize =
      (some (s.channel.share s.delivery.batchSize).flatten, (relieved s).channel) := by
    rw [Channel.take, if_neg hq]
    rfl
  rw [Service.proceed, htake] at h ⊢
  dsimp only at h ⊢
  rw [Service.proceed] at h ⊢
  obtain ⟨answer, world, hcall⟩ := call_remembered (relieved s)
    (s.channel.share s.delivery.batchSize).flatten around
  change Service.call { s with channel := (relieved s).channel } _ _ = _ at hcall
  rw [hcall] at h ⊢
  cases answer with
  | ok u =>
    let batch := (s.channel.share s.delivery.batchSize).flatten
    exact ⟨⟨batch, s.config, .ok u⟩, (relieved s).accept batch 1 { around with
      world := (world, around.world.2 ++ [⟨batch, s.config, .ok u⟩]) }, rfl, rfl, rfl, rfl⟩
  | error e =>
    -- the refused call stays among the calls remembered
    exfalso
    dsimp only at h
    split at h
    · have hrefused := h ⟨_, s.config, .error e⟩ (List.mem_append_right _ List.mem_cons_self)
      cases hrefused
    · have hrefused := h ⟨_, s.config, .error e⟩ (List.mem_append_right _ List.mem_cons_self)
      cases hrefused
    · obtain ⟨made, hmade⟩ := proceed_calls fuel _ none clock _
      rw [hmade] at h
      have hrefused := h ⟨_, s.config, .error e⟩
        (List.mem_append_left _ (List.mem_append_right _ List.mem_cons_self))
      cases hrefused

theorem proceed_delivers (fuel : ℕ) (s : Service (answering P)) (clock : Span)
    (around : Surroundings (answering P)) (hf : 2 * s.channel.queued + 2 ≤ fuel)
    (h : ∀ c ∈ (s.proceed fuel none clock around).around.world.2, c.accepted = true) :
    Delivered s clock around (s.proceed fuel none clock around) := by
  -- on the length of the queue: every call shortens it and uses two units of fuel
  induction hn : s.channel.queued using Nat.strong_induction_on generalizing fuel s around with
  | _ n ih =>
    obtain ⟨fuel, rfl⟩ : ∃ k, fuel = k + 2 := ⟨fuel - 2, by omega⟩
    by_cases hq : s.channel.queue = []
    · rw [proceed_empty fuel s clock around hq]
      exact ⟨rfl, rfl, rfl, [], (List.append_nil _).symm, by rw [hq]; rfl⟩
    · obtain ⟨c, after, hbatch, hreports, hworld, hproceed⟩ :=
        proceed_taken fuel s clock around hq h
      have hpos : 0 < s.channel.queued := List.length_pos_iff.mpr hq
      have hshorter : (relieved s).channel.queued = s.channel.queued - max 1 s.delivery.batchSize :=
        List.length_drop
      rw [hproceed] at h ⊢
      have hrest := ih _ (by omega) fuel (relieved s) after (by omega) h rfl
      obtain ⟨made, hmade, hflat⟩ := hrest.calls
      refine ⟨hrest.loop, hrest.wakeAt, hrest.reports.trans hreports, c :: made, ?_, ?_⟩
      · rw [hmade, hworld, List.append_assoc]
        rfl
      · rw [List.map_cons, List.flatten_cons, hflat, hbatch]
        show _ ++ (s.channel.queue.drop _).flatten = _
        rw [Channel.share, ← List.flatten_append, List.take_append_drop]

/-- A turn after which every call remembered was accepted delivers the queue. -/
theorem turn_delivers (l : ServiceLoop (answering P)) (clock : Span)
    (around : Surroundings (answering P)) (hl : l.flight = none)
    (h : ∀ c ∈ (Service.turn l clock around).around.world.2, c.accepted = true) :
    Delivered l.service clock around (Service.turn l clock around) := by
  unfold Service.turn at h ⊢
  rw [hl] at h ⊢
  exact proceed_delivers _ l.service clock around (by omega) h

end Telemetry.AnsweredCalls
