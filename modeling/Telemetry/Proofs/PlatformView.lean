import Telemetry.Proofs.AgentMoves
import Telemetry.Registry

/-!
# Views of platforms

A view sees the plugins and worlds of one platform as those of another that
answers alike. What an agent does on the first platform is then, seen through
the view, what it does on the second.
-/

set_option autoImplicit false

namespace Telemetry

/-- The plugins and worlds of one platform as those of another. -/
structure View (P Q : Platform) where
  world : P.World → Q.World
  collector : P.Collector → Q.Collector
  processor : P.Processor → Q.Processor
  analyzer : P.Analyzer → Q.Analyzer
  publisher : P.Publisher → Q.Publisher
  now : ∀ w, Q.now (world w) = P.now w
  collectors : ∀ n, Q.collector n = (P.collector n).map collector
  processors : ∀ n, Q.processor n = (P.processor n).map processor
  analyzers : ∀ n, Q.analyzer n = (P.analyzer n).map analyzer
  publishers : ∀ n, Q.publisher n = (P.publisher n).map publisher
  catalog : ∀ w k c, Q.catalog (world w) (collector k) c = (P.catalog w k c).map id collector
  collect : ∀ w k types,
    Q.collect (world w) (collector k) types = (P.collect w k types).map id collector
  process : ∀ w k batch c,
    Q.process (world w) (processor k) batch c = (P.process w k batch c).map id processor
  analyze : ∀ w k batch c,
    Q.analyze (world w) (analyzer k) batch c = (P.analyze w k batch c).map id analyzer
  publish : ∀ w k batch c,
    Q.publish (world w) (publisher k) batch c = (P.publish w k batch c).map id world

namespace View

variable {P Q : Platform} (v : View P Q) {τ : Type}

def stage {α β : Type} (f : α → β) (s : Stage α) : Stage β := ⟨s.plugin, f s.tool, s.config⟩

def pipeline (p : Pipeline P τ) : Pipeline Q τ where
  id := p.id
  interval := p.interval
  collector := stage v.collector p.collector
  types := p.types
  tagOverrides := p.tagOverrides
  processor := p.processor.map (stage v.processor)
  analyzer := p.analyzer.map (stage v.analyzer)
  primary := p.primary
  derived := p.derived
  failures := p.failures

def tick (t : Tick P τ) : Tick Q τ := ⟨v.pipeline t.pipeline, t.visited, t.puts, t.failure⟩

def around (a : Surroundings P) : Surroundings Q := ⟨v.world a.world, a.reports, a.log⟩

def run (r : Pipeline.Run P τ) : Pipeline.Run Q τ :=
  ⟨v.pipeline r.pipeline, r.visited, r.puts, v.around r.around⟩

theorem runCollector_seen (p : Pipeline P τ) (w : P.World) :
    (v.pipeline p).runCollector (v.world w) = (p.runCollector w).map id v.pipeline := by
  simp only [Pipeline.runCollector, pipeline, stage, v.collect]
  rfl

theorem runProcessor_seen (p : Pipeline P τ) (w : P.World) (batch : Batch) :
    (v.pipeline p).runProcessor (v.world w) batch =
      (p.runProcessor w batch).map id v.pipeline := by
  cases hs : p.processor with
  | none => simp [Pipeline.runProcessor, pipeline, hs]
  | some s =>
    simp only [Pipeline.runProcessor, pipeline, hs, Option.map_some, stage, v.process]
    rfl

theorem runAnalyzer_seen (p : Pipeline P τ) (w : P.World) (batch : Batch) :
    (v.pipeline p).runAnalyzer (v.world w) batch =
      (p.runAnalyzer w batch).map id v.pipeline := by
  cases hs : p.analyzer with
  | none => simp [Pipeline.runAnalyzer, pipeline, hs]
  | some s =>
    simp only [Pipeline.runAnalyzer, pipeline, hs, Option.map_some, stage, v.analyze]
    rfl

theorem tickAnalysis_seen (p : Pipeline P τ) (w : P.World) (batch : Batch)
    (visited : List PipelineState) (puts : List (τ × Batch)) :
    (v.pipeline p).tickAnalysis (v.world w) batch visited puts =
      v.tick (p.tickAnalysis w batch visited puts) := by
  have hnone : (v.pipeline p).analyzer.isNone = p.analyzer.isNone := Option.isNone_map
  rw [Pipeline.tickAnalysis, Pipeline.tickAnalysis, hnone, v.runAnalyzer_seen]
  cases p.analyzer.isNone with
  | true => rfl
  | false =>
    cases p.runAnalyzer w batch with
    | mk answer q =>
      cases answer with
      | error f => rfl
      | ok ms => cases ms <;> rfl

theorem tickProcessing_seen (p : Pipeline P τ) (w : P.World) (batch : Batch) :
    (v.pipeline p).tickProcessing (v.world w) batch = v.tick (p.tickProcessing w batch) := by
  have hsome : (v.pipeline p).processor.isSome = p.processor.isSome := Option.isSome_map
  rw [Pipeline.tickProcessing, Pipeline.tickProcessing, hsome, v.runProcessor_seen]
  cases p.runProcessor w batch with
  | mk answer q =>
    cases answer with
    | error f => rfl
    | ok batch => exact v.tickAnalysis_seen q w batch _ _

theorem tick_seen (p : Pipeline P τ) (w : P.World) :
    (v.pipeline p).tick (v.world w) = v.tick (p.tick w) := by
  rw [Pipeline.tick, Pipeline.tick, v.runCollector_seen]
  cases p.runCollector w with
  | mk answer q =>
    cases answer with
    | error f => rfl
    | ok batch => exact v.tickProcessing_seen q w _

theorem report_seen (a : Surroundings P) (id plugin message : String) (failures : ℕ) :
    (v.around a).report id plugin message failures = a.report id plugin message failures := by
  rw [Surroundings.report, Surroundings.report, around, v.now]

theorem runOnce_seen (p : Pipeline P τ) (a : Surroundings P) :
    (v.pipeline p).runOnce (v.around a) = v.run (p.runOnce a) := by
  have htick : (v.pipeline p).tick (v.around a).world = v.tick (p.tick a.world) :=
    v.tick_seen p a.world
  rw [Pipeline.runOnce, Pipeline.runOnce, htick, tick]
  cases (p.tick a.world).failure with
  | none => rfl
  | some f =>
    simp only [Pipeline.fail, v.report_seen]
    rfl

def service (s : Service P) : Service Q :=
  ⟨s.id, s.plugin, v.publisher s.publisher, s.config, s.delivery, s.channel⟩

def serviceLoop (l : ServiceLoop P) : ServiceLoop Q := ⟨v.service l.service, l.flight⟩

def parked (p : Parked P) : Parked Q := ⟨v.serviceLoop p.loop, p.wakeAt, v.around p.around⟩

theorem call_seen (s : Service P) (batch : Batch) (a : Surroundings P) :
    (v.service s).call batch (v.around a) = (s.call batch a).map id v.around := by
  simp only [Service.call, service, around, v.publish]
  rfl

theorem giveUp_seen (s : Service P) (batch : Batch) (e : PublishError) (a : Surroundings P) :
    (v.service s).giveUp batch e (v.around a) =
      (s.giveUp batch e a).map v.service v.around := by
  simp only [Service.giveUp, v.report_seen]
  rfl

theorem proceed_seen (fuel : ℕ) (s : Service P) (flight : Option Flight) (clock : Span)
    (a : Surroundings P) :
    (v.service s).proceed fuel flight clock (v.around a) =
      v.parked (s.proceed fuel flight clock a) := by
  induction fuel generalizing s flight a with
  | zero => rfl
  | succ fuel ih =>
    cases flight with
    | some f =>
      rw [Service.proceed, Service.proceed, v.call_seen]
      cases s.call f.batch a with
      | mk answer b =>
        cases answer with
        | ok u => exact ih s none (s.accept f.batch f.retry.number b)
        | error e =>
          simp only [Prod.map]
          cases f.retry.failed clock with
          | wait w retry => rfl
          | overflow => rfl
          | giveUp attempts elapsed =>
            simp only [id, v.giveUp_seen, Prod.map]
            exact ih _ none _
    | none =>
      have htake : (v.service s).channel.take (v.service s).delivery.batchSize =
          s.channel.take s.delivery.batchSize := rfl
      have hconsume : (v.service s).channel.consume = s.channel.consume := rfl
      rw [Service.proceed, Service.proceed, htake, hconsume]
      cases s.channel.take s.delivery.batchSize with
      | mk batch channel =>
        cases batch with
        | some batch =>
          exact ih { s with channel } (some ⟨batch, .start s.delivery.backoff clock⟩) a
        | none =>
          dsimp only
          cases s.channel.consume with
          | mk used channel =>
            cases used with
            | true => exact ih { s with channel } none a
            | false => rfl

theorem turn_seen (l : ServiceLoop P) (clock : Span) (a : Surroundings P) :
    Service.turn (v.serviceLoop l) clock (v.around a) = v.parked (Service.turn l clock a) :=
  v.proceed_seen _ l.service l.flight clock a

def pipelineLoop (l : PipelineLoop P) : PipelineLoop Q := ⟨v.pipeline l.pipeline, l.due⟩

def ticked (t : Ticked P) : Ticked Q := ⟨v.pipelineLoop t.loop, t.puts, v.around t.around⟩

theorem ticks_seen (fuel : ℕ) (p : Pipeline P String) (due clock : Span) (a : Surroundings P) :
    PipelineLoop.ticks fuel (v.pipeline p) due clock (v.around a) =
      v.ticked (PipelineLoop.ticks fuel p due clock a) := by
  induction fuel generalizing p due a with
  | zero => rfl
  | succ fuel ih =>
    rw [PipelineLoop.ticks, PipelineLoop.ticks]
    split
    · rfl
    · rw [v.runOnce_seen]
      dsimp only
      rw [run, ih]
      rfl

theorem loopTurn_seen (l : PipelineLoop P) (clock : Span) (a : Surroundings P) :
    (v.pipelineLoop l).turn clock (v.around a) = v.ticked (l.turn clock a) := by
  obtain ⟨p, due⟩ := l
  cases due with
  | none => rfl
  | some due => exact v.ticks_seen _ p due clock a

def agent (a : Agent P) : Agent Q where
  clock := a.clock
  services := a.services.map v.serviceLoop
  pipelines := a.pipelines.map v.pipelineLoop
  timers := a.timers
  ready := a.ready
  around := v.around a.around
  cancelled := a.cancelled

theorem wake_seen (a : Agent P) (l : LoopId) : (v.agent a).wake l = v.agent (a.wake l) := by
  unfold Agent.wake
  show (if a.ready.contains l then _ else _) = _
  split <;> rfl

theorem put_seen (a : Agent P) (x : String × Batch) : (v.agent a).put x = v.agent (a.put x) := by
  have hget : (v.agent a).services.get? x.1 = (a.services.get? x.1).map v.serviceLoop :=
    Dict.get?_map _ _ _
  cases hl : a.services.get? x.1 with
  | none =>
    rw [hl] at hget
    rw [AgentMoves.put_unknown hl, AgentMoves.put_unknown hget]
  | some l =>
    rw [hl] at hget
    have hinsert : { v.agent a with services :=
          (v.agent a).services.insert x.1 (AgentMoves.filled (v.serviceLoop l) x.2) } =
        v.agent { a with services := a.services.insert x.1 (AgentMoves.filled l x.2) } := by
      simp only [agent, Dict.map_insert]
      rfl
    rw [AgentMoves.put_known hl, AgentMoves.put_known hget, hinsert]
    show (if x.2 = [] ∨ l.flight.isSome then _ else _) = _
    split
    · rfl
    · exact v.wake_seen _ _

theorem putAll_seen (puts : List (String × Batch)) (a : Agent P) :
    (v.agent a).putAll puts = v.agent (a.putAll puts) := by
  induction puts generalizing a with
  | nil => rfl
  | cons x puts ih =>
    show ((v.agent a).put x).putAll puts = _
    rw [v.put_seen, ih]
    rfl

theorem serviceTurn_seen (a : Agent P) (id : String) :
    (v.agent a).serviceTurn id = v.agent (a.serviceTurn id) := by
  have hget : (v.agent a).services.get? id = (a.services.get? id).map v.serviceLoop :=
    Dict.get?_map _ _ _
  rw [Agent.serviceTurn, Agent.serviceTurn, hget]
  cases a.services.get? id with
  | none => rfl
  | some l =>
    show (if a.cancelled then _ else _) = v.agent (if a.cancelled then _ else _)
    split
    · rfl
    · dsimp only
      have hturn : Service.turn (v.serviceLoop l) (v.agent a).clock (v.agent a).around =
          v.parked (Service.turn l a.clock a.around) := v.turn_seen l a.clock a.around
      rw [hturn]
      simp only [Agent.setTimer, agent, Dict.map_insert]
      rfl

theorem replacePipeline_seen (ls : List (PipelineLoop P)) (id : String) (l : PipelineLoop P) :
    Agent.replacePipeline (ls.map v.pipelineLoop) id (v.pipelineLoop l) =
      (Agent.replacePipeline ls id l).map v.pipelineLoop := by
  rw [Agent.replacePipeline, Agent.replacePipeline, List.map_map, List.map_map]
  apply List.map_congr_left
  intro k _
  show (if k.pipeline.id = id then _ else _) = v.pipelineLoop (if k.pipeline.id = id then _ else _)
  split <;> rfl

theorem pipelineTurn_seen (a : Agent P) (id : String) :
    (v.agent a).pipelineTurn id = v.agent (a.pipelineTurn id) := by
  have hfind : (v.agent a).pipelines.find? (fun l => l.pipeline.id == id) =
      (a.pipelines.find? fun l => l.pipeline.id == id).map v.pipelineLoop := by
    show (a.pipelines.map v.pipelineLoop).find? _ = _
    rw [List.find?_map]
    rfl
  rw [Agent.pipelineTurn, Agent.pipelineTurn, hfind]
  cases a.pipelines.find? (fun l => l.pipeline.id == id) with
  | none => rfl
  | some l =>
    show (if a.cancelled then _ else _) = v.agent (if a.cancelled then _ else _)
    split
    · rfl
    · dsimp only
      have hturn : (v.pipelineLoop l).turn (v.agent a).clock (v.agent a).around =
          v.ticked (l.turn a.clock a.around) := v.loopTurn_seen l a.clock a.around
      have hreplace : { v.agent a with
            pipelines := Agent.replacePipeline (v.agent a).pipelines id
              (v.pipelineLoop (l.turn a.clock a.around).loop)
            around := v.around (l.turn a.clock a.around).around } =
          v.agent { a with
            pipelines := Agent.replacePipeline a.pipelines id (l.turn a.clock a.around).loop
            around := (l.turn a.clock a.around).around } := by
        simp only [agent, replacePipeline_seen]
      rw [hturn]
      show Agent.setTimer (Agent.putAll { v.agent a with
            pipelines := Agent.replacePipeline (v.agent a).pipelines id
              (v.pipelineLoop (l.turn a.clock a.around).loop)
            around := v.around (l.turn a.clock a.around).around } _) _ _ = _
      rw [hreplace, v.putAll_seen]
      rfl

theorem agentTurn_seen (a : Agent P) : (v.agent a).turn = v.agent a.turn := by
  cases hr : a.ready with
  | nil =>
    have hr' : (v.agent a).ready = [] := hr
    rw [Agent.turn, Agent.turn, hr, hr']
  | cons head rest =>
    have hr' : (v.agent a).ready = head :: rest := hr
    rw [Agent.turn, Agent.turn, hr, hr']
    cases head with
    | service id =>
      exact v.serviceTurn_seen (Agent.clearTimer { a with ready := rest } (.service id)) id
    | pipeline id =>
      exact v.pipelineTurn_seen (Agent.clearTimer { a with ready := rest } (.pipeline id)) id

theorem wakeAll_seen (due : List Timer) (a : Agent P) :
    due.foldl (fun b t => b.wake t.loop) (v.agent a) =
      v.agent (due.foldl (fun b t => b.wake t.loop) a) := by
  induction due generalizing a with
  | nil => rfl
  | cons t due ih => rw [List.foldl_cons, List.foldl_cons, v.wake_seen, ih]

theorem unsorted_seen (a : Agent P) (millis : ℕ) :
    AgentMoves.unsorted (v.agent a) millis = v.agent (AgentMoves.unsorted a millis) :=
  v.wakeAll_seen _ { a with
    clock := max a.clock (Span.ofMillis millis)
    timers := a.timers.filter fun t => millis < t.millis }

theorem passing_seen (a : Agent P) (target : Span) :
    AgentMoves.passing (v.agent a) target = v.agent (AgentMoves.passing a target) := by
  rw [AgentMoves.passing_paced, AgentMoves.passing_paced, AgentMoves.paced, AgentMoves.paced]
  have hclock : (v.agent a).clock = a.clock := rfl
  have hready : (v.agent a).ready = a.ready := rfl
  have hnext : (v.agent a).nextMillis = a.nextMillis := rfl
  rw [hclock, hready, hnext]
  by_cases hlate : target ≤ a.clock
  · rw [if_pos hlate, if_pos hlate]
  · rw [if_neg hlate, if_neg hlate]
    cases a.ready with
    | cons head rest => exact v.agentTurn_seen a
    | nil =>
      cases a.nextMillis with
      | none => rfl
      | some millis =>
        show (if Span.ofMillis millis ≤ target then _ else _) =
          v.agent (if Span.ofMillis millis ≤ target then _ else _)
        by_cases hreached : Span.ofMillis millis ≤ target
        · rw [if_pos hreached, if_pos hreached]
          exact v.unsorted_seen a millis
        · rw [if_neg hreached, if_neg hreached]
          rfl

inductive Sees : AgentMoves.Move P → AgentMoves.Move Q → Prop
  | pass (target : Span) : Sees (.pass target) (.pass target)
  | change (f : P.World → P.World) (g : Q.World → Q.World)
      (same : ∀ w, g (v.world w) = v.world (f w)) : Sees (.change f) (.change g)

theorem act_seen (a : Agent P) {m : AgentMoves.Move P} {n : AgentMoves.Move Q}
    (h : v.Sees m n) : AgentMoves.act (v.agent a) n = v.agent (AgentMoves.act a m) := by
  cases h with
  | pass target => exact v.passing_seen a target
  | change f g same =>
    show { v.agent a with
      around := { v.around a.around with world := g (v.world a.around.world) } } = _
    rw [same]
    rfl

theorem run_seen {ms : List (AgentMoves.Move P)} {ns : List (AgentMoves.Move Q)}
    (h : List.Forall₂ v.Sees ms ns) (a : Agent P) :
    AgentMoves.run ns (v.agent a) = v.agent (AgentMoves.run ms a) := by
  induction h generalizing a with
  | nil => rfl
  | cons hm _ ih => rw [AgentMoves.run, AgentMoves.run, v.act_seen a hm, ih]

def registry (r : Registry P) : Registry Q :=
  ⟨r.services.map v.service, r.pipelines.map v.pipeline, r.reports⟩

theorem buildService_seen (s : Settings) (d : PublishDefinition) :
    Registry.buildService (P := Q) s d = (Registry.buildService (P := P) s d).map v.service := by
  rw [Registry.buildService, Registry.buildService, v.publishers]
  cases P.publisher d.plugin with
  | error e => rfl
  | ok publisher =>
    dsimp only [Except.map]
    cases s.delivery d.delivery with
    | error e => rfl
    | ok delivery =>
      show Service.create d.id d.plugin (v.publisher publisher) d.config delivery =
        (Service.create d.id d.plugin publisher d.config delivery).map v.service
      rw [Service.create, Service.create]
      split <;> rfl

theorem addService_seen (s : Settings) (services : Dict (Service P)) (d : PublishDefinition) :
    (Registry.addService s (services.map v.service) d).1 =
      (Registry.addService s services d).1.map v.service := by
  rw [Registry.addService, Registry.addService, Dict.contains_map, v.buildService_seen]
  split
  · rfl
  · cases Registry.buildService (P := P) s d with
    | error e => rfl
    | ok service => exact (Dict.map_insert _ _ _ _).symm

theorem addServices_seen (s : Settings) (services : Dict (Service P))
    (ds : List PublishDefinition) :
    (Registry.addServices s (services.map v.service) ds).1 =
      (Registry.addServices s services ds).1.map v.service := by
  induction ds generalizing services with
  | nil => rfl
  | cons d ds ih =>
    show (Registry.addServices s (Registry.addService s (services.map v.service) d).1 ds).1 = _
    rw [v.addService_seen, ih]
    rfl

def source (s : Pipeline.Source P) : Pipeline.Source Q :=
  ⟨v.collector s.collector, s.types, s.catalogSize⟩

theorem buildSource_seen [Pattern.SizeLimit] (w : P.World) (d : TaskDefinition) :
    Pipeline.buildSource (P := Q) (v.world w) d =
      (Pipeline.buildSource (P := P) w d).map v.source := by
  rw [Pipeline.buildSource, Pipeline.buildSource]
  cases Selection.ofKeys d.collect.metrics.keys with
  | error e => rfl
  | ok selection =>
    dsimp only
    rw [v.collectors]
    cases P.collector d.collect.plugin with
    | error e => rfl
    | ok collector =>
      dsimp only [Except.map]
      rw [v.catalog]
      cases P.catalog w collector d.collect.config with
      | mk answer collector =>
        cases answer with
        | error e => rfl
        | ok catalog =>
          dsimp only [Prod.map, id]
          cases selection.select catalog <;> rfl

theorem buildProcessor_seen (d : Option ProcessDefinition) :
    Pipeline.buildProcessor (P := Q) d =
      (Pipeline.buildProcessor (P := P) d).map (Option.map (stage v.processor)) := by
  cases d with
  | none => rfl
  | some d =>
    rw [Pipeline.buildProcessor, Pipeline.buildProcessor, v.processors]
    cases P.processor d.plugin <;> rfl

theorem buildAnalyzer_seen (interval : Span) (d : Option AnalyzeDefinition) :
    Pipeline.buildAnalyzer (P := Q) interval d =
      (Pipeline.buildAnalyzer (P := P) interval d).map (Option.map (stage v.analyzer)) := by
  cases d with
  | none => rfl
  | some d =>
    rw [Pipeline.buildAnalyzer, Pipeline.buildAnalyzer, v.analyzers]
    cases P.analyzer d.plugin <;> rfl

theorem build_seen [Pattern.SizeLimit] (w : P.World) (d : TaskDefinition)
    (primary derived : List τ) :
    Pipeline.build (P := Q) (v.world w) d primary derived =
      (Pipeline.build (P := P) w d primary derived).map v.pipeline := by
  rw [Pipeline.build, Pipeline.build, v.buildSource_seen, v.buildProcessor_seen,
    v.buildAnalyzer_seen]
  cases Pipeline.buildSource (P := P) w d with
  | error e => rfl
  | ok source =>
    cases Pipeline.buildProcessor (P := P) d.process with
    | error e => rfl
    | ok processor =>
      cases Pipeline.buildAnalyzer (P := P) d.schedule.span d.analyze with
      | error e => rfl
      | ok analyzer => rfl

def tasks (t : Registry.Tasks P) : Registry.Tasks Q := ⟨t.seen, t.pipelines.map v.pipeline⟩

theorem targets_seen (services : Dict (Service P)) (ids : List String) :
    Registry.targets (services.map v.service) ids = Registry.targets services ids := by
  simp only [Registry.targets]
  congr 1
  funext id
  rw [Dict.contains_map]

theorem addTask_seen [Pattern.SizeLimit] (w : P.World) (services : Dict (Service P))
    (t : Registry.Tasks P) (d : TaskDefinition) :
    (Registry.addTask (v.world w) (services.map v.service) (v.tasks t) d).1 =
      v.tasks (Registry.addTask w services t d).1 := by
  have hbuild : Registry.buildPipeline (v.world w) (services.map v.service) d =
      (Registry.buildPipeline w services d).map v.pipeline := by
    rw [Registry.buildPipeline, Registry.buildPipeline, v.targets_seen, v.targets_seen,
      v.build_seen]
  rw [Registry.addTask, Registry.addTask, hbuild]
  show (if t.seen.contains d.id then _ else _ : Registry.Tasks Q × _).1 = _
  split
  · rfl
  · cases Registry.buildPipeline w services d with
    | error e => rfl
    | ok p => simp [tasks, Except.map]

theorem addTasks_seen [Pattern.SizeLimit] (w : P.World) (services : Dict (Service P))
    (t : Registry.Tasks P) (ds : List TaskDefinition) :
    (Registry.addTasks (v.world w) (services.map v.service) (v.tasks t) ds).1 =
      v.tasks (Registry.addTasks w services t ds).1 := by
  induction ds generalizing t with
  | nil => rfl
  | cons d ds ih =>
    show (Registry.addTasks (v.world w) (services.map v.service)
      (Registry.addTask (v.world w) (services.map v.service) (v.tasks t) d).1 ds).1 = _
    rw [v.addTask_seen, ih]
    rfl

theorem registry_seen [Pattern.SizeLimit] (w : P.World) (d : Definition) (s : Settings) :
    (Registry.build (v.world w) d s).1 = v.registry (Registry.build w d s).1 := by
  have hservices := v.addServices_seen s ∅ d.publish
  have htasks := v.addTasks_seen w (Registry.addServices s (∅ : Dict (Service P)) d.publish).1
    ⟨[], []⟩ d.tasks
  show (⟨(Registry.addServices s ((∅ : Dict (Service P)).map v.service) d.publish).1,
    (Registry.addTasks (v.world w)
      (Registry.addServices s ((∅ : Dict (Service P)).map v.service) d.publish).1
      (v.tasks ⟨[], []⟩) d.tasks).1.pipelines, .empty⟩ : Registry Q) = _
  rw [hservices, htasks]
  rfl

theorem start_seen (w : P.World) (r : Registry P) :
    Agent.start (v.world w) (v.registry r) = v.agent (Agent.start w r) := by
  simp only [Agent.start, registry, agent, Dict.map_map, Dict.keys_map, List.map_map]
  rfl

end View

end Telemetry
