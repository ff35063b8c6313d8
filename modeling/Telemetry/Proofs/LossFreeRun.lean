import Telemetry.Proofs.LossFreeRun.ServiceTurns
import Telemetry.Proofs.LossFreeRun.TaskTurns

/-!
# Runs without loss

When no plugin call fails and no queue is shorter than the references to its
publisher, one instant never fills a queue: a put wakes the service, whose turn
empties its queue before time moves on. Whenever all loops wait, each task has
ticked once for every interval that is over, and each sink has been given all
that was put.
-/

set_option autoImplicit false

namespace Telemetry.LossFreeRun

open AnsweredCalls AgentMoves

variable {P : Platform}

section Steady

variable {r : Registry (answering P)} {put taken : List (String × Batch)}
  {a b : Agent (answering P)}

theorem skip_steady (h : Steady r put taken a) {head : LoopId} {rest : List LoopId}
    (hr : a.ready = head :: rest) (hs : ∀ id, head = .service id → a.services.get? id = none)
    (hp : ∀ l ∈ a.pipelines, head ≠ .pipeline l.pipeline.id) :
    Steady r put taken ({ a with ready := rest }.clearTimer head) := by
  refine ⟨h.distinct, h.cancelled, (ready_rest h hr).2, h.outlines, ?_, ?_, ?_, h.unfailing,
    h.unreported, h.served, ?_⟩
  · intro t ht
    exact h.future t (List.mem_filter.mp ht).1
  · intro t ht
    exact h.punctual t (List.mem_filter.mp ht).1
  · intro l hl
    have hne := hp l hl
    refine standing_aside (h.standing l hl) rfl (mem_rest hr hne.symm) ?_
    intro t ht hloop
    exact List.mem_filter.mpr ⟨ht, by simpa [hloop] using hne.symm⟩
  · intro id s l hs' hl
    have hne : LoopId.service id ≠ head := by
      intro heq
      have hnone := (hs id heq.symm).symm.trans hl
      cases hnone
    have hawaited : awaited ({ a with ready := rest }.clearTimer head) id = awaited a id :=
      awaited_congr (a := a) (b := { a with ready := rest }.clearTimer head) rfl
        (fun l hl => mem_rest hr (hp l hl).symm) id
    exact serving_kept (h.serving id s l hs' hl) (mem_rest hr hne).mpr hawaited rfl

structure Unfailing (a : Agent (answering P)) : Prop where
  calls : ∀ c ∈ a.around.world.2, c.accepted = true
  answers : ∀ l ∈ a.pipelines, Untroubled l.pipeline

theorem turn_steady (h : Steady r put taken a) (hroom : Roomy r) (hr : a.ready ≠ [])
    (hq : Unfailing a.turn) : Steady r (put ++ handed a) (taken ++ accepted a) a.turn := by
  obtain ⟨head, rest, hr⟩ := List.exists_cons_of_ne_nil hr
  cases head with
  | service id =>
    have hhanded : handed a = [] := by rw [handed, hr]
    rw [hhanded, List.append_nil]
    cases hl : a.services.get? id with
    | none =>
      have hturn : a.turn = { a with ready := rest }.clearTimer (.service id) := by
        rw [Agent.turn, hr]
        simp only [Agent.serviceTurn, Agent.clearTimer, hl]
      have haccepted : accepted a = [] := by
        rw [accepted, hr]
        dsimp only
        rw [hturn]
        show ((a.around.world.2.drop a.around.world.2.length).filter _).map _ = _
        rw [List.drop_length]
        rfl
      rw [haccepted, List.append_nil, hturn]
      exact skip_steady h hr (fun k hk => LoopId.service.inj hk ▸ hl) (by simp)
    | some l =>
      rw [turn_served hr hl h.cancelled] at hq ⊢
      exact served_steady h hroom hr hl hq.calls
  | pipeline id =>
    have haccepted : accepted a = [] := by rw [accepted, hr]
    rw [haccepted, List.append_nil]
    cases hl : a.pipelines.find? (fun l => l.pipeline.id == id) with
    | none =>
      have hturn : a.turn = { a with ready := rest }.clearTimer (.pipeline id) := by
        rw [Agent.turn, hr]
        simp only [Agent.pipelineTurn, Agent.clearTimer, hl]
      have hhanded : handed a = [] := by
        rw [handed, hr]
        dsimp only
        rw [hl]
      rw [hhanded, List.append_nil, hturn]
      refine skip_steady h hr (by simp) ?_
      intro l hmem heq
      have hne := List.find?_eq_none.mp hl l hmem
      simp [LoopId.pipeline.inj heq] at hne
    | some l =>
      have hid : l.pipeline.id = id := by simpa using List.find?_some hl
      subst hid
      have hmem := List.mem_of_find?_eq_some hl
      have hhanded : handed a = (l.turn a.clock a.around).puts := by
        rw [handed, hr]
        dsimp only
        rw [hl]
      rw [turn_ticked hr hl h.cancelled] at hq ⊢
      rw [hhanded]
      refine ticked_steady h hroom hr hmem (hq.answers _ ?_)
      show _ ∈ ((settled a l.pipeline.id rest _).putAll _).pipelines
      rw [(aside_putAll _ _).pipelines]
      exact List.mem_map.mpr ⟨l, hmem, if_pos rfl⟩

theorem still (ha : a.ready = []) : handed a = [] ∧ accepted a = [] := by
  rw [handed, accepted, ha]
  exact ⟨rfl, rfl⟩

theorem act_steady (h : Steady r put taken a) (hroom : Roomy r) (m : Move (answering P))
    (hq : Unfailing (act a m)) :
    Steady r (put ++ during handed a m) (taken ++ during accepted a m) (act a m) := by
  cases m with
  | change f =>
    simp only [during, List.append_nil]
    refine ⟨h.distinct, h.cancelled, h.nodup, h.outlines, h.future, h.punctual, ?_, h.unfailing,
      h.unreported, h.served, ?_⟩
    · intro l hl
      exact standing_aside (h.standing l hl) rfl Iff.rfl fun t ht _ => ht
    · intro id s l hs hl
      exact serving_kept (h.serving id s l hs hl) (fun hready => hready) rfl rfl
  | pass target =>
    have hpassed := passing_passed a target
    rw [act] at hq ⊢
    generalize passing a target = b at hpassed hq
    rw [during, during]
    cases hpassed with
    | stays late =>
      rw [if_neg (Nat.not_lt.mpr late), if_neg (Nat.not_lt.mpr late), List.append_nil,
        List.append_nil]
      exact h
    | turns early awake =>
      rw [if_pos early, if_pos early]
      exact turn_steady h hroom awake hq
    | fires early asleep millis next =>
      rw [if_pos early, if_pos early, (still asleep).1, (still asleep).2, List.append_nil,
        List.append_nil]
      exact fire_steady h asleep next
    | waits early asleep later =>
      rw [if_pos early, if_pos early, (still asleep).1, (still asleep).2, List.append_nil,
        List.append_nil]
      apply wait_steady h asleep
      intro t ht
      exact Nat.max_lt.mpr ⟨h.future t ht, later t ht⟩

def NeverFailing : List (Move (answering P)) → Agent (answering P) → Prop
  | [], _ => True
  | m :: ms, a => Unfailing (act a m) ∧ NeverFailing ms (act a m)

theorem run_steady (ms : List (Move (answering P))) {put taken : List (String × Batch)}
    {a : Agent (answering P)} (h : Steady r put taken a) (hroom : Roomy r)
    (hq : NeverFailing ms a) :
    Steady r (put ++ along handed ms a) (taken ++ along accepted ms a) (run ms a) := by
  induction ms generalizing put taken a with
  | nil =>
    rw [along, along, List.append_nil, List.append_nil]
    exact h
  | cons m ms ih =>
    rw [along, along, ← List.append_assoc, ← List.append_assoc]
    exact ih (act_steady h hroom m hq.1) hq.2

end Steady

def registry [Pattern.SizeLimit] (w : P.World) (d : Definition) (s : Settings) :
    Registry (answering P) :=
  (Registry.build (P := answering P) (w, []) d s).1

def started [Pattern.SizeLimit] (w : P.World) (d : Definition) (s : Settings) :
    Agent (answering P) :=
  Agent.start (w, []) (registry w d s)

theorem made_ticks {w : (answering P).World} {p : Pipeline (answering P) String}
    (h : FreshRegistry.Made w p) : ticks p = 0 := by
  obtain ⟨tool, hmade, htool⟩ := h.collector
  have hfresh : tool.answers = [] := by
    change (P.collector p.collector.plugin).map Recalled.fresh = .ok tool at hmade
    cases hc : P.collector p.collector.plugin with
    | error e =>
      rw [hc] at hmade
      cases hmade
    | ok c =>
      rw [hc] at hmade
      rw [← Except.ok.inj hmade]
      rfl
  rw [ticks, htool]
  show tool.answers.length = 0
  rw [hfresh]
  rfl

theorem start_steady [Pattern.SizeLimit] (w : P.World) (d : Definition) (s : Settings) :
    Steady (registry w d s) [] [] (started w d s) := by
  have hfresh := FreshRegistry.build_fresh (P := answering P) (w, []) d s
  change FreshRegistry.Fresh _ (registry w d s) at hfresh
  generalize hr : registry w d s = r at hfresh
  rw [started, hr]
  have hserved : ∀ id, (Agent.start (w, []) r).services.get? id =
      (r.services.get? id).map fun s => ⟨s, none⟩ := fun id => Dict.get?_map _ _ id
  have houtlines : (Agent.start (w, []) r).pipelines.map (fun l => outline l.pipeline) =
      r.pipelines.map outline := by
    show (r.pipelines.map _).map _ = _
    rw [List.map_map]
    rfl
  refine ⟨hfresh.distinct, rfl, ?_, houtlines, ?_, ?_, ?_, ?_, hfresh.unreported, ?_, ?_⟩
  · refine List.nodup_append.mpr ⟨?_, ?_, ?_⟩
    · exact (Dict.keys_nodup r.services).map fun i j h => LoopId.service.inj h
    · have hmap : r.pipelines.map (fun p => LoopId.pipeline p.id) =
          (r.pipelines.map (·.id)).map .pipeline := by
        rw [List.map_map]
        rfl
      rw [hmap]
      exact hfresh.distinct.map fun i j h => LoopId.pipeline.inj h
    · intro i hi j hj
      obtain ⟨k, -, rfl⟩ := List.mem_map.mp hi
      obtain ⟨p, -, rfl⟩ := List.mem_map.mp hj
      simp
  · intro t ht
    cases ht
  · intro t ht
    cases ht
  · intro l hl
    obtain ⟨p, hp, rfl⟩ := List.mem_map.mp hl
    exact .beginning (List.mem_append_right _ (List.mem_map_of_mem hp)) rfl rfl
      (made_ticks (hfresh.made p hp))
  · intro l hl
    obtain ⟨p, hp, rfl⟩ := List.mem_map.mp hl
    exact (hfresh.made p hp).failures
  · intro id
    rw [hserved]
    exact Option.isSome_map
  · intro id s l hs hl
    rw [hserved, hs] at hl
    obtain rfl := Option.some.inj hl
    have hunused := hfresh.unused id s hs
    have hqueue : s.channel.queue = [] := by rw [hunused]; rfl
    refine ⟨rfl, rfl, rfl, by rw [hunused]; rfl, by rw [hunused]; rfl, fun _ => hqueue, ?_, ?_⟩
    · rw [Channel.queued, hqueue, List.length_nil, Nat.zero_add]
      exact awaited_le houtlines id
    · rw [hqueue]
      rfl

/-- An agent of a registry at an instant at which all loops wait. The batches
of `put` have been put and those of `received` accepted by sinks. -/
structure LossFree (r : Registry (answering P)) (put received : List (String × Batch))
    (a : Agent (answering P)) : Prop where
  tasks : a.pipelines.map (fun l => outline l.pipeline) = r.pipelines.map outline
  ticked : ∀ l ∈ a.pipelines, ticks l.pipeline = a.clock / l.pipeline.interval
  unfailing : ∀ l ∈ a.pipelines, l.pipeline.failures = 0
  publishers : ∀ id, (a.services.get? id).isSome = (r.services.get? id).isSome
  emptied : ∀ id l, a.services.get? id = some l → l.service.channel.queue = []
  undropped : ∀ id l, a.services.get? id = some l →
    l.service.channel.dropped = 0 ∧ l.service.channel.failures = 0
  unreported : a.around.reports = .empty
  delivered : ∀ id l, a.services.get? id = some l →
    (addressed id received).flatten = (offers id put).flatten

/-- A task that waits has ticked once for every interval that is over. -/
theorem asleep_ticks {r : Registry (answering P)} {put taken : List (String × Batch)}
    {a : Agent (answering P)} (h : Steady r put taken a) (ha : a.ready = [])
    {l : PipelineLoop (answering P)} (hl : l ∈ a.pipelines) :
    ticks l.pipeline = a.clock / l.pipeline.interval := by
  obtain ⟨-, past, t, ht, -, hnext⟩ := asleep_due h ha hl
  have hbefore := h.future t ht
  rw [hnext] at hbefore
  exact (Nat.div_eq_of_lt_le past hbefore).symm

theorem steady_lossFree {r : Registry (answering P)} {put taken : List (String × Batch)}
    {a : Agent (answering P)} (h : Steady r put taken a) (ha : a.ready = []) :
    LossFree r put taken a := by
  have hserving : ∀ id l, a.services.get? id = some l →
      ∃ s, Serving r put taken a id s l := by
    intro id l hl
    have hserved := h.served id
    rw [hl] at hserved
    obtain ⟨s, hs⟩ := Option.isSome_iff_exists.mp hserved.symm
    exact ⟨s, h.serving id s l hs hl⟩
  have hempty : ∀ id l, a.services.get? id = some l → l.service.channel.queue = [] := by
    intro id l hl
    obtain ⟨s, hs⟩ := hserving id l hl
    apply hs.rest
    rw [ha]
    exact List.not_mem_nil
  constructor
  · exact h.outlines
  · intro l hl
    exact asleep_ticks h ha hl
  · exact h.unfailing
  · exact h.served
  · exact hempty
  · intro id l hl
    obtain ⟨s, hs⟩ := hserving id l hl
    exact ⟨hs.dropped, hs.failures⟩
  · exact h.unreported
  · intro id l hl
    obtain ⟨s, hs⟩ := hserving id l hl
    have haccount := hs.account
    rw [hempty id l hl, List.flatten_nil, List.append_nil] at haccount
    rw [haccount, flatten_offers]

theorem roomy_remembering {r : Registry (answering P)}
    (h : Roomy ((forgetting P).registry r)) : Roomy r := by
  have hget : ∀ id s, r.services.get? id = some s →
      ((forgetting P).registry r).services.get? id = some ((forgetting P).service s) := by
    intro id s hs
    exact (Dict.get?_map _ _ _).trans (congrArg _ hs)
  have hrefs : ∀ id, references ((forgetting P).registry r) id = references r id := by
    intro id
    show ((r.pipelines.map _).map (refs id)).sum = _
    rw [List.map_map]
    rfl
  constructor
  · intro p hp
    exact h.interval _ (List.mem_map_of_mem hp)
  · intro id s hs
    exact h.idle id _ (hget id s hs)
  · intro id s hs
    rw [← hrefs]
    exact h.room id _ (hget id s hs)

theorem registry_forgetting [Pattern.SizeLimit] (w : P.World) (d : Definition) (s : Settings) :
    (Registry.build w d s).1 = (forgetting P).registry (registry w d s) :=
  (forgetting P).registry_seen (w, []) d s

theorem start_forgetting [Pattern.SizeLimit] (w : P.World) (d : Definition) (s : Settings) :
    Agent.start w (Registry.build w d s).1 = (forgetting P).agent (started w d s) := by
  rw [registry_forgetting]
  exact (forgetting P).start_seen (w, []) (registry w d s)

/-- Whatever an agent is built from and however time and the world move on,
when all loops wait then every task has kept its schedule and every sink has
been given all that was put, as long as no plugin fails and no queue is shorter
than the references to its publisher. The memories that tell this make no
difference to the agent. -/
theorem waiting_loses_nothing [Pattern.SizeLimit] (w : P.World) (d : Definition) (s : Settings)
    (moves : List (Move P)) (hroom : Roomy (Registry.build w d s).1)
    (hq : NeverFailing (moves.map remembering) (started w d s))
    (hwait : (run moves (Agent.start w (Registry.build w d s).1)).ready = []) :
    (forgetting P).agent (run (moves.map remembering) (started w d s)) =
      run moves (Agent.start w (Registry.build w d s).1) ∧
    LossFree (registry w d s) (along handed (moves.map remembering) (started w d s))
      (along accepted (moves.map remembering) (started w d s))
      (run (moves.map remembering) (started w d s)) := by
  have hsame := run_forgetting moves (started w d s)
  rw [← start_forgetting] at hsame
  have hroomy : Roomy (registry w d s) := by
    rw [registry_forgetting] at hroom
    exact roomy_remembering hroom
  refine ⟨hsame, steady_lossFree (run_steady _ (start_steady w d s) hroomy hq) ?_⟩
  rw [← hsame] at hwait
  exact hwait

instance (p : Pipeline (answering P) String) : Decidable (Untroubled p) :=
  inferInstanceAs (Decidable (∀ r ∈ answers p, r.isOk = true))

instance (a : Agent (answering P)) : Decidable (Unfailing a) :=
  decidable_of_iff
    ((∀ c ∈ a.around.world.2, c.accepted = true) ∧ ∀ l ∈ a.pipelines, Untroubled l.pipeline)
    ⟨fun h => ⟨h.1, h.2⟩, fun h => ⟨h.calls, h.answers⟩⟩

def NeverFailing.decide : (ms : List (Move (answering P))) → (a : Agent (answering P)) →
    Decidable (NeverFailing ms a)
  | [], _ => isTrue trivial
  | m :: ms, a =>
    have := NeverFailing.decide ms (pacedAct a m)
    decidable_of_iff (Unfailing (pacedAct a m) ∧ NeverFailing ms (pacedAct a m)) (by
      rw [NeverFailing, act_paced])

instance (ms : List (Move (answering P))) (a : Agent (answering P)) :
    Decidable (NeverFailing ms a) :=
  NeverFailing.decide ms a

def pairedTask (id interval : String) (analyze : Option AnalyzeDefinition)
    (publish : List String) : TaskDefinition where
  id := id
  schedule := ⟨interval⟩
  collect := ⟨"mock", Dict.ofList [("load", 0)], .empty, ∅⟩
  process := none
  analyze := analyze
  publish := publish

def fastTask : TaskDefinition := pairedTask "fast" "1s" none ["store"]

def slowTask : TaskDefinition :=
  pairedTask "slow" "2s" (some ⟨"mock", .empty, ["trends"]⟩) ["store", "store"]

def pairedDefinition : Definition where
  tasks := [fastTask, slowTask]
  publish := [
    ⟨"store", "recorder", .empty, some { DeliveryOverrides.none with queueSize := some 3 }⟩,
    ⟨"trends", "recorder", .empty, some { DeliveryOverrides.none with queueSize := some 1 }⟩]

def pairedWorld : rehearsal.World := PipelineHistory.scripted .fixed none none

attribute [local instance] Pattern.SizeLimit.ofAnys

theorem source_paired (id interval : String) (analyze : Option AnalyzeDefinition)
    (publish : List String) :
    Pipeline.buildSource (P := answering rehearsal) (pairedWorld, [])
      (pairedTask id interval analyze publish) =
      .ok ⟨⟨.scripted, []⟩, [.ofType (.parse "load/one") ""], 1⟩ := by
  have hkeys : Selection.ofKeys (pairedTask id interval analyze publish).collect.metrics.keys =
      .ok ⟨[PipelineHistory.loadKey]⟩ := PipelineHistory.selection_load
  unfold Pipeline.buildSource
  rw [hkeys]
  rfl

def pairedPipeline (id : String) (interval : Span)
    (analyzer : Option (Stage (answering rehearsal).Analyzer)) (primary derived : List String) :
    Pipeline (answering rehearsal) String where
  id := id
  interval := interval
  collector := ⟨"mock", ⟨.scripted, []⟩, .empty⟩
  types := [.ofType (.parse "load/one") ""]
  tagOverrides := ∅
  processor := none
  analyzer := analyzer
  primary := primary
  derived := derived
  failures := 0

def fastPipeline : Pipeline (answering rehearsal) String :=
  pairedPipeline "fast" (Span.ofMillis 1000) none ["store"] []

def slowPipeline : Pipeline (answering rehearsal) String :=
  pairedPipeline "slow" (Span.ofMillis 2000)
    (some ⟨"mock", ⟨.scripted, []⟩, PluginConfig.empty.insert Analyzer.intervalKey (.string "2s")⟩)
    ["store", "store"] ["trends"]

def pairedServices : Dict (Service (answering rehearsal)) :=
  (Registry.addServices .standard ∅ pairedDefinition.publish).1

def pairedRegistry : Registry (answering rehearsal) :=
  ⟨pairedServices, [fastPipeline, slowPipeline], .empty⟩

theorem registry_paired : registry pairedWorld pairedDefinition .standard = pairedRegistry := by
  have hfast : Registry.buildPipeline (P := answering rehearsal) (pairedWorld, []) pairedServices
      fastTask = .ok fastPipeline := by
    unfold Registry.buildPipeline fastTask Pipeline.build
    rw [source_paired]
    rfl
  have hslow : Registry.buildPipeline (P := answering rehearsal) (pairedWorld, []) pairedServices
      slowTask = .ok slowPipeline := by
    unfold Registry.buildPipeline slowTask Pipeline.build
    rw [source_paired]
    rfl
  show (⟨pairedServices, (Registry.addTasks (P := answering rehearsal) (pairedWorld, [])
    pairedServices ⟨[], []⟩ [fastTask, slowTask]).1.pipelines, .empty⟩ :
      Registry (answering rehearsal)) = pairedRegistry
  simp only [Registry.addTasks, Registry.addTask, hfast, hslow]
  rfl

def pairedMoves : List (Move rehearsal) := List.replicate 23 (.pass (Span.ofSeconds 5))

theorem waiting_loses_nothing_paired :
    Roomy (Registry.build pairedWorld pairedDefinition .standard).1 ∧
    NeverFailing (pairedMoves.map remembering) (started pairedWorld pairedDefinition .standard) ∧
    (run pairedMoves
      (Agent.start pairedWorld (Registry.build pairedWorld pairedDefinition .standard).1)).ready =
        [] ∧
    (run pairedMoves
      (Agent.start pairedWorld (Registry.build pairedWorld pairedDefinition .standard).1)).clock =
        Span.ofSeconds 4 ∧
    LossFree (registry pairedWorld pairedDefinition .standard)
      (along handed (pairedMoves.map remembering) (started pairedWorld pairedDefinition .standard))
      (along accepted (pairedMoves.map remembering)
        (started pairedWorld pairedDefinition .standard))
      (run (pairedMoves.map remembering) (started pairedWorld pairedDefinition .standard)) := by
  have hroom : Roomy (Registry.build pairedWorld pairedDefinition .standard).1 := by
    rw [registry_forgetting, registry_paired]
    have hservices : ∀ e ∈ ((forgetting rehearsal).registry pairedRegistry).services.entries,
        0 < e.2.delivery.idle ∧
          references ((forgetting rehearsal).registry pairedRegistry) e.1 ≤
            e.2.channel.capacity := by decide
    constructor
    · intro p hp
      rcases List.mem_pair.mp hp with rfl | rfl
      · exact ⟨1000, by decide, rfl⟩
      · exact ⟨2000, by decide, rfl⟩
    · intro id s hs
      exact (hservices _ (Dict.mem_of_get? hs)).1
    · intro id s hs
      exact (hservices _ (Dict.mem_of_get? hs)).2
  have hq : NeverFailing (pairedMoves.map remembering)
      (started pairedWorld pairedDefinition .standard) := by
    rw [started, registry_paired]
    decide +kernel
  have hwait : (run pairedMoves (Agent.start pairedWorld
      (Registry.build pairedWorld pairedDefinition .standard).1)).ready = [] := by
    rw [start_forgetting, started, registry_paired, run_paced]
    decide +kernel
  have hclock : (run pairedMoves (Agent.start pairedWorld
      (Registry.build pairedWorld pairedDefinition .standard).1)).clock = Span.ofSeconds 4 := by
    rw [start_forgetting, started, registry_paired, run_paced]
    decide +kernel
  exact ⟨hroom, hq, hwait, hclock, (waiting_loses_nothing pairedWorld pairedDefinition .standard
    pairedMoves hroom hq hwait).2⟩

end Telemetry.LossFreeRun
