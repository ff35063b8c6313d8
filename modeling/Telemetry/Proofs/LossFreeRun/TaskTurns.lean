import Telemetry.Proofs.LossFreeRun.Steady

/-!
# Turns of tasks in a steady agent

A task puts at most its references to a publisher, for which there was room as
long as it had not ticked, and sleeps until its next tick is due.
-/

set_option autoImplicit false

namespace Telemetry.LossFreeRun

open AnsweredCalls AgentMoves

variable {P : Platform} {r : Registry (answering P)} {put taken : List (String × Batch)}
  {a b : Agent (answering P)}

theorem turn_begins {l : PipelineLoop (answering P)} (hdue : l.due = none) (clock : Span)
    (around : Surroundings (answering P)) :
    l.turn clock around = ⟨{ l with due := some (clock + l.pipeline.interval) }, [], around⟩ := by
  rw [PipelineLoop.turn, hdue]

theorem turn_ticks {l : PipelineLoop (answering P)} {n : ℕ} {clock : Span}
    (hclock : clock = Span.ofMillis n) (hdue : l.due = some clock)
    (around : Surroundings (answering P)) :
    l.turn clock around =
      ⟨⟨(l.pipeline.runOnce around).pipeline, some (clock + l.pipeline.interval)⟩,
        (l.pipeline.runOnce around).puts, (l.pipeline.runOnce around).around⟩ := by
  have hnot : ¬clock < Agent.timerMillis clock * Span.nanosPerMilli := by
    rw [hclock, timerMillis_ofMillis]
    exact Nat.lt_irrefl _
  rw [PipelineLoop.turn, hdue]
  dsimp only
  rw [Nat.sub_self, Nat.zero_div, PipelineLoop.ticks, if_neg hnot]
  simp only [PipelineLoop.ticks, List.append_nil]

theorem addressed_toAll (id : String) (targets : List String) (batch : Batch) :
    (addressed id (PipelineHistory.toAll targets batch)).length = targets.count id := by
  rw [addressed, PipelineHistory.toAll, List.length_map, List.filter_map, List.length_map,
    List.count, List.countP_eq_length_filter]
  rfl

theorem addressed_given (id : String) (p : Pipeline (answering P) String)
    (w : (answering P).World) :
    (addressed id (PipelineHistory.given p.primary p.derived p w)).length ≤ refs id p := by
  rw [PipelineHistory.given, addressed_append, List.length_append, refs]
  apply Nat.add_le_add
  · cases PipelineHistory.prepared p w with
    | none => exact Nat.zero_le _
    | some batch =>
      rw [Option.toList_some, List.flatMap_singleton, addressed_toAll]
  · split
    · exact Nat.zero_le _
    · rw [addressed_toAll]

structure Turned (a : Agent (answering P)) (l : PipelineLoop (answering P))
    (t : Ticked (answering P)) : Prop where
  outline : outline t.loop.pipeline = outline l.pipeline
  failures : t.loop.pipeline.failures = l.pipeline.failures
  due : t.loop.due = some (a.clock + l.pipeline.interval)
  clock : a.clock = ticks t.loop.pipeline * l.pipeline.interval
  around : t.around = a.around
  puts : ∀ id, (addressed id t.puts).length ≤ refs id l.pipeline

theorem turn_turned {l : PipelineLoop (answering P)} (h : Standing a l)
    (hready : LoopId.pipeline l.pipeline.id ∈ a.ready) {n : ℕ}
    (hn : l.pipeline.interval = Span.ofMillis n)
    (hq : Untroubled (l.turn a.clock a.around).loop.pipeline) :
    Turned a l (l.turn a.clock a.around) := by
  cases h with
  | beginning _ due clock none =>
    rw [turn_begins due]
    refine ⟨rfl, rfl, rfl, ?_, rfl, fun id => Nat.zero_le _⟩
    rw [none, clock, Nat.zero_mul]
  | awake _ due clock =>
    have hmillis : a.clock = Span.ofMillis ((ticks l.pipeline + 1) * n) := by
      rw [← mul_ofMillis, ← hn]
      exact clock
    rw [turn_ticks hmillis due] at hq ⊢
    obtain ⟨hcount, haround, hticks⟩ := runOnce_untroubled l.pipeline a.around hq
    obtain ⟨-, hputs, hplan⟩ := PipelineHistory.runOnce_trace l.pipeline a.around
    refine ⟨?_, hcount, rfl, ?_, haround, ?_⟩
    · rw [outline, outline, hplan.id, hplan.interval, hplan.primary, hplan.derived]
    · rw [hticks]
      exact clock
    · intro id
      show (addressed id (l.pipeline.runOnce a.around).puts).length ≤ _
      rw [hputs]
      exact addressed_given id l.pipeline a.around.world
  | asleep asleep => exact absurd hready asleep

def settled (a : Agent (answering P)) (id : String) (rest : List LoopId)
    (t : Ticked (answering P)) : Agent (answering P) :=
  { a with
    pipelines := Agent.replacePipeline a.pipelines id t.loop
    timers := a.timers.filter (·.loop != .pipeline id)
    ready := rest
    around := t.around }

def ticked (a : Agent (answering P)) (id : String) (rest : List LoopId)
    (l : PipelineLoop (answering P)) : Agent (answering P) :=
  let t := l.turn a.clock a.around
  ((settled a id rest t).putAll t.puts).setTimer (.pipeline id) (t.loop.due.getD a.clock)

theorem turn_ticked {id : String} {rest : List LoopId} {l : PipelineLoop (answering P)}
    (hr : a.ready = .pipeline id :: rest)
    (hl : a.pipelines.find? (fun l => l.pipeline.id == id) = some l)
    (hc : a.cancelled = false) : a.turn = ticked a id rest l := by
  rw [Agent.turn, hr]
  simp only [Agent.pipelineTurn, Agent.clearTimer, hl, hc, ticked, settled,
    Bool.false_eq_true, if_false]

theorem mem_replace {ls : List (PipelineLoop (answering P))} {id : String}
    {l k : PipelineLoop (answering P)} (hk : k ∈ Agent.replacePipeline ls id l) :
    k = l ∨ (k ∈ ls ∧ k.pipeline.id ≠ id) := by
  obtain ⟨j, hj, rfl⟩ := List.mem_map.mp hk
  by_cases hid : j.pipeline.id = id
  · rw [if_pos hid]
    exact .inl rfl
  · rw [if_neg hid]
    exact .inr ⟨hj, hid⟩

theorem replace_outline (h : Steady r put taken a) {l k : PipelineLoop (answering P)}
    (hl : l ∈ a.pipelines) (hk : outline k.pipeline = outline l.pipeline) :
    (Agent.replacePipeline a.pipelines l.pipeline.id k).map (fun l => outline l.pipeline) =
      r.pipelines.map outline := by
  rw [← h.outlines, Agent.replacePipeline, List.map_map]
  apply List.map_congr_left
  intro j hj
  by_cases hid : j.pipeline.id = l.pipeline.id
  · have hsame : j = l := List.inj_on_of_nodup_map (ids_nodup h) hj hl hid
    simp [hsame, hk]
  · simp [hid]

theorem sum_without {α : Type} {p : α → Prop} [DecidablePred p] (f : α → ℕ) {ls : List α}
    {l : α} (hl : l ∈ ls) (hp : p l) :
    (ls.map fun x => if p x then 0 else f x).sum + f l ≤ (ls.map f).sum := by
  induction ls with
  | nil => cases hl
  | cons x ls ih =>
    rw [List.map_cons, List.map_cons, List.sum_cons, List.sum_cons]
    rcases List.mem_cons.mp hl with rfl | hl
    · have hrest : (ls.map fun x => if p x then 0 else f x).sum ≤ (ls.map f).sum := by
        apply List.sum_le_sum
        intro y _
        split
        · exact Nat.zero_le _
        · exact Nat.le_refl _
      rw [if_pos hp]
      omega
    · have hrest := ih hl
      split
      · omega
      · omega

theorem awaited_settled {l : PipelineLoop (answering P)} (hl : l ∈ a.pipelines)
    {b : Agent (answering P)} {t : PipelineLoop (answering P)} {rest : List LoopId}
    (hr : a.ready = .pipeline l.pipeline.id :: rest)
    (hrest : LoopId.pipeline l.pipeline.id ∉ rest)
    (hpipelines : b.pipelines = Agent.replacePipeline a.pipelines l.pipeline.id t)
    (ht : t.pipeline.id = l.pipeline.id)
    (hready : ∀ task, LoopId.pipeline task ∈ b.ready ↔ LoopId.pipeline task ∈ rest)
    (id : String) : awaited b id + refs id l.pipeline ≤ awaited a id := by
  -- the sum over the tasks that are awake loses the references of `l` and nothing else
  have hsum := sum_without (p := fun k : PipelineLoop (answering P) =>
      k.pipeline.id = l.pipeline.id)
    (fun k => if LoopId.pipeline k.pipeline.id ∈ a.ready then refs id k.pipeline else 0) hl rfl
  have hawake : LoopId.pipeline l.pipeline.id ∈ a.ready := hr ▸ List.mem_cons_self
  rw [if_pos hawake] at hsum
  refine Nat.le_trans (Nat.add_le_add_right (Nat.le_of_eq ?_) _) hsum
  rw [awaited, hpipelines, Agent.replacePipeline, List.map_map]
  congr 1
  apply List.map_congr_left
  intro k _
  by_cases hid : k.pipeline.id = l.pipeline.id
  · simp [hid, ht, hready, hrest]
  · have hmem : LoopId.pipeline k.pipeline.id ∈ rest ↔ LoopId.pipeline k.pipeline.id ∈ a.ready :=
      mem_rest hr (by simp [hid])
    simp [hid, hready, hmem]

structure Follows (a : Agent (answering P)) (l : PipelineLoop (answering P))
    (rest : List LoopId) (t : Ticked (answering P)) (b : Agent (answering P)) : Prop where
  clock : b.clock = a.clock
  cancelled : b.cancelled = a.cancelled
  around : b.around = t.around
  pipelines : b.pipelines = Agent.replacePipeline a.pipelines l.pipeline.id t.loop
  timers : b.timers = a.timers.filter (·.loop != .pipeline l.pipeline.id) ++
    [⟨Agent.timerMillis (a.clock + l.pipeline.interval), .pipeline l.pipeline.id⟩]
  tasks : ∀ task, LoopId.pipeline task ∈ b.ready ↔ LoopId.pipeline task ∈ rest
  awake : ∀ k ∈ rest, k ∈ b.ready
  nodup : rest.Nodup → b.ready.Nodup
  served : ∀ id, (b.services.get? id).isSome = (a.services.get? id).isSome
  offered : ∀ id i, a.services.get? id = some i → i.flight = none →
    i.service.channel.queued + (addressed id t.puts).length ≤ i.service.channel.capacity →
    ∃ j, b.services.get? id = some j ∧ Offered (offers id t.puts) i j ∧
      (offers id t.puts ≠ [] → LoopId.service id ∈ b.ready)

theorem ticked_follows {l : PipelineLoop (answering P)} (rest : List LoopId)
    (hdue : (l.turn a.clock a.around).loop.due = some (a.clock + l.pipeline.interval)) :
    Follows a l rest (l.turn a.clock a.around) (ticked a l.pipeline.id rest l) := by
  rw [ticked, hdue]
  generalize l.turn a.clock a.around = t
  have haside := aside_putAll t.puts (settled a l.pipeline.id rest t)
  constructor
  · exact haside.clock
  · exact haside.cancelled
  · exact haside.around
  · exact haside.pipelines
  · exact congrArg (· ++ [_]) haside.timers
  · exact haside.tasks
  · exact haside.awake
  · exact haside.nodup
  · exact haside.served
  · intro id i hi hflight hfits
    exact putAll_service (a := settled a l.pipeline.id rest t) t.puts hi hflight hfits

section Follows

variable {l : PipelineLoop (answering P)} {rest : List LoopId} {t : Ticked (answering P)}

theorem turned_id (ht : Turned a l t) : t.loop.pipeline.id = l.pipeline.id :=
  congrArg Prod.fst ht.outline

theorem turned_interval (ht : Turned a l t) :
    t.loop.pipeline.interval = l.pipeline.interval :=
  congrArg (fun o => o.2.1) ht.outline

theorem turned_next (ht : Turned a l t) :
    a.clock + l.pipeline.interval = (ticks t.loop.pipeline + 1) * t.loop.pipeline.interval := by
  rw [Nat.add_mul, Nat.one_mul, turned_interval ht, ← ht.clock]

theorem turned_millis (ht : Turned a l t) {n : ℕ} (hn : l.pipeline.interval = Span.ofMillis n) :
    Span.ofMillis (Agent.timerMillis (a.clock + l.pipeline.interval)) =
      a.clock + l.pipeline.interval := by
  rw [turned_next ht, turned_interval ht, hn, mul_ofMillis, timerMillis_ofMillis]

theorem follows_future (h : Steady r put taken a) (hf : Follows a l rest t b)
    (ht : Turned a l t) {n : ℕ} (hn : 0 < n) (hinterval : l.pipeline.interval = Span.ofMillis n) :
    ∀ u ∈ b.timers, b.clock < Span.ofMillis u.millis := by
  intro u hu
  rw [hf.timers] at hu
  rw [hf.clock]
  rcases List.mem_append.mp hu with hu | hu
  · exact h.future u (List.mem_filter.mp hu).1
  · rw [List.mem_singleton.mp hu, turned_millis ht hinterval, hinterval]
    exact Nat.lt_add_of_pos_right (Nat.mul_pos hn (by decide))

theorem follows_punctual (h : Steady r put taken a) (hf : Follows a l rest t b)
    (ht : Turned a l t) {n : ℕ} (hinterval : l.pipeline.interval = Span.ofMillis n) :
    ∀ u ∈ b.timers, ∀ k ∈ b.pipelines, u.loop = .pipeline k.pipeline.id →
      k.due = some (Span.ofMillis u.millis) := by
  intro u hu k hk hloop
  rw [hf.timers] at hu
  rw [hf.pipelines] at hk
  rcases List.mem_append.mp hu with hu | hu
  · obtain ⟨hu, hother⟩ := List.mem_filter.mp hu
    rcases mem_replace hk with rfl | ⟨hk, -⟩
    · rw [hloop, turned_id ht] at hother
      simp at hother
    · exact h.punctual u hu k hk hloop
  · obtain rfl := List.mem_singleton.mp hu
    rcases mem_replace hk with rfl | ⟨-, hne⟩
    · rw [ht.due, turned_millis ht hinterval]
    · exact absurd (LoopId.pipeline.inj hloop).symm hne

theorem follows_standing (h : Steady r put taken a) (hf : Follows a l rest t b)
    (ht : Turned a l t) (hr : a.ready = .pipeline l.pipeline.id :: rest) :
    ∀ k ∈ b.pipelines, Standing b k := by
  intro k hk
  rw [hf.pipelines] at hk
  rcases mem_replace hk with rfl | ⟨hk, hne⟩
  · -- the task sleeps until its next tick, for which the last timer is set
    refine .asleep ?_ (turned_next ht ▸ ht.due) ?_ ⟨_, hf.timers ▸ List.mem_append_right _
      List.mem_cons_self, congrArg _ (turned_id ht).symm⟩
    · rw [hf.tasks, turned_id ht]
      exact (ready_rest h hr).1
    · rw [hf.clock, turned_interval ht, ← ht.clock]
  · refine standing_aside (h.standing k hk) hf.clock ?_ ?_
    · rw [hf.tasks]
      exact mem_rest hr (by simp [hne])
    · intro u hu hloop
      rw [hf.timers]
      exact List.mem_append_left _ (List.mem_filter.mpr ⟨hu, by simp [hloop, hne]⟩)

theorem follows_serving (h : Steady r put taken a) (hroom : Roomy r) (hf : Follows a l rest t b)
    (ht : Turned a l t) (hr : a.ready = .pipeline l.pipeline.id :: rest) (hl : l ∈ a.pipelines)
    {id : String} {s : Service (answering P)} {j : ServiceLoop (answering P)}
    (hs : r.services.get? id = some s) (hj : b.services.get? id = some j) :
    Serving r (put ++ t.puts) taken b id s j := by
  have hawaited := awaited_settled hl hr (ready_rest h hr).1 hf.pipelines (turned_id ht) hf.tasks id
  have hcount := ht.puts id
  obtain ⟨i, hi⟩ : ∃ i, a.services.get? id = some i := by
    have hserved := h.served id
    rw [hs] at hserved
    exact Option.isSome_iff_exists.mp hserved
  have hserving := h.serving id s i hs hi
  have hle := hserving.room
  -- what is queued and what is still awaited are within the references, so nothing is evicted
  have hfits : i.service.channel.queued + (addressed id t.puts).length ≤
      i.service.channel.capacity := by
    have hcapacity := hroom.room id s hs
    rw [hserving.capacity]
    omega
  obtain ⟨k, hk, hoffered, hawake⟩ := hf.offered id i hi hserving.flight hfits
  obtain rfl := Option.some.inj (hk.symm.trans hj)
  constructor
  · exact hoffered.flight.trans hserving.flight
  · exact hoffered.delivery.trans hserving.delivery
  · exact hoffered.capacity.trans hserving.capacity
  · exact hoffered.dropped.trans hserving.dropped
  · exact hoffered.failures.trans hserving.failures
  · intro hrest
    have hnone : offers id t.puts = [] := by
      by_contra hne
      exact hrest (hawake hne)
    rw [hoffered.queue, hnone, List.append_nil]
    apply hserving.rest
    intro hmem
    exact hrest (hf.awake _ ((mem_rest hr (by simp)).mpr hmem))
  · have hlength : (offers id t.puts).length ≤ (addressed id t.puts).length :=
      List.length_filter_le _ _
    rw [Channel.queued] at hle ⊢
    rw [hoffered.queue, List.length_append]
    omega
  · rw [addressed_append, List.flatten_append, hoffered.queue, List.flatten_append,
      ← List.append_assoc, hserving.account, flatten_offers]

end Follows

/-- The turn of a task puts its batches without filling a queue. -/
theorem ticked_steady (h : Steady r put taken a) (hroom : Roomy r) {rest : List LoopId}
    {l : PipelineLoop (answering P)} (hr : a.ready = .pipeline l.pipeline.id :: rest)
    (hl : l ∈ a.pipelines) (hq : Untroubled (l.turn a.clock a.around).loop.pipeline) :
    Steady r (put ++ (l.turn a.clock a.around).puts) taken (ticked a l.pipeline.id rest l) := by
  obtain ⟨n, hn, hinterval⟩ := interval_whole h hroom hl
  have ht := turn_turned (h.standing l hl) (hr ▸ List.mem_cons_self) hinterval hq
  have hf := ticked_follows rest ht.due
  constructor
  · exact h.distinct
  · exact hf.cancelled.trans h.cancelled
  · exact hf.nodup (ready_rest h hr).2
  · rw [hf.pipelines]
    exact replace_outline h hl ht.outline
  · exact follows_future h hf ht hn hinterval
  · exact follows_punctual h hf ht hinterval
  · exact follows_standing h hf ht hr
  · intro k hk
    rw [hf.pipelines] at hk
    rcases mem_replace hk with rfl | ⟨hk, -⟩
    · exact ht.failures.trans (h.unfailing l hl)
    · exact h.unfailing k hk
  · rw [hf.around, ht.around]
    exact h.unreported
  · intro id
    exact (hf.served id).trans (h.served id)
  · intro id s j hs hj
    exact follows_serving h hroom hf ht hr hl hs hj

end Telemetry.LossFreeRun
