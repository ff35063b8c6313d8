import Telemetry.Proofs.AnsweredCalls
import Telemetry.Proofs.FreshRegistry
import Telemetry.Proofs.AgentMoves
import Mathlib

/-!
# Steady agents

The clock of an agent moves only while every loop waits, and every tick of an
instant is taken before the next instant comes. Along the way a queue holds no
more than the references of the tasks that have ticked in this instant.
-/

set_option autoImplicit false

namespace Telemetry.LossFreeRun

open AnsweredCalls AgentMoves
open ObservedCalls (Call)

variable {P : Platform}

def handed (a : Agent P) : List (String × Batch) :=
  match a.ready with
  | .pipeline id :: _ =>
    match a.pipelines.find? fun l => l.pipeline.id == id with
    | some l => (l.turn a.clock a.around).puts
    | none => []
  | _ => []

def accepted (a : Agent (answering P)) : List (String × Batch) :=
  match a.ready with
  | .service id :: _ =>
    ((a.turn.around.world.2.drop a.around.world.2.length).filter (·.accepted)).map
      fun c => (id, c.batch)
  | _ => []

def during (turn : Agent (answering P) → List (String × Batch)) (a : Agent (answering P)) :
    Move (answering P) → List (String × Batch)
  | .pass target => if a.clock < target then turn a else []
  | .change _ => []

def along (turn : Agent (answering P) → List (String × Batch)) :
    List (Move (answering P)) → Agent (answering P) → List (String × Batch)
  | [], _ => []
  | m :: ms, a => during turn a m ++ along turn ms (act a m)

def refs (id : String) (p : Pipeline P String) : ℕ := p.primary.count id + p.derived.count id

def references (r : Registry P) (id : String) : ℕ := (r.pipelines.map (refs id)).sum

def awaited (a : Agent P) (id : String) : ℕ :=
  (a.pipelines.map fun l =>
    if LoopId.pipeline l.pipeline.id ∈ a.ready then refs id l.pipeline else 0).sum

def outline (p : Pipeline P String) : String × Span × List String × List String :=
  (p.id, p.interval, p.primary, p.derived)

inductive Standing (a : Agent (answering P)) (l : PipelineLoop (answering P)) : Prop
  | beginning (awake : LoopId.pipeline l.pipeline.id ∈ a.ready) (due : l.due = none)
      (clock : a.clock = 0) (none : ticks l.pipeline = 0)
  | awake (awake : LoopId.pipeline l.pipeline.id ∈ a.ready) (due : l.due = some a.clock)
      (clock : a.clock = (ticks l.pipeline + 1) * l.pipeline.interval)
  | asleep (asleep : LoopId.pipeline l.pipeline.id ∉ a.ready)
      (due : l.due = some ((ticks l.pipeline + 1) * l.pipeline.interval))
      (past : ticks l.pipeline * l.pipeline.interval ≤ a.clock)
      (timer : ∃ t ∈ a.timers, t.loop = .pipeline l.pipeline.id)

/-- The loop `l` of a service in an agent, when the batches of `put` have been
put and those of `taken` accepted. -/
structure Serving (r : Registry (answering P)) (put taken : List (String × Batch))
    (a : Agent (answering P)) (id : String) (s : Service (answering P))
    (l : ServiceLoop (answering P)) : Prop where
  flight : l.flight = none
  delivery : l.service.delivery = s.delivery
  capacity : l.service.channel.capacity = s.channel.capacity
  dropped : l.service.channel.dropped = 0
  failures : l.service.channel.failures = 0
  rest : LoopId.service id ∉ a.ready → l.service.channel.queue = []
  room : l.service.channel.queued + awaited a id ≤ references r id
  account : (addressed id taken).flatten ++ l.service.channel.queue.flatten =
    (addressed id put).flatten

structure Steady (r : Registry (answering P)) (put taken : List (String × Batch))
    (a : Agent (answering P)) : Prop where
  distinct : (r.pipelines.map (·.id)).Nodup
  cancelled : a.cancelled = false
  nodup : a.ready.Nodup
  outlines : a.pipelines.map (fun l => outline l.pipeline) = r.pipelines.map outline
  future : ∀ t ∈ a.timers, a.clock < Span.ofMillis t.millis
  punctual : ∀ t ∈ a.timers, ∀ l ∈ a.pipelines, t.loop = .pipeline l.pipeline.id →
    l.due = some (Span.ofMillis t.millis)
  standing : ∀ l ∈ a.pipelines, Standing a l
  unfailing : ∀ l ∈ a.pipelines, l.pipeline.failures = 0
  unreported : a.around.reports = .empty
  served : ∀ id, (a.services.get? id).isSome = (r.services.get? id).isSome
  serving : ∀ id s l, r.services.get? id = some s → a.services.get? id = some l →
    Serving r put taken a id s l

/-- What is asked of a registry: intervals of whole milliseconds, services that
rest for some time, and queues as long as the references to their publishers. -/
structure Roomy (r : Registry P) : Prop where
  interval : ∀ p ∈ r.pipelines, ∃ n, 0 < n ∧ p.interval = Span.ofMillis n
  idle : ∀ id s, r.services.get? id = some s → 0 < s.delivery.idle
  room : ∀ id s, r.services.get? id = some s → references r id ≤ s.channel.capacity

section Steady

variable {r : Registry (answering P)} {put taken : List (String × Batch)}
  {a b : Agent (answering P)}

theorem standing_aside {l : PipelineLoop (answering P)} (h : Standing a l)
    (hclock : b.clock = a.clock)
    (hready : LoopId.pipeline l.pipeline.id ∈ b.ready ↔ LoopId.pipeline l.pipeline.id ∈ a.ready)
    (htimers : ∀ t ∈ a.timers, t.loop = .pipeline l.pipeline.id → t ∈ b.timers) :
    Standing b l := by
  cases h with
  | beginning awake due clock none =>
    exact .beginning (hready.mpr awake) due (hclock.trans clock) none
  | awake awake due clock =>
    exact .awake (hready.mpr awake) (hclock ▸ due) (hclock.trans clock)
  | asleep asleep due past timer =>
    obtain ⟨t, ht, hl⟩ := timer
    exact .asleep (fun hb => asleep (hready.mp hb)) due (hclock ▸ past) ⟨t, htimers t ht hl, hl⟩

theorem serving_kept {id : String} {s : Service (answering P)} {l : ServiceLoop (answering P)}
    {taken' : List (String × Batch)} (h : Serving r put taken a id s l)
    (hready : LoopId.service id ∈ a.ready → LoopId.service id ∈ b.ready)
    (hawaited : awaited b id = awaited a id) (htaken : addressed id taken' = addressed id taken) :
    Serving r put taken' b id s l := by
  constructor
  · exact h.flight
  · exact h.delivery
  · exact h.capacity
  · exact h.dropped
  · exact h.failures
  · intro hb
    exact h.rest fun ha => hb (hready ha)
  · rw [hawaited]
    exact h.room
  · rw [htaken]
    exact h.account

theorem ready_rest (h : Steady r put taken a) {head : LoopId} {rest : List LoopId}
    (hr : a.ready = head :: rest) : head ∉ rest ∧ rest.Nodup := by
  have hcons := h.nodup
  rw [hr] at hcons
  exact List.nodup_cons.mp hcons

theorem mem_rest {k head : LoopId} {rest : List LoopId} (hr : a.ready = head :: rest)
    (hk : k ≠ head) : k ∈ rest ↔ k ∈ a.ready := by
  rw [hr, List.mem_cons]
  exact ⟨.inr, fun h => h.resolve_left hk⟩

theorem awaited_congr (hpipelines : b.pipelines = a.pipelines)
    (hready : ∀ l ∈ a.pipelines, LoopId.pipeline l.pipeline.id ∈ b.ready ↔
      LoopId.pipeline l.pipeline.id ∈ a.ready) (id : String) : awaited b id = awaited a id := by
  rw [awaited, awaited, hpipelines]
  congr 1
  apply List.map_congr_left
  intro l hl
  simp only [hready l hl]

theorem outline_mem (h : Steady r put taken a) {l : PipelineLoop (answering P)}
    (hl : l ∈ a.pipelines) : ∃ p ∈ r.pipelines, outline p = outline l.pipeline := by
  have hm : outline l.pipeline ∈ a.pipelines.map (fun l => outline l.pipeline) :=
    List.mem_map_of_mem hl
  rw [h.outlines] at hm
  exact List.mem_map.mp hm

theorem interval_whole (h : Steady r put taken a) (hr : Roomy r)
    {l : PipelineLoop (answering P)} (hl : l ∈ a.pipelines) :
    ∃ n, 0 < n ∧ l.pipeline.interval = Span.ofMillis n := by
  obtain ⟨p, hp, ho⟩ := outline_mem h hl
  simp only [outline, Prod.mk.injEq] at ho
  obtain ⟨n, hn, hi⟩ := hr.interval p hp
  exact ⟨n, hn, ho.2.1 ▸ hi⟩

theorem ids_nodup (h : Steady r put taken a) :
    (a.pipelines.map fun l => l.pipeline.id).Nodup := by
  have hids : a.pipelines.map (fun l => l.pipeline.id) = r.pipelines.map (·.id) := by
    have hmap := congrArg (List.map Prod.fst) h.outlines
    rw [List.map_map, List.map_map] at hmap
    exact hmap
  rw [hids]
  exact h.distinct

theorem awaited_le
    (ho : a.pipelines.map (fun l => outline l.pipeline) = r.pipelines.map outline) (id : String) :
    awaited a id ≤ references r id := by
  have hrefs : references r id = (a.pipelines.map fun l => refs id l.pipeline).sum := by
    have hmap := congrArg (List.map fun o : String × Span × List String × List String =>
      o.2.2.1.count id + o.2.2.2.count id) ho
    rw [List.map_map, List.map_map] at hmap
    exact congrArg List.sum hmap.symm
  rw [hrefs, awaited]
  apply List.sum_le_sum
  intro l _
  split
  · exact Nat.le_refl _
  · exact Nat.zero_le _

theorem asleep_due (h : Steady r put taken a) (ha : a.ready = [])
    {l : PipelineLoop (answering P)} (hl : l ∈ a.pipelines) :
    l.due = some ((ticks l.pipeline + 1) * l.pipeline.interval) ∧
    ticks l.pipeline * l.pipeline.interval ≤ a.clock ∧
    ∃ t ∈ a.timers, t.loop = .pipeline l.pipeline.id ∧
      Span.ofMillis t.millis = (ticks l.pipeline + 1) * l.pipeline.interval := by
  cases h.standing l hl with
  | beginning awake =>
    rw [ha] at awake
    cases awake
  | awake awake =>
    rw [ha] at awake
    cases awake
  | asleep asleep due past timer =>
    obtain ⟨t, ht, hloop⟩ := timer
    have hdue := h.punctual t ht l hl hloop
    rw [due] at hdue
    exact ⟨due, past, t, ht, hloop, (Option.some.inj hdue).symm⟩

theorem wait_steady (h : Steady r put taken a) (ha : a.ready = []) {target : Span}
    (hfuture : ∀ t ∈ a.timers, max a.clock target < Span.ofMillis t.millis) :
    Steady r put taken (waited a target) := by
  refine ⟨h.distinct, h.cancelled, h.nodup, h.outlines, hfuture, h.punctual, ?_, h.unfailing,
    h.unreported, h.served, ?_⟩
  · intro l hl
    obtain ⟨due, past, t, ht, hloop, -⟩ := asleep_due h ha hl
    refine .asleep ?_ due (Nat.le_trans past (Nat.le_max_left _ _)) ⟨t, ht, hloop⟩
    show LoopId.pipeline l.pipeline.id ∉ a.ready
    rw [ha]
    exact List.not_mem_nil
  · intro id s l hs hl
    exact serving_kept (h.serving id s l hs hl) (fun hready => hready) rfl rfl

/-- When the next timers go off, the tasks they belong to are due. -/
theorem fire_steady (h : Steady r put taken a) (ha : a.ready = []) {millis : ℕ}
    (hm : a.nextMillis = some millis) : Steady r put taken (a.fire millis) := by
  obtain ⟨t₀, ht₀, hmillis⟩ := List.mem_map.mp (List.min?_eq_some_iff.mp hm).1
  have hlater : a.clock ≤ Span.ofMillis millis := by
    rw [← hmillis]
    exact Nat.le_of_lt (h.future t₀ ht₀)
  have hclock : max a.clock (Span.ofMillis millis) = Span.ofMillis millis :=
    Nat.max_eq_right hlater
  have hready : ∀ k, k ∈ (a.fire millis).ready ↔
      ∃ t ∈ a.timers, t.millis ≤ millis ∧ t.loop = k := by
    intro k
    rw [Agent.fire, mem_wakeAll]
    show k ∈ a.ready ∨ _ ↔ _
    rw [ha]
    simp only [mem_dueTimers, List.not_mem_nil, false_or, and_assoc]
  have hfire : a.fire millis = { a with
      clock := Span.ofMillis millis
      timers := a.timers.filter fun t => millis < t.millis
      ready := (a.fire millis).ready } := by
    rw [Agent.fire, wakeAll_eq, hclock]
  have hnodup : (a.fire millis).ready.Nodup := wakeAll_nodup _ _ (by rw [ha]; exact .nil)
  rw [hfire]
  refine ⟨h.distinct, h.cancelled, hnodup, h.outlines, ?_, ?_, ?_, h.unfailing, h.unreported,
    h.served, ?_⟩
  · intro t ht
    exact ofMillis_lt.mpr (of_decide_eq_true (List.mem_filter.mp ht).2)
  · intro t ht
    exact h.punctual t (List.mem_filter.mp ht).1
  · intro l hl
    obtain ⟨due, past, t, ht, hloop, htime⟩ := asleep_due h ha hl
    by_cases hnow : t.millis ≤ millis
    · -- the timer of this task is among those that go off
      have heq : t.millis = millis := Nat.le_antisymm hnow (nextMillis_le hm ht)
      rw [heq] at htime
      exact .awake ((hready _).mpr ⟨t, ht, hnow, hloop⟩) (htime ▸ due) htime
    · refine .asleep ?_ due ?_ ⟨t, List.mem_filter.mpr ⟨ht, by simpa using hnow⟩, hloop⟩
      · intro hawake
        obtain ⟨u, hu, hle, huloop⟩ := (hready _).mp hawake
        have hdue := h.punctual u hu l hl huloop
        rw [due] at hdue
        have hsame : Span.ofMillis t.millis = Span.ofMillis u.millis :=
          htime.trans (Option.some.inj hdue)
        have hle' : t.millis ≤ u.millis := ofMillis_le.mp (Nat.le_of_eq hsame)
        exact hnow (hle'.trans hle)
      · exact Nat.le_trans past hlater
  · intro id s l hs hl
    have hserving := h.serving id s l hs hl
    have hempty : l.service.channel.queue = [] := hserving.rest (by rw [ha]; exact List.not_mem_nil)
    refine ⟨hserving.flight, hserving.delivery, hserving.capacity, hserving.dropped,
      hserving.failures, fun _ => hempty, ?_, hserving.account⟩
    rw [Channel.queued, hempty, List.length_nil, Nat.zero_add]
    apply awaited_le
    exact h.outlines

end Steady

end Telemetry.LossFreeRun
