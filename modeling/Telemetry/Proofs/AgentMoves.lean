import Mathlib.Data.List.Nodup
import Mathlib.Data.List.Pairwise
import Telemetry.Agent.Clock

/-!
# Steps of an agent

On its way to a time an agent takes turns, lets timers go off, or waits. What
a turn puts reaches the services it is meant for and leaves the rest of the
agent as it is.
-/

set_option autoImplicit false

namespace Telemetry.AgentMoves

variable {P : Platform}

theorem timerMillis_ofMillis (n : ℕ) : Agent.timerMillis (Span.ofMillis n) = n := by
  unfold Agent.timerMillis Span.ofMillis Span.nanosPerMilli
  omega

theorem le_timerMillis (time : ℕ) : time ≤ Span.ofMillis (Agent.timerMillis time) := by
  show time ≤ (time + 1000000 - 1) / 1000000 * 1000000
  omega

theorem mul_ofMillis (k n : ℕ) : k * Span.ofMillis n = Span.ofMillis (k * n) := by
  unfold Span.ofMillis
  rw [Nat.mul_assoc]

theorem ofMillis_lt {m n : ℕ} : Span.ofMillis m < Span.ofMillis n ↔ m < n := by
  show m * 1000000 < n * 1000000 ↔ m < n
  omega

theorem ofMillis_le {m n : ℕ} : Span.ofMillis m ≤ Span.ofMillis n ↔ m ≤ n := by
  show m * 1000000 ≤ n * 1000000 ↔ m ≤ n
  omega

theorem mem_wake (a : Agent P) (l k : LoopId) :
    k ∈ (a.wake l).ready ↔ k ∈ a.ready ∨ k = l := by
  unfold Agent.wake
  by_cases h : a.ready.contains l = true
  · rw [if_pos h]
    constructor
    · exact Or.inl
    · rintro (hk | rfl)
      · exact hk
      · exact List.contains_iff_mem.mp h
  · rw [if_neg h]
    simp

theorem wake_nodup (a : Agent P) (l : LoopId) (h : a.ready.Nodup) : (a.wake l).ready.Nodup := by
  unfold Agent.wake
  by_cases hl : a.ready.contains l = true
  · rw [if_pos hl]
    exact h
  · rw [if_neg hl]
    refine List.nodup_append.mpr ⟨h, List.nodup_singleton l, ?_⟩
    intro k hk j hj
    rw [List.mem_singleton.mp hj]
    rintro rfl
    exact hl (List.contains_iff_mem.mpr hk)

theorem wake_eq (a : Agent P) (l : LoopId) :
    a.wake l = { a with ready := (a.wake l).ready } := by
  unfold Agent.wake
  split <;> rfl

theorem wakeAll_eq (due : List Timer) (a : Agent P) :
    due.foldl (fun a t => a.wake t.loop) a =
      { a with ready := (due.foldl (fun a t => a.wake t.loop) a).ready } := by
  induction due generalizing a with
  | nil => rfl
  | cons t due ih =>
    rw [List.foldl_cons, ih, wake_eq]

theorem mem_wakeAll (due : List Timer) (a : Agent P) (k : LoopId) :
    k ∈ (due.foldl (fun a t => a.wake t.loop) a).ready ↔
      k ∈ a.ready ∨ ∃ t ∈ due, t.loop = k := by
  induction due generalizing a with
  | nil => simp
  | cons t due ih =>
    rw [List.foldl_cons, ih, mem_wake, List.exists_mem_cons_iff, or_assoc, eq_comm]

theorem wakeAll_nodup (due : List Timer) (a : Agent P) (h : a.ready.Nodup) :
    (due.foldl (fun a t => a.wake t.loop) a).ready.Nodup := by
  induction due generalizing a with
  | nil => exact h
  | cons t due ih => exact ih (a.wake t.loop) (wake_nodup a t.loop h)

theorem nextMillis_le {a : Agent P} {millis : ℕ} (h : a.nextMillis = some millis) {t : Timer}
    (ht : t ∈ a.timers) : millis ≤ t.millis :=
  (List.min?_eq_some_iff.mp h).2 _ (List.mem_map_of_mem ht)

theorem mem_dueTimers (a : Agent P) (millis : ℕ) (t : Timer) :
    t ∈ a.dueTimers millis ↔ t ∈ a.timers ∧ t.millis ≤ millis := by
  rw [Agent.dueTimers, List.mem_mergeSort, List.mem_filter, decide_eq_true_iff]

/-- Before the next timer goes off there is none to be sorted before another. -/
theorem dueTimers_next {a : Agent P} {millis : ℕ} (h : a.nextMillis = some millis) :
    a.dueTimers millis = a.timers.filter (·.millis ≤ millis) := by
  apply List.mergeSort_of_pairwise
  apply List.pairwise_of_forall_mem_list
  intro s hs t ht
  have hearlier : s.millis ≤ millis := by simpa using (List.mem_filter.mp hs).2
  have hlater := nextMillis_le h (List.mem_filter.mp ht).1
  exact decide_eq_true (Nat.le_trans hearlier hlater)

def unsorted (a : Agent P) (millis : ℕ) : Agent P :=
  (a.timers.filter (·.millis ≤ millis)).foldl (fun b t => b.wake t.loop) { a with
    clock := max a.clock (Span.ofMillis millis)
    timers := a.timers.filter fun t => millis < t.millis }

theorem fire_unsorted {a : Agent P} {millis : ℕ} (h : a.nextMillis = some millis) :
    a.fire millis = unsorted a millis := by
  rw [Agent.fire, dueTimers_next h]
  rfl

def waited (a : Agent P) (target : Span) : Agent P := { a with clock := max a.clock target }

/-- A step towards a time, or the rest of the way when nothing happens before. -/
def passing (a : Agent P) (target : Span) : Agent P :=
  match a.step target with
  | some b => b
  | none => waited a target

theorem passing_some {a b : Agent P} {target : Span} (h : a.step target = some b) :
    passing a target = b := by
  rw [passing, h]

theorem passing_none {a : Agent P} {target : Span} (h : a.step target = none) :
    passing a target = waited a target := by
  rw [passing, h]

theorem step_fires {a : Agent P} {target : Span} {millis : ℕ} (hearly : ¬target ≤ a.clock)
    (hr : a.ready = []) (hm : a.nextMillis = some millis)
    (hreached : Span.ofMillis millis ≤ target) : a.step target = some (a.fire millis) := by
  rw [Agent.step, if_neg hearly, hr, hm]
  exact if_pos hreached

theorem step_waits {a : Agent P} {target : Span} (hearly : ¬target ≤ a.clock)
    (hr : a.ready = [])
    (hlater : ∀ millis, a.nextMillis = some millis → ¬Span.ofMillis millis ≤ target) :
    a.step target = none := by
  cases hm : a.nextMillis with
  | none => rw [Agent.step, if_neg hearly, hr, hm]
  | some millis =>
    rw [Agent.step, if_neg hearly, hr, hm]
    exact if_neg (hlater millis hm)

def paced (a : Agent P) (target : Span) : Agent P :=
  if target ≤ a.clock then a
  else
    match a.ready, a.nextMillis with
    | _ :: _, _ => a.turn
    | [], some millis =>
      if Span.ofMillis millis ≤ target then unsorted a millis else waited a target
    | [], none => waited a target

theorem passing_paced (a : Agent P) (target : Span) : passing a target = paced a target := by
  rw [paced]
  by_cases hlate : target ≤ a.clock
  · rw [if_pos hlate, passing, Agent.step, if_pos hlate]
    show waited a target = a
    rw [waited, Nat.max_eq_left hlate]
  rw [if_neg hlate]
  cases hr : a.ready with
  | cons head rest =>
    apply passing_some
    rw [Agent.step, if_neg hlate, hr]
  | nil =>
    cases hm : a.nextMillis with
    | none =>
      apply passing_none
      exact step_waits hlate hr (by simp [hm])
    | some millis =>
      by_cases hreached : Span.ofMillis millis ≤ target
      · rw [passing_some (step_fires hlate hr hm hreached), fire_unsorted hm]
        exact (if_pos hreached).symm
      · rw [passing_none (step_waits hlate hr (by simpa [hm] using hreached))]
        exact (if_neg hreached).symm

inductive Passed (a : Agent P) (target : Span) : Agent P → Prop
  | stays (late : target ≤ a.clock) : Passed a target a
  | turns (early : a.clock < target) (awake : a.ready ≠ []) : Passed a target a.turn
  | fires (early : a.clock < target) (asleep : a.ready = []) (millis : ℕ)
      (next : a.nextMillis = some millis) (reached : Span.ofMillis millis ≤ target) :
      Passed a target (a.fire millis)
  | waits (early : a.clock < target) (asleep : a.ready = [])
      (later : ∀ t ∈ a.timers, target < Span.ofMillis t.millis) :
      Passed a target (waited a target)

theorem passing_passed (a : Agent P) (target : Span) : Passed a target (passing a target) := by
  rw [passing_paced, paced]
  by_cases hlate : target ≤ a.clock
  · rw [if_pos hlate]
    exact .stays hlate
  rw [if_neg hlate]
  have hearly : a.clock < target := Nat.lt_of_not_le hlate
  cases hr : a.ready with
  | cons head rest => exact .turns hearly (by simp [hr])
  | nil =>
    cases hm : a.nextMillis with
    | none =>
      apply Passed.waits hearly hr
      intro t ht
      have hnil : a.timers = [] := by simpa [Agent.nextMillis] using hm
      rw [hnil] at ht
      cases ht
    | some millis =>
      show Passed a target
        (if Span.ofMillis millis ≤ target then unsorted a millis else waited a target)
      by_cases hreached : Span.ofMillis millis ≤ target
      · rw [if_pos hreached, ← fire_unsorted hm]
        exact .fires hearly hr millis hm hreached
      · rw [if_neg hreached]
        apply Passed.waits hearly hr
        intro t ht
        have hle : Span.ofMillis millis ≤ Span.ofMillis t.millis :=
          ofMillis_le.mpr (nextMillis_le hm ht)
        exact Nat.lt_of_lt_of_le (Nat.lt_of_not_le hreached) hle

inductive Move (P : Platform) where
  | pass (target : Span)
  | change (f : P.World → P.World)

def act (a : Agent P) : Move P → Agent P
  | .pass target => passing a target
  | .change f => a.changeWorld f

def run : List (Move P) → Agent P → Agent P
  | [], a => a
  | m :: ms, a => run ms (act a m)

theorem runTo_run (fuel : ℕ) (a : Agent P) (target : Span) :
    ∃ ms : List (Move P), a.runTo fuel target = run ms a := by
  induction fuel generalizing a with
  | zero => exact ⟨[], rfl⟩
  | succ fuel ih =>
    cases hs : a.step target with
    | some b =>
      obtain ⟨ms, hms⟩ := ih b
      refine ⟨.pass target :: ms, ?_⟩
      rw [Agent.runTo, hs, run, act, passing_some hs]
      exact hms
    | none =>
      refine ⟨[.pass target], ?_⟩
      rw [Agent.runTo, hs, run, run, act, passing_none hs]
      rfl

theorem advance_run (a : Agent P) (span : Span) :
    ∃ ms : List (Move P), a.advance span = run ms a :=
  runTo_run _ a _

def pacedAct (a : Agent P) : Move P → Agent P
  | .pass target => paced a target
  | .change f => a.changeWorld f

theorem act_paced (a : Agent P) (m : Move P) : act a m = pacedAct a m := by
  cases m with
  | pass target => exact passing_paced a target
  | change f => rfl

def pacedRun : List (Move P) → Agent P → Agent P
  | [], a => a
  | m :: ms, a => pacedRun ms (pacedAct a m)

theorem run_paced (ms : List (Move P)) (a : Agent P) : run ms a = pacedRun ms a := by
  induction ms generalizing a with
  | nil => rfl
  | cons m ms ih => rw [run, pacedRun, act_paced, ih]

def addressed (id : String) (puts : List (String × Batch)) : List Batch :=
  (puts.filter (·.1 == id)).map Prod.snd

theorem addressed_append (id : String) (ps qs : List (String × Batch)) :
    addressed id (ps ++ qs) = addressed id ps ++ addressed id qs := by
  simp [addressed]

theorem addressed_tagged (id k : String) (bs : List Batch) :
    addressed id (bs.map fun b => (k, b)) = if k = id then bs else [] := by
  by_cases h : k = id
  · subst h
    induction bs with
    | nil => simp [addressed]
    | cons b bs ih =>
      rw [if_pos rfl] at ih ⊢
      rw [List.map_cons, addressed, List.filter_cons_of_pos (by simp), List.map_cons]
      exact congrArg (b :: ·) ih
  · rw [if_neg h, addressed, List.map_eq_nil_iff, List.filter_eq_nil_iff]
    intro e he
    obtain ⟨b, -, rfl⟩ := List.mem_map.mp he
    simpa using h

def offers (id : String) (puts : List (String × Batch)) : List Batch :=
  (addressed id puts).filter (· ≠ [])

theorem offers_cons (id : String) (x : String × Batch) (puts : List (String × Batch)) :
    offers id (x :: puts) = offers id [x] ++ offers id puts := by
  rw [offers, offers, offers, ← List.filter_append, ← addressed_append]
  rfl

theorem flatten_offers (id : String) (puts : List (String × Batch)) :
    (offers id puts).flatten = (addressed id puts).flatten := by
  rw [offers]
  induction addressed id puts with
  | nil => rfl
  | cons b bs ih =>
    by_cases hb : b = []
    · rw [List.filter_cons_of_neg (by simp [hb]), ih, hb]
      rfl
    · rw [List.filter_cons_of_pos (by simp [hb]), List.flatten_cons, List.flatten_cons, ih]

structure Offered (bs : List Batch) (l k : ServiceLoop P) : Prop where
  flight : k.flight = l.flight
  delivery : k.service.delivery = l.service.delivery
  capacity : k.service.channel.capacity = l.service.channel.capacity
  dropped : k.service.channel.dropped = l.service.channel.dropped
  failures : k.service.channel.failures = l.service.channel.failures
  queue : k.service.channel.queue = l.service.channel.queue ++ bs

theorem offered_none (l : ServiceLoop P) : Offered [] l l :=
  ⟨rfl, rfl, rfl, rfl, rfl, (List.append_nil _).symm⟩

theorem offered_trans {bs cs : List Batch} {l k j : ServiceLoop P} (h : Offered bs l k)
    (g : Offered cs k j) : Offered (bs ++ cs) l j := by
  constructor
  · exact g.flight.trans h.flight
  · exact g.delivery.trans h.delivery
  · exact g.capacity.trans h.capacity
  · exact g.dropped.trans h.dropped
  · exact g.failures.trans h.failures
  · rw [g.queue, h.queue, List.append_assoc]

theorem put_offered (s : Service P) (b : Batch) (hroom : s.channel.queued < s.channel.capacity) :
    Offered (if b = [] then [] else [b]) ⟨s, none⟩ ⟨s.put b, none⟩ := by
  by_cases hb : b = []
  · rw [if_pos hb, Service.put, Channel.put, if_pos hb]
    exact offered_none _
  · rw [if_neg hb, Service.put, Channel.put, if_neg hb, Channel.push, if_pos hroom]
    exact ⟨rfl, rfl, rfl, rfl, rfl, rfl⟩

structure Aside (a b : Agent P) : Prop where
  clock : b.clock = a.clock
  pipelines : b.pipelines = a.pipelines
  timers : b.timers = a.timers
  around : b.around = a.around
  cancelled : b.cancelled = a.cancelled
  tasks : ∀ id, LoopId.pipeline id ∈ b.ready ↔ LoopId.pipeline id ∈ a.ready
  awake : ∀ l ∈ a.ready, l ∈ b.ready
  nodup : a.ready.Nodup → b.ready.Nodup
  served : ∀ id, (b.services.get? id).isSome = (a.services.get? id).isSome

theorem aside_refl (a : Agent P) : Aside a a :=
  ⟨rfl, rfl, rfl, rfl, rfl, fun _ => Iff.rfl, fun _ h => h, fun h => h, fun _ => rfl⟩

theorem aside_trans {a b c : Agent P} (h : Aside a b) (g : Aside b c) : Aside a c := by
  constructor
  · exact g.clock.trans h.clock
  · exact g.pipelines.trans h.pipelines
  · exact g.timers.trans h.timers
  · exact g.around.trans h.around
  · exact g.cancelled.trans h.cancelled
  · intro id
    exact (g.tasks id).trans (h.tasks id)
  · intro l hl
    exact g.awake l (h.awake l hl)
  · intro ha
    exact g.nodup (h.nodup ha)
  · intro id
    exact (g.served id).trans (h.served id)

theorem aside_wake (a : Agent P) (id : String) : Aside a (a.wake (.service id)) := by
  constructor
  · rw [wake_eq]
  · rw [wake_eq]
  · rw [wake_eq]
  · rw [wake_eq]
  · rw [wake_eq]
  · intro task
    rw [mem_wake]
    simp
  · intro l hl
    exact (mem_wake a _ l).mpr (.inl hl)
  · exact wake_nodup a _
  · intro k
    rw [wake_eq]

def filled (l : ServiceLoop P) (b : Batch) : ServiceLoop P := { l with service := l.service.put b }

theorem put_known {a : Agent P} {x : String × Batch} {l : ServiceLoop P}
    (hl : a.services.get? x.1 = some l) :
    a.put x = if x.2 = [] ∨ l.flight.isSome then
        { a with services := a.services.insert x.1 (filled l x.2) }
      else { a with services := a.services.insert x.1 (filled l x.2) }.wake (.service x.1) := by
  rw [Agent.put, hl]
  rfl

theorem put_unknown {a : Agent P} {x : String × Batch} (hl : a.services.get? x.1 = none) :
    a.put x = a := by
  rw [Agent.put, hl]

theorem aside_put (a : Agent P) (x : String × Batch) : Aside a (a.put x) := by
  cases hl : a.services.get? x.1 with
  | none =>
    rw [put_unknown hl]
    exact aside_refl a
  | some l =>
    have hinsert : Aside a { a with services := a.services.insert x.1 (filled l x.2) } := by
      refine ⟨rfl, rfl, rfl, rfl, rfl, fun _ => Iff.rfl, fun _ h => h, fun h => h, fun id => ?_⟩
      rw [Dict.get?_insert]
      by_cases hid : id = x.1
      · rw [if_pos hid, hid, hl]
        rfl
      · rw [if_neg hid]
    rw [put_known hl]
    split
    · exact hinsert
    · exact aside_trans hinsert (aside_wake _ x.1)

theorem aside_putAll (puts : List (String × Batch)) (a : Agent P) : Aside a (a.putAll puts) := by
  induction puts generalizing a with
  | nil => exact aside_refl a
  | cons x puts ih => exact aside_trans (aside_put a x) (ih (a.put x))

/-- A put reaches its service, which is awake afterwards unless nothing was put. -/
theorem put_service {a : Agent P} {id : String} {l : ServiceLoop P} (x : String × Batch)
    (hl : a.services.get? id = some l) (hf : l.flight = none)
    (hroom : x.1 = id → l.service.channel.queued < l.service.channel.capacity) :
    ∃ k, (a.put x).services.get? id = some k ∧ Offered (offers id [x]) l k ∧
      (offers id [x] ≠ [] → LoopId.service id ∈ (a.put x).ready) := by
  by_cases hx : x.1 = id
  · subst hx
    have hoffers : offers x.1 [x] = if x.2 = [] then [] else [x.2] := by
      by_cases hb : x.2 = [] <;> simp [offers, addressed, hb]
    have hoffered : Offered (if x.2 = [] then [] else [x.2]) l (filled l x.2) := by
      have h := put_offered l.service x.2 (hroom rfl)
      exact ⟨rfl, h.delivery, h.capacity, h.dropped, h.failures, h.queue⟩
    refine ⟨filled l x.2, ?_, hoffers ▸ hoffered, ?_⟩
    · rw [put_known hl]
      split
      · rw [Dict.get?_insert, if_pos rfl]
      · rw [wake_eq, Dict.get?_insert, if_pos rfl]
    · intro hne
      have hb : x.2 ≠ [] := fun hb => hne (by rw [hoffers, if_pos hb])
      rw [put_known hl, if_neg (by simp [hb, hf])]
      exact (mem_wake _ _ _).mpr (.inr rfl)
  · have hoffers : offers id [x] = [] := by simp [offers, addressed, hx]
    refine ⟨l, ?_, hoffers ▸ offered_none l, fun hne => absurd hoffers hne⟩
    cases hk : a.services.get? x.1 with
    | none => rw [put_unknown hk, hl]
    | some k =>
      have hid : ¬id = x.1 := fun h => hx h.symm
      rw [put_known hk]
      split
      · rw [Dict.get?_insert, if_neg hid, hl]
      · rw [wake_eq, Dict.get?_insert, if_neg hid, hl]

theorem putAll_service (puts : List (String × Batch)) {a : Agent P} {id : String}
    {l : ServiceLoop P} (hl : a.services.get? id = some l) (hf : l.flight = none)
    (hroom : l.service.channel.queued + (addressed id puts).length ≤
      l.service.channel.capacity) :
    ∃ k, (a.putAll puts).services.get? id = some k ∧ Offered (offers id puts) l k ∧
      (offers id puts ≠ [] → LoopId.service id ∈ (a.putAll puts).ready) := by
  -- each batch takes up at most one place of the room that is left
  induction puts generalizing a l with
  | nil => exact ⟨l, hl, offered_none l, fun h => absurd rfl h⟩
  | cons x puts ih =>
    have hsplit : (addressed id (x :: puts)).length =
        (addressed id [x]).length + (addressed id puts).length := by
      rw [← List.length_append, ← addressed_append]
      rfl
    have hfirst : x.1 = id → l.service.channel.queued < l.service.channel.capacity := by
      intro hx
      have hone : (addressed id [x]).length = 1 := by simp [addressed, hx]
      omega
    obtain ⟨k, hk, hoffered, hawake⟩ := put_service x hl hf hfirst
    have hgrown : k.service.channel.queued + (addressed id puts).length ≤
        k.service.channel.capacity := by
      have hle : (offers id [x]).length ≤ (addressed id [x]).length := List.length_filter_le _ _
      have hqueued : k.service.channel.queued =
          l.service.channel.queued + (offers id [x]).length := by
        rw [Channel.queued, hoffered.queue, List.length_append, Channel.queued]
      rw [hqueued, hoffered.capacity]
      omega
    obtain ⟨j, hj, hrest, hlater⟩ := ih hk (hoffered.flight.trans hf) hgrown
    refine ⟨j, hj, ?_, ?_⟩
    · rw [offers_cons]
      exact offered_trans hoffered hrest
    · intro hne
      by_cases hput : offers id [x] = []
      · rw [offers_cons, hput, List.nil_append] at hne
        exact hlater hne
      · exact (aside_putAll puts (a.put x)).awake _ (hawake hput)

end Telemetry.AgentMoves
