import Mathlib.Data.List.DropRight
import Telemetry.Agent.Basic
import Telemetry.Rehearsal

/-!
# The history of a publisher's queue

Any number of producers put batches while one service takes and delivers
them. The parts of a drain are moves of their own, so puts may fall between
the moment a batch is taken and its last attempt. In whatever order the moves
come, every batch that was put is still queued, or was taken, or was dropped
as the oldest batch of a full queue.
-/

set_option autoImplicit false

namespace Telemetry.PublisherHistory

structure Station (P : Platform) where
  service : Service P
  flight : Option Flight
  clock : Span
  around : Surroundings P

/-- What happens next. A drain takes the next batches, then makes attempts
that last for some time each; `drain` is a whole drain with nothing in
between, whose calls take as long as the world they leave says. Time also
passes by itself, and the world changes meanwhile. -/
inductive Move (P : Platform) where
  | put (handle : ℕ) (batch : Batch)
  | next
  | attempt (length : Span)
  | drain (takes : P.World → Span)
  | pass (length : Span) (world : P.World)

variable {P : Platform}

abbrev Station.channel (s : Station P) : Channel := s.service.channel

abbrev Station.size (s : Station P) : ℕ := s.service.delivery.batchSize

def attempted (s : Station P) (f : Flight) (clock : Span) : Station P :=
  match s.service.call f.batch s.around with
  | (.ok _, around) =>
    ⟨s.service, none, clock, s.service.accept f.batch f.retry.number around⟩
  | (.error e, around) =>
    match f.retry.failed clock with
    | .wait w retry => ⟨s.service, some { f with retry }, clock + w, around⟩
    | .giveUp attempts elapsed =>
      let (service, around) := s.service.giveUp f.batch ⟨attempts, elapsed, e⟩ around
      ⟨service, none, clock, around⟩
    | .overflow => ⟨s.service, none, clock, around⟩

def step (s : Station P) : Move P → Station P
  | .put _ b => { s with service := s.service.put b }
  | .next =>
    match s.flight, s.channel.take s.size with
    | none, (some batch, channel) =>
      { s with
        service := { s.service with channel }
        flight := some ⟨batch, .start s.service.delivery.backoff s.clock⟩ }
    | _, _ => s
  | .attempt length =>
    match s.flight with
    | none => s
    | some f => attempted s f (s.clock + length)
  | .drain takes =>
    match s.flight with
    | none =>
      let d := s.service.drainOnce takes s.clock s.around
      ⟨d.service, none, d.clock, d.around⟩
    | some _ => s
  | .pass length world =>
    { s with clock := s.clock + length, around := { s.around with world } }

def run : List (Move P) → Station P → Station P
  | [], s => s
  | m :: ms, s => run ms (step s m)

def Move.offers : Move P → List Batch
  | .put _ b => if b = [] then [] else [b]
  | .next | .attempt _ | .drain _ | .pass _ _ => []

def puts (ms : List (Move P)) : List Batch := ms.flatMap Move.offers

def taken (s : Station P) : Move P → List Batch
  | .next | .drain _ => if s.flight.isNone then s.channel.share s.size else []
  | .put _ _ | .attempt _ | .pass _ _ => []

def takes : List (Move P) → Station P → List Batch
  | [], _ => []
  | m :: ms, s => taken s m ++ takes ms (step s m)

theorem puts_cons (m : Move P) (ms : List (Move P)) : puts (m :: ms) = m.offers ++ puts ms := rfl

/-- A nonempty batch goes to the end, and the oldest one makes room for it
when there is none. -/
theorem put_cases (c : Channel) (b : Batch) (hb : b ≠ []) (hc : 0 < c.capacity)
    (hq : c.queued ≤ c.capacity) :
    (c.queued < c.capacity ∧ c.put b = { c with queue := c.queue ++ [b], permit := true }) ∨
    (c.queued = c.capacity ∧ ∃ oldest kept, c.queue = oldest :: kept ∧
      c.put b = { c with queue := kept ++ [b], dropped := c.dropped + 1, permit := true }) := by
  by_cases hl : c.queued < c.capacity
  · exact Or.inl ⟨hl, by simp [Channel.put, Channel.push, Channel.notify, hb, hl]⟩
  · have he : c.queued = c.capacity := by omega
    cases hk : c.queue with
    | nil =>
      have h0 : c.queued = 0 := by simp [Channel.queued, hk]
      omega
    | cons oldest kept =>
      exact Or.inr ⟨he, oldest, kept, rfl,
        by simp [Channel.put, Channel.push, Channel.notify, hb, hl, hk]⟩

theorem share_eq (c : Channel) (n : ℕ) :
    c.share n = c.queue.take (min (max n 1) c.queued) := by
  unfold Channel.share Channel.queued
  rw [Nat.max_comm, List.take_eq_take_min]

/-- The oldest batches leave together, as many as there are and may be
combined. -/
theorem take_eq (c : Channel) (n : ℕ) :
    c.take n = (if c.queue = [] then none else some (c.share n).flatten,
      { c with queue := c.queue.drop (min (max n 1) c.queued) }) := by
  have hd : c.queue.drop (min (max n 1) c.queued) = c.queue.drop (max 1 n) := by
    rw [Nat.max_comm, Channel.queued]
    rcases Nat.le_total (max 1 n) c.queue.length with h | h
    · rw [Nat.min_eq_left h]
    · rw [Nat.min_eq_right h, List.drop_length, List.drop_of_length_le h]
  rw [hd]
  by_cases hq : c.queue = []
  · cases c
    simp_all [Channel.take]
  · simp [Channel.take, hq]

def remaining (s : Service P) : Service P :=
  { s with channel := (s.channel.take s.delivery.batchSize).2 }

def failed (s : Service P) : Service P := { s with channel := s.channel.fail }

theorem drain_empty (s : Service P) (hq : s.channel.queue = []) (takes : P.World → Span)
    (clock : Span) (around : Surroundings P) :
    s.drainOnce takes clock around = ⟨.idle, s, clock, around⟩ := by
  simp [Service.drainOnce, Channel.take, hq]

theorem drain_taken (s : Service P) (hq : s.channel.queue ≠ []) (takes : P.World → Span)
    (clock : Span) (around : Surroundings P) :
    s.drainOnce takes clock around =
      (remaining s).deliver takes (s.channel.share s.delivery.batchSize).flatten clock around := by
  simp [Service.drainOnce, remaining, Channel.take, hq]

theorem remaining_empty (s : Service P) (hq : s.channel.queue = []) : remaining s = s := by
  simp [remaining, Channel.take, hq]

/-- Delivering changes nothing of a service but its count of failures. -/
theorem deliver_service (s : Service P) (takes : P.World → Span) (b : Batch) (clock : Span)
    (around : Surroundings P) :
    (s.deliver takes b clock around).service = s ∨
    (s.deliver takes b clock around).service = failed s := by
  unfold Service.deliver Service.conclude
  split
  · exact Or.inl rfl
  · exact Or.inr rfl
  · exact Or.inl rfl
  · exact Or.inl rfl

theorem drain_service (s : Service P) (takes : P.World → Span) (clock : Span)
    (around : Surroundings P) :
    (s.drainOnce takes clock around).service = remaining s ∨
    (s.drainOnce takes clock around).service = failed (remaining s) := by
  by_cases hq : s.channel.queue = []
  · rw [drain_empty s hq, remaining_empty s hq]
    exact Or.inl rfl
  · rw [drain_taken s hq]
    exact deliver_service (remaining s) takes _ clock around

theorem attempted_service (s : Station P) (f : Flight) (clock : Span) :
    (attempted s f clock).service = s.service ∨
    (attempted s f clock).service = failed s.service := by
  unfold attempted
  split
  · exact Or.inl rfl
  · split
    · exact Or.inl rfl
    · exact Or.inr rfl
    · exact Or.inl rfl

theorem step_next (s : Station P) (hf : s.flight = none) (hq : s.channel.queue ≠ []) :
    step s .next = { s with
      service := remaining s.service
      flight := some ⟨(s.channel.share s.size).flatten,
        .start s.service.delivery.backoff s.clock⟩ } := by
  have ht : s.channel.take s.size =
      (some (s.channel.share s.size).flatten, (remaining s.service).channel) := by
    rw [take_eq, if_neg hq, remaining]
    exact congrArg (Prod.mk _) (congrArg Prod.snd (take_eq _ _)).symm
  simp only [step, hf, ht]
  rfl

/-- All that a move can do to a service: a put, a drain, an attempt or
nothing. -/
theorem step_service (s : Station P) (m : Move P) :
    (∃ handle b, m = .put handle b ∧ (step s m).service = s.service.put b) ∨
    (m.offers = [] ∧ taken s m = [] ∧
      ((step s m).service = s.service ∨ (step s m).service = failed s.service)) ∨
    (m.offers = [] ∧ taken s m = s.channel.share s.size ∧
      ((step s m).service = remaining s.service ∨
        (step s m).service = failed (remaining s.service))) := by
  cases m with
  | put handle b => exact Or.inl ⟨handle, b, rfl, rfl⟩
  | next =>
    cases hf : s.flight with
    | some f => exact Or.inr (Or.inl ⟨rfl, by simp [taken, hf], Or.inl (by simp [step, hf])⟩)
    | none =>
      refine Or.inr (Or.inr ⟨rfl, by simp [taken, hf], Or.inl ?_⟩)
      by_cases hq : s.channel.queue = []
      · rw [remaining_empty _ hq]
        simp [step, hf, Channel.take, hq]
      · rw [step_next s hf hq]
  | attempt length =>
    refine Or.inr (Or.inl ⟨rfl, rfl, ?_⟩)
    cases hf : s.flight with
    | none => exact Or.inl (by simp [step, hf])
    | some f => simpa [step, hf] using attempted_service s f (s.clock + length)
  | drain takes =>
    cases hf : s.flight with
    | some f => exact Or.inr (Or.inl ⟨rfl, by simp [taken, hf], Or.inl (by simp [step, hf])⟩)
    | none =>
      refine Or.inr (Or.inr ⟨rfl, by simp [taken, hf], ?_⟩)
      simpa [step, hf] using drain_service s.service takes s.clock s.around
  | pass length world => exact Or.inr (Or.inl ⟨rfl, rfl, Or.inl rfl⟩)

structure Kept (capacity : ℕ) (given took : List Batch) (c : Channel) : Prop where
  room : c.capacity = capacity
  queued_le : c.queued ≤ capacity
  count : given.length = c.dropped + c.queued + took.length
  order : (took ++ c.queue).Sublist given

theorem kept_put {capacity : ℕ} {given took : List Batch} {c : Channel} (hpos : 0 < capacity)
    (h : Kept capacity given took c) (b : Batch) (hb : b ≠ []) :
    Kept capacity (given ++ [b]) took (c.put b) := by
  obtain ⟨hroom, hle, hcount, horder⟩ := h
  rcases put_cases c b hb (hroom ▸ hpos) (hroom ▸ hle) with ⟨hl, hp⟩ | ⟨hl, oldest, kept, hq, hp⟩
  · rw [hp]
    refine ⟨hroom, ?_, ?_, ?_⟩
    · simp only [Channel.queued, List.length_append, List.length_singleton] at *
      omega
    · simp only [Channel.queued, List.length_append, List.length_singleton] at *
      omega
    · rw [← List.append_assoc]
      exact horder.append (List.Sublist.refl _)
  · rw [hp]
    refine ⟨hroom, ?_, ?_, ?_⟩
    · simp only [Channel.queued, hq, List.length_append, List.length_cons] at *
      omega
    · simp only [Channel.queued, hq, List.length_append, List.length_cons] at *
      omega
    · have hs : (took ++ kept).Sublist (took ++ c.queue) := by
        rw [hq]
        exact (List.Sublist.refl took).append (List.sublist_cons_self oldest kept)
      rw [← List.append_assoc]
      exact (hs.trans horder).append (List.Sublist.refl _)

theorem kept_take {capacity : ℕ} {given took : List Batch} {c : Channel}
    (h : Kept capacity given took c) (n : ℕ) :
    Kept capacity given (took ++ c.share n) (c.take n).2 := by
  obtain ⟨hroom, hle, hcount, horder⟩ := h
  have hsplit : c.share n ++ c.queue.drop (min (max n 1) c.queued) = c.queue := by
    rw [share_eq]
    exact List.take_append_drop _ _
  have hlen := congrArg List.length hsplit
  rw [take_eq]
  refine ⟨hroom, ?_, ?_, ?_⟩
  · simp only [Channel.queued, List.length_append] at *
    omega
  · simp only [Channel.queued, List.length_append] at *
    omega
  · rwa [List.append_assoc, hsplit]

theorem kept_fail {capacity : ℕ} {given took : List Batch} {c : Channel}
    (h : Kept capacity given took c) : Kept capacity given took c.fail :=
  ⟨h.room, h.queued_le, h.count, h.order⟩

theorem step_kept {capacity : ℕ} {given took : List Batch} {s : Station P} (hpos : 0 < capacity)
    (h : Kept capacity given took s.channel) (m : Move P) :
    Kept capacity (given ++ m.offers) (took ++ taken s m) (step s m).channel := by
  change Kept capacity _ _ (step s m).service.channel
  rcases step_service s m with ⟨handle, b, rfl, hs⟩ | ⟨ho, ht, hs⟩ | ⟨ho, ht, hs⟩
  · rw [hs, taken, List.append_nil]
    by_cases hb : b = []
    · simpa [Move.offers, Service.put, hb, Channel.put_empty] using h
    · simpa [Move.offers, Service.put, hb] using kept_put hpos h b hb
  · rw [ho, ht, List.append_nil, List.append_nil]
    rcases hs with hs | hs
    · exact hs ▸ h
    · exact hs ▸ kept_fail h
  · rw [ho, ht, List.append_nil]
    have hk := kept_take h s.size
    rcases hs with hs | hs
    · exact hs ▸ hk
    · exact hs ▸ kept_fail hk

theorem run_kept {capacity : ℕ} (ms : List (Move P)) {given took : List Batch} {s : Station P}
    (hpos : 0 < capacity) (h : Kept capacity given took s.channel) :
    Kept capacity (given ++ puts ms) (took ++ takes ms s) (run ms s).channel := by
  induction ms generalizing given took s with
  | nil => simpa [puts, takes, run] using h
  | cons m ms ih =>
    have hn := ih (step_kept hpos h m)
    simpa [puts_cons, takes, run, List.append_assoc] using hn

def Move.leaves : Move P → Prop
  | .put _ _ | .attempt _ | .pass _ _ => True
  | .next | .drain _ => False

theorem rtake_all {α : Type} (q : List α) (n : ℕ) (h : q.length ≤ n) : q.rtake n = q := by
  rw [List.rtake, Nat.sub_eq_zero_of_le h, List.drop_zero]

theorem rtake_push {α : Type} (q : List α) (b : α) (n : ℕ) (hn : 0 < n) (hq : q.length ≤ n) :
    (if q.length < n then q ++ [b] else q.tail ++ [b]) = (q ++ [b]).rtake n := by
  unfold List.rtake
  split
  · have h0 : (q ++ [b]).length - n = 0 := by simp; omega
    rw [h0, List.drop_zero]
  · have h1 : (q ++ [b]).length - n = 1 := by simp; omega
    rw [h1]
    cases q with
    | nil => simp at *; omega
    | cons a q => rfl

theorem rtake_append {α : Type} (q bs : List α) (n : ℕ) :
    (q ++ bs).rtake n = q.rtake (n - bs.length) ++ bs.rtake (min bs.length n) := by
  unfold List.rtake
  have hb : q.length + bs.length - n - q.length = bs.length - min bs.length n := by omega
  rw [List.length_append, List.drop_append, hb]
  congr 1
  by_cases hn : bs.length ≤ n
  · congr 1
    omega
  · rw [List.drop_of_length_le (by omega), List.drop_of_length_le (by omega)]

theorem rtake_rtake_append {α : Type} (q bs : List α) (n : ℕ) :
    (q.rtake n ++ bs).rtake n = (q ++ bs).rtake n := by
  rw [rtake_append, rtake_append]
  congr 1
  unfold List.rtake
  rw [List.length_drop, List.drop_drop]
  congr 1
  omega

theorem put_queue (c : Channel) (b : Batch) (hpos : 0 < c.capacity)
    (hq : c.queued ≤ c.capacity) :
    (c.put b).queue = (c.queue ++ if b = [] then [] else [b]).rtake c.capacity := by
  by_cases hb : b = []
  · rw [hb, Channel.put_empty, if_pos rfl, List.append_nil, rtake_all _ _ hq]
  · rw [if_neg hb, ← rtake_push c.queue b _ hpos hq, Channel.put, if_neg hb, Channel.push,
      Channel.queued]
    split <;> rfl

theorem step_leaves {s : Station P} {m : Move P} (hm : m.leaves) (hpos : 0 < s.channel.capacity)
    (hq : s.channel.queued ≤ s.channel.capacity) :
    (step s m).channel.queue = (s.channel.queue ++ m.offers).rtake s.channel.capacity := by
  cases m with
  | put handle b => exact put_queue s.channel b hpos hq
  | attempt length =>
    rw [Move.offers, List.append_nil, rtake_all _ _ hq]
    cases hf : s.flight with
    | none => simp [step, hf]
    | some f =>
      rcases attempted_service s f (s.clock + length) with ha | ha <;>
        simp [step, hf, Station.channel, ha, failed, Channel.fail]
  | pass length world =>
    rw [Move.offers, List.append_nil, rtake_all _ _ hq]
    rfl
  | next => exact hm.elim
  | drain takes => exact hm.elim

/-- Without drains the queue ends with the most recent batches, as many as
there is room for. -/
theorem run_leaves {capacity : ℕ} (ms : List (Move P)) {given took : List Batch} {s : Station P}
    (hpos : 0 < capacity) (h : Kept capacity given took s.channel) (hm : ∀ m ∈ ms, m.leaves) :
    (run ms s).channel.queue = (s.channel.queue ++ puts ms).rtake capacity := by
  induction ms generalizing given took s with
  | nil => rw [run, puts, List.flatMap_nil, List.append_nil, rtake_all _ _ h.queued_le]
  | cons m ms ih =>
    have hstep := step_leaves (hm m (by simp)) (h.room ▸ hpos) (h.room ▸ h.queued_le)
    rw [h.room] at hstep
    rw [run, ih (step_kept hpos h m) (fun k hk => hm k (by simp [hk])), hstep,
      rtake_rtake_append, puts_cons, List.append_assoc]

theorem step_delivery (s : Station P) (m : Move P) :
    (step s m).service.delivery = s.service.delivery := by
  rcases step_service s m with ⟨handle, b, rfl, hs⟩ | ⟨_, _, hs | hs⟩ | ⟨_, _, hs | hs⟩ <;>
    rw [hs] <;> rfl

theorem run_delivery (ms : List (Move P)) (s : Station P) :
    (run ms s).service.delivery = s.service.delivery := by
  induction ms generalizing s with
  | nil => rfl
  | cons m ms ih => rw [run, ih, step_delivery]

theorem step_drain (s : Station P) (hf : s.flight = none) (m : Move P)
    (hm : m = .next ∨ ∃ takes, m = .drain takes) :
    taken s m = s.channel.share s.size ∧
    (step s m).channel.queue = (s.channel.take s.size).2.queue := by
  rcases hm with rfl | ⟨takes, rfl⟩
  · refine ⟨by simp [taken, hf], ?_⟩
    by_cases hq : s.channel.queue = []
    · simp [step, hf, Channel.take, hq]
    · rw [step_next s hf hq]
      rfl
  · refine ⟨by simp [taken, hf], ?_⟩
    simp only [step, hf]
    rcases drain_service s.service takes s.clock s.around with hd | hd
    · rw [hd]
      rfl
    · rw [hd]
      rfl

def landed (d : Service.Drained P) : Station P := ⟨d.service, none, d.clock, d.around⟩

/-- The attempts that a flight has left, made one after the other, are those
of a retry sequence. -/
theorem attempts_landed (s : Service P) (takes : P.World → Span) (b : Batch) (fuel : ℕ)
    (r : Retry) (clock : Span) (around : Surroundings P)
    (h : (Retry.run (s.attempt takes b) fuel r clock around).1 ≠ .unfinished) :
    ∃ lengths : List Span, run (lengths.map .attempt) ⟨s, some ⟨b, r⟩, clock, around⟩ =
      landed (s.conclude b (Retry.run (s.attempt takes b) fuel r clock around)) := by
  induction fuel generalizing r clock around with
  | zero => exact absurd rfl h
  | succ fuel ih =>
    rcases hc : s.call b around with ⟨result, next⟩
    cases result with
    | ok u =>
      refine ⟨[takes next.world], ?_⟩
      simp [Retry.run, Service.attempt, run, step, attempted, landed, Service.conclude, hc]
    | error e =>
      cases hr : r.failed (clock + takes next.world) with
      | wait w later =>
        have hn : Retry.run (s.attempt takes b) (fuel + 1) r clock around =
            Retry.run (s.attempt takes b) fuel later (clock + takes next.world + w) next := by
          simp [Retry.run, Service.attempt, hc, hr]
        rw [hn] at h ⊢
        obtain ⟨lengths, hrun⟩ := ih later (clock + takes next.world + w) next h
        refine ⟨takes next.world :: lengths, ?_⟩
        rw [← hrun, List.map_cons, run]
        simp [step, attempted, hc, hr]
      | giveUp _ _ | overflow =>
        refine ⟨[takes next.world], ?_⟩
        simp [Retry.run, Service.attempt, run, step, attempted, landed, Service.conclude, hc, hr]

/-- A whole drain is the moves it consists of with no other move among them. -/
theorem drain_moves (s : Station P) (takes : P.World → Span) (hf : s.flight = none)
    (hq : s.channel.queue ≠ [])
    (hend : (Retry.perform s.service.delivery.backoff
      (s.service.attempt takes (s.channel.share s.size).flatten) s.clock s.around).1 ≠
        .unfinished) :
    ∃ lengths : List Span, step s (.drain takes) = run (.next :: lengths.map .attempt) s := by
  obtain ⟨lengths, hn⟩ := attempts_landed (remaining s.service) takes _ _ _ _ _ hend
  refine ⟨lengths, ?_⟩
  rw [run, step_next s hf hq, hn]
  simp only [step, hf]
  rw [drain_taken s.service hq]
  rfl

/-- How the queue of a service with delivery settings `d` stands once the
batches of `given` were put and those of `took` were taken. -/
structure Balance (d : Delivery) (given took : List Batch) (now : Station P) : Prop where
  bounded : now.channel.queued ≤ d.queueSize
  counted : given.length = now.channel.dropped + now.channel.queued + took.length
  ordered : (took ++ now.channel.queue).Sublist given
  /-- The next batch combines the oldest batches in order. -/
  combined : now.channel.take d.batchSize =
    (if now.channel.queue = [] then none
      else some (now.channel.queue.take (min (max d.batchSize 1) now.channel.queued)).flatten,
    { now.channel with
      queue := now.channel.queue.drop (min (max d.batchSize 1) now.channel.queued) })
  /-- A drain takes exactly these, whether or not other moves fall into it. -/
  drained : now.flight = none → ∀ m, (m = .next ∨ ∃ takes, m = .drain takes) →
    taken now m = now.channel.queue.take (min (max d.batchSize 1) now.channel.queued) ∧
    (step now m).channel.queue =
      now.channel.queue.drop (min (max d.batchSize 1) now.channel.queued)
  /-- Only a put into a full queue drops a batch, and it drops the oldest. -/
  evicted : ∀ handle b, b ≠ [] → now.channel.queued = d.queueSize →
    ∃ oldest kept, now.channel.queue = oldest :: kept ∧
      (step now (.put handle b)).channel.queue = kept ++ [b] ∧
      (step now (.put handle b)).channel.dropped = now.channel.dropped + 1
  appended : ∀ handle b, b ≠ [] → now.channel.queued < d.queueSize →
    (step now (.put handle b)).channel.queue = now.channel.queue ++ [b] ∧
    (step now (.put handle b)).channel.dropped = now.channel.dropped
  /-- After further moves without a drain, the most recent puts are at the end. -/
  latest : ∀ more : List (Move P), (∀ m ∈ more, m.leaves) →
    (run more now).channel.queue =
      now.channel.queue.rtake (d.queueSize - (puts more).length) ++
        (puts more).rtake (min (puts more).length d.queueSize)

theorem kept_balance {d : Delivery} {given took : List Batch} {now : Station P}
    (hpos : 0 < d.queueSize) (hd : now.service.delivery = d)
    (h : Kept d.queueSize given took now.channel) : Balance d given took now where
  bounded := h.queued_le
  counted := h.count
  ordered := h.order
  combined := by rw [take_eq, share_eq]
  drained := by
    intro hf m hm
    have hs : now.size = d.batchSize := by rw [Station.size, hd]
    have ht := step_drain now hf m hm
    rwa [hs, take_eq, share_eq] at ht
  evicted := by
    intro handle b hb hq
    have hroom := h.room
    rcases put_cases now.channel b hb (by omega) (by omega) with hc | ⟨_, oldest, kept, hc, hp⟩
    · omega
    · refine ⟨oldest, kept, hc, ?_⟩
      change (now.channel.put b).queue = _ ∧ (now.channel.put b).dropped = _
      rw [hp]
      exact ⟨rfl, rfl⟩
  appended := by
    intro handle b hb hq
    have hroom := h.room
    rcases put_cases now.channel b hb (by omega) (by omega) with ⟨_, hp⟩ | hc
    · change (now.channel.put b).queue = _ ∧ (now.channel.put b).dropped = _
      rw [hp]
      exact ⟨rfl, rfl⟩
    · omega
  latest := by
    intro more hm
    rw [run_leaves more hpos h hm, rtake_append]

theorem create_cases {id plugin : String} {publisher : P.Publisher} {config : PluginConfig}
    {d : Delivery} {s : Service P} (hs : Service.create id plugin publisher config d = .ok s) :
    0 < d.queueSize ∧ s = ⟨id, plugin, publisher, config, d, .create d.queueSize⟩ := by
  by_cases h0 : d.queueSize = 0
  · simp [Service.create, h0] at hs
  · exact ⟨by omega, by simpa [Service.create, h0] using hs.symm⟩

/-- Whatever the sink answers and in whatever order producers and the service
make their moves, no batch is lost unaccounted for, doubled or overtaken. -/
theorem queue_history (id plugin : String) (publisher : P.Publisher) (config : PluginConfig)
    (d : Delivery) (s : Service P) (hs : Service.create id plugin publisher config d = .ok s)
    (clock : Span) (around : Surroundings P) (ms : List (Move P)) :
    Balance d (puts ms) (takes ms ⟨s, none, clock, around⟩)
      (run ms ⟨s, none, clock, around⟩) := by
  obtain ⟨hpos, rfl⟩ := create_cases hs
  have hstart : Kept d.queueSize [] [] (Channel.create d.queueSize) :=
    ⟨rfl, Nat.zero_le _, rfl, List.Sublist.refl _⟩
  exact kept_balance hpos (run_delivery ms _)
    (run_kept ms (s := ⟨⟨id, plugin, publisher, config, d, _⟩, none, clock, around⟩) hpos hstart)

def overrun : List (Move rehearsal) :=
  [.put 0 [.ofType (.parse "load/one") ""], .put 1 [.ofType (.parse "load/five") ""], .next,
    .put 1 [], .attempt 0, .put 1 [.ofType (.parse "cpu/all") ""], .attempt 0,
    .put 0 [.ofType (.parse "cpu/one") ""], .put 0 [.ofType (.parse "cpu/two") ""],
    .drain fun _ => Span.ofSeconds 1]

def refusingOnce : Surroundings rehearsal :=
  .create ⟨⟨.empty [], default, fun _ => none⟩, ⟨[], none, .fixed, none, none⟩,
    Dict.ofList [("rec", ⟨0, 1, []⟩)]⟩

def narrow : Delivery := { Delivery.standard with queueSize := 2, batchSize := 1 }

theorem queue_history_overrun :
    Service.create (P := rehearsal) "sink" "rec" (.sink "rec") .empty narrow =
      .ok ⟨"sink", "rec", .sink "rec", .empty, narrow, .create 2⟩ ∧
    Balance narrow (puts overrun)
      (takes overrun ⟨⟨"sink", "rec", .sink "rec", .empty, narrow, .create 2⟩, none, 0,
        refusingOnce⟩)
      (run overrun ⟨⟨"sink", "rec", .sink "rec", .empty, narrow, .create 2⟩, none, 0,
        refusingOnce⟩) :=
  ⟨rfl, queue_history "sink" "rec" _ .empty narrow _ rfl 0 refusingOnce overrun⟩

end Telemetry.PublisherHistory
