import Telemetry.Proofs.PublisherHistory
import Telemetry.Agent.Turn

/-!
# Signals to a waiting service

A put takes two steps, a push and a signal, and so does the end of a drain:
the service finds its queue empty and only then begins to wait. Steps of any
number of producers may fall anywhere between those of the service. A service
that waits without a signal has only batches whose producers are still to
give theirs.
-/

set_option autoImplicit false

namespace Telemetry.WakeSignals

variable {P : Platform}

/-- Where a service stands. One that is leaving has found its queue empty and
does not wait yet. One whose waits overflow has ended. -/
inductive Phase where
  | draining
  | delivering (f : Flight)
  | leaving
  | parked
  | ended

/-- A service among its producers. Those that have pushed a batch and not yet
signalled are in the order of their pushes. -/
structure Scene (P : Platform) where
  service : Service P
  phase : Phase
  pushing : List (ℕ × Batch)
  around : Surroundings P

inductive Move (P : Platform) where
  | push (producer : ℕ) (batch : Batch)
  | signal (producer : ℕ)
  | look (clock : Span)
  | attempt (clock : Span)
  | rest
  | wake
  | timeout
  | cancel
  | pass (world : P.World)

abbrev Scene.channel (s : Scene P) : Channel := s.service.channel

def Scene.withChannel (s : Scene P) (channel : Channel) (phase : Phase) : Scene P :=
  { s with service := { s.service with channel }, phase }

def Scene.producers (s : Scene P) : List ℕ := s.pushing.map Prod.fst

def attempted (s : Scene P) (f : Flight) (clock : Span) : Scene P :=
  match s.service.call f.batch s.around with
  | (.ok _, around) =>
    { s with
      phase := .draining
      around := s.service.accept f.batch f.retry.number around }
  | (.error e, around) =>
    match f.retry.failed clock with
    | .wait _ retry => { s with phase := .delivering { f with retry }, around }
    | .giveUp attempts elapsed =>
      let (service, around) := s.service.giveUp f.batch ⟨attempts, elapsed, e⟩ around
      { s with service, phase := .draining, around }
    | .overflow => { s with phase := .ended, around }

def step (s : Scene P) : Move P → Scene P
  | .push i b =>
    if b = [] ∨ i ∈ s.producers then s
    else { s.withChannel (s.channel.push b) s.phase with pushing := s.pushing ++ [(i, b)] }
  | .signal i =>
    if i ∈ s.producers then
      { s.withChannel s.channel.notify s.phase with
        pushing := s.pushing.filter fun p => p.1 != i }
    else s
  | .look clock =>
    match s.phase, s.channel.take s.service.delivery.batchSize with
    | .draining, (some batch, channel) =>
      s.withChannel channel (.delivering ⟨batch, .start s.service.delivery.backoff clock⟩)
    | .draining, (none, _) => { s with phase := .leaving }
    | _, _ => s
  | .attempt clock =>
    match s.phase with
    | .delivering f => attempted s f clock
    | _ => s
  | .rest =>
    match s.phase, s.channel.consume with
    | .leaving, (true, channel) => s.withChannel channel .draining
    | .leaving, (false, _) => { s with phase := .parked }
    | _, _ => s
  | .wake =>
    match s.phase, s.channel.consume with
    | .parked, (true, channel) => s.withChannel channel .draining
    | _, _ => s
  | .timeout =>
    match s.phase with
    | .leaving | .parked => { s with phase := .draining }
    | _ => s
  | .cancel => { s with phase := .ended }
  | .pass world => { s with around := { s.around with world } }

def run : List (Move P) → Scene P → Scene P
  | [], s => s
  | m :: ms, s => run ms (step s m)

def Idle (s : Scene P) : Prop := s.phase = .leaving ∨ s.phase = .parked

def Watched (s : Scene P) : Prop :=
  Idle s → s.channel.permit = false → s.channel.queue.Sublist (s.pushing.map Prod.snd)

theorem watched_busy {s : Scene P} (h : ¬Idle s) : Watched s := fun hi _ => absurd hi h

theorem push_queue (c : Channel) (b : Batch) :
    (c.push b).permit = c.permit ∧ (c.push b).queue.Sublist (c.queue ++ [b]) := by
  obtain ⟨kept, dropped, hsub, h⟩ := c.push_shape b
  rw [h]
  exact ⟨rfl, hsub.append (List.Sublist.refl _)⟩

theorem attempted_phase (s : Scene P) (f : Flight) (clock : Span) :
    ¬Idle (attempted s f clock) := by
  unfold attempted Idle
  split
  · simp
  · split <;> simp

theorem look_empty (s : Scene P) (clock : Span) (hs : s.phase = .draining)
    (hq : s.channel.queue = []) : step s (.look clock) = { s with phase := .leaving } := by
  simp [step, hs, Channel.take, hq]

theorem look_taken (s : Scene P) (clock : Span) (hs : s.phase = .draining)
    (hq : s.channel.queue ≠ []) :
    step s (.look clock) = s.withChannel (s.channel.take s.service.delivery.batchSize).2
      (.delivering ⟨(s.channel.share s.service.delivery.batchSize).flatten,
        .start s.service.delivery.backoff clock⟩) := by
  simp [step, hs, Channel.take, hq]

theorem look_other (s : Scene P) (clock : Span) (hs : s.phase ≠ .draining) :
    step s (.look clock) = s := by
  cases hp : s.phase with
  | draining => exact absurd hp hs
  | delivering f => simp [step, hp]
  | leaving => simp [step, hp]
  | parked => simp [step, hp]
  | ended => simp [step, hp]

theorem look_watched (s : Scene P) (clock : Span) (h : Watched s) :
    Watched (step s (.look clock)) := by
  by_cases hs : s.phase = .draining
  · by_cases hq : s.channel.queue = []
    · rw [look_empty s clock hs hq]
      intro _ _
      change s.channel.queue.Sublist _
      rw [hq]
      exact List.nil_sublist _
    · rw [look_taken s clock hs hq]
      exact watched_busy (by simp [Idle, Scene.withChannel])
  · rw [look_other s clock hs]
    exact h

theorem step_watched (s : Scene P) (m : Move P) (h : Watched s) : Watched (step s m) := by
  cases m with
  | push i b =>
    by_cases hb : b = [] ∨ i ∈ s.producers
    · rw [step, if_pos hb]
      exact h
    · rw [step, if_neg hb]
      intro hi hp
      obtain ⟨hpermit, hqueue⟩ := push_queue s.channel b
      have hold := h hi (hpermit.symm.trans hp)
      show (s.channel.push b).queue.Sublist ((s.pushing ++ [(i, b)]).map Prod.snd)
      rw [List.map_append]
      exact hqueue.trans (hold.append (List.Sublist.refl [b]))
  | signal i =>
    by_cases hi : i ∈ s.producers
    · rw [step, if_pos hi]
      intro _ hp
      cases hp
    · rw [step, if_neg hi]
      exact h
  | look clock => exact look_watched s clock h
  | attempt clock =>
    rw [step]
    split
    · exact watched_busy (attempted_phase s _ clock)
    · exact h
  | rest =>
    rw [step]
    split
    · exact watched_busy (by simp [Idle, Scene.withChannel])
    · rename_i hphase _
      intro _ hp
      exact h (Or.inl hphase) hp
    · exact h
  | wake =>
    rw [step]
    split
    · exact watched_busy (by simp [Idle, Scene.withChannel])
    · exact h
  | timeout =>
    rw [step]
    split
    · exact watched_busy (by simp [Idle])
    · exact watched_busy (by simp [Idle])
    · exact h
  | cancel => exact watched_busy (by simp [Idle, step])
  | pass world => exact h

theorem run_watched (ms : List (Move P)) (s : Scene P) (h : Watched s) : Watched (run ms s) := by
  induction ms generalizing s with
  | nil => exact h
  | cons m ms ih => exact ih (step s m) (step_watched s m h)

def onward (clock : Span) : Phase → List (Move P)
  | .draining => [.look clock]
  | .leaving => [.rest, .look clock]
  | .parked => [.wake, .look clock]
  | .delivering _ | .ended => []

def oldest (s : Scene P) (clock : Span) : Flight :=
  ⟨(s.channel.share s.service.delivery.batchSize).flatten,
    .start s.service.delivery.backoff clock⟩

theorem rest_signalled (s : Scene P) (hs : s.phase = .leaving) (hp : s.channel.permit = true) :
    step s .rest = s.withChannel { s.channel with permit := false } .draining := by
  simp [step, hs, Channel.consume, hp]

theorem rest_parks (s : Scene P) (hs : s.phase = .leaving) (hp : s.channel.permit = false) :
    step s .rest = { s with phase := .parked } := by
  simp [step, hs, Channel.consume, hp]

theorem wake_signalled (s : Scene P) (hs : s.phase = .parked) (hp : s.channel.permit = true) :
    step s .wake = s.withChannel { s.channel with permit := false } .draining := by
  simp [step, hs, Channel.consume, hp]

theorem look_phase (s : Scene P) (clock : Span) (hs : s.phase = .draining)
    (hq : s.channel.queue ≠ []) : (step s (.look clock)).phase = .delivering (oldest s clock) := by
  rw [look_taken s clock hs hq]
  rfl

theorem onward_delivers (s : Scene P) (clock : Span) (hq : s.channel.queue ≠ [])
    (hsignal : Idle s → s.channel.permit = true)
    (hs : s.phase = .draining ∨ Idle s) :
    (run (onward clock s.phase) s).phase = .delivering (oldest s clock) := by
  rcases hs with hs | hi
  · rw [hs]
    exact look_phase s clock hs hq
  · have hp := hsignal hi
    rcases hi with hs | hs
    · rw [hs, onward, run, rest_signalled s hs hp]
      exact look_phase (s.withChannel { s.channel with permit := false } .draining) clock rfl hq
    · rw [hs, onward, run, wake_signalled s hs hp]
      exact look_phase (s.withChannel { s.channel with permit := false } .draining) clock rfl hq

theorem push_step (s : Scene P) (i : ℕ) (b : Batch) (hb : b ≠ []) (hi : i ∉ s.producers) :
    step s (.push i b) = ⟨{ s.service with channel := s.channel.push b }, s.phase,
      s.pushing ++ [(i, b)], s.around⟩ := by
  rw [step, if_neg (by simp [hb, hi])]
  rfl

theorem signal_step (s : Scene P) (i : ℕ) (hi : i ∈ s.producers) :
    step s (.signal i) = ⟨{ s.service with channel := s.channel.notify }, s.phase,
      s.pushing.filter fun p => p.1 != i, s.around⟩ := by
  rw [step, if_pos hi]
  rfl

theorem put_moves (s : Scene P) (i : ℕ) (b : Batch) (hb : b ≠ []) (hi : i ∉ s.producers) :
    run [.push i b, .signal i] s = { s with service := s.service.put b } := by
  have hkept : (s.pushing ++ [(i, b)]).filter (fun p => p.1 != i) = s.pushing := by
    rw [List.filter_append, List.filter_eq_self.mpr]
    · simp
    · intro p hp
      have hne : p.1 ≠ i := fun he => hi (he ▸ List.mem_map_of_mem hp)
      simpa using hne
  rw [run, run, run, push_step s i b hb hi, signal_step _ i (by simp [Scene.producers])]
  simp only [hkept]
  simp [Service.put, Channel.put, hb]

def Move.own : Move P → Prop
  | .look _ | .attempt _ | .rest => True
  | .push _ _ | .signal _ | .wake | .timeout | .cancel | .pass _ => False

def beginning : Option Flight → Phase
  | none => .draining
  | some f => .delivering f

def ending (p : Parked P) : Phase :=
  match p.loop.flight, p.wakeAt with
  | none, _ => .parked
  | some f, some _ => .delivering f
  | some _, none => .ended

def need (s : Service P) (flight : Option Flight) : ℕ :=
  2 * s.channel.queued + (if flight.isSome then 1 else 0) + (if s.channel.permit then 1 else 0) + 1

theorem need_put_off (s : Service P) (f : Flight) : need s (some f) = need s none + 1 := by
  simp only [need, Option.isSome_some, Option.isSome_none, if_true, Bool.false_eq_true, if_false]
  omega

def Leads (s : Service P) (flight : Option Flight) (around : Surroundings P)
    (pushing : List (ℕ × Batch)) (p : Parked P) : Prop :=
  ∃ ms : List (Move P), (∀ m ∈ ms, m.own) ∧
    run ms ⟨s, beginning flight, pushing, around⟩ =
      ⟨p.loop.service, ending p, pushing, p.around⟩

theorem leads_cons {s t : Service P} {flight next : Option Flight}
    {around later : Surroundings P} {pushing : List (ℕ × Batch)} {p : Parked P} (m : Move P)
    (hm : m.own)
    (hs : step ⟨s, beginning flight, pushing, around⟩ m = ⟨t, beginning next, pushing, later⟩)
    (h : Leads t next later pushing p) : Leads s flight around pushing p := by
  obtain ⟨ms, hown, hrun⟩ := h
  refine ⟨m :: ms, ?_, ?_⟩
  · intro k hk
    rcases List.mem_cons.mp hk with rfl | hk
    · exact hm
    · exact hown k hk
  · rw [run, hs, hrun]

theorem giveUp_need (s : Service P) (b : Batch) (e : PublishError) (around : Surroundings P) :
    need (s.giveUp b e around).1 none = need s none := rfl

theorem proceed_delivering (fuel : ℕ) (s : Service P) (f : Flight) (clock : Span)
    (around : Surroundings P) (pushing : List (ℕ × Batch))
    (ih : ∀ (t : Service P) (later : Surroundings P), need t none ≤ fuel →
      Leads t none later pushing (Service.proceed fuel t none clock later))
    (h : need s (some f) ≤ fuel + 1) :
    Leads s (some f) around pushing (Service.proceed (fuel + 1) s (some f) clock around) := by
  have hn : need s none ≤ fuel := by
    rw [need_put_off] at h
    omega
  cases hc : s.call f.batch around with
  | mk result next =>
    cases result with
    | ok u =>
      have hp : Service.proceed (fuel + 1) s (some f) clock around = Service.proceed fuel s none
          clock (s.accept f.batch f.retry.number next) := by
        simp [Service.proceed, hc]
      rw [hp]
      refine leads_cons (.attempt clock) trivial ?_ (ih s _ hn)
      simp [step, beginning, attempted, hc]
    | error e =>
      cases hr : f.retry.failed clock with
      | wait w retry =>
        refine ⟨[.attempt clock], by simp [Move.own], ?_⟩
        simp [run, step, beginning, ending, attempted, Service.proceed, hc, hr]
      | giveUp attempts elapsed =>
        have hp : Service.proceed (fuel + 1) s (some f) clock around = Service.proceed fuel
            (s.giveUp f.batch ⟨attempts, elapsed, e⟩ next).1 none clock
            (s.giveUp f.batch ⟨attempts, elapsed, e⟩ next).2 := by
          simp [Service.proceed, hc, hr]
        rw [hp]
        refine leads_cons (.attempt clock) trivial ?_ (ih _ _ (by rwa [giveUp_need]))
        simp [step, beginning, attempted, hc, hr]
      | overflow =>
        refine ⟨[.attempt clock], by simp [Move.own], ?_⟩
        simp [run, step, beginning, ending, attempted, Service.proceed, hc, hr]

theorem proceed_draining (fuel : ℕ) (s : Service P) (clock : Span) (around : Surroundings P)
    (pushing : List (ℕ × Batch))
    (ih : ∀ (t : Service P) (flight : Option Flight), need t flight ≤ fuel →
      Leads t flight around pushing (Service.proceed fuel t flight clock around))
    (h : need s none ≤ fuel + 1) :
    Leads s none around pushing (Service.proceed (fuel + 1) s none clock around) := by
  by_cases hq : s.channel.queue = []
  · have hlook : step (P := P) ⟨s, .draining, pushing, around⟩ (.look clock) =
        ⟨s, .leaving, pushing, around⟩ := look_empty _ clock rfl hq
    cases hp : s.channel.permit with
    | true =>
      have hn : need { s with channel := { s.channel with permit := false } } none ≤ fuel := by
        simp [need, Channel.queued, hq, hp] at h ⊢
        omega
      have hgo : Service.proceed (fuel + 1) s none clock around = Service.proceed fuel
          { s with channel := { s.channel with permit := false } } none clock around := by
        simp [Service.proceed, Channel.take, hq, Channel.consume, hp]
      obtain ⟨ms, hown, hrun⟩ := ih _ none hn
      refine ⟨.look clock :: .rest :: ms, by simpa [Move.own] using hown, ?_⟩
      rw [hgo, ← hrun, run, beginning, hlook, run, rest_signalled _ rfl hp]
      rfl
    | false =>
      refine ⟨[.look clock, .rest], by simp [Move.own], ?_⟩
      have hgo : Service.proceed (fuel + 1) s none clock around = s.rest clock around := by
        simp [Service.proceed, Channel.take, hq, Channel.consume, hp]
      rw [hgo, run, beginning, hlook, run, rest_parks _ rfl hp]
      rfl
  · have hn : need { s with channel := (s.channel.take s.delivery.batchSize).2 }
        (some ⟨(s.channel.share s.delivery.batchSize).flatten,
          .start s.delivery.backoff clock⟩) ≤ fuel := by
      have hpos : 0 < s.channel.queue.length := List.length_pos_of_ne_nil hq
      simp [need, Channel.queued, Channel.take, hq] at h ⊢
      omega
    have hgo : Service.proceed (fuel + 1) s none clock around = Service.proceed fuel
        { s with channel := (s.channel.take s.delivery.batchSize).2 }
        (some ⟨(s.channel.share s.delivery.batchSize).flatten, .start s.delivery.backoff clock⟩)
        clock around := by
      simp [Service.proceed, Channel.take, hq]
    rw [hgo]
    refine leads_cons (.look clock) trivial ?_ (ih _ _ hn)
    exact look_taken ⟨s, .draining, pushing, around⟩ clock rfl hq

theorem proceed_moves (fuel : ℕ) (s : Service P) (flight : Option Flight) (clock : Span)
    (around : Surroundings P) (pushing : List (ℕ × Batch)) (h : need s flight ≤ fuel) :
    Leads s flight around pushing (Service.proceed fuel s flight clock around) := by
  induction fuel generalizing s flight around with
  | zero => simp [need] at h
  | succ fuel ih =>
    cases flight with
    | some f =>
      exact proceed_delivering fuel s f clock around pushing (fun t later => ih t none later) h
    | none =>
      exact proceed_draining fuel s clock around pushing (fun t flight => ih t flight around) h

/-- A whole turn is a run of steps of the service with no other step among
them. -/
theorem turn_moves (l : ServiceLoop P) (clock : Span) (around : Surroundings P)
    (pushing : List (ℕ × Batch)) :
    Leads l.service l.flight around pushing (Service.turn l clock around) := by
  apply proceed_moves
  unfold need
  split <;> split <;> omega

structure Signalled (now : Scene P) : Prop where
  /-- With no producer between push and signal, a service that waits has an
  empty queue, or a permit that ends its wait. -/
  pending : now.phase = .parked → now.pushing = [] →
    now.channel.queue = [] ∨ now.channel.permit = true
  /-- Without a permit, only batches that are still to be signalled are queued. -/
  unsignalled : now.phase = .parked → now.channel.permit = false →
    now.channel.queue.Sublist (now.pushing.map Prod.snd)
  /-- From a queue that holds something it takes the service two steps at most,
  none of them the end of the idle interval, to deliver the oldest batches. -/
  prompt : now.channel.queue ≠ [] → now.phase = .draining ∨ Idle now ∧ now.pushing = [] →
    ∀ clock, (run (onward clock now.phase) now).phase = .delivering (oldest now clock)
  /-- A put has this effect whatever the other producers are about to do. -/
  answered : ∀ i b clock, b ≠ [] → i ∉ now.producers → now.phase = .draining ∨ Idle now →
    (run (onward clock now.phase) (run [.push i b, .signal i] now)).phase =
      .delivering (oldest (run [.push i b, .signal i] now) clock)
  put : ∀ i b, b ≠ [] → i ∉ now.producers →
    run [.push i b, .signal i] now = { now with service := now.service.put b }
  turn : ∀ flight clock, now.phase = beginning flight →
    ∃ ms : List (Move P), (∀ m ∈ ms, m.own) ∧
      run ms now = ⟨(Service.turn ⟨now.service, flight⟩ clock now.around).loop.service,
        ending (Service.turn ⟨now.service, flight⟩ clock now.around), now.pushing,
        (Service.turn ⟨now.service, flight⟩ clock now.around).around⟩

theorem put_signalled (c : Channel) (b : Batch) (hb : b ≠ []) :
    (c.put b).queue ≠ [] ∧ (c.put b).permit = true := by
  obtain ⟨kept, dropped, _, h⟩ := c.put_shape hb
  rw [h]
  exact ⟨List.append_ne_nil_of_right_ne_nil _ (List.cons_ne_nil _ _), rfl⟩

theorem watched_signalled (now : Scene P) (h : Watched now) : Signalled now where
  pending := by
    intro hs hnone
    cases hp : now.channel.permit with
    | true => exact Or.inr rfl
    | false =>
      have hsub := h (Or.inr hs) hp
      rw [hnone] at hsub
      exact Or.inl (List.sublist_nil.mp hsub)
  unsignalled := fun hs hp => h (Or.inr hs) hp
  prompt := by
    intro hq hs clock
    apply onward_delivers now clock hq
    · intro hi
      rcases hs with hs | ⟨_, hnone⟩
      · simp [Idle, hs] at hi
      · by_contra hp
        have hsub := h hi (by simpa using hp)
        rw [hnone] at hsub
        exact hq (List.sublist_nil.mp hsub)
    · exact hs.imp_right And.left
  answered := by
    intro i b clock hb hi hs
    obtain ⟨hqueue, hpermit⟩ := put_signalled now.channel b hb
    rw [put_moves now i b hb hi]
    exact onward_delivers { now with service := now.service.put b } clock hqueue
      (fun _ => hpermit) hs
  put := put_moves now
  turn := by
    intro flight clock hs
    obtain ⟨service, phase, pushing, around⟩ := now
    obtain rfl : phase = beginning flight := hs
    exact turn_moves ⟨service, flight⟩ clock around pushing

/-- Over every run of steps of any number of producers and a service, no
nonempty put waits for the idle interval to be over. -/
theorem no_signal_lost (id plugin : String) (publisher : P.Publisher) (config : PluginConfig)
    (d : Delivery) (s : Service P) (hs : Service.create id plugin publisher config d = .ok s)
    (around : Surroundings P) (ms : List (Move P)) :
    Signalled (run ms ⟨s, .draining, [], around⟩) := by
  apply watched_signalled
  apply run_watched
  obtain ⟨_, rfl⟩ := PublisherHistory.create_cases hs
  intro _ _
  exact List.nil_sublist _

/-- Two producers push into a queue of one batch while its service finds the
queue empty and before it waits. A stale permit makes the service look once
more, and while it waits a third producer has pushed and not signalled. -/
def crossing : List (Move rehearsal) :=
  [.look 0, .push 0 [.ofType (.parse "load/one") ""], .push 1 [.ofType (.parse "cpu/all") ""],
    .signal 0, .rest, .look 0, .attempt 0, .signal 1, .attempt (Span.ofSeconds 10),
    .look (Span.ofSeconds 10), .rest, .look (Span.ofSeconds 10), .rest,
    .push 2 [.ofType (.parse "load/five") ""]]

def single : Service rehearsal :=
  ⟨"sink", "rec", .sink "rec", .empty, { PublisherHistory.narrow with queueSize := 1 }, .create 1⟩

def crossed : Scene rehearsal :=
  run crossing ⟨single, .draining, [], PublisherHistory.refusingOnce⟩

theorem no_signal_lost_crossing :
    Service.create (P := rehearsal) "sink" "rec" (.sink "rec") .empty
      { PublisherHistory.narrow with queueSize := 1 } = .ok single ∧
    crossed.phase = .parked ∧ crossed.channel.queued = 1 ∧ Signalled crossed :=
  ⟨rfl, rfl, rfl, no_signal_lost (P := rehearsal) "sink" "rec" (.sink "rec") .empty
    { PublisherHistory.narrow with queueSize := 1 } single rfl PublisherHistory.refusingOnce
    crossing⟩

end Telemetry.WakeSignals
