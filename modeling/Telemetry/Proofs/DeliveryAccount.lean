import Telemetry.Proofs.ObservedCalls
import Telemetry.Proofs.PublisherHistory
import Telemetry.Proofs.WaitGrowth

/-!
# The account of deliveries

Over any run of puts and drains each drain makes its calls with one batch and
stops at the first call that is accepted. A drain that returns has raised the
count of failures only when no call was accepted, and the report of a
publisher is that of the last drain that gave up. When a length overflows
after a failed call, the drain does not return: its batch is gone, and neither
accepted nor counted.
-/

set_option autoImplicit false

namespace Telemetry.DeliveryAccount

open BackoffSchedule (Overflows)
open ObservedCalls

structure State (P : Platform) where
  service : Service (observed P)
  clock : Span
  around : Surroundings (observed P)

/-- What happens to a service. The calls of a drain take as long as the world
they leave says; between puts and drains time passes and the world changes. -/
inductive Act (P : Platform) where
  | put (batch : Batch)
  | drain (takes : (observed P).World → Span)
  | pass (length : Span) (world : P.World)

variable {P : Platform}

abbrev State.channel (s : State P) : Channel := s.service.channel

abbrev State.log (s : State P) : List Call := s.around.world.2

def landed (d : Service.Drained (observed P)) : State P := ⟨d.service, d.clock, d.around⟩

def step (s : State P) : Act P → State P
  | .put b => { s with service := s.service.put b }
  | .drain takes => landed (s.service.drainOnce takes s.clock s.around)
  | .pass length world =>
    { s with clock := s.clock + length, around := { s.around with world := (world, s.log) } }

def run : List (Act P) → State P → State P
  | [], s => s
  | a :: acts, s => run acts (step s a)

def Act.offers : Act P → List Batch
  | .put b => if b = [] then [] else [b]
  | .drain _ | .pass _ _ => []

def puts (acts : List (Act P)) : List Batch := acts.flatMap Act.offers

structure Round (P : Platform) where
  state : State P
  takes : (observed P).World → Span

def begun (s : State P) : Act P → List (Round P)
  | .drain takes => if s.channel.queue = [] then [] else [⟨s, takes⟩]
  | .put _ | .pass _ _ => []

def drains : List (Act P) → State P → List (Round P)
  | [], _ => []
  | a :: acts, s => begun s a ++ drains acts (step s a)

namespace Round

variable (r : Round P)

abbrev taken : List Batch := r.state.channel.share r.state.service.delivery.batchSize

abbrev batch : Batch := r.taken.flatten

abbrev after : State P := step r.state (.drain r.takes)

def calls : List Call := r.after.log.drop r.state.log.length

def result : Service.Drain :=
  (r.state.service.drainOnce r.takes r.state.clock r.state.around).drain

def ending : Retry.Outcome Unit PluginError × Span × Surroundings (observed P) :=
  Retry.perform r.state.service.delivery.backoff (r.state.service.attempt r.takes r.batch)
    r.state.clock r.state.around

def exhausted : Bool :=
  match r.ending.1 with
  | .exhausted _ _ _ => true
  | .done _ _ | .overflow | .unfinished => false

end Round

theorem remaining_channel (s : Service (observed P)) :
    (PublisherHistory.remaining s).channel.failures = s.channel.failures ∧
    (PublisherHistory.remaining s).channel.queue =
      s.channel.queue.drop (s.channel.share s.delivery.batchSize).length := by
  rw [PublisherHistory.remaining, PublisherHistory.take_eq, PublisherHistory.share_eq]
  refine ⟨rfl, ?_⟩
  rw [List.length_take, ← Channel.queued, Nat.min_eq_left (Nat.min_le_right _ _)]

theorem drain_eq (r : Round P) (hq : r.state.channel.queue ≠ []) :
    r.state.service.drainOnce r.takes r.state.clock r.state.around =
      (PublisherHistory.remaining r.state.service).conclude r.batch r.ending := by
  rw [PublisherHistory.drain_taken r.state.service hq]
  rfl

theorem after_eq (r : Round P) (hq : r.state.channel.queue ≠ []) :
    r.after =
      landed ((PublisherHistory.remaining r.state.service).conclude r.batch r.ending) :=
  congrArg landed (drain_eq r hq)

theorem conclude_log (s : Service (observed P)) (b : Batch)
    (t : Retry.Outcome Unit PluginError × Span × Surroundings (observed P)) :
    (s.conclude b t).clock = t.2.1 ∧ (s.conclude b t).around.world = t.2.2.world := by
  obtain ⟨o, clock, around⟩ := t
  cases o <;> exact ⟨rfl, rfl⟩

theorem drain_calls (r : Round P) (hq : r.state.channel.queue ≠ []) :
    r.after.log = r.state.log ++ r.calls ∧
    (∀ c ∈ r.calls, c.batch = r.batch ∧ c.config = r.state.service.config) ∧
    Borne r.state.service.delivery.backoff 0 r.state.clock r.after.clock r.calls r.ending.1 := by
  obtain ⟨made, hlog, _, hsame, hborne⟩ := run_calls r.state.service r.takes r.batch
    (Retry.attemptBound r.state.service.delivery.backoff) r.state.service.delivery.backoff
    r.state.service.delivery.backoff.initial 0 r.state.clock r.state.clock r.state.around
  have hafter := after_eq r hq
  obtain ⟨hclock, hworld⟩ :=
    conclude_log (PublisherHistory.remaining r.state.service) r.batch r.ending
  have hl : r.after.log = r.state.log ++ made := by
    rw [hafter, State.log, landed, hworld]
    exact hlog
  have hc : r.calls = made := by rw [Round.calls, hl, List.drop_left]
  have ht : r.after.clock = r.ending.2.1 := by rw [hafter, landed, hclock]
  rw [hc, ht]
  exact ⟨hl, hsame, hborne⟩

theorem ending_reports (r : Round P) : r.ending.2.2.reports = r.state.around.reports := by
  obtain ⟨_, _, hreports, _⟩ := run_calls r.state.service r.takes r.batch
    (Retry.attemptBound r.state.service.delivery.backoff) r.state.service.delivery.backoff
    r.state.service.delivery.backoff.initial 0 r.state.clock r.state.clock r.state.around
  exact hreports

/-- A drain that does not give up leaves the count of failures and the reports
as they are. -/
theorem drain_quiet (r : Round P) (hq : r.state.channel.queue ≠ []) (hx : r.exhausted = false) :
    r.after.service = PublisherHistory.remaining r.state.service ∧
    r.after.around.reports = r.state.around.reports := by
  have hreports := ending_reports r
  rw [after_eq r hq]
  unfold Round.exhausted at hx
  rcases hend : r.ending with ⟨o, rest⟩
  rw [hend] at hreports hx
  cases o with
  | done v n => exact ⟨rfl, hreports⟩
  | exhausted n elapsed e => cases hx
  | overflow => exact ⟨rfl, hreports⟩
  | unfinished => exact ⟨rfl, hreports⟩

theorem drain_loud (r : Round P) (hq : r.state.channel.queue ≠ []) (hx : r.exhausted = true) :
    r.calls.countP Call.accepted = 0 ∧
    r.after.service = PublisherHistory.failed (PublisherHistory.remaining r.state.service) ∧
    ∃ e, r.calls.getLast? = some ⟨r.batch, r.state.service.config, .error e⟩ ∧
      r.after.around.reports = r.state.around.reports.setPublisher r.state.service.id
        (.create ((observed P).now r.after.around.world) r.state.service.id
          r.state.service.plugin
          (PublishError.message
            ⟨r.calls.length % Word.count32, r.after.clock - r.state.clock, e⟩)
          (r.state.channel.failures + 1)) := by
  have hreports := ending_reports r
  obtain ⟨_, hsame, hborne⟩ := drain_calls r hq
  have hafter := after_eq r hq
  unfold Round.exhausted at hx
  rcases hend : r.ending with ⟨o, clock, around⟩
  rw [hend] at hreports hafter hx hborne
  cases o with
  | done v n => cases hx
  | overflow => cases hx
  | unfinished => cases hx
  | exhausted n elapsed e =>
    obtain ⟨hn, helapsed, hzero, c, hlast, hanswer⟩ := hborne
    obtain ⟨hbatch, hconfig⟩ := hsame c (List.mem_of_getLast? hlast)
    have hworld : r.after.around.world = around.world := by rw [hafter]; rfl
    have hset : r.after.around.reports = around.reports.setPublisher r.state.service.id
        (.create ((observed P).now around.world) r.state.service.id r.state.service.plugin
          (PublishError.message ⟨n, elapsed, e⟩) (r.state.channel.failures + 1)) := by
      rw [hafter, ← (remaining_channel r.state.service).1]
      rfl
    refine ⟨hzero, by rw [hafter]; rfl, e, ?_, ?_⟩
    · rw [hlast, ← hbatch, ← hconfig, ← hanswer]
    · rw [hset, hworld, hreports, hn, helapsed, Nat.zero_add]

theorem step_service (s : State P) (a : Act P) :
    ∃ c, (step s a).service = { s.service with channel := c } := by
  cases a with
  | put b => exact ⟨_, rfl⟩
  | pass length world => exact ⟨_, rfl⟩
  | drain takes =>
    change ∃ c, (s.service.drainOnce takes s.clock s.around).service = _
    rcases PublisherHistory.drain_service s.service takes s.clock s.around with hd | hd
    · exact ⟨_, hd⟩
    · exact ⟨_, hd⟩

theorem step_drain_empty (s : State P) (takes : (observed P).World → Span)
    (hq : s.channel.queue = []) : step s (.drain takes) = s := by
  rw [step, PublisherHistory.drain_empty s.service hq]
  rfl

theorem put_failures (c : Channel) (b : Batch) : (c.put b).failures = c.failures := by
  by_cases hb : b = []
  · rw [hb, Channel.put_empty]
  · obtain ⟨kept, dropped, _, h⟩ := c.put_shape hb
    rw [h]

/-- An act that is no drain of a nonempty queue leaves the calls, the count of
failures and the reports as they are. -/
theorem begun_cases (s : State P) (a : Act P) :
    (∃ takes, a = .drain takes ∧ s.channel.queue ≠ [] ∧ begun s a = [⟨s, takes⟩]) ∨
    (begun s a = [] ∧ (step s a).log = s.log ∧
      (step s a).channel.failures = s.channel.failures ∧
      (step s a).around.reports = s.around.reports) := by
  cases a with
  | put b => exact Or.inr ⟨rfl, rfl, put_failures s.channel b, rfl⟩
  | pass length world => exact Or.inr ⟨rfl, rfl, rfl, rfl⟩
  | drain takes =>
    by_cases hq : s.channel.queue = []
    · rw [step_drain_empty s takes hq]
      exact Or.inr ⟨if_pos hq, rfl, rfl, rfl⟩
    · exact Or.inl ⟨takes, rfl, hq, if_neg hq⟩

/-- What holds of a state and is kept by every act holds in every state in
which a drain begins. -/
theorem drains_all (holds : State P → Prop) (hkept : ∀ s a, holds s → holds (step s a))
    (acts : List (Act P)) (s : State P) (h : holds s) :
    ∀ r ∈ drains acts s, holds r.state ∧ r.state.channel.queue ≠ [] := by
  induction acts generalizing s with
  | nil => simp [drains]
  | cons a acts ih =>
    intro r hr
    rcases List.mem_append.mp hr with hr | hr
    · rcases begun_cases s a with ⟨takes, _, hq, hb⟩ | ⟨hb, _⟩
      · rw [hb, List.mem_singleton] at hr
        exact hr ▸ ⟨h, hq⟩
      · rw [hb] at hr
        cases hr
    · exact ih (step s a) (hkept s a h) r hr

def Filled (s : State P) : Prop := ∀ b ∈ s.channel.queue, b ≠ []

theorem put_filled (c : Channel) (b : Batch) (h : ∀ x ∈ c.queue, x ≠ []) :
    ∀ x ∈ (c.put b).queue, x ≠ [] := by
  by_cases hb : b = []
  · rwa [hb, Channel.put_empty]
  · obtain ⟨kept, dropped, hsub, hput⟩ := c.put_shape hb
    rw [hput]
    intro x hx
    rcases List.mem_append.mp hx with hx | hx
    · exact h x (hsub.subset hx)
    · exact List.mem_singleton.mp hx ▸ hb

theorem drain_channel (r : Round P) :
    r.after.channel = (PublisherHistory.remaining r.state.service).channel ∨
    r.after.channel = (PublisherHistory.remaining r.state.service).channel.fail := by
  rcases PublisherHistory.drain_service r.state.service r.takes r.state.clock r.state.around with
    hd | hd
  · exact Or.inl (congrArg Service.channel hd)
  · exact Or.inr (congrArg Service.channel hd)

/-- What a drain takes is gone from the queue, whatever the sink answers. -/
theorem drain_queue (r : Round P) :
    r.after.channel.queue = r.state.channel.queue.drop r.taken.length := by
  have hr := (remaining_channel r.state.service).2
  rcases drain_channel r with hd | hd
  · rw [hd, hr]
  · rw [hd]
    exact hr

theorem step_filled (s : State P) (a : Act P) (h : Filled s) : Filled (step s a) := by
  cases a with
  | put b => exact put_filled s.channel b h
  | pass length world => exact h
  | drain takes =>
    intro b hb
    have hqueue := drain_queue ⟨s, takes⟩
    exact h b (List.mem_of_mem_drop (hqueue ▸ hb))

theorem batch_filled (r : Round P) (h : Filled r.state) (hq : r.state.channel.queue ≠ []) :
    r.batch ≠ [] := by
  obtain ⟨b, rest, hb⟩ := List.exists_cons_of_ne_nil hq
  have hfirst : b ∈ r.taken := by
    rw [Round.taken, Channel.share, hb]
    cases hm : max 1 r.state.service.delivery.batchSize with
    | zero => omega
    | succ n => simp
  intro he
  exact h b (hb ▸ List.mem_cons_self) (List.flatten_eq_nil_iff.mp he b hfirst)

/-- What a drain of a nonempty queue does to its batch and to the count of
failures. -/
structure Settled (r : Round P) : Prop where
  nonempty : r.batch ≠ []
  given : ∀ c ∈ r.calls, c.batch = r.batch ∧ c.config = r.state.service.config
  once : r.calls.countP Call.accepted ≤ 1
  /-- A drain that returns counts no failure just when the sink accepted the
  batch. -/
  delivered : r.result = .drained →
    (r.calls.countP Call.accepted = 1 ↔ r.after.channel.failures = r.state.channel.failures)
  dropped : r.exhausted = true → r.result = .drained ∧
    r.calls.countP Call.accepted = 0 ∧ r.after.channel.failures = r.state.channel.failures + 1
  /-- A drain that overflows does so after a failed call, and counts nothing. -/
  lost : r.result = .overflow → r.calls.countP Call.accepted = 0 ∧
    r.after.channel.failures = r.state.channel.failures ∧
    ∃ w, Overflows r.state.service.delivery.backoff w (r.after.clock - r.state.clock)
  removed : r.after.channel.queue = r.state.channel.queue.drop r.taken.length

theorem quiet_failures (r : Round P) (hq : r.state.channel.queue ≠ [])
    (hx : r.exhausted = false) : r.after.channel.failures = r.state.channel.failures := by
  rw [State.channel, (drain_quiet r hq hx).1, (remaining_channel r.state.service).1]

theorem loud_failures (r : Round P) (hq : r.state.channel.queue ≠ [])
    (hx : r.exhausted = true) : r.after.channel.failures = r.state.channel.failures + 1 := by
  rw [State.channel, (drain_loud r hq hx).2.1, ← (remaining_channel r.state.service).1]
  rfl

theorem result_cases (r : Round P) (hq : r.state.channel.queue ≠ []) :
    (r.result = .drained ∧ r.exhausted = true) ∨
    (r.result = .drained ∧ r.exhausted = false ∧ ∃ v n, r.ending.1 = .done v n) ∨
    (r.result = .overflow ∧ r.exhausted = false ∧ r.ending.1 = .overflow) ∨
    (r.result = .unfinished ∧ r.exhausted = false ∧ r.ending.1 = .unfinished) := by
  have hresult := congrArg Service.Drained.drain (drain_eq r hq)
  change r.result = _ at hresult
  unfold Round.exhausted
  rw [hresult]
  rcases r.ending with ⟨o, rest⟩
  cases o with
  | exhausted n elapsed e => exact Or.inl ⟨rfl, rfl⟩
  | done v n => exact Or.inr (Or.inl ⟨rfl, rfl, v, n, rfl⟩)
  | overflow => exact Or.inr (Or.inr (Or.inl ⟨rfl, rfl, rfl⟩))
  | unfinished => exact Or.inr (Or.inr (Or.inr ⟨rfl, rfl, rfl⟩))

theorem drain_settled (r : Round P) (h : Filled r.state) (hq : r.state.channel.queue ≠ []) :
    Settled r := by
  obtain ⟨_, hgiven, hborne⟩ := drain_calls r hq
  have hcases := result_cases r hq
  refine ⟨batch_filled r h hq, hgiven, borne_once hborne, ?_, ?_, ?_, drain_queue r⟩
  · intro hresult
    rcases hcases with ⟨_, hx⟩ | ⟨_, hx, v, n, ho⟩ | ⟨hr, _⟩ | ⟨hr, _⟩
    · rw [(drain_loud r hq hx).1, loud_failures r hq hx]
      omega
    · rw [ho] at hborne
      exact iff_of_true hborne.2 (quiet_failures r hq hx)
    · rw [hr] at hresult
      cases hresult
    · rw [hr] at hresult
      cases hresult
  · intro hx
    rcases hcases with ⟨hr, _⟩ | ⟨_, hn, _⟩ | ⟨_, hn, _⟩ | ⟨_, hn, _⟩
    · exact ⟨hr, (drain_loud r hq hx).1, loud_failures r hq hx⟩
    all_goals
      rw [hx] at hn
      cases hn
  · intro hresult
    rcases hcases with ⟨hr, _⟩ | ⟨hr, _⟩ | ⟨_, hx, ho⟩ | ⟨hr, _⟩
    · rw [hr] at hresult
      cases hresult
    · rw [hr] at hresult
      cases hresult
    · rw [ho] at hborne
      exact ⟨hborne.1, quiet_failures r hq hx, hborne.2⟩
    · rw [hr] at hresult
      cases hresult

def Told (id plugin : String) (r : Round P) (now : State P) : Prop :=
  ∃ e, r.calls.getLast? = some ⟨r.batch, r.state.service.config, .error e⟩ ∧
    now.around.reports.publisher? id =
      some (.create ((observed P).now r.after.around.world) id plugin
        (PublishError.message ⟨r.calls.length % Word.count32, r.after.clock - r.state.clock, e⟩)
        now.channel.failures)

/-- How a service made with an identifier, a plugin and delivery settings
stands after a run. -/
structure Account (id plugin : String) (d : Delivery) (acts : List (Act P)) (start : State P) :
    Prop where
  settled : ∀ r ∈ drains acts start, Settled r
  /-- With waits that grow by one and a half or more every drain returns or
  overflows. -/
  ends : 3 / 2 ≤ WaitGrowth.value (WaitGrowth.factor d.backoff.multiplier) →
    ∀ r ∈ drains acts start, r.result = .drained ∨ r.result = .overflow
  /-- Only drains make calls. -/
  logged : (run acts start).log = start.log ++ (drains acts start).flatMap Round.calls
  /-- A batch that a drain took does not come back. -/
  gone : ((drains acts start).flatMap Round.taken ++
    (run acts start).channel.queue).Sublist (puts acts)
  counted : (run acts start).channel.failures = (drains acts start).countP Round.exhausted
  reported : ((run acts start).around.reports.publisher? id).isSome ↔
    0 < (run acts start).channel.failures
  /-- The report is that of the last drain that gave up. -/
  latest : ∀ r, ((drains acts start).filter Round.exhausted).getLast? = some r →
    Told id plugin r (run acts start)

theorem step_logged (s : State P) (a : Act P) :
    (step s a).log = s.log ++ (begun s a).flatMap Round.calls := by
  rcases begun_cases s a with ⟨takes, rfl, hq, hb⟩ | ⟨hb, hlog, _⟩
  · rw [hb, List.flatMap_singleton]
    exact (drain_calls ⟨s, takes⟩ hq).1
  · rw [hb, hlog, List.flatMap_nil, List.append_nil]

theorem run_logged (acts : List (Act P)) (s : State P) :
    (run acts s).log = s.log ++ (drains acts s).flatMap Round.calls := by
  induction acts generalizing s with
  | nil => simp [run, drains]
  | cons a acts ih =>
    rw [run, ih, step_logged, drains, List.flatMap_append, List.append_assoc]

theorem step_failures (s : State P) (a : Act P) :
    (step s a).channel.failures =
      s.channel.failures + (begun s a).countP Round.exhausted := by
  rcases begun_cases s a with ⟨takes, rfl, hq, hb⟩ | ⟨hb, _, hfailures, _⟩
  · rw [hb, List.countP_singleton]
    cases hx : Round.exhausted ⟨s, takes⟩ with
    | true => exact loud_failures ⟨s, takes⟩ hq hx
    | false => exact quiet_failures ⟨s, takes⟩ hq hx
  · rw [hb, hfailures]
    rfl

theorem run_failures (acts : List (Act P)) (s : State P) :
    (run acts s).channel.failures =
      s.channel.failures + (drains acts s).countP Round.exhausted := by
  induction acts generalizing s with
  | nil => rfl
  | cons a acts ih => rw [run, ih, step_failures, drains, List.countP_append, Nat.add_assoc]

theorem step_kept {capacity : ℕ} {given took : List Batch} {s : State P} (hpos : 0 < capacity)
    (h : PublisherHistory.Kept capacity given took s.channel) (a : Act P) :
    PublisherHistory.Kept capacity (given ++ a.offers) (took ++ (begun s a).flatMap Round.taken)
      (step s a).channel := by
  cases a with
  | put b =>
    rw [begun, List.flatMap_nil, List.append_nil, Act.offers]
    by_cases hb : b = []
    · rw [if_pos hb, List.append_nil, hb]
      exact (Channel.put_empty s.channel).symm ▸ h
    · rw [if_neg hb]
      exact PublisherHistory.kept_put hpos h b hb
  | pass length world =>
    rw [begun, List.flatMap_nil, List.append_nil, Act.offers, List.append_nil]
    exact h
  | drain takes =>
    rw [Act.offers, List.append_nil, begun]
    by_cases hq : s.channel.queue = []
    · rw [if_pos hq, step_drain_empty s takes hq, List.flatMap_nil, List.append_nil]
      exact h
    · rw [if_neg hq, List.flatMap_singleton]
      have ht := PublisherHistory.kept_take h s.service.delivery.batchSize
      rcases drain_channel ⟨s, takes⟩ with hd | hd
      · exact hd ▸ ht
      · exact hd ▸ PublisherHistory.kept_fail ht

theorem run_kept {capacity : ℕ} (acts : List (Act P)) {given took : List Batch} {s : State P}
    (hpos : 0 < capacity) (h : PublisherHistory.Kept capacity given took s.channel) :
    PublisherHistory.Kept capacity (given ++ puts acts)
      (took ++ (drains acts s).flatMap Round.taken) (run acts s).channel := by
  induction acts generalizing given took s with
  | nil => simpa [puts, drains, run] using h
  | cons a acts ih =>
    have hn := ih (step_kept hpos h a)
    rw [List.append_assoc, List.append_assoc] at hn
    rw [run, puts, List.flatMap_cons, drains, List.flatMap_append]
    exact hn

theorem run_quiet (acts : List (Act P)) (s : State P)
    (h : (drains acts s).filter Round.exhausted = []) :
    (run acts s).channel.failures = s.channel.failures ∧
    (run acts s).around.reports = s.around.reports := by
  induction acts generalizing s with
  | nil => exact ⟨rfl, rfl⟩
  | cons a acts ih =>
    rw [drains, List.filter_append, List.append_eq_nil_iff] at h
    obtain ⟨hfailures, hreports⟩ := ih (step s a) h.2
    rw [run, hfailures, hreports]
    rcases begun_cases s a with ⟨takes, rfl, hq, hb⟩ | ⟨_, _, hf, hr⟩
    · have hx : Round.exhausted ⟨s, takes⟩ = false := by simpa [hb] using h.1
      exact ⟨quiet_failures ⟨s, takes⟩ hq hx, (drain_quiet ⟨s, takes⟩ hq hx).2⟩
    · exact ⟨hf, hr⟩

/-- Until the next drain gives up, the reports tell of the last one that did. -/
theorem told_run {id plugin : String} {r : Round P} {s : State P} (acts : List (Act P))
    (hr : Told id plugin r s) (h : (drains acts s).filter Round.exhausted = []) :
    Told id plugin r (run acts s) := by
  obtain ⟨hfailures, hreports⟩ := run_quiet acts s h
  obtain ⟨e, hlast, hreport⟩ := hr
  exact ⟨e, hlast, by rw [hreports, hfailures, hreport]⟩

theorem told_after (r : Round P) (hq : r.state.channel.queue ≠ []) (hx : r.exhausted = true) :
    Told r.state.service.id r.state.service.plugin r r.after := by
  obtain ⟨_, _, e, hlast, hset⟩ := drain_loud r hq hx
  refine ⟨e, hlast, ?_⟩
  rw [hset, loud_failures r hq hx, Reports.publisher?, Reports.setPublisher, Dict.get?_insert,
    if_pos rfl]

theorem run_told (acts : List (Act P)) (s : State P) (r : Round P)
    (hr : ((drains acts s).filter Round.exhausted).getLast? = some r) :
    Told s.service.id s.service.plugin r (run acts s) := by
  induction acts generalizing s with
  | nil => simp [drains] at hr
  -- the last drain that gave up is among the later acts, or it is this one and none follows
  | cons a acts ih =>
    obtain ⟨c, hc⟩ := step_service s a
    have hid : (step s a).service.id = s.service.id := by rw [hc]
    have hplugin : (step s a).service.plugin = s.service.plugin := by rw [hc]
    rw [drains, List.filter_append, List.getLast?_append] at hr
    cases hl : ((drains acts (step s a)).filter Round.exhausted).getLast? with
    | some u =>
      rw [hl] at hr
      obtain rfl : u = r := Option.some.inj hr
      exact hid ▸ hplugin ▸ ih (step s a) hl
    | none =>
      rw [hl, Option.none_or] at hr
      have hnil := List.getLast?_eq_none_iff.mp hl
      rcases begun_cases s a with ⟨takes, rfl, hq, hb⟩ | ⟨hb, _⟩
      · cases hx : Round.exhausted ⟨s, takes⟩ with
        | true =>
          obtain rfl : ⟨s, takes⟩ = r := by simpa [hb, hx] using hr
          exact told_run acts (told_after ⟨s, takes⟩ hq hx) hnil
        | false => simp [hb, hx] at hr
      · simp [hb] at hr

theorem attempt_clock (s : Service (observed P)) (takes : (observed P).World → Span) (b : Batch)
    (clock : Span) (around : Surroundings (observed P)) :
    clock ≤ (s.attempt takes b clock around).2.1 :=
  Nat.le_add_right _ _

theorem drain_ends (r : Round P) (hq : r.state.channel.queue ≠ [])
    (hinitial : 0 < r.state.service.delivery.backoff.initial)
    (hcap : r.state.service.delivery.backoff.initial ≤ r.state.service.delivery.backoff.cap)
    (hgrow : 3 / 2 ≤
      WaitGrowth.value (WaitGrowth.factor r.state.service.delivery.backoff.multiplier)) :
    r.result = .drained ∨ r.result = .overflow := by
  have hend : r.ending.1 ≠ .unfinished :=
    WaitGrowth.perform_ends _ (attempt_clock r.state.service r.takes r.batch) _ hinitial hcap
      hgrow _ _
  rcases result_cases r hq with ⟨hr, _⟩ | ⟨hr, _⟩ | ⟨hr, _⟩ | ⟨_, _, ho⟩
  · exact Or.inl hr
  · exact Or.inl hr
  · exact Or.inr hr
  · exact absurd ho hend

theorem drains_delivery (d : Delivery) (acts : List (Act P)) (s : State P)
    (hd : s.service.delivery = d) : ∀ r ∈ drains acts s,
      r.state.service.delivery = d ∧ r.state.channel.queue ≠ [] := by
  refine drains_all (fun t => t.service.delivery = d) (fun t a h => ?_) acts s hd
  obtain ⟨c, hc⟩ := step_service t a
  rw [hc]
  exact h

theorem fresh_account (start : State P) (d : Delivery) (hd : start.service.delivery = d)
    (hinitial : 0 < d.backoff.initial) (hcap : d.backoff.initial ≤ d.backoff.cap)
    (hpos : 0 < d.queueSize) (hfresh : start.channel = .create d.queueSize)
    (hquiet : start.around.reports.publisher? start.service.id = none) (acts : List (Act P)) :
    Account start.service.id start.service.plugin d acts start := by
  have hkept : PublisherHistory.Kept d.queueSize [] [] start.channel :=
    hfresh ▸ ⟨rfl, Nat.zero_le _, rfl, List.Sublist.refl _⟩
  have hfilled : Filled start := by simp [Filled, hfresh, Channel.create]
  have hcounted : (run acts start).channel.failures =
      (drains acts start).countP Round.exhausted := by
    rw [run_failures, hfresh]
    exact Nat.zero_add _
  refine ⟨?_, ?_, run_logged acts start, (run_kept acts hpos hkept).order, hcounted, ?_,
    run_told acts start⟩
  · intro r hr
    obtain ⟨hf, hq⟩ := drains_all Filled step_filled acts start hfilled r hr
    exact drain_settled r hf hq
  · intro hgrow r hr
    obtain ⟨hrd, hq⟩ := drains_delivery d acts start hd r hr
    apply drain_ends r hq <;> rwa [hrd]
  · rw [hcounted, List.countP_eq_length_filter]
    constructor
    · intro hsome
      by_contra h0
      have hnil := List.eq_nil_of_length_eq_zero (Nat.eq_zero_of_not_pos h0)
      rw [(run_quiet acts start hnil).2, hquiet] at hsome
      cases hsome
    · intro hlt
      obtain ⟨r, hr⟩ := Option.isSome_iff_exists.mp
        (List.getLast?_isSome.mpr (List.ne_nil_of_length_pos hlt))
      obtain ⟨e, _, hreport⟩ := run_told acts start r hr
      rw [hreport]
      rfl

/-- Over every run of puts and drains a batch that is drained is accepted
once, or dropped, counted and reported, or lost to a length that overflows. -/
theorem delivery_account (id plugin : String) (publisher : P.Publisher) (config : PluginConfig)
    (d : Delivery) (hinitial : 0 < d.backoff.initial) (hcap : d.backoff.initial ≤ d.backoff.cap)
    (s : Service (observed P))
    (hs : Service.create (P := observed P) id plugin publisher config d = .ok s)
    (clock : Span) (around : Surroundings (observed P))
    (hquiet : around.reports.publisher? id = none) (acts : List (Act P)) :
    Account id plugin d acts ⟨s, clock, around⟩ := by
  obtain ⟨hpos, rfl⟩ := PublisherHistory.create_cases hs
  exact fresh_account ⟨⟨id, plugin, publisher, config, d, .create d.queueSize⟩, clock, around⟩ d
    rfl hinitial hcap hpos rfl hquiet acts

def refusing (calls : ℤ) : Surroundings (observed rehearsal) :=
  .create ⟨⟨⟨.empty [], default, fun _ => none⟩, ⟨[], none, .fixed, none, none⟩,
    Dict.ofList [("rec", ⟨0, calls, []⟩)]⟩, []⟩

def made (d : Delivery) : Service (observed rehearsal) :=
  ⟨"sink", "rec", .sink "rec", .empty, d, .create d.queueSize⟩

def refusals : List (Act rehearsal) :=
  [.put [.ofType (.parse "load/one") ""], .put [], .put [.ofType (.parse "load/five") ""],
    .put [.ofType (.parse "cpu/all") ""], .drain fun _ => Span.ofSeconds 1, .drain fun _ => 0,
    .drain fun _ => 0]

theorem delivery_account_refusals :
    Service.create (P := observed rehearsal) "sink" "rec" (.sink "rec") .empty
      PublisherHistory.narrow = .ok (made PublisherHistory.narrow) ∧
    Account "sink" "rec" PublisherHistory.narrow refusals
      ⟨made PublisherHistory.narrow, 0, refusing 7⟩ ∧
    ∀ r ∈ drains refusals ⟨made PublisherHistory.narrow, 0, refusing 7⟩,
      r.result = .drained ∨ r.result = .overflow := by
  have h : Account "sink" "rec" PublisherHistory.narrow refusals
      ⟨made PublisherHistory.narrow, 0, refusing 7⟩ :=
    delivery_account (P := rehearsal) "sink" "rec" (.sink "rec") .empty PublisherHistory.narrow
      (by decide) (by decide) _ rfl 0 (refusing 7) rfl refusals
  exact ⟨rfl, h, h.ends (le_of_eq WaitGrowth.standard_factor.symm)⟩

def steep : Delivery := { Delivery.standard with backoff := BackoffSchedule.steep }

def waiting : State rehearsal :=
  step ⟨made steep, 0, refusing 1⟩ (.put [.ofType (.parse "load/one") ""])

/-- A drain takes a batch that the sink does not accept, and no failure is
counted. -/
theorem drained_batch_lost :
    Service.create (P := observed rehearsal) "sink" "rec" (.sink "rec") .empty steep =
      .ok (made steep) ∧
    0 < steep.backoff.initial ∧ steep.backoff.initial ≤ steep.backoff.cap ∧
    (Round.after ⟨waiting, fun _ => 0⟩).channel.queue = [] ∧
    ¬((Round.calls ⟨waiting, fun _ => 0⟩).countP Call.accepted = 1 ↔
      (Round.after ⟨waiting, fun _ => 0⟩).channel.failures = waiting.channel.failures) := by
  refine ⟨rfl, by decide, by decide, by decide +kernel, ?_⟩
  have hcalls : (Round.calls ⟨waiting, fun _ => 0⟩).countP Call.accepted = 0 := by decide +kernel
  have hfailures : (Round.after ⟨waiting, fun _ => 0⟩).channel.failures =
      waiting.channel.failures := by
    decide +kernel
  simp [hcalls, hfailures]

end Telemetry.DeliveryAccount
