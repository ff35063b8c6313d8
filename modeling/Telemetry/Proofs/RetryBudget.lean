import Mathlib
import Telemetry.Proofs.DeliveryLayers

/-!
# The budget bounds the attempts

No wait of a sound policy is shorter than its first one. So every wait granted
takes the first wait at least out of the budget. However an operation answers,
and however long it takes, it is attempted once, and then no more often than
the first wait goes into the budget.
-/

set_option autoImplicit false

namespace Telemetry.RetryBudget

open BackoffSchedule DeliveryLayers WaitGrowth

structure Call where
  start : Span
  finish : Span
  deriving DecidableEq

variable {σ α ε : Type}

def timed (op : Span → σ → Except ε α × Span × σ) (clock : Span) (s : σ × List Call) :
    Except ε α × Span × σ × List Call :=
  ((op clock s.1).1, (op clock s.1).2.1, (op clock s.1).2.2,
    s.2 ++ [⟨clock, (op clock s.1).2.1⟩])

def Spaced (p : BackoffPolicy) : List Call → Prop :=
  List.IsChain fun a b => a.finish + p.initial ≤ b.start

structure Paced (p : BackoffPolicy) (started clock : Span) (calls : List Call) : Prop where
  spaced : Spaced p calls
  rested : ∀ c ∈ calls.getLast?, c.finish + p.initial ≤ clock
  passed : started + calls.length * p.initial ≤ clock
  afforded : calls.length * p.initial ≤ p.budget

theorem spaced_append {p : BackoffPolicy} {started clock : Span} {calls : List Call}
    (h : Paced p started clock calls) (now : Span) : Spaced p (calls ++ [⟨clock, now⟩]) :=
  List.isChain_append.mpr ⟨h.spaced, .singleton _, fun c hc d hd => by
    cases hd
    exact h.rested c hc⟩

theorem paced_append {p : BackoffPolicy} {started clock now w : Span} {calls : List Call}
    (h : Paced p started clock calls) (hnow : clock ≤ now) (hw : p.initial ≤ w)
    (hfit : now - started + w ≤ p.budget) :
    Paced p started (now + w) (calls ++ [⟨clock, now⟩]) := by
  obtain ⟨hpassed, hafforded⟩ := wait_fits h.passed hnow hw hfit
  refine ⟨spaced_append h now, ?_, ?_, ?_⟩
  · intro c hc
    rw [List.getLast?_concat] at hc
    cases hc
    exact Nat.add_le_add_left hw now
  · rwa [List.length_append, List.length_singleton]
  · rwa [List.length_append, List.length_singleton]

theorem afforded_count {p : BackoffPolicy} (hpos : 0 < p.initial) {started clock : Span}
    {calls : List Call} (h : Paced p started clock calls) :
    calls.length ≤ p.budget / p.initial :=
  (Nat.le_div_iff_mul_le hpos).mpr h.afforded

structure Frugal (p : BackoffPolicy) (calls : List Call) : Prop where
  few : calls.length ≤ 1 + p.budget / p.initial
  spaced : Spaced p calls

theorem frugal_append {p : BackoffPolicy} (hpos : 0 < p.initial) {started clock : Span}
    {calls : List Call} (h : Paced p started clock calls) (now : Span) :
    Frugal p (calls ++ [⟨clock, now⟩]) := by
  refine ⟨?_, spaced_append h now⟩
  rw [List.length_append, List.length_singleton, Nat.add_comm]
  exact Nat.add_le_add_left (afforded_count hpos h) 1

/-- Whatever an operation answers, each further call has been paid for by a
wait. -/
theorem run_frugal (op : Span → σ → Except ε α × Span × σ)
    (hop : ∀ clock s, clock ≤ (op clock s).2.1) (p : BackoffPolicy) (hp : Sound p) (fuel : ℕ)
    (current : Span) (told : ℕ) (started clock : Span) (s : σ) (calls : List Call)
    (hw : p.initial ≤ current) (h : Paced p started clock calls) :
    Frugal p (Retry.run (timed op) fuel ⟨⟨p, current⟩, told, started⟩ clock (s, calls)).2.2.2 := by
  -- kept by every wait: the calls so far are spaced, and their waits fit the budget
  induction fuel generalizing current told clock s calls with
  | zero => exact ⟨(afforded_count hp.positive h).trans (Nat.le_add_left _ 1), h.spaced⟩
  | succ fuel ih =>
    have hnow := hop clock s
    have hlast := frugal_append hp.positive h (op clock s).2.1
    cases ho : (op clock s).1 with
    | ok v => simpa [Retry.run, timed, ho] using hlast
    | error e =>
      rcases failed_cases ⟨⟨p, current⟩, told, started⟩ (op clock s).2.1 with
        ⟨hr, hfit, _⟩ | ⟨hr, _⟩ | ⟨hr, _⟩
      · simp only [Retry.run, timed, ho, hr]
        exact ih _ _ _ _ _ (grow_ge p current hp.ordered hp.grows hw) (paced_append h hnow hw hfit)
      · simpa [Retry.run, timed, ho, hr] using hlast
      · simpa [Retry.run, timed, ho, hr] using hlast

/-- Retrying is cut short only when, at the end of the last call, a length
overflows. -/
theorem run_overflow (op : Span → σ → Except ε α × Span × σ) (p : BackoffPolicy) (fuel : ℕ)
    (current : Span) (told : ℕ) (started clock : Span) (s : σ) (calls : List Call)
    (h : (Retry.run (timed op) fuel ⟨⟨p, current⟩, told, started⟩ clock (s, calls)).1 =
      .overflow) :
    ∃ w, ∃ c ∈ (Retry.run (timed op) fuel ⟨⟨p, current⟩, told, started⟩ clock
      (s, calls)).2.2.2.getLast?, Overflows p w (c.finish - started) := by
  induction fuel generalizing current told clock s calls with
  | zero => cases h
  | succ fuel ih =>
    cases ho : (op clock s).1 with
    | ok v => simp [Retry.run, timed, ho] at h
    | error e =>
      rcases failed_cases ⟨⟨p, current⟩, told, started⟩ (op clock s).2.1 with
        ⟨hr, _⟩ | ⟨hr, _⟩ | ⟨hr, hover⟩
      · simp only [Retry.run, timed, ho, hr] at h ⊢
        exact ih _ _ _ _ _ h
      · simp [Retry.run, timed, ho, hr] at h
      · simp only [Retry.run, timed, ho, hr]
        exact ⟨current, _, List.getLast?_concat, hover⟩

/-- Retrying under delivery settings ends, whatever the operation answers and
however long it takes. It is called again only after the first wait at least,
so no more often than the first wait goes into the budget. It ends without an
answer only when a length overflows. -/
theorem attempts_bounded (s : Settings) (hs : s.validate = .ok ())
    (overrides : Option DeliveryOverrides) (d : Delivery) (hd : s.delivery overrides = .ok d)
    (op : Span → σ → Except ε α × Span × σ) (hop : ∀ clock s, clock ≤ (op clock s).2.1)
    (clock : Span) (start : σ) :
    0 < d.backoff.initial ∧
    (Retry.perform d.backoff (timed op) clock (start, [])).1 ≠ .unfinished ∧
    ((Retry.perform d.backoff (timed op) clock (start, [])).1 = .overflow →
      ∃ w, ∃ c ∈ (Retry.perform d.backoff (timed op) clock (start, [])).2.2.2.getLast?,
        Overflows d.backoff w (c.finish - clock)) ∧
    Frugal d.backoff (Retry.perform d.backoff (timed op) clock (start, [])).2.2.2 := by
  have hp := delivery_sound hs hd
  refine ⟨hp.positive, ?_, ?_, ?_⟩
  · exact perform_ends (timed op) (fun clock s => hop clock s.1) d.backoff hp.positive hp.ordered
      hp.grows clock (start, [])
  · exact run_overflow op d.backoff _ _ _ clock clock start []
  · exact run_frugal op hop d.backoff hp _ _ _ clock clock start [] (Nat.le_refl _)
      ⟨.nil, by simp, by simp, by simp⟩

def tightened : DeliveryOverrides :=
  { DeliveryOverrides.none with budget := some "20s", initial := some "1s", cap := some "5s" }

def tightenedDelivery : Delivery where
  queueSize := 100
  batchSize := 10
  backoff := ⟨Span.ofSeconds 1, Span.ofSeconds 5, 1.5, Span.ofSeconds 20⟩
  idle := Span.ofSeconds 1

def refusing (clock : Span) (calls : ℕ) : Except String Unit × Span × ℕ :=
  (.error "unavailable", clock + Span.ofSeconds 1, calls + 1)

theorem attempts_bounded_refusing :
    Settings.standard.validate = .ok () ∧
    Settings.standard.delivery (some tightened) = .ok tightenedDelivery ∧
    (∀ clock calls, clock ≤ (refusing clock calls).2.1) ∧
    Frugal tightenedDelivery.backoff
      (Retry.perform tightenedDelivery.backoff (timed refusing) 0 (0, [])).2.2.2 ∧
    (Retry.perform tightenedDelivery.backoff (timed refusing) 0 (0, [])).2.2.2.length = 6 := by
  have hs : Settings.standard.validate = .ok () :=
    (validate_ok _).mpr
      ⟨by decide, by decide, (checkIntervals_ok _ _).mpr (by decide), by decide⟩
  have hbudget : ∀ s, overrideSpan (some "20s") s = .ok (Span.ofSeconds 20) := fun s => by cbv
  have hinitial : ∀ s, overrideSpan (some "1s") s = .ok (Span.ofSeconds 1) := fun s => by cbv
  have hcap : ∀ s, overrideSpan (some "5s") s = .ok (Span.ofSeconds 5) := fun s => by cbv
  have hd : Settings.standard.delivery (some tightened) = .ok tightenedDelivery :=
    (override_ok Settings.standard.baseDelivery _ tightened).mpr ⟨by decide, _, _, _, hbudget _,
      hinitial _, hcap _, (checkIntervals_ok _ _).mpr (by decide), by decide, rfl⟩
  have hop : ∀ clock calls, clock ≤ (refusing clock calls).2.1 := fun _ _ => Nat.le_add_right _ _
  obtain ⟨_, _, _, h⟩ :=
    attempts_bounded Settings.standard hs (some tightened) tightenedDelivery hd refusing hop 0 0
  exact ⟨hs, hd, hop, h, by decide +kernel⟩

end Telemetry.RetryBudget
