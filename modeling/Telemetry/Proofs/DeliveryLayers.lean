import Telemetry.Config.Settings
import Telemetry.Proofs.WaitGrowth

/-!
# Delivery settings in two layers

Settings are checked as a whole, and what a target overrides is checked again
together with what it leaves as it is. Both checks refuse a first wait of zero
and one above the cap, so retrying under delivery settings that were made
without an error has waits that grow from a positive one.
-/

set_option autoImplicit false

namespace Telemetry.DeliveryLayers

variable {α β ε : Type}

theorem throw_eq (e : ε) : (throw e : Except ε α) = .error e := rfl

theorem error_bind (e : ε) (f : α → Except ε β) : (Except.error e >>= f) = .error e := rfl

theorem ok_bind (a : α) (f : α → Except ε β) : (Except.ok a >>= f) = f a := rfl

theorem checkIntervals_ok (initial cap : Span) :
    checkIntervals initial cap = .ok () ↔ 0 < initial ∧ initial ≤ cap := by
  unfold checkIntervals
  rw [Nat.pos_iff_ne_zero, ← Nat.not_lt, ← not_or]
  split
  · rename_i h
    simp [h]
  · rename_i h
    simp [h]

/-- Settings are accepted when the port and the queue are not zero, the waits
are in order and the level is one of those known. -/
theorem validate_ok (s : Settings) : s.validate = .ok () ↔
    s.apiPort ≠ 0 ∧ s.queueSize ≠ 0 ∧ checkIntervals s.initial s.cap = .ok () ∧
      (Log.Level.ofWord? s.logLevel).isSome = true := by
  unfold Settings.validate
  by_cases hport : s.apiPort = 0
  · simp [hport, throw_eq, error_bind]
  by_cases hqueue : s.queueSize = 0
  · simp [hport, hqueue, throw_eq, error_bind]
  cases hc : checkIntervals s.initial s.cap with
  | error e => simp [hport, hqueue, error_bind]
  | ok _ =>
    cases hl : Log.Level.ofWord? s.logLevel with
    | none => simp [hport, hqueue, throw_eq, ok_bind]
    | some l => simp [hport, hqueue, ok_bind, pure, Except.pure]

/-- Overrides are accepted when the queue is not set to zero, every time that is
given can be read, the resulting waits are in order and the resulting budget is
not zero. -/
theorem override_ok (d e : Delivery) (o : DeliveryOverrides) : d.override o = .ok e ↔
    o.queueSize ≠ some 0 ∧ ∃ budget initial cap,
      overrideSpan o.budget d.backoff.budget = .ok budget ∧
      overrideSpan o.initial d.backoff.initial = .ok initial ∧
      overrideSpan o.cap d.backoff.cap = .ok cap ∧
      checkIntervals initial cap = .ok () ∧ budget ≠ 0 ∧
      e = ⟨o.queueSize.getD d.queueSize, max 1 (o.batchSize.getD d.batchSize),
        ⟨initial, cap, d.backoff.multiplier, budget⟩, d.idle⟩ := by
  unfold Delivery.override
  by_cases hqueue : o.queueSize = some 0
  · simp [hqueue, throw_eq, error_bind]
  cases overrideSpan o.budget d.backoff.budget with
  | error e => simp [hqueue, error_bind]
  | ok budget =>
    cases overrideSpan o.initial d.backoff.initial with
    | error e => simp [hqueue, ok_bind, error_bind]
    | ok initial =>
      cases overrideSpan o.cap d.backoff.cap with
      | error e => simp [hqueue, ok_bind, error_bind]
      | ok cap =>
        cases hc : checkIntervals initial cap with
        | error e => simp [hqueue, hc, ok_bind, error_bind]
        | ok _ =>
          by_cases hzero : budget = 0
          · simp [hqueue, hc, hzero, throw_eq, ok_bind]
          · simp [hqueue, hc, hzero, ok_bind, pure, Except.pure, eq_comm]

structure Sound (p : BackoffPolicy) : Prop where
  positive : 0 < p.initial
  ordered : p.initial ≤ p.cap
  grows : 3 / 2 ≤ WaitGrowth.value (WaitGrowth.factor p.multiplier)

/-- Delivery settings made from accepted settings have a sound policy. -/
theorem delivery_sound {s : Settings} (hs : s.validate = .ok ())
    {overrides : Option DeliveryOverrides} {d : Delivery} (hd : s.delivery overrides = .ok d) :
    Sound d.backoff := by
  cases overrides with
  | none =>
    cases hd
    obtain ⟨_, _, hc, _⟩ := (validate_ok s).mp hs
    obtain ⟨hpos, hcap⟩ := (checkIntervals_ok _ _).mp hc
    exact ⟨hpos, hcap, WaitGrowth.standard_factor.ge⟩
  | some o =>
    obtain ⟨_, budget, initial, cap, _, _, _, hc, _, rfl⟩ := (override_ok _ d o).mp hd
    obtain ⟨hpos, hcap⟩ := (checkIntervals_ok _ _).mp hc
    exact ⟨hpos, hcap, WaitGrowth.standard_factor.ge⟩

end Telemetry.DeliveryLayers
