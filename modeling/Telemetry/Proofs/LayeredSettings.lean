import Telemetry.Proofs.DeliveryLayers
import Telemetry.Publisher.Service

/-!
# What a target's settings come to

Every field of the delivery settings of a target is what the target gives or,
if it gives nothing, what the agent has. The values are checked only after they
have been put together, so two layers that are each in order can be refused
together, and an override can mend a budget of the agent that would be refused.
-/

set_option autoImplicit false

namespace Telemetry.LayeredSettings

open DeliveryLayers (override_ok validate_ok checkIntervals_ok)

theorem error_iff {α ε : Type} (x : Except ε α) : (∃ e, x = .error e) ↔ ¬∃ a, x = .ok a := by
  cases x <;> simp

def Resulting (given : Option String) (before result : Span) : Prop :=
  match given with
  | some text => Span.parse text = .ok result
  | none => result = before

def Unreadable (given : Option String) : Prop :=
  ∃ text, given = some text ∧ ∃ e, Span.parse text = .error e

theorem overrideSpan_ok (given : Option String) (before result : Span) :
    overrideSpan given before = .ok result ↔ Resulting given before result := by
  cases given with
  | none => simp [overrideSpan, Resulting, eq_comm]
  | some text =>
    rw [overrideSpan, parseSpan, Resulting]
    cases Span.parse text <;> simp [Except.mapError]

theorem resulting_unique {given : Option String} {before result other : Span}
    (h : Resulting given before result) (h' : Resulting given before other) : result = other := by
  rw [← overrideSpan_ok] at h h'
  exact Except.ok.inj (h.symm.trans h')

theorem unreadable_iff (given : Option String) (before : Span) :
    Unreadable given ↔ ¬∃ result, Resulting given before result := by
  cases given with
  | none => simp [Unreadable, Resulting]
  | some text => simp [Unreadable, Resulting, error_iff]

/-- Delivery settings whose fields are those given or, if they are not, those of
the agent, and which are fit for a publisher. -/
structure Layered (s : Settings) (o : DeliveryOverrides) (d : Delivery) : Prop where
  queue_positive : 1 ≤ d.queueSize
  batch_positive : 1 ≤ d.batchSize
  initial_positive : 0 < d.backoff.initial
  initial_le : d.backoff.initial ≤ d.backoff.cap
  queueSize : d.queueSize = o.queueSize.getD s.queueSize
  batchSize : d.batchSize = max 1 (o.batchSize.getD s.batchSize)
  budget : Resulting o.budget s.budget d.backoff.budget
  initial : Resulting o.initial s.initial d.backoff.initial
  cap : Resulting o.cap s.cap d.backoff.cap
  multiplier : d.backoff.multiplier = BackoffPolicy.standard.multiplier
  idle : d.idle = s.idle

inductive Refused (s : Settings) (o : DeliveryOverrides) : Prop
  | queue (h : o.queueSize = some 0)
  | budgetText (h : Unreadable o.budget)
  | initialText (h : Unreadable o.initial)
  | capText (h : Unreadable o.cap)
  | intervals (initial cap : Span) (hinitial : Resulting o.initial s.initial initial)
      (hcap : Resulting o.cap s.cap cap) (h : initial = 0 ∨ cap < initial)
  | budget (h : Resulting o.budget s.budget 0)

theorem base_layered {s : Settings} (hs : s.validate = .ok ()) :
    Layered s .none s.baseDelivery := by
  obtain ⟨-, hqueue, hc, -⟩ := (validate_ok s).mp hs
  obtain ⟨hpos, hle⟩ := (checkIntervals_ok _ _).mp hc
  exact ⟨Nat.pos_of_ne_zero hqueue, Nat.le_max_left _ _, hpos, hle, rfl, rfl, rfl, rfl, rfl, rfl, rfl⟩

theorem override_layered {s : Settings} (hs : s.validate = .ok ()) {o : DeliveryOverrides}
    {d : Delivery} (h : s.baseDelivery.override o = .ok d) : Layered s o d := by
  obtain ⟨hqueue, budget, initial, cap, hbudget, hinitial, hcap, hc, -, rfl⟩ :=
    (override_ok _ d o).mp h
  rw [overrideSpan_ok] at hbudget hinitial hcap
  obtain ⟨hpos, hle⟩ := (checkIntervals_ok _ _).mp hc
  have hbase := base_layered hs
  refine ⟨?_, Nat.le_max_left _ _, hpos, hle, rfl, ?_, hbudget, hinitial, hcap, rfl, rfl⟩
  · cases hgiven : o.queueSize with
    | none => exact hbase.queue_positive
    | some n => exact Nat.pos_of_ne_zero fun hzero => hqueue (hgiven.trans (congrArg some hzero))
  · -- The agent's size is at least one already when it is taken over.
    cases o.batchSize with
    | none => exact Nat.max_eq_right hbase.batch_positive
    | some n => rfl

theorem override_accepted (s : Settings) (o : DeliveryOverrides) :
    (∃ d, s.baseDelivery.override o = .ok d) ↔
      o.queueSize ≠ some 0 ∧ ∃ budget initial cap, Resulting o.budget s.budget budget ∧
        Resulting o.initial s.initial initial ∧ Resulting o.cap s.cap cap ∧
        (0 < initial ∧ initial ≤ cap) ∧ budget ≠ 0 := by
  simp only [override_ok, overrideSpan_ok, checkIntervals_ok]
  constructor
  · rintro ⟨d, hqueue, budget, initial, cap, hbudget, hinitial, hcap, hordered, hzero, -⟩
    exact ⟨hqueue, budget, initial, cap, hbudget, hinitial, hcap, hordered, hzero⟩
  · rintro ⟨hqueue, budget, initial, cap, hbudget, hinitial, hcap, hordered, hzero⟩
    exact ⟨_, hqueue, budget, initial, cap, hbudget, hinitial, hcap, hordered, hzero, rfl⟩

/-- Overrides are refused for one of the reasons there are, and only then. -/
theorem override_refused (s : Settings) (o : DeliveryOverrides) :
    (∃ e, s.baseDelivery.override o = .error e) ↔ Refused s o := by
  rw [error_iff, override_accepted]
  constructor
  · intro hnone
    by_contra hno
    have hread : ∀ given before, ¬Unreadable given → ∃ result, Resulting given before result :=
      fun given before h => not_not.mp (mt (unreadable_iff given before).mpr h)
    obtain ⟨budget, hbudget⟩ := hread o.budget s.budget fun h => hno (.budgetText h)
    obtain ⟨initial, hinitial⟩ := hread o.initial s.initial fun h => hno (.initialText h)
    obtain ⟨cap, hcap⟩ := hread o.cap s.cap fun h => hno (.capText h)
    have hordered : ¬(initial = 0 ∨ cap < initial) :=
      fun h => hno (.intervals initial cap hinitial hcap h)
    refine hnone ⟨fun h => hno (.queue h), budget, initial, cap, hbudget, hinitial, hcap, ?_, ?_⟩
    · exact ⟨Nat.pos_of_ne_zero fun h => hordered (Or.inl h),
        Nat.le_of_not_lt fun h => hordered (Or.inr h)⟩
    · rintro rfl
      exact hno (.budget hbudget)
  · rintro hrefused ⟨hqueue, budget, initial, cap, hbudget, hinitial, hcap, ⟨hpos, hle⟩, hzero⟩
    cases hrefused with
    | queue h => exact hqueue h
    | budgetText h => exact (unreadable_iff _ _).mp h ⟨budget, hbudget⟩
    | initialText h => exact (unreadable_iff _ _).mp h ⟨initial, hinitial⟩
    | capText h => exact (unreadable_iff _ _).mp h ⟨cap, hcap⟩
    | intervals initial' cap' hinitial' hcap' h =>
      rw [resulting_unique hinitial' hinitial, resulting_unique hcap' hcap] at h
      exact h.elim (Nat.ne_of_gt hpos) (Nat.not_lt_of_le hle)
    | budget h => exact hzero (resulting_unique hbudget h)

/-- Delivery settings made from accepted settings have every field as it is
given, or else as the agent has it, and a publisher can be made with them; and
they cannot be made only if there are overrides that are refused. -/
theorem delivery_layers {s : Settings} (hs : s.validate = .ok ())
    (overrides : Option DeliveryOverrides) :
    (∀ d, s.delivery overrides = .ok d →
      Layered s (overrides.getD .none) d ∧
      ∀ (P : Platform) id plugin (publisher : P.Publisher) config,
        Service.create id plugin publisher config d =
          .ok ⟨id, plugin, publisher, config, d, .create d.queueSize⟩) ∧
    ((∃ e, s.delivery overrides = .error e) ↔ ∃ o, overrides = some o ∧ Refused s o) := by
  constructor
  · intro d hd
    have hlayered : Layered s (overrides.getD .none) d := by
      cases overrides with
      | none =>
        cases hd
        exact base_layered hs
      | some o => exact override_layered hs hd
    refine ⟨hlayered, fun P id plugin publisher config => ?_⟩
    rw [Service.create, if_neg (Nat.ne_of_gt hlayered.queue_positive)]
  · cases overrides with
    | none => simp [Settings.delivery]
    | some o => simp [Settings.delivery, override_refused]

def brisk : DeliveryOverrides :=
  ⟨some 5, some 0, some "30s", none, none⟩

def reluctant : DeliveryOverrides :=
  ⟨none, none, none, some "2min", none⟩

theorem delivery_layers_standard :
    Settings.standard.validate = .ok () ∧
    (∃ d, Settings.standard.delivery (some brisk) = .ok d ∧ Layered .standard brisk d ∧
      d.batchSize = 1 ∧ d.backoff.budget = Span.ofSeconds 30) ∧
    ∃ e, Settings.standard.delivery (some reluctant) = .error e := by
  have hs : Settings.standard.validate = .ok () := by
    decide +kernel
  have hbrisk : Settings.standard.delivery (some brisk) = .ok
      ⟨5, 1, { BackoffPolicy.standard with budget := Span.ofSeconds 30 }, Span.ofSeconds 1⟩ := by
    decide +kernel
  have hinitial : Resulting reluctant.initial Settings.standard.initial (Span.ofSeconds 120) := by
    rfl
  refine ⟨hs, ⟨_, hbrisk, ((delivery_layers hs (some brisk)).1 _ hbrisk).1, rfl, rfl⟩, ?_⟩
  refine (delivery_layers hs (some reluctant)).2.mpr ⟨reluctant, rfl, ?_⟩
  exact .intervals _ Settings.standard.cap hinitial rfl (Or.inr (by decide))

end Telemetry.LayeredSettings
