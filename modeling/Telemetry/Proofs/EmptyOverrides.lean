import Telemetry.Proofs.BuildIsolation
import Telemetry.Proofs.DeliveryLayers

/-!
# Overrides that override nothing

A publish target may have an empty object of overrides. Its delivery settings
are then those of the agent, as without the object, but they are checked once
more. The waits have passed that check with the settings; a retry budget of zero
has not been looked at, and is refused only here.
-/

set_option autoImplicit false

namespace Telemetry.EmptyOverrides

open DeliveryLayers (ok_bind validate_ok)
open BuildIsolation (Unservable)
open Registry (buildService)

def refusedBudget : ConfigError := .invalid "maxElapsedTime must be greater than 0"

/-- Of settings whose waits are in order, only the budget can be refused. -/
theorem override_none {d : Delivery} (hbatch : 1 ≤ d.batchSize)
    (hwaits : checkIntervals d.backoff.initial d.backoff.cap = .ok ()) :
    d.override .none = if d.backoff.budget = 0 then .error refusedBudget else .ok d := by
  unfold Delivery.override
  simp only [DeliveryOverrides.none, overrideSpan, ok_bind, hwaits, reduceCtorEq, if_false]
  split
  · rfl
  · simp [Nat.max_eq_right hbatch, pure, Except.pure]

theorem delivery_none {s : Settings} (hs : s.validate = .ok ()) :
    s.delivery (some .none) =
      if s.budget = 0 then .error refusedBudget else s.delivery none := by
  obtain ⟨-, -, hwaits, -⟩ := (validate_ok s).mp hs
  exact override_none (d := s.baseDelivery) (Nat.le_max_left _ _) hwaits

section Documents

variable {names : List String} {name : String} {before after : List (String × Json)} {j : Json}

theorem named_other {other : String} (h : other ≠ name) :
    Json.named other (before ++ (name, j) :: after) = Json.named other (before ++ after) := by
  simp [Json.named, Ne.symm h]

theorem named_given (h : Json.named name (before ++ after) = []) :
    Json.named name (before ++ (name, j) :: after) = [j] := by
  simp only [Json.named, List.filter_append, List.map_append, List.append_eq_nil_iff] at h
  simp [Json.named, h.1, h.2]

theorem knownFields_given (hfresh : name ∉ names) (h : Json.named name (before ++ after) = []) :
    Json.knownFields (before ++ (name, j) :: after) (names ++ [name]) =
      (Json.knownFields (before ++ after) (names ++ [name])).map (· ++ [(name, j)]) := by
  induction names with
  | nil => simp [Json.knownFields, named_given h, h]
  | cons other names ih =>
    rw [List.mem_cons, not_or] at hfresh
    rw [List.cons_append, Json.knownFields, Json.knownFields, named_other (Ne.symm hfresh.1),
      ih hfresh.2]
    cases Json.named other (before ++ after) with
    | nil => cases Json.knownFields (before ++ after) (names ++ [name]) <;> rfl
    | cons x xs =>
      cases xs <;> cases Json.knownFields (before ++ after) (names ++ [name]) <;> rfl

theorem knownFields_absent {members fields : List (String × Json)}
    (h : Json.named name members = []) (hread : Json.knownFields members names = some fields) :
    fields.lookup name = none := by
  induction names generalizing fields with
  | nil =>
    cases hread
    rfl
  | cons other names ih =>
    rw [Json.knownFields] at hread
    split at hread
    · rename_i rest _ hrest
      cases hread
      exact ih hrest
    · rename_i x rest hx hrest
      cases hread
      have hother : (name == other) = false := by
        rw [beq_eq_false_iff_ne]
        rintro rfl
        rw [h] at hx
        cases hx
      rw [List.lookup_cons, hother]
      exact ih hrest
    · cases hread

end Documents

def withEmpty (before after : List (String × Json)) : Json :=
  .object (before ++ ("delivery", .object []) :: after)

/-- A target reads as it does without empty overrides, apart from them. -/
theorem target_read {before after : List (String × Json)}
    (h : Json.named "delivery" (before ++ after) = []) :
    (∀ d, PublishDefinition.ofJson (.object (before ++ after)) = some d → d.delivery = none) ∧
    PublishDefinition.ofJson (withEmpty before after) =
      (PublishDefinition.ofJson (.object (before ++ after))).map
        fun d => { d with delivery := some .none } := by
  have hfresh : "delivery" ∉ ["id", "plugin", "config"] := by decide
  have hgiven := knownFields_given (j := .object []) hfresh h
  unfold PublishDefinition.ofJson withEmpty
  simp only [Json.asRecord]
  rw [show ["id", "plugin", "config", "delivery"] = ["id", "plugin", "config"] ++ ["delivery"]
    from rfl, hgiven]
  cases hread : Json.knownFields (before ++ after) (["id", "plugin", "config"] ++ ["delivery"]) with
  | none => simp
  | some fields =>
    have habsent := knownFields_absent h hread
    have hempty : (fields ++ [("delivery", Json.object [])]).lookup "delivery" =
        some (.object []) := by
      rw [List.lookup_append, habsent]
      rfl
    have hother : ∀ name, (name == "delivery") = false →
        (fields ++ [("delivery", Json.object [])]).lookup name = fields.lookup name := by
      intro name hname
      rw [List.lookup_append, List.lookup_cons, hname, List.lookup_nil, Option.or_none]
    have hoverrides : Json.nullable DeliveryOverrides.ofJson (.object []) = some (some .none) := rfl
    simp only [Option.map_some, Option.bind_eq_bind, Option.bind_some, readConfig,
      Json.Record.required, Json.Record.withDefault, Json.Record.get?, habsent, hempty, hoverrides,
      hother "id" rfl, hother "plugin" rfl, hother "config" rfl]
    generalize (fields.lookup "id").bind Json.asString = id
    generalize (fields.lookup "plugin").bind Json.asString = plugin
    cases id with
    | none => simp
    | some id =>
      cases plugin with
      | none => simp
      | some plugin =>
        split
        · exact ⟨fun d hd => by cases hd; rfl, rfl⟩
        · rename_i j _
          cases PluginConfig.ofJson publishConfigDepth j with
          | none => simp
          | some config => exact ⟨fun d hd => by cases hd; rfl, rfl⟩

section Targets

variable {P : Platform} {s : Settings} {d : PublishDefinition}

theorem service_created (hs : s.validate = .ok ()) (id plugin : String) (publisher : P.Publisher)
    (config : PluginConfig) :
    ∃ service, Service.create id plugin publisher config s.baseDelivery = .ok service := by
  obtain ⟨-, hqueue, -⟩ := (validate_ok s).mp hs
  exact ⟨_, if_neg hqueue⟩

/-- A target without overrides is built unless its plugin is unknown. -/
theorem plain_unservable (hs : s.validate = .ok ()) (hd : d.delivery = none) :
    Unservable P s d ↔ ∃ e, P.publisher d.plugin = .error e := by
  unfold Unservable buildService
  rw [hd]
  cases P.publisher d.plugin with
  | error e => simp
  | ok publisher =>
    obtain ⟨service, hservice⟩ := service_created hs d.id d.plugin publisher d.config
    simp [Settings.delivery, hservice]

theorem empty_same (hs : s.validate = .ok ()) (hd : d.delivery = none) (hb : s.budget ≠ 0) :
    buildService (P := P) s { d with delivery := some .none } = buildService s d := by
  have hsame : s.delivery (some .none) = s.delivery d.delivery := by
    rw [delivery_none hs, if_neg hb, hd]
  unfold buildService
  rw [hsame]

theorem empty_unservable (hs : s.validate = .ok ()) (hb : s.budget = 0) :
    Unservable P s { d with delivery := some .none } := by
  unfold Unservable buildService
  rw [delivery_none hs, if_pos hb]
  cases P.publisher d.plugin <;> simp

end Targets

/-- For accepted settings, overrides that override nothing are as good as none
exactly when the retry budget is not zero. If it is zero, the settings of a
target without overrides are made and those with empty ones refused, and so
are the targets themselves. -/
theorem empty_overrides {s : Settings} (hs : s.validate = .ok ()) :
    (s.delivery (some .none) = s.delivery none ↔ s.budget ≠ 0) ∧
    (s.budget = 0 → (∃ d, s.delivery none = .ok d) ∧
      s.delivery (some .none) = .error refusedBudget) ∧
    ∀ (P : Platform) (before after : List (String × Json)) (d : PublishDefinition),
      Json.named "delivery" (before ++ after) = [] →
      PublishDefinition.ofJson (.object (before ++ after)) = some d →
      ∃ e, PublishDefinition.ofJson (withEmpty before after) = some e ∧
        (s.budget ≠ 0 → buildService (P := P) s e = buildService s d) ∧
        (s.budget = 0 → Unservable P s e ∧
          (Unservable P s d ↔ ∃ error, P.publisher d.plugin = .error error)) := by
  refine ⟨?_, fun hb => ⟨⟨_, rfl⟩, ?_⟩, fun P before after d hnamed hd => ?_⟩
  · rw [delivery_none hs]
    by_cases hb : s.budget = 0
    · simp [hb, Settings.delivery]
    · simp [hb]
  · rw [delivery_none hs, if_pos hb]
  · obtain ⟨hplain, hread⟩ := target_read hnamed
    rw [hd] at hread
    exact ⟨_, hread, empty_same hs (hplain d hd), fun hb =>
      ⟨empty_unservable hs hb, plain_unservable hs (hplain d hd)⟩⟩

def unbudgeted : Settings := { Settings.standard with budget := 0 }

def sinkMembers : List (String × Json) := [("id", .string "sink"), ("plugin", .string "rec")]

theorem standard_accepted : Settings.standard.validate = .ok () := by
  decide +kernel

theorem unbudgeted_accepted : unbudgeted.validate = .ok () := by
  decide +kernel

theorem empty_overrides_sink :
    Settings.standard.validate = .ok () ∧
    Settings.standard.delivery (some .none) = Settings.standard.delivery none ∧
    unbudgeted.validate = .ok () ∧
    ∃ d e, PublishDefinition.ofJson (.object sinkMembers) = some d ∧
      PublishDefinition.ofJson (withEmpty sinkMembers []) = some e ∧
      buildService (P := rehearsal) .standard e = buildService .standard d ∧
      Unservable rehearsal unbudgeted e ∧ ¬Unservable rehearsal unbudgeted d := by
  obtain ⟨hsame, -, htargets⟩ := empty_overrides standard_accepted
  obtain ⟨-, -, hbare⟩ := empty_overrides unbudgeted_accepted
  have hnamed : Json.named "delivery" (sinkMembers ++ []) = [] := rfl
  have hd : PublishDefinition.ofJson (.object (sinkMembers ++ [])) =
      some ⟨"sink", "rec", .empty, none⟩ := rfl
  obtain ⟨e, he, hbuilt, -⟩ := htargets rehearsal sinkMembers [] _ hnamed hd
  obtain ⟨e', he', -, hzero⟩ := hbare rehearsal sinkMembers [] _ hnamed hd
  rw [he] at he'
  cases he'
  obtain ⟨hrefused, hplain⟩ := hzero rfl
  refine ⟨standard_accepted, hsame.mpr (by decide), unbudgeted_accepted, _, e, hd, he,
    hbuilt (by decide), hrefused, fun h => ?_⟩
  obtain ⟨error, herror⟩ := hplain.mp h
  cases herror

/-- Settings that are accepted, and overrides that override nothing refused. -/
theorem zero_budget_refused :
    unbudgeted.validate = .ok () ∧ (∃ d, unbudgeted.delivery none = .ok d) ∧
      unbudgeted.delivery (some .none) = .error refusedBudget :=
  ⟨unbudgeted_accepted, ⟨_, rfl⟩, by decide +kernel⟩

end Telemetry.EmptyOverrides
