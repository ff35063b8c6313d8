import Telemetry.Proofs.BackoffSchedule
import Telemetry.Proofs.DeliveryLayers
import Telemetry.Proofs.DoubleOrder
import Telemetry.Proofs.LayeredSettings
import Telemetry.Proofs.SpelledSpans

/-!
# Waits in range

A request for the next wait forms the time at which that wait would end, and
the wait after it before it is capped. Accepted settings may give any lengths
there are, and then neither of the two need be one. When requests come as soon
as the waits before them are over, or not much later, it is the budget that
decides: what was waited lies within the budget, and so does the wait that is
scaled.
-/

set_option autoImplicit false

namespace Telemetry.WaitRange

open Backoff BackoffSchedule
open DeliveryLayers (validate_ok checkIntervals_ok override_ok)
open DoubleOrder (scaleBy_mono)
open LayeredSettings (Resulting overrideSpan_ok)
open SpelledSpans (parse_bound exists_of_bind)

structure InRange (b : Backoff) (e : Span) : Prop where
  sum : e + b.current < Span.bound
  product : e + b.current ≤ b.policy.budget →
    b.current.scaleBy b.policy.multiplier < Span.bound
  answered : (b.ask e).1 ≠ .overflow

def AllInRange (b : Backoff) : List Span → Prop
  | [] => True
  | e :: times => InRange b e ∧ AllInRange (b.ask e).2 times

/-- Requests each of which comes when the waits granted before it have been
waited, and at most `slack` later. -/
def Punctual (slack : Span) (b : Backoff) (waited : Span) : List Span → Prop
  | [] => True
  | e :: times => waited ≤ e ∧ e ≤ waited + slack ∧
      Punctual slack (b.ask e).2 (waited + (grant (b.ask e).1).getD 0) times

instance instDecidablePunctual (slack : Span) :
    ∀ b waited times, Decidable (Punctual slack b waited times)
  | _, _, [] => .isTrue trivial
  | b, waited, e :: times =>
    have := instDecidablePunctual slack (b.ask e).2 (waited + (grant (b.ask e).1).getD 0) times
    inferInstanceAs (Decidable (waited ≤ e ∧ e ≤ waited + slack ∧ _))

theorem scales_standard (w : Span) :
    w.scales 1.5 = true ↔ w.scaleBy 1.5 < Span.bound := by
  have hnumber : (1.5 : Float).toBits.toNat % Decimal.signBit < Decimal.infinityBits := by decide
  have hpositive : (1.5 : Float).toBits.toNat % Decimal.signBit = (1.5 : Float).toBits.toNat := by
    decide
  rw [hpositive] at hnumber
  simp [Span.scales, hpositive, hnumber]

theorem not_overflows {p : BackoffPolicy} {w e : Span} (hm : p.multiplier = 1.5)
    (hsum : e + w < Span.bound)
    (hproduct : e + w ≤ p.budget → w.scaleBy p.multiplier < Span.bound) : ¬Overflows p w e := by
  rintro (hover | ⟨hfit, hscale⟩)
  · exact absurd hsum (Nat.not_lt.mpr hover)
  · have hlt := hproduct hfit
    rw [hm] at hlt hscale
    rw [(scales_standard w).mpr hlt] at hscale
    cases hscale

structure Lengths (s : Settings) : Prop where
  budget : s.budget < Span.bound
  initial : s.initial < Span.bound
  cap : s.cap < Span.bound
  idle : s.idle < Span.bound

theorem parseSpan_bound {text : String} {s : Span} (h : parseSpan text = .ok s) :
    s < Span.bound :=
  parse_bound ((overrideSpan_ok (some text) 0 s).mp h)

theorem field_bound {r : Json.Record} {name : String} {before s : Span} (hb : before < Span.bound)
    (h : r.withDefault name before Settings.readSpan = some s) : s < Span.bound := by
  unfold Json.Record.withDefault at h
  split at h
  · exact Option.some.inj h ▸ hb
  · obtain ⟨text, _, hread⟩ := Option.bind_eq_some_iff.mp h
    cases hparse : Span.parse text with
    | error e => simp [hparse, Except.toOption] at hread
    | ok r =>
      rw [hparse] at hread
      exact Option.some.inj hread ▸ parse_bound hparse

theorem variable_bound {lookup : String → Option String} {v : Settings.Variable} {before s : Span}
    (hb : before < Span.bound) (h : Settings.fromVariable lookup v before parseSpan = .ok s) :
    s < Span.bound := by
  unfold Settings.fromVariable at h
  split at h
  · exact parseSpan_bound h
  · exact Except.ok.inj h ▸ hb

theorem standard_lengths : Lengths Settings.standard :=
  ⟨by decide, by decide, by decide, by decide⟩

theorem parse_lengths {text : String} {s : Settings} (h : Settings.parse text = .ok s) :
    Lengths s := by
  unfold Settings.parse at h
  split at h
  · rename_i read hread
    cases h
    obtain ⟨j, _, hj⟩ := Option.bind_eq_some_iff.mp hread
    simp only [Settings.ofJson, Option.bind_eq_bind, Option.bind_eq_some_iff] at hj
    obtain ⟨r, _, _, _, _, _, _, _, _, _, budget, hbudget, initial, hinitial, cap, hcap, idle,
      hidle, _, _, hs⟩ := hj
    cases hs
    exact ⟨field_bound standard_lengths.budget hbudget,
      field_bound standard_lengths.initial hinitial, field_bound standard_lengths.cap hcap,
      field_bound standard_lengths.idle hidle⟩
  · cases h

theorem override_lengths {s t : Settings} {lookup : String → Option String} (hs : Lengths s)
    (h : s.override lookup = .ok t) : Lengths t := by
  unfold Settings.override at h
  obtain ⟨_, _, h⟩ := exists_of_bind h
  obtain ⟨_, _, h⟩ := exists_of_bind h
  obtain ⟨_, _, h⟩ := exists_of_bind h
  obtain ⟨_, _, h⟩ := exists_of_bind h
  obtain ⟨budget, hbudget, h⟩ := exists_of_bind h
  obtain ⟨initial, hinitial, h⟩ := exists_of_bind h
  obtain ⟨cap, hcap, h⟩ := exists_of_bind h
  obtain ⟨_, _, h⟩ := exists_of_bind h
  cases h
  exact ⟨variable_bound hs.budget hbudget, variable_bound hs.initial hinitial,
    variable_bound hs.cap hcap, hs.idle⟩

/-- The times of settings that are loaded are lengths, which is all that is
supposed of them below. -/
theorem loaded_lengths {files : FileTree} {path : Option String}
    {lookup : String → Option String} {s : Settings}
    (h : Settings.load files path lookup = .ok s) : Lengths s := by
  have hlater (base : Settings) (hbase : Lengths base)
      (h : (do let s ← base.override lookup; s.validate; return s) = Except.ok s) :
      Lengths s := by
    obtain ⟨read, hread, h⟩ := exists_of_bind h
    obtain ⟨_, _, h⟩ := exists_of_bind h
    cases h
    exact override_lengths hbase hread
  cases path with
  | none => exact hlater _ standard_lengths h
  | some p =>
    obtain ⟨base, hbase, h⟩ := exists_of_bind h
    apply hlater base _ h
    unfold Settings.ofFile at hbase
    split at hbase
    · exact parse_lengths hbase
    · cases hbase

theorem delivery_multiplier {s : Settings} {overrides : Option DeliveryOverrides} {d : Delivery}
    (h : s.delivery overrides = .ok d) : d.backoff.multiplier = 1.5 := by
  cases overrides with
  | none =>
    cases h
    rfl
  | some o =>
    obtain ⟨_, _, _, _, _, _, _, _, _, rfl⟩ := (override_ok _ d o).mp h
    rfl

theorem resulting_bound {given : Option String} {before result : Span} (hb : before < Span.bound)
    (h : Resulting given before result) : result < Span.bound := by
  cases given with
  | none => exact h.trans_lt hb
  | some text => exact parse_bound h

theorem delivery_initial {s : Settings} (hs : Lengths s) {overrides : Option DeliveryOverrides}
    {d : Delivery} (h : s.delivery overrides = .ok d) : d.backoff.initial < Span.bound := by
  cases overrides with
  | none =>
    cases h
    exact hs.initial
  | some o =>
    obtain ⟨_, _, initial, _, _, hinitial, _, _, _, rfl⟩ := (override_ok _ d o).mp h
    exact resulting_bound hs.initial ((overrideSpan_ok _ _ _).mp hinitial)

def Room (slack budget : Span) : Prop :=
  slack + budget + budget.scaleBy 1.5 < Span.bound

theorem room_left {slack waited e w w' budget grown limit : ℕ} (he : waited ≤ e)
    (hfit : e + w ≤ budget) (hgrow : w' ≤ grown) (hroom : slack + budget + grown < limit) :
    waited + w + slack + w' < limit := by
  omega

section Room

variable {p : BackoffPolicy} {slack waited w e : Span}

theorem granted_fits (hroom : Room slack p.budget) (hm : p.multiplier = 1.5)
    (hfit : e + w ≤ p.budget) : w.scaleBy p.multiplier ≤ p.budget.scaleBy 1.5 := by
  have hw : w ≤ p.budget := (Nat.le_add_left w e).trans hfit
  have hbudget : p.budget ≤ slack + p.budget + p.budget.scaleBy 1.5 :=
    (Nat.le_add_left _ _).trans (Nat.le_add_right _ _)
  rw [hm]
  exact scaleBy_mono 1.5 hw (hbudget.trans_lt hroom)

theorem request_in_range (hroom : Room slack p.budget) (hm : p.multiplier = 1.5)
    (hw : waited + slack + w < Span.bound) (he : e ≤ waited + slack) : InRange ⟨p, w⟩ e := by
  have hsum : e + w < Span.bound := (Nat.add_le_add_right he w).trans_lt hw
  have hproduct (hfit : e + w ≤ p.budget) : w.scaleBy p.multiplier < Span.bound :=
    (granted_fits hroom hm hfit).trans_lt ((Nat.le_add_left _ _).trans_lt hroom)
  have hno := not_overflows hm hsum hproduct
  exact ⟨hsum, hproduct, fun hover => hno ((ask_answered p w e).overflow.mp hover)⟩

theorem request_room (hroom : Room slack p.budget) (hm : p.multiplier = 1.5)
    (hw : waited + slack + w < Span.bound) (he : waited ≤ e) :
    ∃ w', (ask ⟨p, w⟩ e).2 = ⟨p, w'⟩ ∧
      waited + (grant (ask ⟨p, w⟩ e).1).getD 0 + slack + w' < Span.bound := by
  rcases ask_cases p w e with ⟨ha, hfit, _⟩ | ⟨ha, _⟩ | ⟨ha, _⟩
  · refine ⟨p.grow w, by rw [ha], ?_⟩
    have hgrow : p.grow w ≤ w.scaleBy p.multiplier := Nat.min_le_left _ _
    rw [ha]
    exact room_left he hfit (hgrow.trans (granted_fits hroom hm hfit)) hroom
  · exact ⟨w, by rw [ha], by rw [ha]; exact hw⟩
  · exact ⟨w, by rw [ha], by rw [ha]; exact hw⟩

theorem run_in_range (hroom : Room slack p.budget) (hm : p.multiplier = 1.5) (times : List Span)
    (hw : waited + slack + w < Span.bound) (h : Punctual slack ⟨p, w⟩ waited times) :
    AllInRange ⟨p, w⟩ times := by
  induction times generalizing w waited with
  | nil => trivial
  | cons e times ih =>
    obtain ⟨hlow, hhigh, hlater⟩ := h
    obtain ⟨w', hstate, hnext⟩ := request_room hroom hm hw hlow
    refine ⟨request_in_range hroom hm hw hhigh, ?_⟩
    rw [hstate] at hlater ⊢
    exact ih hnext hlater

end Room

def widest (budget : Span) : Settings :=
  { Settings.standard with budget, initial := budget, cap := Span.bound - 1 }

theorem widest_lengths {budget : Span} (h : budget < Span.bound) : Lengths (widest budget) :=
  ⟨h, h, Nat.sub_lt (by decide) Nat.one_pos, (by decide : Span.ofSeconds 1 < Span.bound)⟩

theorem widest_accepted {budget : Span} (hpos : 0 < budget) (h : budget < Span.bound) :
    (widest budget).validate = .ok () := by
  apply (validate_ok _).mpr
  refine ⟨by simp [widest, Settings.standard], by simp [widest, Settings.standard], ?_, ?_⟩
  · exact (checkIntervals_ok _ _).mpr ⟨hpos, Nat.le_sub_one_of_lt h⟩
  · show (Log.Level.ofWord? "info").isSome = true
    decide

def widestPolicy (budget : Span) : BackoffPolicy :=
  ⟨budget, Span.bound - 1, 1.5, budget⟩

/-- The wait that takes up the budget is granted, and then the one after it ends
too late, or its length is past the longest one. -/
theorem widest_overflows {slack budget : Span} (h : ¬Room slack budget)
    (hb : slack + budget < Span.bound) :
    ∃ times, Punctual slack (start (widestPolicy budget)) 0 times ∧
      ¬AllInRange (start (widestPolicy budget)) times := by
  by_cases hproduct : budget.scaleBy 1.5 < Span.bound
  · have hgrow : (widestPolicy budget).grow budget = budget.scaleBy 1.5 :=
      Nat.min_eq_left (Nat.le_sub_one_of_lt hproduct)
    have hfit : 0 + budget ≤ budget := (Nat.zero_add budget).le
    have hno : ¬Overflows (widestPolicy budget) budget 0 :=
      not_overflows rfl (hfit.trans_lt ((Nat.le_add_left _ _).trans_lt hb)) fun _ => hproduct
    have hask : ask (start (widestPolicy budget)) 0 =
        (.wait budget, ⟨widestPolicy budget, budget.scaleBy 1.5⟩) := by
      rcases ask_cases (widestPolicy budget) budget 0 with ⟨ha, _⟩ | ⟨_, hlt, _⟩ | ⟨_, hover⟩
      · rw [← hgrow]
        exact ha
      · exact absurd hlt (Nat.not_lt.mpr hfit)
      · exact absurd hover hno
    refine ⟨[0, budget + slack], ?_, ?_⟩
    · simp [Punctual, hask, grant]
    · rintro ⟨-, hrange, -⟩
      have hsum := hrange.sum
      rw [hask, Nat.add_comm budget] at hsum
      exact h hsum
  · refine ⟨[0], ⟨Nat.zero_le _, Nat.zero_le _, trivial⟩, ?_⟩
    rintro ⟨hrange, -⟩
    exact hproduct (hrange.product (Nat.zero_add _).le)

def longestBudget : Span := Span.ofSeconds 7378697629483820544 - 1

theorem room_iff {budget : Span} (h : budget < Span.bound) :
    Room 0 budget ↔ budget ≤ longestBudget := by
  have hfits : longestBudget + longestBudget.scaleBy 1.5 < Span.bound := by decide
  have hover : Span.bound ≤ longestBudget + 1 + (longestBudget + 1).scaleBy 1.5 := by decide
  unfold Room
  rw [Nat.zero_add]
  constructor
  · intro hroom
    by_contra hlong
    have hnext : longestBudget + 1 ≤ budget := Nat.lt_of_not_le hlong
    have hsum := Nat.add_le_add hnext (scaleBy_mono 1.5 hnext h)
    exact absurd hroom (Nat.not_lt.mpr (hover.trans hsum))
  · intro hshort
    exact (Nat.add_le_add hshort (scaleBy_mono 1.5 hshort (by decide))).trans_lt hfits

/-- Whatever else accepted settings say, it is the budget that decides whether
requests that come at most `slack` late are in range. When they do come late,
there must be room for the first wait, too. -/
theorem waits_in_range_iff (slack budget : Span) (h : slack + budget < Span.bound) :
    slack + budget + budget.scaleBy 1.5 < Span.bound ↔
      ∀ s : Settings, Lengths s → s.validate = .ok () →
        ∀ overrides d, s.delivery overrides = .ok d → d.backoff.budget = budget →
          (0 < slack → slack + d.backoff.initial < Span.bound) →
            ∀ times, Punctual slack (start d.backoff) 0 times →
              AllInRange (start d.backoff) times := by
  constructor
  · intro hroom s hs _ overrides d hd hbudget hlate times htimes
    have hinitial : 0 + slack + d.backoff.initial < Span.bound := by
      rw [Nat.zero_add]
      rcases Nat.eq_zero_or_pos slack with rfl | hpos
      · rw [Nat.zero_add]
        exact delivery_initial hs hd
      · exact hlate hpos
    subst hbudget
    exact run_in_range hroom (delivery_multiplier hd) times hinitial htimes
  · intro hall
    by_contra hroom
    have hlength : budget < Span.bound := (Nat.le_add_left _ _).trans_lt h
    have hpos : 0 < budget := by
      apply Nat.pos_of_ne_zero
      rintro rfl
      have hnone : Span.scaleBy 0 1.5 = 0 := by decide
      rw [hnone] at hroom
      exact hroom h
    obtain ⟨times, htimes, hrange⟩ := widest_overflows hroom h
    exact hrange (hall (widest budget) (widest_lengths hlength) (widest_accepted hpos hlength)
      none _ rfl rfl (fun _ => h) times htimes)

def standardTimes : List Span :=
  [0, 10000, 25000, 47500, 81250, 131875, 131875].map Span.ofMillis

theorem waits_in_range_iff_standard :
    0 + BackoffPolicy.standard.budget < Span.bound ∧ Settings.standard.validate = .ok () ∧
      Punctual 0 (start BackoffPolicy.standard) 0 standardTimes ∧
      AllInRange (start BackoffPolicy.standard) standardTimes := by
  have hvalid : Settings.standard.validate = .ok () := by decide
  have htimes : Punctual 0 (start BackoffPolicy.standard) 0 standardTimes := by decide +kernel
  exact ⟨by decide, hvalid, htimes,
    (waits_in_range_iff 0 BackoffPolicy.standard.budget (by decide)).mp (by decide)
      Settings.standard standard_lengths hvalid none _ rfl rfl nofun standardTimes htimes⟩

def ageless : Settings :=
  let years : Span := 500000000000 * TimeUnit.year.nanos
  { Settings.standard with budget := years, initial := years, cap := years }

/-- Accepted settings do not keep the waits of a sequence in range. -/
theorem accepted_wait_overflows :
    ¬∀ s : Settings, Lengths s → s.validate = .ok () →
      ∀ overrides d, s.delivery overrides = .ok d →
        ∀ times, Punctual 0 (start d.backoff) 0 times → AllInRange (start d.backoff) times := by
  intro h
  have hrange := h ageless ⟨by decide, by decide, by decide, by decide⟩ (by decide) none _ rfl [0]
    (by decide)
  exact absurd (hrange.1.product (by decide)) (by decide)

end Telemetry.WaitRange
