import Mathlib.Data.List.Range
import Telemetry.Retry.Attempts

/-!
# The schedule of waits

The waits of a policy form one sequence in which the clock has no part. A
request is granted the next wait of the sequence when that wait still fits the
budget. A request that is not granted leaves the sequence where it stands, so
as time goes on nothing more is granted.
-/

set_option autoImplicit false

namespace Telemetry.BackoffSchedule

open Backoff

def wait (p : BackoffPolicy) : ℕ → Span
  | 0 => p.initial
  | k + 1 => min ((wait p k).scaleBy p.multiplier) p.cap

def answers (b : Backoff) : List Span → List Answer
  | [] => []
  | e :: times => (b.ask e).1 :: answers (b.ask e).2 times

def after (b : Backoff) : List Span → Backoff
  | [] => b
  | e :: times => after (b.ask e).2 times

def grant : Answer → Option Span
  | .wait w => some w
  | .refused | .overflow => none

def granted (b : Backoff) (times : List Span) : List Span :=
  (answers b times).filterMap grant

/-- The time at which a wait would end, or the wait that would come after it
before it is capped, is no length. -/
def Overflows (p : BackoffPolicy) (w e : Span) : Prop :=
  Span.bound ≤ e + w ∨ e + w ≤ p.budget ∧ w.scales p.multiplier = false

instance (p : BackoffPolicy) (w e : Span) : Decidable (Overflows p w e) :=
  inferInstanceAs (Decidable (_ ∨ _))

theorem after_append (b : Backoff) (xs ys : List Span) :
    after b (xs ++ ys) = after (after b xs) ys := by
  induction xs generalizing b with
  | nil => rfl
  | cons e xs ih => exact ih _

structure Answered (p : BackoffPolicy) (w e : Span) (a : Answer) : Prop where
  waits : ∀ v, a = .wait v ↔ v = w ∧ e + w ≤ p.budget ∧ ¬Overflows p w e
  refused : a = .refused ↔ p.budget < e + w ∧ ¬Overflows p w e
  overflow : a = .overflow ↔ Overflows p w e

theorem ask_cases (p : BackoffPolicy) (w e : Span) :
    (ask ⟨p, w⟩ e = (.wait w, ⟨p, p.grow w⟩) ∧ e + w ≤ p.budget ∧ ¬Overflows p w e) ∨
    (ask ⟨p, w⟩ e = (.refused, ⟨p, w⟩) ∧ p.budget < e + w ∧ ¬Overflows p w e) ∨
    (ask ⟨p, w⟩ e = (.overflow, ⟨p, w⟩) ∧ Overflows p w e) := by
  by_cases hsum : Span.bound ≤ e + w
  · exact Or.inr (Or.inr ⟨by simp [ask, hsum], Or.inl hsum⟩)
  · by_cases hfit : p.budget < e + w
    · have hfits : ¬Overflows p w e := by
        simp [Overflows, hsum, Nat.not_le.mpr hfit]
      exact Or.inr (Or.inl ⟨by simp [ask, hsum, hfit], hfit, hfits⟩)
    · have hle := Nat.le_of_not_lt hfit
      cases hscale : w.scales p.multiplier with
      | true =>
        have hfits : ¬Overflows p w e := by simp [Overflows, hsum, hscale]
        exact Or.inl ⟨by simp [ask, hsum, hfit, hscale], hle, hfits⟩
      | false =>
        exact Or.inr (Or.inr ⟨by simp [ask, hsum, hfit, hscale], Or.inr ⟨hle, hscale⟩⟩)

theorem ask_answered (p : BackoffPolicy) (w e : Span) : Answered p w e (ask ⟨p, w⟩ e).1 := by
  rcases ask_cases p w e with ⟨ha, hle, hno⟩ | ⟨ha, hlt, hno⟩ | ⟨ha, ho⟩
  · rw [ha]
    exact ⟨fun v => by simp [hle, hno, eq_comm], by simp [Nat.not_lt.mpr hle], by simp [hno]⟩
  · rw [ha]
    exact ⟨fun v => by simp [Nat.not_le.mpr hlt], by simp [hlt, hno], by simp [hno]⟩
  · rw [ha]
    exact ⟨fun v => by simp [ho], by simp [ho], by simp [ho]⟩

theorem failed_cases (r : Retry) (clock : Span) :
    (r.failed clock = .wait r.backoff.current
        ⟨⟨r.backoff.policy, r.backoff.policy.grow r.backoff.current⟩, r.number, r.started⟩ ∧
      clock - r.started + r.backoff.current ≤ r.backoff.policy.budget ∧
      ¬Overflows r.backoff.policy r.backoff.current (clock - r.started)) ∨
    (r.failed clock = .giveUp r.number (clock - r.started) ∧
      r.backoff.policy.budget < clock - r.started + r.backoff.current ∧
      ¬Overflows r.backoff.policy r.backoff.current (clock - r.started)) ∨
    (r.failed clock = .overflow ∧
      Overflows r.backoff.policy r.backoff.current (clock - r.started)) := by
  rcases ask_cases r.backoff.policy r.backoff.current (clock - r.started) with
    ⟨ha, h⟩ | ⟨ha, h⟩ | ⟨ha, h⟩
  · exact Or.inl ⟨by rw [Retry.failed, ha], h⟩
  · exact Or.inr (Or.inl ⟨by rw [Retry.failed, ha], h⟩)
  · exact Or.inr (Or.inr ⟨by rw [Retry.failed, ha], h⟩)

theorem ask_idle (b : Backoff) (e : Span) (h : grant (b.ask e).1 = none) : (b.ask e).2 = b := by
  rcases ask_cases b.policy b.current e with ⟨ha, _⟩ | ⟨ha, _⟩ | ⟨ha, _⟩
  · rw [ha] at h
    cases h
  · exact congrArg Prod.snd ha
  · exact congrArg Prod.snd ha

/-- The waits of a run are those of the policy one after the other, whatever
the times are. -/
theorem run_waits (p : BackoffPolicy) (times : List Span) (k : ℕ) :
    granted ⟨p, wait p k⟩ times =
      (List.range' k (granted ⟨p, wait p k⟩ times).length).map (wait p) ∧
    after ⟨p, wait p k⟩ times = ⟨p, wait p (k + (granted ⟨p, wait p k⟩ times).length)⟩ := by
  induction times generalizing k with
  | nil => exact ⟨rfl, rfl⟩
  | cons e times ih =>
    rcases ask_cases p (wait p k) e with ⟨ha, _⟩ | ⟨ha, _⟩ | ⟨ha, _⟩
    · have hgranted : granted ⟨p, wait p k⟩ (e :: times) =
          wait p k :: granted ⟨p, wait p (k + 1)⟩ times := by
        rw [granted, answers, ha]
        rfl
      have hafter : after ⟨p, wait p k⟩ (e :: times) = after ⟨p, wait p (k + 1)⟩ times := by
        rw [after, ha]
        rfl
      obtain ⟨hw, hs⟩ := ih (k + 1)
      rw [hgranted, hafter, List.length_cons, List.range'_succ, List.map_cons, ← hw, hs,
        Nat.add_right_comm, Nat.add_assoc]
      exact ⟨rfl, rfl⟩
    all_goals
      rw [granted, answers, after, ha]
      exact ih k

theorem start_waits (p : BackoffPolicy) (times : List Span) :
    granted (start p) times = (List.range (granted (start p) times).length).map (wait p) := by
  rw [List.range_eq_range']
  exact (run_waits p times 0).1

theorem start_after (p : BackoffPolicy) (times : List Span) :
    after (start p) times = ⟨p, wait p (granted (start p) times).length⟩ := by
  have h := (run_waits p times 0).2
  rwa [Nat.zero_add] at h

/-- From a time on at which the next wait reaches past the budget, nothing is
granted. -/
theorem spent (p : BackoffPolicy) (w : Span) (times : List Span)
    (h : ∀ e ∈ times, p.budget < e + w) : granted ⟨p, w⟩ times = [] := by
  induction times with
  | nil => rfl
  | cons e times ih =>
    have hrest := ih fun x hx => h x (List.mem_cons_of_mem e hx)
    rcases ask_cases p w e with ⟨_, hle, _⟩ | ⟨ha, _⟩ | ⟨ha, _⟩
    · exact absurd (h e List.mem_cons_self) (Nat.not_lt.mpr hle)
    all_goals
      rw [granted, answers, ha]
      exact hrest

theorem wait_capped (p : BackoffPolicy) (k : ℕ) : wait p (k + 1) ≤ p.cap :=
  Nat.min_le_right _ _

/-- How a policy answers requests made at the given times. -/
structure Schedule (p : BackoffPolicy) (times : List Span) : Prop where
  /-- The wait that a request is about is the one after those granted before. -/
  answered : ∀ before e later, times = before ++ e :: later →
    Answered p (wait p (granted (start p) before).length) e ((after (start p) before).ask e).1
  waits : granted (start p) times =
    (List.range (granted (start p) times).length).map (wait p)
  capped : ∀ w ∈ (granted (start p) times).tail, w ≤ p.cap
  kept : ∀ before e later, times = before ++ e :: later →
    grant ((after (start p) before).ask e).1 = none →
    after (start p) (before ++ [e]) = after (start p) before
  /-- After a refusal there is no wait any more. -/
  closed : ∀ before e later, times = before ++ e :: later →
    ((after (start p) before).ask e).1 = .refused →
    ∀ a ∈ answers (after (start p) (before ++ [e])) later, a = .refused ∨ a = .overflow

theorem tail_capped (p : BackoffPolicy) (n : ℕ) :
    ∀ w ∈ ((List.range n).map (wait p)).tail, w ≤ p.cap := by
  intro w hw
  cases n with
  | zero => simp at hw
  | succ n =>
    rw [List.range_succ_eq_map, List.map_cons, List.tail_cons, List.map_map] at hw
    obtain ⟨k, _, hk⟩ := List.mem_map.mp hw
    rw [← hk, Function.comp_apply]
    exact wait_capped p k

theorem start_kept (p : BackoffPolicy) (before : List Span) (e : Span)
    (h : grant ((after (start p) before).ask e).1 = none) :
    after (start p) (before ++ [e]) = after (start p) before := by
  rw [after_append]
  exact ask_idle _ e h

/-- The waits granted do not depend on the times of the requests, and a refusal
is final. -/
theorem granted_in_order (p : BackoffPolicy) (times : List Span)
    (hs : times.Pairwise (· ≤ ·)) : Schedule p times where
  answered := by
    intro before e later _
    rw [start_after]
    exact ask_answered p _ e
  waits := start_waits p times
  capped := by
    rw [start_waits]
    exact tail_capped p _
  kept := fun before e _ _ h => start_kept p before e h
  closed := by
    intro before e later ht hr a ha
    -- the wait that was refused is the one asked for later, at times that are no earlier
    rw [start_kept p before e (by rw [hr]; rfl), start_after] at ha
    rw [start_after] at hr
    have hlt := ((ask_answered p _ e).refused.mp hr).1
    rw [ht] at hs
    have hlater := (List.pairwise_cons.mp (List.pairwise_append.mp hs).2.1).1
    have hnone := spent p _ later fun x hx => hlt.trans_le (Nat.add_le_add_right (hlater x hx) _)
    have hg := List.filterMap_eq_nil_iff.mp hnone a ha
    cases a with
    | wait w => cases hg
    | refused => exact Or.inl rfl
    | overflow => exact Or.inr rfl

def doubling : BackoffPolicy where
  initial := Span.ofSeconds 1
  cap := Span.ofSeconds 4
  multiplier := 2.0
  budget := Span.ofSeconds 10

def doublingTimes : List Span := [0, 0, 1, 7, 7, 9].map Span.ofSeconds

theorem granted_in_order_doubling :
    doublingTimes.Pairwise (· ≤ ·) ∧ Schedule doubling doublingTimes ∧
    answers (start doubling) doublingTimes =
      [.wait (Span.ofSeconds 1), .wait (Span.ofSeconds 2), .wait (Span.ofSeconds 4), .refused,
        .refused, .refused] :=
  ⟨by decide, granted_in_order doubling doublingTimes (by decide), by decide +kernel⟩

def steep : BackoffPolicy where
  initial := Span.ofSeconds 1
  cap := Span.ofSeconds 60
  multiplier := 1e20
  budget := Span.ofSeconds 180

/-- A wait that fits the budget is not granted when the one after it is no
length before it is capped. -/
theorem fitting_wait_overflows :
    ¬∀ v, ((start steep).ask 0).1 = .wait v ↔
      v = wait steep 0 ∧ 0 + wait steep 0 ≤ steep.budget := by
  intro h
  have hw := (h (Span.ofSeconds 1)).mpr (by decide)
  exact absurd hw (by decide)

end Telemetry.BackoffSchedule
