import Mathlib.Order.Monotone.Basic
import Telemetry.Proofs.BackoffSchedule
import Telemetry.Retry.Attempts

/-!
# How retrying ends

When attempts take no time, the clock moves by the waits of the policy alone,
so the attempt after `n` failed ones begins when the first `n` waits have
passed. Retrying ends with the first success if its attempt comes about, and
else with the first failure after which the next wait reaches past the budget,
or is no length any more.
-/

set_option autoImplicit false

namespace Telemetry.RetryOutcome

open BackoffSchedule

variable {α ε : Type}

def waited (p : BackoffPolicy) : ℕ → Span
  | 0 => 0
  | n + 1 => waited p n + wait p n

def starts (p : BackoffPolicy) (clock : Span) (n : ℕ) : List Span :=
  (List.range n).map fun k => clock + waited p k

/-- An operation that gives one answer after the other, takes no time, and
notes when it is called. -/
def scripted (answers : ℕ → Except ε α) (clock : Span) (calls : List Span) :
    Except ε α × Span × List Span :=
  (answers calls.length, clock, calls ++ [clock])

def Overruns (p : BackoffPolicy) (n : ℕ) : Prop :=
  Overflows p (wait p n) (waited p n)

instance (p : BackoffPolicy) (n : ℕ) : Decidable (Overruns p n) :=
  inferInstanceAs (Decidable (Overflows _ _ _))

theorem starts_length (p : BackoffPolicy) (clock : Span) (n : ℕ) :
    (starts p clock n).length = n := by
  simp [starts]

theorem starts_succ (p : BackoffPolicy) (clock : Span) (n : ℕ) :
    starts p clock (n + 1) = starts p clock n ++ [clock + waited p n] := by
  simp [starts, List.range_succ]

theorem waited_mono (p : BackoffPolicy) : Monotone (waited p) :=
  monotone_nat_of_le_succ fun _ => Nat.le_add_right _ _

def attempting (p : BackoffPolicy) (answers : ℕ → Except ε α) (clock : Span) (fuel n : ℕ) :
    Retry.Outcome α ε × Span × List Span :=
  Retry.run (scripted answers) fuel ⟨⟨p, wait p n⟩, n % Word.count32, clock⟩
    (clock + waited p n) (starts p clock n)

theorem attempting_ok (p : BackoffPolicy) {answers : ℕ → Except ε α} (clock : Span) (fuel : ℕ)
    {n : ℕ} {v : α} (h : answers n = .ok v) :
    attempting p answers clock (fuel + 1) n =
      (.done v ((n + 1) % Word.count32), clock + waited p n, starts p clock (n + 1)) := by
  simp [attempting, Retry.run, Retry.number, scripted, starts_length, starts_succ, h]

theorem attempting_error (p : BackoffPolicy) {answers : ℕ → Except ε α} (clock : Span) (fuel : ℕ)
    {n : ℕ} {e : ε} (h : answers n = .error e) :
    (attempting p answers clock (fuel + 1) n = attempting p answers clock fuel (n + 1) ∧
      waited p (n + 1) ≤ p.budget ∧ ¬Overruns p n) ∨
    (attempting p answers clock (fuel + 1) n =
        (.exhausted ((n + 1) % Word.count32) (waited p n) e, clock + waited p n,
          starts p clock (n + 1)) ∧
      p.budget < waited p (n + 1) ∧ ¬Overruns p n) ∨
    (attempting p answers clock (fuel + 1) n =
        (.overflow, clock + waited p n, starts p clock (n + 1)) ∧ Overruns p n) := by
  have hc := failed_cases ⟨⟨p, wait p n⟩, n % Word.count32, clock⟩ (clock + waited p n)
  simp only [Retry.number, Nat.mod_add_mod, Nat.add_sub_cancel_left] at hc
  rcases hc with ⟨hf, hfit, hno⟩ | ⟨hf, hspent, hno⟩ | ⟨hf, hover⟩
  · refine Or.inl ⟨?_, hfit, hno⟩
    simp [attempting, Retry.run, scripted, starts_length, starts_succ, h, hf, waited, wait,
      BackoffPolicy.grow, Nat.add_assoc]
  · refine Or.inr (Or.inl ⟨?_, hspent, hno⟩)
    simp [attempting, Retry.run, scripted, starts_length, starts_succ, h, hf]
  · refine Or.inr (Or.inr ⟨?_, hover⟩)
    simp [attempting, Retry.run, scripted, starts_length, starts_succ, h, hf]

def Retried (p : BackoffPolicy) (answers : ℕ → Except ε α) (n : ℕ) : Prop :=
  (answers n).isOk = false ∧ waited p (n + 1) ≤ p.budget ∧ ¬Overruns p n

inductive Ending (p : BackoffPolicy) (answers : ℕ → Except ε α) : ℕ → Retry.Outcome α ε → Prop where
  | done {n told : ℕ} {v : α} (before : ∀ j < n, Retried p answers j) (h : answers n = .ok v)
      (number : told = (n + 1) % Word.count32) : Ending p answers (n + 1) (.done v told)
  | exhausted {n told : ℕ} {e : ε} (before : ∀ j < n, Retried p answers j)
      (h : answers n = .error e) (spent : p.budget < waited p (n + 1)) (fits : ¬Overruns p n)
      (number : told = (n + 1) % Word.count32) :
      Ending p answers (n + 1) (.exhausted told (waited p n) e)
  | overflow {n : ℕ} (before : ∀ j < n, Retried p answers j) (h : (answers n).isOk = false)
      (long : Overruns p n) : Ending p answers (n + 1) .overflow
  | unfinished {n : ℕ} (before : ∀ j < n, Retried p answers j) : Ending p answers n .unfinished

theorem retried_succ {p : BackoffPolicy} {answers : ℕ → Except ε α} {n : ℕ}
    (before : ∀ j < n, Retried p answers j) (h : Retried p answers n) :
    ∀ j < n + 1, Retried p answers j := by
  intro j hj
  rcases Nat.lt_succ_iff_lt_or_eq.mp hj with hj | rfl
  · exact before j hj
  · exact h

theorem waited_within {p : BackoffPolicy} {answers : ℕ → Except ε α} {n : ℕ}
    (before : ∀ j < n, Retried p answers j) : waited p n ≤ p.budget := by
  cases n with
  | zero => exact Nat.zero_le _
  | succ n => exact (before n (Nat.lt_succ_self n)).2.1

/-- From the attempt after `n` failed ones on, retrying runs into one of the
endings, with one call for every attempt. -/
theorem run_ending (p : BackoffPolicy) (answers : ℕ → Except ε α) (clock : Span) (fuel n : ℕ)
    (before : ∀ j < n, Retried p answers j) :
    ∃ m, Ending p answers m (attempting p answers clock fuel n).1 ∧
      (attempting p answers clock fuel n).2.2 = starts p clock m ∧
      ((attempting p answers clock fuel n).1 = .unfinished → m = n + fuel) := by
  induction fuel generalizing n with
  | zero => exact ⟨n, .unfinished before, rfl, fun _ => rfl⟩
  | succ fuel ih =>
    cases h : answers n with
    | ok v =>
      rw [attempting_ok p clock fuel h]
      exact ⟨n + 1, .done before h rfl, rfl, fun hu => by cases hu⟩
    | error e =>
      have hfailed : (answers n).isOk = false := by rw [h]; rfl
      rcases attempting_error p clock fuel h with
        ⟨hrun, hfit, hno⟩ | ⟨hrun, hspent, hno⟩ | ⟨hrun, hover⟩
      · obtain ⟨m, hending, hcalls, hfuel⟩ :=
          ih (n + 1) (retried_succ before ⟨hfailed, hfit, hno⟩)
        rw [hrun]
        exact ⟨m, hending, hcalls, fun hu => by rw [hfuel hu]; omega⟩
      · rw [hrun]
        exact ⟨n + 1, .exhausted before h hspent hno rfl, rfl, fun hu => by cases hu⟩
      · rw [hrun]
        exact ⟨n + 1, .overflow before hfailed hover, rfl, fun hu => by cases hu⟩

/-- The outcome of retrying an operation that takes no time, and its calls,
told from its answers and the waits of the policy. -/
structure Exact (p : BackoffPolicy) (answers : ℕ → Except ε α) (clock : Span)
    (outcome : Retry.Outcome α ε) (calls : List Span) : Prop where
  /-- The attempt after `n` failed ones is the first that succeeds, and the
  waits before it fit the budget. -/
  succeeds : ∀ v n, outcome = .done v (n + 1) ↔
    answers n = .ok v ∧ (∀ j < n, (answers j).isOk = false) ∧ waited p n ≤ p.budget ∧
      ∀ j < n, ¬Overruns p j
  /-- The attempt after `n` failed ones fails, and is the first after which the
  next wait does not fit the budget. -/
  exhausts : ∀ n elapsed e, outcome = .exhausted (n + 1) elapsed e ↔
    (∀ j < n, (answers j).isOk = false) ∧ answers n = .error e ∧
      (∀ j ≤ n, waited p j ≤ p.budget) ∧ p.budget < waited p (n + 1) ∧
      (∀ j ≤ n, ¬Overruns p j) ∧ elapsed = waited p n
  /-- The attempt after `n` failed ones fails, and is the first after which
  there is no length for what the policy forms. -/
  overflows : outcome = .overflow ↔ ∃ n, (∀ j ≤ n, (answers j).isOk = false) ∧
    (∀ j ≤ n, waited p j ≤ p.budget) ∧ (∀ j < n, ¬Overruns p j) ∧ Overruns p n
  /-- Retrying ends, and tells the number of its calls if it returns. -/
  called : ∃ n, calls = starts p clock (n + 1) ∧
    ((∃ v, outcome = .done v (n + 1)) ∨ (∃ elapsed e, outcome = .exhausted (n + 1) elapsed e) ∨
      outcome = .overflow)
  punctual : ∀ t ∈ calls, t ≤ clock + p.budget

theorem retried_of_within {p : BackoffPolicy} {answers : ℕ → Except ε α} {n : ℕ}
    (failed : ∀ j < n, (answers j).isOk = false) (h : waited p n ≤ p.budget)
    (hno : ∀ j < n, ¬Overruns p j) : ∀ j < n, Retried p answers j :=
  fun j hj => ⟨failed j hj, (waited_mono p hj).trans h, hno j hj⟩

/-- The attempt that ends retrying is the first that is followed by no other. -/
theorem ending_last {p : BackoffPolicy} {answers : ℕ → Except ε α} {m : ℕ}
    {o : Retry.Outcome α ε} (h : Ending p answers m o) (ho : o ≠ .unfinished) :
    ∃ n, m = n + 1 ∧ (∀ j < n, Retried p answers j) ∧ ¬Retried p answers n := by
  cases h with
  | done before h _ =>
    refine ⟨_, rfl, before, fun hr => ?_⟩
    rw [Retried, h] at hr
    cases hr.1
  | exhausted before h spent _ _ =>
    exact ⟨_, rfl, before, fun hr => absurd hr.2.1 (Nat.not_le.mpr spent)⟩
  | overflow before _ long => exact ⟨_, rfl, before, fun hr => hr.2.2 long⟩
  | unfinished _ => exact absurd rfl ho

theorem ending_agree {p : BackoffPolicy} {answers : ℕ → Except ε α} {n : ℕ}
    {o q : Retry.Outcome α ε} (ho : Ending p answers (n + 1) o) (hq : Ending p answers (n + 1) q)
    (hof : o ≠ .unfinished) (hqf : q ≠ .unfinished) : o = q := by
  cases ho with
  | unfinished _ => exact absurd rfl hof
  | done _ h number =>
    cases hq with
    | unfinished _ => exact absurd rfl hqf
    | done _ h' number' =>
      obtain rfl := Except.ok.inj (h.symm.trans h')
      rw [number, number']
    | exhausted _ h' _ _ _ => cases h.symm.trans h'
    | overflow _ h' _ =>
      rw [h] at h'
      cases h'
  | exhausted _ h _ fits number =>
    cases hq with
    | unfinished _ => exact absurd rfl hqf
    | done _ h' _ => cases h.symm.trans h'
    | exhausted _ h' _ _ number' =>
      obtain rfl := Except.error.inj (h.symm.trans h')
      rw [number, number']
    | overflow _ _ long => exact absurd long fits
  | overflow _ h long =>
    cases hq with
    | unfinished _ => exact absurd rfl hqf
    | done _ h' _ =>
      rw [h'] at h
      cases h
    | exhausted _ _ _ fits _ => exact absurd long fits
    | overflow _ _ _ => rfl

theorem ending_unique {p : BackoffPolicy} {answers : ℕ → Except ε α} {m n : ℕ}
    {o q : Retry.Outcome α ε} (ho : Ending p answers m o) (hq : Ending p answers n q)
    (hof : o ≠ .unfinished) (hqf : q ≠ .unfinished) : m = n ∧ o = q := by
  obtain ⟨i, rfl, hbi, hni⟩ := ending_last ho hof
  obtain ⟨j, rfl, hbj, hnj⟩ := ending_last hq hqf
  rcases Nat.lt_trichotomy i j with h | rfl | h
  · exact absurd (hbj i h) hni
  · exact ⟨rfl, ending_agree ho hq hof hqf⟩
  · exact absurd (hbi j h) hnj

section Endings

variable {p : BackoffPolicy} {answers : ℕ → Except ε α} {m : ℕ} {o : Retry.Outcome α ε}

theorem done_iff (h : Ending p answers m o) (ho : o ≠ .unfinished) (hm : m < Word.count32)
    (v : α) (n : ℕ) :
    o = .done v (n + 1) ↔
      answers n = .ok v ∧ (∀ j < n, (answers j).isOk = false) ∧ waited p n ≤ p.budget ∧
        ∀ j < n, ¬Overruns p j := by
  constructor
  · rintro rfl
    cases h with
    | done before h number =>
      rw [Nat.mod_eq_of_lt hm] at number
      obtain rfl := Nat.succ.inj number
      exact ⟨h, fun j hj => (before j hj).1, waited_within before, fun j hj => (before j hj).2.2⟩
  · rintro ⟨hok, hfailed, hwithin, hno⟩
    obtain ⟨rfl, rfl⟩ :=
      ending_unique h (.done (retried_of_within hfailed hwithin hno) hok rfl) ho (by simp)
    rw [Nat.mod_eq_of_lt hm]

theorem exhausted_iff (h : Ending p answers m o) (ho : o ≠ .unfinished) (hm : m < Word.count32)
    (n : ℕ) (elapsed : Span) (e : ε) :
    o = .exhausted (n + 1) elapsed e ↔
      (∀ j < n, (answers j).isOk = false) ∧ answers n = .error e ∧
        (∀ j ≤ n, waited p j ≤ p.budget) ∧ p.budget < waited p (n + 1) ∧
        (∀ j ≤ n, ¬Overruns p j) ∧ elapsed = waited p n := by
  constructor
  · rintro rfl
    cases h with
    | exhausted before h spent fits number =>
      rw [Nat.mod_eq_of_lt hm] at number
      obtain rfl := Nat.succ.inj number
      refine ⟨fun j hj => (before j hj).1, h,
        fun j hj => (waited_mono p hj).trans (waited_within before), spent, fun j hj => ?_, rfl⟩
      rcases Nat.lt_or_eq_of_le hj with hj | rfl
      · exact (before j hj).2.2
      · exact fits
  · rintro ⟨hfailed, herror, hwithin, hspent, hno, rfl⟩
    have hretried := retried_of_within hfailed (hwithin n (Nat.le_refl n))
      fun j hj => hno j (Nat.le_of_lt hj)
    obtain ⟨rfl, rfl⟩ :=
      ending_unique h (.exhausted hretried herror hspent (hno n (Nat.le_refl n)) rfl) ho (by simp)
    rw [Nat.mod_eq_of_lt hm]

theorem overflow_iff (h : Ending p answers m o) (ho : o ≠ .unfinished) :
    o = .overflow ↔ ∃ n, (∀ j ≤ n, (answers j).isOk = false) ∧
      (∀ j ≤ n, waited p j ≤ p.budget) ∧ (∀ j < n, ¬Overruns p j) ∧ Overruns p n := by
  constructor
  · rintro rfl
    cases h with
    | @overflow n before h long =>
      refine ⟨n, fun j hj => ?_, fun j hj => (waited_mono p hj).trans (waited_within before),
        fun j hj => (before j hj).2.2, long⟩
      rcases Nat.lt_or_eq_of_le hj with hj | rfl
      · exact (before j hj).1
      · exact h
  · rintro ⟨n, hfailed, hwithin, hno, hover⟩
    have hretried := retried_of_within (fun j hj => hfailed j (Nat.le_of_lt hj))
      (hwithin n (Nat.le_refl n)) hno
    exact (ending_unique h (.overflow hretried (hfailed n (Nat.le_refl n)) hover) ho
      (by simp)).2

end Endings

theorem starts_within {p : BackoffPolicy} {answers : ℕ → Except ε α} (clock : Span) {n : ℕ}
    (before : ∀ j < n, Retried p answers j) :
    ∀ t ∈ starts p clock (n + 1), t ≤ clock + p.budget := by
  intro t ht
  obtain ⟨j, hj, rfl⟩ := List.mem_map.mp ht
  have hjn := Nat.le_of_lt_succ (List.mem_range.mp hj)
  exact Nat.add_le_add_left ((waited_mono p hjn).trans (waited_within before)) clock

/-- Retrying an operation that takes no time succeeds with the first success
whose attempt begins within the budget, gives up after the first failure whose
next wait goes beyond it, and tells how often the operation was called. A
length that overflows before that ends it without an answer. -/
theorem retry_outcome (p : BackoffPolicy) (answers : ℕ → Except ε α) (clock : Span)
    (hshort : (Retry.perform p (scripted answers) clock []).2.2.length < Word.count32) :
    Exact p answers clock (Retry.perform p (scripted answers) clock []).1
      (Retry.perform p (scripted answers) clock []).2.2 := by
  obtain ⟨m, hending, hcalls, hfuel⟩ :=
    run_ending p answers clock (Retry.attemptBound p) 0 (by simp)
  change Ending p answers m (Retry.perform p (scripted answers) clock []).1 at hending
  change (Retry.perform p (scripted answers) clock []).2.2 = _ at hcalls
  change (Retry.perform p (scripted answers) clock []).1 = _ → _ at hfuel
  generalize Retry.perform p (scripted answers) clock [] = r at *
  have hm : m < Word.count32 := by rwa [hcalls, starts_length] at hshort
  have hfinished : r.1 ≠ .unfinished := by
    intro hu
    rw [hfuel hu, Nat.zero_add] at hm
    exact absurd (Nat.le_max_left _ _) (Nat.not_le.mpr hm)
  obtain ⟨n, rfl, hbefore, _⟩ := ending_last hending hfinished
  refine ⟨done_iff hending hfinished hm, exhausted_iff hending hfinished hm,
    overflow_iff hending hfinished, ⟨n, hcalls, ?_⟩, ?_⟩
  · generalize r.1 = o at *
    have hnumber : (n + 1) % Word.count32 = n + 1 := Nat.mod_eq_of_lt hm
    cases hending with
    | done _ _ number => exact Or.inl ⟨_, by rw [number, hnumber]⟩
    | exhausted _ _ _ _ number => exact Or.inr (Or.inl ⟨_, _, by rw [number, hnumber]⟩)
    | overflow _ _ _ => exact Or.inr (Or.inr rfl)
    | unfinished _ => exact absurd rfl hfinished
  · rw [hcalls]
    exact starts_within clock hbefore

def reluctant (n : ℕ) : Except String ℕ :=
  if n < 3 then .error "unavailable" else .ok n

theorem retry_outcome_reluctant :
    (Retry.perform doubling (scripted reluctant) 0 []).2.2.length < Word.count32 ∧
    Exact doubling reluctant 0 (.done 3 4) ([0, 1, 3, 7].map Span.ofSeconds) := by
  have hshort : (Retry.perform doubling (scripted reluctant) 0 []).2.2.length < Word.count32 := by
    decide +kernel
  have h := retry_outcome doubling reluctant 0 hshort
  have hdone : (Retry.perform doubling (scripted reluctant) 0 []).1 = .done 3 4 :=
    (h.succeeds 3 3).mpr ⟨rfl, by decide, by decide +kernel⟩
  have hcalls : (Retry.perform doubling (scripted reluctant) 0 []).2.2 =
      [0, 1, 3, 7].map Span.ofSeconds := by
    decide +kernel
  rw [hdone, hcalls] at h
  exact ⟨hshort, h⟩

end Telemetry.RetryOutcome
