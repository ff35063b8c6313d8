import Telemetry.Proofs.BackoffSchedule
import Telemetry.Publisher.Service

/-!
# Observed publish calls

A world that remembers every publish call tells what a sink was given and what
it answered. The attempts at a batch are calls with that batch, the first call
that is accepted is the last one, and the calls bear out how the attempts end.
-/

set_option autoImplicit false

namespace Telemetry.ObservedCalls

open BackoffSchedule

structure Call where
  batch : Batch
  config : PluginConfig
  answer : Except PluginError Unit

def Call.accepted (c : Call) : Bool := c.answer.isOk

def observed (P : Platform) : Platform where
  World := P.World × List Call
  Collector := P.Collector
  Processor := P.Processor
  Analyzer := P.Analyzer
  Publisher := P.Publisher
  now w := P.now w.1
  collector := P.collector
  processor := P.processor
  analyzer := P.analyzer
  publisher := P.publisher
  catalog w := P.catalog w.1
  collect w := P.collect w.1
  process w := P.process w.1
  analyze w := P.analyze w.1
  publish w publisher batch config :=
    let (answer, world) := P.publish w.1 publisher batch config
    (answer, world, w.2 ++ [⟨batch, config, answer⟩])

variable {P : Platform}

theorem attempt_logged (s : Service (observed P)) (takes : (observed P).World → Span) (b : Batch)
    (clock : Span) (around : Surroundings (observed P)) :
    (s.attempt takes b clock around).2.2.world.2 =
      around.world.2 ++ [⟨b, s.config, (s.attempt takes b clock around).1⟩] ∧
    (s.attempt takes b clock around).2.2.reports = around.reports :=
  ⟨rfl, rfl⟩

/-- How the calls that follow some attempts bear out the outcome. Attempts are
numbered in 32 bits. -/
def Borne (p : BackoffPolicy) (attempts : ℕ) (started clock : Span) (made : List Call) :
    Retry.Outcome Unit PluginError → Prop
  | .done _ total =>
    total = (attempts + made.length) % Word.count32 ∧ made.countP Call.accepted = 1
  | .exhausted total elapsed e =>
    total = (attempts + made.length) % Word.count32 ∧ elapsed = clock - started ∧
      made.countP Call.accepted = 0 ∧ ∃ c, made.getLast? = some c ∧ c.answer = .error e
  | .overflow => made.countP Call.accepted = 0 ∧ ∃ w, Overflows p w (clock - started)
  | .unfinished => made.countP Call.accepted = 0

theorem borne_cons {p : BackoffPolicy} {attempts : ℕ} {started clock : Span} {made : List Call}
    {o : Retry.Outcome Unit PluginError} {c : Call} (hc : c.accepted = false)
    (h : Borne p ((attempts + 1) % Word.count32) started clock made o) :
    Borne p attempts started clock (c :: made) o := by
  have hcount : (c :: made).countP Call.accepted = made.countP Call.accepted := by
    rw [List.countP_cons, hc]
    rfl
  have hnumber : ((attempts + 1) % Word.count32 + made.length) % Word.count32 =
      (attempts + (c :: made).length) % Word.count32 := by
    rw [Nat.mod_add_mod, List.length_cons, Nat.add_right_comm, Nat.add_assoc]
  cases o with
  | done v total => exact ⟨h.1.trans hnumber, hcount.trans h.2⟩
  | exhausted total elapsed e =>
    obtain ⟨htotal, helapsed, hzero, last, hlast, he⟩ := h
    refine ⟨htotal.trans hnumber, helapsed, hcount.trans hzero, last, ?_, he⟩
    rw [List.getLast?_cons, hlast]
    rfl
  | overflow => exact ⟨hcount.trans h.1, h.2⟩
  | unfinished => exact hcount.trans h

theorem borne_once {p : BackoffPolicy} {attempts : ℕ} {started clock : Span} {made : List Call}
    {o : Retry.Outcome Unit PluginError} (h : Borne p attempts started clock made o) :
    made.countP Call.accepted ≤ 1 := by
  cases o with
  | done v total => exact h.2.le
  | exhausted total elapsed e => exact h.2.2.1.le.trans (Nat.zero_le 1)
  | overflow => exact h.1.le.trans (Nat.zero_le 1)
  | unfinished => exact h.le.trans (Nat.zero_le 1)

/-- Every attempt is one call with the batch, and the run ends with the first
call that is accepted. -/
theorem run_calls (s : Service (observed P)) (takes : (observed P).World → Span) (b : Batch)
    (fuel : ℕ) (p : BackoffPolicy) (current : Span) (attempts : ℕ) (started clock : Span)
    (around : Surroundings (observed P)) :
    ∃ made : List Call,
      (Retry.run (s.attempt takes b) fuel ⟨⟨p, current⟩, attempts, started⟩ clock
        around).2.2.world.2 = around.world.2 ++ made ∧
      (Retry.run (s.attempt takes b) fuel ⟨⟨p, current⟩, attempts, started⟩ clock
        around).2.2.reports = around.reports ∧
      (∀ c ∈ made, c.batch = b ∧ c.config = s.config) ∧
      Borne p attempts started
        (Retry.run (s.attempt takes b) fuel ⟨⟨p, current⟩, attempts, started⟩ clock around).2.1
        made
        (Retry.run (s.attempt takes b) fuel ⟨⟨p, current⟩, attempts, started⟩ clock around).1 := by
  induction fuel generalizing current attempts clock around with
  | zero => exact ⟨[], (List.append_nil _).symm, rfl, by simp, rfl⟩
  | succ fuel ih =>
    have hstep := attempt_logged s takes b clock around
    rcases ha : s.attempt takes b clock around with ⟨answer, now, next⟩
    rw [ha] at hstep
    obtain ⟨hlog, hreports⟩ := hstep
    cases answer with
    | ok v =>
      simp only [Retry.run, ha]
      exact ⟨_, hlog, hreports, by simp, rfl, rfl⟩
    | error e =>
      rcases failed_cases ⟨⟨p, current⟩, attempts, started⟩ now with
        ⟨hr, _⟩ | ⟨hr, _⟩ | ⟨hr, hover⟩
      · obtain ⟨made, hmade, hkept, hsame, hborne⟩ :=
          ih (p.grow current) ((attempts + 1) % Word.count32) (now + current) next
        simp only [Retry.run, ha, hr]
        refine ⟨⟨b, s.config, .error e⟩ :: made, ?_, hkept.trans hreports, ?_,
          borne_cons rfl hborne⟩
        · rw [List.append_cons, ← hlog]
          exact hmade
        · exact List.forall_mem_cons.mpr ⟨⟨rfl, rfl⟩, hsame⟩
      · simp only [Retry.run, ha, hr]
        exact ⟨_, hlog, hreports, by simp, rfl, rfl, rfl, _, rfl, rfl⟩
      · simp only [Retry.run, ha, hr]
        exact ⟨_, hlog, hreports, by simp, rfl, _, hover⟩

end Telemetry.ObservedCalls
