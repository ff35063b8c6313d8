import Telemetry.Retry.Backoff

/-!
# Retrying

An operation is attempted until it succeeds or the next wait no longer fits
the budget. Time passes while waiting, and in the operation as it says. When
no wait is shorter than the first one, the budget bounds the attempts. A
length past the longest one cuts the attempts short, without an answer.
-/

set_option autoImplicit false

namespace Telemetry

structure Retry where
  backoff : Backoff
  attempts : Nat
  started : Span
  deriving DecidableEq, Repr

inductive Retry.Next where
  | wait (span : Span) (retry : Retry)
  | giveUp (attempts : Nat) (elapsed : Span)
  | overflow
  deriving DecidableEq, Repr

inductive Retry.Outcome (α ε : Type) where
  | done (value : α) (attempts : Nat)
  | exhausted (attempts : Nat) (elapsed : Span) (last : ε)
  | overflow
  | unfinished
  deriving Repr

namespace Retry

def start (p : BackoffPolicy) (clock : Span) : Retry :=
  ⟨.start p, 0, clock⟩

/-- The number of the attempt under way, in 32 bits. -/
def number (r : Retry) : Nat :=
  (r.attempts + 1) % Word.count32

def failed (r : Retry) (clock : Span) : Next :=
  match r.backoff.ask (clock - r.started) with
  | (.wait w, b) => .wait w ⟨b, r.number, r.started⟩
  | (.refused, _) => .giveUp r.number (clock - r.started)
  | (.overflow, _) => .overflow

def run {σ α ε : Type} (op : Span → σ → Except ε α × Span × σ) :
    Nat → Retry → Span → σ → Outcome α ε × Span × σ
  | 0, _, clock, s => (.unfinished, clock, s)
  | fuel + 1, r, clock, s =>
    match op clock s with
    | (.ok v, clock, s) => (.done v r.number, clock, s)
    | (.error e, clock, s) =>
      match r.failed clock with
      | .wait w r => run op fuel r (clock + w) s
      | .giveUp attempts elapsed => (.exhausted attempts elapsed e, clock, s)
      | .overflow => (.overflow, clock, s)

/-- More attempts than a policy can ask for whose waits never shrink. -/
def attemptBound (p : BackoffPolicy) : Nat :=
  max Word.count32 (p.budget / p.initial + 2)

def perform {σ α ε : Type} (p : BackoffPolicy) (op : Span → σ → Except ε α × Span × σ)
    (clock : Span) (s : σ) : Outcome α ε × Span × σ :=
  run op (attemptBound p) (start p clock) clock s

end Retry

end Telemetry
