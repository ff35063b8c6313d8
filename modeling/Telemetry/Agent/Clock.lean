import Telemetry.Agent.Turn

/-!
# The clock of an agent

Time passes only while every loop waits. It then moves to the next instant at
which a timer goes off; every timer of that instant wakes its loop. All turns
of an instant are taken before time moves on. Whoever lets time pass looks at
the agent before the loops that wake at the last instant take their turns.
-/

set_option autoImplicit false

namespace Telemetry.Agent

variable {P : Platform}

def nextMillis (a : Agent P) : Option Nat :=
  (a.timers.map (·.millis)).min?

def dueTimers (a : Agent P) (millis : Nat) : List Timer :=
  (a.timers.filter (·.millis ≤ millis)).mergeSort fun s t => s.millis ≤ t.millis

def fire (a : Agent P) (millis : Nat) : Agent P :=
  let due := a.dueTimers millis
  let a := { a with
    clock := max a.clock (Span.ofMillis millis)
    timers := a.timers.filter fun t => millis < t.millis }
  due.foldl (fun a t => a.wake t.loop) a

/-- One step on the way to `target`: a turn if a loop is awake, else the next
timer that goes off by then. There is none once the clock stands there. -/
def step (a : Agent P) (target : Span) : Option (Agent P) :=
  if target ≤ a.clock then none
  else
    match a.ready with
    | _ :: _ => some a.turn
    | [] =>
      match a.nextMillis with
      | some millis => if Span.ofMillis millis ≤ target then some (a.fire millis) else none
      | none => none

def runTo : Nat → Agent P → Span → Agent P
  | 0, a, _ => a
  | fuel + 1, a, target =>
    match a.step target with
    | some a => runTo fuel a target
    | none => { a with clock := max a.clock target }

def targetCount (a : Agent P) : Nat :=
  a.pipelines.foldl (fun n l => n + l.pipeline.primary.length + l.pipeline.derived.length) 0

/-- Steps that are enough for one instant. -/
def stepsPerInstant (a : Agent P) : Nat :=
  2 * (a.services.size + a.pipelines.length + a.targetCount) + 2

def advance (a : Agent P) (span : Span) : Agent P :=
  runTo (a.stepsPerInstant * (span / Span.nanosPerMilli + 2)) a (a.clock + span)

end Telemetry.Agent
