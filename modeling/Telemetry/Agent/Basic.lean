import Telemetry.Registry

/-!
# Running agents

Every service and every pipeline of an agent has a loop. A loop that has
nothing to do waits for its timer; a service also wakes when a batch is put
into its channel. Loops that are awake take turns in the order in which they
woke. Timers have the resolution of a millisecond, and timers of one instant
go off in the order in which they were set.
-/

set_option autoImplicit false

namespace Telemetry

structure Flight where
  batch : List Metric
  retry : Retry

structure ServiceLoop (P : Platform) where
  service : Service P
  flight : Option Flight

structure PipelineLoop (P : Platform) where
  pipeline : Pipeline P String
  due : Option Span

inductive LoopId where
  | service (id : String)
  | pipeline (id : String)
  deriving DecidableEq, Repr

structure Timer where
  millis : Nat
  loop : LoopId
  deriving DecidableEq, Repr

/-- An agent at one instant: its loops, the timers in the order in which they
were set, and the loops that are awake in the order in which they woke. -/
structure Agent (P : Platform) where
  clock : Span
  services : Dict (ServiceLoop P)
  pipelines : List (PipelineLoop P)
  timers : List Timer
  ready : List LoopId
  around : Surroundings P
  cancelled : Bool

namespace Agent

variable {P : Platform}

def start (w : P.World) (r : Registry P) : Agent P where
  clock := 0
  services := r.services.map fun s => ⟨s, none⟩
  pipelines := r.pipelines.map fun p => ⟨p, none⟩
  timers := []
  ready := r.services.keys.map .service ++ r.pipelines.map fun p => .pipeline p.id
  around := { Surroundings.create w with reports := r.reports }
  cancelled := false

def loops (r : Registry P) : Nat :=
  r.services.size + r.pipelines.length

def wake (a : Agent P) (l : LoopId) : Agent P :=
  if a.ready.contains l then a else { a with ready := a.ready ++ [l] }

def timerMillis (time : Span) : Nat :=
  (time + Span.nanosPerMilli - 1) / Span.nanosPerMilli

def clearTimer (a : Agent P) (l : LoopId) : Agent P :=
  { a with timers := a.timers.filter (·.loop != l) }

def setTimer (a : Agent P) (l : LoopId) (time : Option Span) : Agent P :=
  { a with timers := a.timers ++ (time.map fun t => ⟨timerMillis t, l⟩).toList }

/-- Puts a batch into a channel. A service wakes unless it waits for an
attempt. -/
def put (a : Agent P) (target : String × List Metric) : Agent P :=
  match a.services.get? target.1 with
  | none => a
  | some l =>
    let a := { a with
      services := a.services.insert target.1 { l with service := l.service.put target.2 } }
    if target.2 = [] ∨ l.flight.isSome then a else a.wake (.service target.1)

def putAll (a : Agent P) (puts : List (String × List Metric)) : Agent P :=
  puts.foldl put a

def cancel (a : Agent P) : Agent P :=
  { a with cancelled := true }

def changeWorld (a : Agent P) (f : P.World → P.World) : Agent P :=
  { a with around := { a.around with world := f a.around.world } }

end Agent

end Telemetry
