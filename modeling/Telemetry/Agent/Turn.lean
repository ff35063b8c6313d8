import Telemetry.Agent.Basic

/-!
# Turns

The turn of a service publishes until its queue is empty or an attempt fails
and is to be repeated later. The turn of a pipeline runs the ticks that are
due. A turn ends by setting a timer, unless the agent has been cancelled or
the waits of a service overflow. Such a service keeps its batch on the way and
has no timer, so that nothing wakes it again.
-/

set_option autoImplicit false

namespace Telemetry

structure Parked (P : Platform) where
  loop : ServiceLoop P
  wakeAt : Option Span
  around : Surroundings P

namespace Service

variable {P : Platform}

/-- Without a permit the service rests; with one it uses it and looks again. -/
def rest (s : Service P) (clock : Span) (around : Surroundings P) : Parked P :=
  ⟨⟨s, none⟩, some (clock + s.delivery.idle), around⟩

def proceed : Nat → Service P → Option Flight → Span → Surroundings P → Parked P
  | 0, s, flight, clock, around => ⟨⟨s, flight⟩, some (clock + s.delivery.idle), around⟩
  | fuel + 1, s, some f, clock, around =>
    match s.call f.batch around with
    | (.ok _, around) =>
      proceed fuel s none clock (s.accept f.batch f.retry.number around)
    | (.error e, around) =>
      match f.retry.failed clock with
      | .wait w retry => ⟨⟨s, some { f with retry }⟩, some (clock + w), around⟩
      | .overflow => ⟨⟨s, some f⟩, none, around⟩
      | .giveUp attempts elapsed =>
        let (s, around) := s.giveUp f.batch ⟨attempts, elapsed, e⟩ around
        proceed fuel s none clock around
  | fuel + 1, s, none, clock, around =>
    match s.channel.take s.delivery.batchSize with
    | (some batch, channel) =>
      proceed fuel { s with channel } (some ⟨batch, .start s.delivery.backoff clock⟩)
        clock around
    | (none, _) =>
      match s.channel.consume with
      | (true, channel) => proceed fuel { s with channel } none clock around
      | (false, _) => s.rest clock around

def turn (l : ServiceLoop P) (clock : Span) (around : Surroundings P) : Parked P :=
  proceed (2 * l.service.channel.queued + 4) l.service l.flight clock around

end Service

structure Ticked (P : Platform) where
  loop : PipelineLoop P
  puts : List (String × List Metric)
  around : Surroundings P

namespace PipelineLoop

variable {P : Platform}

def ticks : Nat → Pipeline P String → Span → Span → Surroundings P → Ticked P
  | 0, p, due, _, around => ⟨⟨p, some due⟩, [], around⟩
  | fuel + 1, p, due, clock, around =>
    if clock < Agent.timerMillis due * Span.nanosPerMilli then ⟨⟨p, some due⟩, [], around⟩
    else
      let run := p.runOnce around
      let rest := ticks fuel run.pipeline (due + p.interval) clock run.around
      { rest with puts := run.puts ++ rest.puts }

def turn (l : PipelineLoop P) (clock : Span) (around : Surroundings P) : Ticked P :=
  match l.due with
  | none => ⟨{ l with due := some (clock + l.pipeline.interval) }, [], around⟩
  | some due => ticks ((clock - due) / l.pipeline.interval + 1) l.pipeline due clock around

end PipelineLoop

namespace Agent

variable {P : Platform}

def serviceTurn (a : Agent P) (id : String) : Agent P :=
  match a.services.get? id with
  | none => a
  | some l =>
    if a.cancelled then a
    else
      let p := Service.turn l a.clock a.around
      { a with services := a.services.insert id p.loop, around := p.around }.setTimer
        (.service id) p.wakeAt

def replacePipeline (ls : List (PipelineLoop P)) (id : String) (l : PipelineLoop P) :
    List (PipelineLoop P) :=
  ls.map fun k => if k.pipeline.id = id then l else k

def pipelineTurn (a : Agent P) (id : String) : Agent P :=
  match a.pipelines.find? fun l => l.pipeline.id == id with
  | none => a
  | some l =>
    if a.cancelled then a
    else
      let t := l.turn a.clock a.around
      let a := { a with
        pipelines := replacePipeline a.pipelines id t.loop
        around := t.around }
      (a.putAll t.puts).setTimer (.pipeline id) (some (t.loop.due.getD a.clock))

def turn (a : Agent P) : Agent P :=
  match a.ready with
  | [] => a
  | l :: ready =>
    let a := { a with ready }.clearTimer l
    match l with
    | .service id => a.serviceTurn id
    | .pipeline id => a.pipelineTurn id

end Agent

end Telemetry
