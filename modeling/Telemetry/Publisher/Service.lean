import Telemetry.Config.Delivery
import Telemetry.Publisher.Channel
import Telemetry.Retry.Attempts
import Telemetry.Surroundings

/-!
# Publisher services

A service takes batches from its channel and publishes them in one call under
retry. When the retry budget is used up the batches are gone, the failure is
counted, and a report is left. When the waits overflow the batches are gone as
well, but nothing is counted.
-/

set_option autoImplicit false

namespace Telemetry

structure Service (P : Platform) where
  id : String
  plugin : String
  publisher : P.Publisher
  config : PluginConfig
  delivery : Delivery
  channel : Channel

namespace Service

variable {P : Platform}

/-- A service with an empty queue, which must have room for a batch. It is
assumed that there is memory for as many slots as the queue has, however many
they are. -/
def create (id plugin : String) (publisher : P.Publisher) (config : PluginConfig)
    (d : Delivery) : Except ConfigError (Service P) :=
  if d.queueSize = 0 then
    .error (.invalid ("Publisher " ++ id ++ " queue size must be greater than 0"))
  else .ok ⟨id, plugin, publisher, config, d, .create d.queueSize⟩

def put (s : Service P) (b : Batch) : Service P :=
  { s with channel := s.channel.put b }

def call (s : Service P) (batch : Batch) (around : Surroundings P) :
    Except PluginError Unit × Surroundings P :=
  let (result, world) := P.publish around.world s.publisher batch s.config
  (result, { around with world })

def accept (s : Service P) (batch : Batch) (attempts : Nat) (around : Surroundings P) :
    Surroundings P :=
  around.record (Log.debug ("Publisher " ++ s.id ++ " delivered " ++ Text.natText batch.length
    ++ " metrics in " ++ Text.natText attempts ++ " attempt(s)"))

def giveUp (s : Service P) (batch : Batch) (e : PublishError) (around : Surroundings P) :
    Service P × Surroundings P :=
  let channel := s.channel.fail
  let report := around.report s.id s.plugin e.message channel.failures
  let around := { around with reports := around.reports.setPublisher s.id report }
  ({ s with channel }, around.record (Log.error ("Publisher " ++ s.id ++ " dropped "
    ++ Text.natText batch.length ++ " metrics: " ++ e.message)))

/-- How a drain ends. One that overflows, or never ends, gives no answer. -/
inductive Drain where
  | idle
  | drained
  | overflow
  | unfinished
  deriving DecidableEq, Repr

structure Drained (P : Platform) where
  drain : Drain
  service : Service P
  clock : Span
  around : Surroundings P

/-- One publish call as an attempt. The world that a call leaves tells how
long the call has taken. -/
def attempt (s : Service P) (takes : P.World → Span) (batch : Batch) (clock : Span)
    (around : Surroundings P) : Except PluginError Unit × Span × Surroundings P :=
  let (result, around) := s.call batch around
  (result, clock + takes around.world, around)

def conclude (s : Service P) (batch : Batch) :
    Retry.Outcome Unit PluginError × Span × Surroundings P → Drained P
  | (.done _ attempts, clock, around) => ⟨.drained, s, clock, s.accept batch attempts around⟩
  | (.exhausted attempts elapsed e, clock, around) =>
    let (s, around) := s.giveUp batch ⟨attempts, elapsed, e⟩ around
    ⟨.drained, s, clock, around⟩
  | (.overflow, clock, around) => ⟨.overflow, s, clock, around⟩
  | (.unfinished, clock, around) => ⟨.unfinished, s, clock, around⟩

def deliver (s : Service P) (takes : P.World → Span) (batch : Batch) (clock : Span)
    (around : Surroundings P) : Drained P :=
  s.conclude batch (Retry.perform s.delivery.backoff (s.attempt takes batch) clock around)

def drainOnce (s : Service P) (takes : P.World → Span) (clock : Span)
    (around : Surroundings P) : Drained P :=
  match s.channel.take s.delivery.batchSize with
  | (none, _) => ⟨.idle, s, clock, around⟩
  | (some batch, channel) => { s with channel }.deliver takes batch clock around

def drainAll (s : Service P) (takes : P.World → Span) (clock : Span)
    (around : Surroundings P) : Drained P :=
  go s.channel.queued s clock around
where
  go : Nat → Service P → Span → Surroundings P → Drained P
    | 0, s, clock, around => ⟨.idle, s, clock, around⟩
    | fuel + 1, s, clock, around =>
      let d := s.drainOnce takes clock around
      if d.drain = .drained then go fuel d.service d.clock d.around else d

end Service

end Telemetry
