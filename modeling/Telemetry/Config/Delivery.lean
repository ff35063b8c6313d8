import Telemetry.Error
import Telemetry.Json.Reader
import Telemetry.Retry.Backoff

/-!
# Delivery settings

How many batches a publish target queues, how many of them go into one call,
how failed calls are retried and how long an empty queue is left alone. A
target may override some of these.
-/

set_option autoImplicit false

namespace Telemetry

structure Delivery where
  queueSize : Nat
  batchSize : Nat
  backoff : BackoffPolicy
  idle : Span
  deriving DecidableEq, Repr

def Delivery.standard : Delivery where
  queueSize := 100
  batchSize := 10
  backoff := .standard
  idle := Span.ofSeconds 1

structure DeliveryOverrides where
  queueSize : Option Nat
  batchSize : Option Nat
  budget : Option String
  initial : Option String
  cap : Option String
  deriving DecidableEq, Repr

namespace DeliveryOverrides

def none : DeliveryOverrides :=
  ⟨.none, .none, .none, .none, .none⟩

def ofJson (j : Json) : Option DeliveryOverrides := do
  let r ← j.asRecord
    ["queueSize", "batchSize", "maxElapsedTime", "initialInterval", "maxInterval"]
  return {
    queueSize := ← r.optional "queueSize" Json.asWord64
    batchSize := ← r.optional "batchSize" Json.asWord64
    budget := ← r.optional "maxElapsedTime" Json.asString
    initial := ← r.optional "initialInterval" Json.asString
    cap := ← r.optional "maxInterval" Json.asString }

end DeliveryOverrides

def checkIntervals (initial cap : Span) : Except ConfigError Unit :=
  if initial = 0 ∨ cap < initial then
    .error (.invalid ("Publisher backoff intervals are inconsistent: initial "
      ++ initial.compact ++ ", max " ++ cap.compact))
  else .ok ()

def parseSpan (text : String) : Except ConfigError Span :=
  (Span.parse text).mapError .duration

def overrideSpan (given : Option String) (before : Span) : Except ConfigError Span :=
  match given with
  | some text => parseSpan text
  | none => .ok before

namespace Delivery

def override (d : Delivery) (o : DeliveryOverrides) : Except ConfigError Delivery := do
  if o.queueSize = some 0 then
    throw (.invalid "queueSize must be greater than 0")
  let budget ← overrideSpan o.budget d.backoff.budget
  let initial ← overrideSpan o.initial d.backoff.initial
  let cap ← overrideSpan o.cap d.backoff.cap
  checkIntervals initial cap
  if budget = 0 then
    throw (.invalid "maxElapsedTime must be greater than 0")
  return {
    queueSize := o.queueSize.getD d.queueSize
    batchSize := max 1 (o.batchSize.getD d.batchSize)
    backoff := { d.backoff with initial, cap, budget }
    idle := d.idle }

end Delivery

end Telemetry
