import Telemetry.Config.Delivery
import Telemetry.FileTree
import Telemetry.Json.Parser
import Telemetry.Text.Lowercase
import Telemetry.Log

/-!
# Agent settings

Settings come from a document in which every field has a default. Variables
of the environment override some of them, and the outcome is checked. Every
publish target starts from the delivery settings given here.
-/

set_option autoImplicit false

namespace Telemetry

structure Settings where
  taskConfig : String
  apiPort : Nat
  queueSize : Nat
  batchSize : Nat
  budget : Span
  initial : Span
  cap : Span
  idle : Span
  logLevel : String
  deriving DecidableEq, Repr

def unreadableDocument : ConfigError :=
  .parse "the document does not have the expected form"

namespace Settings

def standard : Settings where
  taskConfig := "/etc/node_agent/tasks.json"
  apiPort := 7000
  queueSize := 100
  batchSize := 10
  budget := BackoffPolicy.standard.budget
  initial := BackoffPolicy.standard.initial
  cap := BackoffPolicy.standard.cap
  idle := Span.ofSeconds 1
  logLevel := "info"

def readSpan (j : Json) : Option Span :=
  j.asString.bind fun s => (Span.parse s).toOption

def ofJson (j : Json) : Option Settings := do
  let r ← j.asRecord ["TaskConfiguration", "APIServerPort", "PublisherQueueSize",
    "PublisherBatchSize", "PublisherTimeOut", "PublisherInitialInterval",
    "PublisherMaxInterval", "PublisherIdleInterval", "LogLevel"]
  return {
    taskConfig := ← r.withDefault "TaskConfiguration" standard.taskConfig Json.asString
    apiPort := ← r.withDefault "APIServerPort" standard.apiPort Json.asWord16
    queueSize := ← r.withDefault "PublisherQueueSize" standard.queueSize Json.asWord64
    batchSize := ← r.withDefault "PublisherBatchSize" standard.batchSize Json.asWord64
    budget := ← r.withDefault "PublisherTimeOut" standard.budget readSpan
    initial := ← r.withDefault "PublisherInitialInterval" standard.initial readSpan
    cap := ← r.withDefault "PublisherMaxInterval" standard.cap readSpan
    idle := ← r.withDefault "PublisherIdleInterval" standard.idle readSpan
    logLevel := ← r.withDefault "LogLevel" standard.logLevel Json.asString }

def parse (text : String) : Except ConfigError Settings :=
  match (Json.parse text).bind ofJson with
  | some s => .ok s
  | none => .error unreadableDocument

def ofFile (files : FileTree) (path : String) : Except ConfigError Settings :=
  match files.readText path with
  | .ok text => parse text
  | .error e => .error (.io path e)

inductive Variable where
  | taskConfig
  | apiPort
  | queueSize
  | batchSize
  | budget
  | initial
  | cap
  | logLevel
  deriving DecidableEq, Repr

namespace Variable

def name : Variable → String
  | taskConfig => "NODE_AGENT_TASK_CONFIG"
  | apiPort => "NODE_AGENT_API_PORT"
  | queueSize => "NODE_AGENT_PUBLISHER_QUEUE_SIZE"
  | batchSize => "NODE_AGENT_PUBLISHER_BATCH_SIZE"
  | budget => "NODE_AGENT_PUBLISHER_TIMEOUT"
  | initial => "NODE_AGENT_PUBLISHER_INITIAL_INTERVAL"
  | cap => "NODE_AGENT_PUBLISHER_MAX_INTERVAL"
  | logLevel => "NODE_AGENT_LOG_LEVEL"

def all : List Variable :=
  [taskConfig, apiPort, queueSize, batchSize, budget, initial, cap, logLevel]

end Variable

def readNumber (bound : Nat) (v : Variable) (value : String) : Except ConfigError Nat :=
  match Text.readBounded bound (Text.trimBlank value.toList) with
  | some n => .ok n
  | none => .error (.invalid (v.name ++ " must be a number, got '" ++ value ++ "'"))

def fromVariable {α : Type} (lookup : String → Option String) (v : Variable) (before : α)
    (read : String → Except ConfigError α) : Except ConfigError α :=
  match lookup v.name with
  | some value => read value
  | none => .ok before

/-- Settings with the variables that are set, read in a fixed order. -/
def override (s : Settings) (lookup : String → Option String) : Except ConfigError Settings := do
  let taskConfig ← fromVariable lookup .taskConfig s.taskConfig .ok
  let apiPort ← fromVariable lookup .apiPort s.apiPort (readNumber Word.count16 .apiPort)
  let queueSize ← fromVariable lookup .queueSize s.queueSize (readNumber Word.count64 .queueSize)
  let batchSize ← fromVariable lookup .batchSize s.batchSize (readNumber Word.count64 .batchSize)
  let budget ← fromVariable lookup .budget s.budget parseSpan
  let initial ← fromVariable lookup .initial s.initial parseSpan
  let cap ← fromVariable lookup .cap s.cap parseSpan
  let logLevel ← fromVariable lookup .logLevel s.logLevel
    fun level => .ok (Text.lowercase level)
  return { s with taskConfig, apiPort, queueSize, batchSize, budget, initial, cap, logLevel }

def validate (s : Settings) : Except ConfigError Unit := do
  if s.apiPort = 0 then
    throw (.invalid "API server port must be greater than 0")
  if s.queueSize = 0 then
    throw (.invalid "Publisher queue size must be greater than 0")
  checkIntervals s.initial s.cap
  if (Log.Level.ofWord? s.logLevel).isNone then
    throw (.invalid ("Invalid log level '" ++ s.logLevel
      ++ "'. Must be one of: trace, debug, info, warn, error"))

def load (files : FileTree) (path : Option String) (lookup : String → Option String) :
    Except ConfigError Settings := do
  let base ← match path with
    | some p => ofFile files p
    | none => .ok standard
  let s ← base.override lookup
  s.validate
  return s

def baseDelivery (s : Settings) : Delivery where
  queueSize := s.queueSize
  batchSize := max 1 s.batchSize
  backoff := { BackoffPolicy.standard with initial := s.initial, cap := s.cap, budget := s.budget }
  idle := s.idle

def delivery (s : Settings) : Option DeliveryOverrides → Except ConfigError Delivery
  | none => .ok s.baseDelivery
  | some o => s.baseDelivery.override o

end Settings

end Telemetry
