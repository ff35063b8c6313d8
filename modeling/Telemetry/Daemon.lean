import Telemetry.Agent.Clock
import Telemetry.Builtin
import Telemetry.Endpoint

/-!
# The daemon

The daemon reads its arguments and settings, builds a registry, runs the
agent until it is asked to stop, and logs what it does. A fault in the
arguments, the settings or the task definitions ends it before it starts.
-/

set_option autoImplicit false

namespace Telemetry.Daemon

inductive Command where
  | run (config : Option String)
  | help
  | invalid
  deriving DecidableEq, Repr

def dropLead (lead text : String) : Option String :=
  if lead.toList.isPrefixOf text.toList then
    some (String.ofList (text.toList.drop lead.length))
  else none

inductive Argument where
  | help
  | config
  | configIs (value : String)
  | endOfOptions
  | other
  deriving DecidableEq, Repr

def Argument.ofText (text : String) : Argument :=
  if text = "--help" then .help
  else if text = "--config" ∨ text = "-c" then .config
  else if text = "--" then .endOfOptions
  else match dropLead "--config=" text, dropLead "--" text, dropLead "-c=" text,
      dropLead "-c" text, dropLead "-h" text with
    | some value, _, _, _, _ => .configIs value
    | none, some _, _, _, _ => .other
    | none, none, some value, _, _ => .configIs value
    | none, none, none, some value, _ => .configIs value
    | none, none, none, none, some _ => .help
    | none, none, none, none, none => .other

def isValue (text : String) : Bool :=
  match text.toList with
  | [] => false
  | ['-'] => true
  | '-' :: _ => false
  | _ => true

def Command.read (config : Option String) : List String → Command
  | [] => .run config
  | text :: rest =>
    match Argument.ofText text with
    | .help => .help
    | .other => .invalid
    | .endOfOptions => if rest = [] then .run config else .invalid
    | .configIs value =>
      if value = "" ∨ config.isSome then .invalid else read (some value) rest
    | .config =>
      match rest with
      | [] => .invalid
      | value :: rest =>
        if isValue value ∧ config.isNone then read (some value) rest else .invalid

def Command.ofArguments (args : List String) : Command :=
  read none args

variable [Pattern.SizeLimit]

structure Ready where
  settings : Settings
  level : Log.Level
  registry : Registry builtin
  events : List Log.Event

inductive Refusal where
  | settings (e : ConfigError)
  | definition (level : Log.Level) (e : ConfigError)
  deriving DecidableEq, Repr

def logLevel (s : Settings) : Log.Level :=
  (Log.Level.ofWord? s.logLevel).getD .info

def lines (level : Log.Level) (events : List Log.Event) : List String :=
  (events.filter fun e => e.level.atLeast level).map (Log.line [])

def enabled : Log.Event :=
  Log.debug "Logging subsystem enabled"

def unloadable (e : ConfigError) : Log.Event :=
  Log.error ("Unable to load task configuration: " ++ e.message)

def Refusal.printed : Refusal → List String × String
  | .settings e => ([], "Invalid agent settings: " ++ e.message)
  | .definition level e => (lines level [enabled, unloadable e], "")

def prepare (host : Host) (config : Option String) (lookup : String → Option String) :
    Except Refusal Ready :=
  match Settings.load host.files config lookup with
  | .error e => .error (.settings e)
  | .ok settings =>
    let level := logLevel settings
    match Definition.ofFile host.files settings.taskConfig with
    | .error e => .error (.definition level e)
    | .ok definition =>
      let (registry, events) := Registry.build (P := builtin) host definition settings
      .ok ⟨settings, level, registry, enabled :: events⟩

/-- The files a daemon reads that can be told from those read so far: the
settings, then the task definitions, then what the collectors read. -/
def reads (files : FileTree) (config : Option String) (lookup : String → Option String) :
    List String :=
  config.toList ++ match Settings.load files config lookup with
    | .error _ => []
    | .ok settings =>
      settings.taskConfig :: match Definition.ofFile files settings.taskConfig with
        | .error _ => []
        | .ok d => d.tasks.flatMap fun t => Procfs.paths t.collect.config

def writes (r : Registry builtin) : List String :=
  r.services.entries.filterMap fun e => e.2.config.getText FileSink.fileKey

def loopsStarted (r : Registry builtin) : Log.Event :=
  Log.info ("Started " ++ Text.natText (Agent.loops r) ++ " pipeline loops")

def serviceStarted (e : String × Service builtin) : Log.Event :=
  Log.debug ("Publisher " ++ e.1 ++ " (" ++ e.2.plugin ++ ") started")

def pipelineStarted (p : Pipeline builtin String) : Log.Event :=
  Log.info ("Task " ++ p.id ++ " started, collecting " ++ Text.natText p.types.length
    ++ " metric types every " ++ p.interval.compact)

def listening (apiPort : Nat) : Log.Event :=
  Log.info ("Report endpoint listening on " ++ Endpoint.address (Text.natText apiPort))

def endpointStopped (e : AgentError) : Log.Event :=
  Log.error ("Report endpoint stopped: " ++ e.message)

def startEvents (r : Ready) : List Log.Event :=
  r.events ++ [loopsStarted r.registry, Log.info "Node agent started"]
    ++ r.registry.services.entries.map serviceStarted
    ++ r.registry.pipelines.map pipelineStarted

def stopEvents (r : Ready) : List Log.Event :=
  [Log.info "Shutting down node agent"]
    ++ r.registry.services.entries.map (fun e => Log.debug ("Publisher " ++ e.1 ++ " stopped"))
    ++ r.registry.pipelines.map fun p => Log.debug ("Task " ++ p.id ++ " stopped")

def sessionLines (r : Ready) : List String :=
  lines r.level (startEvents r ++ [listening r.settings.apiPort] ++ stopEvents r)

end Telemetry.Daemon
