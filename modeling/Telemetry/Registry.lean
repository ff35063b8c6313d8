import Telemetry.Pipeline.Build
import Telemetry.Publisher.Service

/-!
# Registries

A registry holds every publisher service and every pipeline of an agent.
Services are built first, so that tasks can name them as targets. An entry
that cannot be built is logged and left out, and so is one whose identifier
has been seen before.
-/

set_option autoImplicit false

namespace Telemetry

structure Registry (P : Platform) where
  services : Dict (Service P)
  pipelines : List (Pipeline P String)
  reports : Reports

namespace Registry

variable {P : Platform}

def buildService (s : Settings) (d : PublishDefinition) : Except ConfigError (Service P) :=
  match P.publisher d.plugin with
  | .error e => .error e
  | .ok publisher =>
    match s.delivery d.delivery with
    | .error e => .error e
    | .ok delivery => Service.create d.id d.plugin publisher d.config delivery

/-- Services with one more entry, unless it is repeated or cannot be built. -/
def addService (s : Settings) (services : Dict (Service P)) (d : PublishDefinition) :
    Dict (Service P) × List Log.Event :=
  if services.contains d.id then
    (services, [Log.warn ("Duplicate publisher id " ++ d.id ++ ", skipping")])
  else match buildService s d with
    | .ok service => (services.insert d.id service, [])
    | .error e => (services, [Log.warn ("Skipping publisher " ++ d.id ++ ": " ++ e.message)])

def addServices (s : Settings) (services : Dict (Service P)) :
    List PublishDefinition → Dict (Service P) × List Log.Event
  | [] => (services, [])
  | d :: ds =>
    let (services, here) := addService s services d
    let (services, later) := addServices s services ds
    (services, here ++ later)

variable [Pattern.SizeLimit]

def targets (services : Dict (Service P)) (ids : List String) : List String :=
  ids.filter services.contains

def unknownTargets (services : Dict (Service P)) (task : String) (ids : List String) :
    List Log.Event :=
  (ids.filter fun id => !services.contains id).map fun id =>
    Log.warn ("Task " ++ task ++ " references unknown publisher " ++ id)

def derivedIds (d : TaskDefinition) : List String :=
  match d.analyze with
  | some a => a.publish
  | none => []

structure Tasks (P : Platform) where
  seen : List String
  pipelines : List (Pipeline P String)

def buildPipeline (w : P.World) (services : Dict (Service P)) (d : TaskDefinition) :
    Except TaskError (Pipeline P String) :=
  Pipeline.build w d (targets services d.publish) (targets services (derivedIds d))

/-- Pipelines with one more task, unless it is repeated or cannot be built. -/
def addTask (w : P.World) (services : Dict (Service P)) (t : Tasks P) (d : TaskDefinition) :
    Tasks P × List Log.Event :=
  if t.seen.contains d.id then
    (t, [Log.warn ("Duplicate task id " ++ d.id ++ ", skipping")])
  else
    let seen := d.id :: t.seen
    let events := unknownTargets services d.id d.publish
      ++ unknownTargets services d.id (derivedIds d)
      ++ Pipeline.buildEvents (P := P) w d
    match buildPipeline w services d with
    | .ok p => (⟨seen, t.pipelines ++ [p]⟩, events)
    | .error e =>
      (⟨seen, t.pipelines⟩,
        events ++ [Log.warn ("Skipping task " ++ d.id ++ ": " ++ e.message)])

def addTasks (w : P.World) (services : Dict (Service P)) (t : Tasks P) :
    List TaskDefinition → Tasks P × List Log.Event
  | [] => (t, [])
  | d :: ds =>
    let (t, here) := addTask w services t d
    let (t, later) := addTasks w services t ds
    (t, here ++ later)

def serviceReady (e : String × Service P) : Log.Event :=
  Log.info ("Publisher " ++ e.1 ++ " (" ++ e.2.plugin ++ ") ready, queue capacity "
    ++ Text.natText e.2.channel.capacity)

def pipelineReady (p : Pipeline P String) : Log.Event :=
  Log.info ("Task " ++ p.id ++ " ready, " ++ Text.natText p.types.length
    ++ " metric types every " ++ p.interval.compact)

def readyEvents (r : Registry P) : List Log.Event :=
  r.services.entries.map serviceReady ++ r.pipelines.map pipelineReady
    ++ if r.pipelines.isEmpty then
        [Log.warn "No pipeline task could be built, the agent will only serve reports"]
      else []

def build (w : P.World) (d : Definition) (s : Settings) : Registry P × List Log.Event :=
  let (services, serviceEvents) := addServices s ∅ d.publish
  let (tasks, taskEvents) := addTasks w services ⟨[], []⟩ d.tasks
  let r : Registry P := ⟨services, tasks.pipelines, .empty⟩
  (r, serviceEvents ++ taskEvents ++ r.readyEvents)

def serviceIds (r : Registry P) : List String :=
  r.services.keys

def taskIds (r : Registry P) : List String :=
  r.pipelines.map (·.id)

end Registry

end Telemetry
