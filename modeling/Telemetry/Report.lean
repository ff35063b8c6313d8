import Telemetry.Json.Printer
import Telemetry.Dict
import Telemetry.Timestamp.Basic

/-!
# Failure reports

The latest failure of every task and of every publish target. A new report
takes the place of the one before it.
-/

set_option autoImplicit false

namespace Telemetry

structure FailureReport where
  id : String
  plugin : String
  message : String
  millis : Int
  failures : Nat
  deriving DecidableEq, Repr

namespace FailureReport

def create (now : Timestamp) (id plugin message : String) (failures : Nat) : FailureReport :=
  ⟨id, plugin, message, now.seconds * 1000 + (now.nanos / 1000000 : Nat), failures⟩

def toJson (r : FailureReport) : Json :=
  .object
    ((if r.id = "" then [] else [("Id", .string r.id)])
      ++ [("Plugin", .string r.plugin), ("LastErrorMessage", .string r.message),
        ("LastErrorTimestamp", .int r.millis), ("FailureCount", .int r.failures)])

end FailureReport

structure Reports where
  tasks : Dict FailureReport
  publishers : Dict FailureReport

namespace Reports

def empty : Reports := ⟨∅, ∅⟩

def setTask (r : Reports) (id : String) (f : FailureReport) : Reports :=
  { r with tasks := r.tasks.insert id f }

def setPublisher (r : Reports) (id : String) (f : FailureReport) : Reports :=
  { r with publishers := r.publishers.insert id f }

def task? (r : Reports) (id : String) : Option FailureReport :=
  r.tasks.get? id

def publisher? (r : Reports) (id : String) : Option FailureReport :=
  r.publishers.get? id

def reportsJson (d : Dict FailureReport) : Json :=
  .object (d.map FailureReport.toJson).toList

def toJson (r : Reports) : Json :=
  .object [("tasks", reportsJson r.tasks), ("publishers", reportsJson r.publishers)]

def text (r : Reports) : String :=
  r.toJson.text

end Reports

end Telemetry
