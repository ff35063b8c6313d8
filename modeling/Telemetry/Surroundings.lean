import Telemetry.Log
import Telemetry.Platform
import Telemetry.Report

/-!
# Surroundings

What the loops of an agent share: the world they act on, the reports of what
failed last, and the log. A failure leaves both a report and an event.
-/

set_option autoImplicit false

namespace Telemetry

structure Surroundings (P : Platform) where
  world : P.World
  reports : Reports
  log : List Log.Event

namespace Surroundings

variable {P : Platform}

def create (w : P.World) : Surroundings P :=
  ⟨w, .empty, []⟩

def record (a : Surroundings P) (e : Log.Event) : Surroundings P :=
  { a with log := a.log ++ [e] }

def report (a : Surroundings P) (id plugin message : String) (failures : Nat) : FailureReport :=
  .create (P.now a.world) id plugin message failures

end Surroundings

end Telemetry
