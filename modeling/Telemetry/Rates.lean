import Telemetry.Config.PluginConfig
import Telemetry.Metric.Basic
import Telemetry.Pattern.Matching

/-!
# Rates of counters

Metrics whose names match one of the configured patterns are replaced by
their rate per second since the sample before of the same series. The first
sample of a series and a counter that has gone back have the rate zero. All
other metrics pass unchanged.
-/

set_option autoImplicit false

namespace Telemetry

structure Sample where
  value : Float
  time : Timestamp
  deriving DecidableEq, Repr

structure Rates where
  patterns : Option (List Pattern)
  previous : Dict Sample

namespace Rates

def fresh : Rates := ⟨none, ∅⟩

def patternsKey : String := "average"

def processedTag : String := "average_process"

def listed (text : String) : List String :=
  (((Text.split ',' text.toList).map Text.trimBlank).filter (· ≠ [])).map String.ofList

def readPatterns [Pattern.SizeLimit] (c : PluginConfig) : Except PluginError (List Pattern) :=
  (Pattern.compileAll (listed ((c.getText patternsKey).getD ""))).mapError .pattern

def seriesKey (m : Metric) : String :=
  let owner := match m.tags.get? "nodename" with
    | some node => node
    | none => (m.tags.get? "docker_id").getD ""
  m.name ++ "/" ++ owner

def millisBetween (earlier later : Timestamp) : Int :=
  Int.tdiv (later.since earlier) 1000000

def rate (earlier later : Sample) : Float :=
  let seconds := Decimal.ofInt (millisBetween earlier.time later.time) / 1000.0
  if seconds ≤ 0.0 ∨ later.value < earlier.value then 0.0
  else (later.value - earlier.value) / seconds

def averaged (m : Metric) (x : Float) : Metric :=
  { m with value := .float x, tags := m.tags.insert processedTag "true" }

def step (patterns : List Pattern) (previous : Dict Sample) (m : Metric) :
    Metric × Dict Sample :=
  match m.value.toFloat? with
  | none => (m, previous)
  | some x =>
    if patterns.any (·.matchesName m.name) then
      let now : Sample := ⟨x, m.timestamp⟩
      let key := seriesKey m
      let r := match previous.get? key with
        | none => 0.0
        | some before => rate before now
      (averaged m r, previous.insert key now)
    else (m, previous)

def run (patterns : List Pattern) (previous : Dict Sample) :
    List Metric → List Metric × Dict Sample
  | [] => ([], previous)
  | m :: ms =>
    let (m, previous) := step patterns previous m
    let (ms, previous) := run patterns previous ms
    (m :: ms, previous)

/-- A batch with its averaged metrics replaced. The patterns are those of the
first call on which they could be read. -/
def process [Pattern.SizeLimit] (r : Rates) (batch : List Metric) (c : PluginConfig) :
    Except PluginError (List Metric) × Rates :=
  let patterns : Except PluginError (List Pattern) := match r.patterns with
    | some ps => .ok ps
    | none => readPatterns c
  match patterns with
  | .error e => (.error e, r)
  | .ok ps =>
    let (batch, previous) := run ps r.previous batch
    (.ok batch, ⟨some ps, previous⟩)

end Rates

end Telemetry
