import Telemetry.Derived.Config
import Telemetry.Derived.Window
import Telemetry.Error
import Telemetry.Pattern.Matching

/-!
# Derived metric engine

The engine keeps a window for every metric name it has seen under one of its
configurations. The first configuration whose pattern matches a name is the
one for that name, and stays so.
-/

set_option autoImplicit false

namespace Telemetry

structure CompiledConfig where
  config : DerivedConfig
  pattern : Pattern
  total : Nat
  deriving DecidableEq, Repr

structure Engine where
  interval : Span
  configs : List CompiledConfig
  windows : Dict Window

structure Derived where
  name : String
  value : Float
  deriving DecidableEq, Repr

namespace CompiledConfig

/-- Samples in a window, as a word of 64 bits and at least one. -/
def samples (window interval : Span) : Nat :=
  max 1 (window / interval % Word.count64)

def maxWindowSeconds : Nat := 9223372036854775

def compile [Pattern.SizeLimit] (interval : Span) (c : DerivedConfig) :
    Except ConfigError CompiledConfig :=
  if c.windowSeconds = 0 then
    .error (.invalid ("Observation window of " ++ c.metricName ++ " must be positive"))
  else match Pattern.compile c.metricName with
    | .error e => .error (.pattern e)
    | .ok p =>
      if maxWindowSeconds < c.windowSeconds then
        .error (.invalid "Source duration value is out of range for the target type")
      else .ok ⟨c, p, samples c.window interval⟩

def compileAll [Pattern.SizeLimit] (interval : Span) :
    List DerivedConfig → Except ConfigError (List CompiledConfig)
  | [] => .ok []
  | c :: cs =>
    match compile interval c with
    | .error e => .error e
    | .ok k =>
      match compileAll interval cs with
      | .error e => .error e
      | .ok ks => .ok (k :: ks)

def tagsMatch (k : CompiledConfig) (tags : Tags) : Bool :=
  k.config.tags.entries.all fun (key, expected) => tags.get? key == some expected

def adjusted (k : CompiledConfig) (value : Float) (normalizer : Option Float) : Float :=
  let value := match k.config.normalizer, normalizer with
    | some _, some n => if n != 0.0 then value / n else value
    | _, _ => value
  if k.config.threshold.unit = "ms" then value / 1000.0 else value

def crossed (k : CompiledConfig) (value : Float) (normalizer : Option Float) : Bool :=
  k.config.threshold.direction.crosses (k.adjusted value normalizer) k.config.threshold.value

def derivedName (k : CompiledConfig) (name : String) : String :=
  Pattern.resolveWildcard k.config.metricName name
    ++ (if k.config.normalizer.isSome then "_normalized" else "")
    ++ "/" ++ k.config.threshold.direction.name

end CompiledConfig

namespace Engine

def create [Pattern.SizeLimit] (interval : Span) (configs : List DerivedConfig) :
    Except ConfigError Engine :=
  if interval = 0 then
    .error (.invalid "Derived metric sample interval must be positive")
  else (CompiledConfig.compileAll interval configs).map fun ks => ⟨interval, ks, ∅⟩

def window? (e : Engine) (name : String) : Option Window :=
  e.windows.get? name

def configIndex (e : Engine) (name : String) : Option Nat :=
  match e.window? name with
  | some w => some w.config
  | none => e.configs.findIdx? fun k => k.pattern.matchesName name

def configFor (e : Engine) (name : String) : Option (Nat × CompiledConfig) :=
  (e.configIndex name).bind fun i => (e.configs[i]?).map fun k => (i, k)

def normalizerKey (e : Engine) (name : String) : Option String :=
  (e.configFor name).bind fun (_, k) =>
    k.config.normalizer.map fun n => Pattern.resolveWildcard n name

def feed (e : Engine) (now : Timestamp) (name : String) (value : Float) (tags : Tags)
    (normalizer : Option Float) : Option Derived × Engine :=
  match e.configFor name with
  | none => (none, e)
  | some (i, k) =>
    if k.tagsMatch tags then
      let w := ((e.window? name).getD (.fresh i k.total)).record now (k.crossed value normalizer)
      let (frequency, w) := w.complete now k.config.window
      (frequency.map fun f => ⟨k.derivedName name, f⟩,
        { e with windows := e.windows.insert name w })
    else (none, e)

end Engine

end Telemetry
