import Telemetry.Text.Quoted
import Telemetry.Text.Split
import Telemetry.Text.Digits

/-!
# Log lines

A log event has a level, a message and further fields, and is written with
the scopes around it, the outermost first. A text among the fields is quoted;
the message is written as it is.
-/

set_option autoImplicit false

namespace Telemetry.Log

inductive Level where
  | trace
  | debug
  | info
  | warn
  | error
  deriving DecidableEq, Repr

namespace Level

def name : Level → String
  | trace => "TRACE"
  | debug => "DEBUG"
  | info => "INFO"
  | warn => "WARN"
  | error => "ERROR"

def word : Level → String
  | trace => "trace"
  | debug => "debug"
  | info => "info"
  | warn => "warn"
  | error => "error"

def all : List Level := [trace, debug, info, warn, error]

def ofWord? (w : String) : Option Level :=
  all.find? fun l => l.word = w

def ofName? (n : String) : Option Level :=
  all.find? fun l => l.name = n

def rank : Level → Nat
  | trace => 0
  | debug => 1
  | info => 2
  | warn => 3
  | error => 4

def atLeast (l least : Level) : Bool :=
  least.rank ≤ l.rank

end Level

inductive Field where
  | text (s : String)
  | number (n : Int)
  deriving DecidableEq, Repr

def Field.written : Field → String
  | .text s => Text.quoted s
  | .number n => Text.intText n

def fieldsText (fields : List (String × Field)) : String :=
  Text.joinWith " " (fields.map fun (k, f) => k ++ "=" ++ f.written)

structure Scope where
  name : String
  fields : List (String × Field)
  deriving DecidableEq, Repr

def Scope.written (s : Scope) : String :=
  if s.fields = [] then s.name ++ ": "
  else s.name ++ "\x7b" ++ fieldsText s.fields ++ "\x7d: "

structure Event where
  level : Level
  message : String
  fields : List (String × Field)
  deriving DecidableEq, Repr

def info (message : String) : Event := ⟨.info, message, []⟩
def warn (message : String) : Event := ⟨.warn, message, []⟩
def debug (message : String) : Event := ⟨.debug, message, []⟩
def error (message : String) : Event := ⟨.error, message, []⟩

def line (scopes : List Scope) (e : Event) : String :=
  "NODE_AGENT | " ++ e.level.name ++ " | " ++ String.join (scopes.map (·.written)) ++ e.message
    ++ (if e.fields = [] then "" else " " ++ fieldsText e.fields)

end Telemetry.Log
