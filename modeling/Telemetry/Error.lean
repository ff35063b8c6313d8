import Telemetry.Pattern.Basic
import Telemetry.Span.Parser
import Telemetry.Span.Printer

/-!
# Errors

An error is kept as its cause; its text is made here. Every error tells the
error beneath it, if there is one. An error that merely carries another one
shows the text and the cause of the one it carries.
-/

set_option autoImplicit false

namespace Telemetry

inductive IoError where
  | notFound
  | notDirectory
  | isDirectory
  | addressInUse
  | notText
  | other (text : String)
  deriving DecidableEq, Repr

def IoError.message : IoError → String
  | .notFound => "No such file or directory (os error 2)"
  | .notDirectory => "Not a directory (os error 20)"
  | .isDirectory => "Is a directory (os error 21)"
  | .addressInUse => "Address already in use (os error 98)"
  | .notText => "stream did not contain valid UTF-8"
  | .other text => text

inductive PluginKind where
  | collector
  | processor
  | analyzer
  | publisher
  deriving DecidableEq, Repr

def PluginKind.name : PluginKind → String
  | .collector => "collector"
  | .processor => "processor"
  | .analyzer => "analyzer"
  | .publisher => "publisher"

inductive ConfigError where
  | io (path : String) (source : IoError)
  | parse (detail : String)
  | invalid (detail : String)
  | unknownPlugin (kind : PluginKind) (name : String)
  | duration (source : Span.Error)
  | pattern (source : PatternError)
  deriving DecidableEq, Repr

namespace ConfigError

def message : ConfigError → String
  | io path source => "Failed to read configuration file " ++ path ++ ": " ++ source.message
  | parse detail => "Failed to parse configuration: " ++ detail
  | invalid detail => "Invalid configuration: " ++ detail
  | unknownPlugin kind name => "Unknown " ++ kind.name ++ " plugin: " ++ name
  | duration source => source.message
  | pattern source => source.message

def cause : ConfigError → Option String
  | io _ source => some source.message
  | parse detail => some detail
  | duration source => some source.fault.message
  | invalid _ | unknownPlugin _ _ | pattern _ => none

end ConfigError

inductive PluginError where
  | missingConfig (key : String)
  | invalidConfig (key reason : String)
  | io (source : IoError)
  | http (detail : String)
  | document (detail : String)
  | pattern (source : PatternError)
  | config (source : ConfigError)
  | other (detail : String)
  deriving DecidableEq, Repr

namespace PluginError

def message : PluginError → String
  | missingConfig key => "Missing config key '" ++ key ++ "'"
  | invalidConfig key reason => "Invalid value for config key '" ++ key ++ "': " ++ reason
  | io source => "I/O error: " ++ source.message
  | http detail => "Request failed: " ++ detail
  | document detail => "Serialization error: " ++ detail
  | pattern source => source.message
  | config source => source.message
  | other detail => detail

def cause : PluginError → Option String
  | io source => some source.message
  | http detail => some detail
  | document detail => some detail
  | config source => source.cause
  | missingConfig _ | invalidConfig _ _ | pattern _ | other _ => none

end PluginError

inductive TaskError where
  | noMatchingMetrics (task plugin : String)
  | collect (source : PluginError)
  | process (source : PluginError)
  | analyze (source : PluginError)
  | pattern (source : PatternError)
  | config (source : ConfigError)
  deriving DecidableEq, Repr

namespace TaskError

def message : TaskError → String
  | noMatchingMetrics task plugin =>
    "No metric advertised by collector '" ++ plugin ++ "' matched the patterns of task " ++ task
  | collect source => "Unable to collect metrics: " ++ source.message
  | process source => "Unable to process metrics: " ++ source.message
  | analyze source => "Unable to analyze metrics: " ++ source.message
  | pattern source => source.message
  | config source => source.message

def cause : TaskError → Option String
  | collect source | process source | analyze source => some source.message
  | config source => source.cause
  | noMatchingMetrics _ _ | pattern _ => none

end TaskError

structure PublishError where
  attempts : Nat
  elapsed : Span
  source : PluginError
  deriving DecidableEq, Repr

namespace PublishError

def message (e : PublishError) : String :=
  "Publish failed after " ++ Text.natText e.attempts ++ " attempts over "
    ++ Span.compact e.elapsed ++ ": " ++ e.source.message

def cause (e : PublishError) : Option String :=
  some e.source.message

end PublishError

inductive AgentError where
  | config (source : ConfigError)
  | bind (apiPort : Nat) (source : IoError)
  | server (detail : String)
  deriving DecidableEq, Repr

namespace AgentError

def message : AgentError → String
  | config source => source.message
  | bind apiPort source =>
    "Failed to bind report server on port " ++ Text.natText apiPort ++ ": " ++ source.message
  | server detail => "Report server error: " ++ detail

def cause : AgentError → Option String
  | config source => source.cause
  | bind _ source => some source.message
  | server _ => none

end AgentError

end Telemetry
