import Telemetry.Derived.Analyzer
import Telemetry.FileSink
import Telemetry.Platform
import Telemetry.Procfs
import Telemetry.Rates

/-!
# Built-in plugins

The plugins an agent comes with, acting on a host: its files, its clock and
what it can download.
-/

set_option autoImplicit false

namespace Telemetry

structure Host where
  files : FileTree
  now : Timestamp
  fetch : String → Option String

namespace Builtin

def name : PluginKind → String
  | .collector => "procfs"
  | .processor => "average"
  | .analyzer => "nodeanalyzer"
  | .publisher => "file"

def find {α : Type} (kind : PluginKind) (plugin : α) (n : String) : Except ConfigError α :=
  if n = name kind then .ok plugin else .error (.unknownPlugin kind n)

def collector (n : String) : Except ConfigError Procfs := find .collector .fresh n

def processor (n : String) : Except ConfigError Rates := find .processor .fresh n

def analyzer (n : String) : Except ConfigError Analyzer := find .analyzer .fresh n

def publisher (n : String) : Except ConfigError Unit := find .publisher () n

def check (kind : PluginKind) (n : String) : Except ConfigError Unit := find kind () n

def catalog (host : Host) (p : Procfs) (c : PluginConfig) :
    Except PluginError (List Metric) × Procfs :=
  (.ok Procfs.catalog, p.configure host.files c)

def collect (host : Host) (p : Procfs) (types : List Metric) :
    Except PluginError (List Metric) × Procfs :=
  (p.collect host.files host.now types, p)

def publish (host : Host) (batch : List Metric) (c : PluginConfig) :
    Except PluginError Unit × Host :=
  let (result, files) := FileSink.publish host.files batch c
  (result, { host with files })

end Builtin

def builtin [Pattern.SizeLimit] : Platform where
  World := Host
  Collector := Procfs
  Processor := Rates
  Analyzer := Analyzer
  Publisher := Unit
  now := Host.now
  collector := Builtin.collector
  processor := Builtin.processor
  analyzer := Builtin.analyzer
  publisher := Builtin.publisher
  catalog := Builtin.catalog
  collect := Builtin.collect
  process := fun _ r batch c => r.process batch c
  analyze := fun host a batch c => a.analyze host.fetch batch c
  publish := fun host _ batch c => Builtin.publish host batch c

end Telemetry
