import Telemetry.Config.PluginConfig
import Telemetry.FileTree
import Telemetry.Metric.Document

/-!
# File sink

A batch is written as one line at the end of a file: an array of records,
one for each metric. Line ends inside texts are escaped, so a line ends only
where its batch does.
-/

set_option autoImplicit false

namespace Telemetry.FileSink

def recordJson (m : Metric) : Json :=
  .object [
    ("timestamp", .string m.timestamp.text),
    ("namespace", .string m.ns.path),
    ("data", m.value.toJson),
    ("unit", .string m.unit),
    ("tags", Metric.tagsToJson m.tags),
    ("version", .int m.version)]

def batchJson (batch : List Metric) : Json :=
  .array (batch.map recordJson)

def line (batch : List Metric) : String :=
  (batchJson batch).text ++ "\n"

def fileKey : String := "file"

def publish (files : FileTree) (batch : List Metric) (c : PluginConfig) :
    Except PluginError Unit × FileTree :=
  match c.requireText fileKey with
  | .error e => (.error e, files)
  | .ok path =>
    match files.append path (line batch).toUTF8 with
    | .error e => (.error (.io e), files)
    | .ok files => (.ok (), files)

end Telemetry.FileSink
