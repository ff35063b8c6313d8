import Telemetry.Config.PluginConfig
import Telemetry.FileTree
import Telemetry.Metric.Basic
import Telemetry.Text.Quoted

/-!
# Node metrics from process files

Load averages, memory sizes and processor times are read from three files
below a root directory. A file is read on the first metric type that needs
it, and at most once in a call. A processor metric type stands for one metric
of every processor listed, unless it names one of them.
-/

set_option autoImplicit false

namespace Telemetry

structure Procfs where
  root : String
  node : String
  deriving DecidableEq, Repr

namespace Procfs

def fresh : Procfs := ⟨"/proc", ""⟩

def loadFields : List String := ["load1", "load5", "load15"]

def memoryFields : List (String × String) :=
  [("mem_total", "MemTotal"), ("mem_free", "MemFree"), ("mem_available", "MemAvailable")]

def cpuFields : List String := ["user", "nice", "system", "idle", "iowait"]

def cpuNamespace (field : String) : Namespace :=
  ((Namespace.ofValues ["procfs", "cpu"]).addDynamic "cpu_id"
    "cpu identifier, all for the aggregate").addLiteral field

def catalog : List Metric :=
  loadFields.map (fun f => .ofType (Namespace.ofValues ["procfs", "load", f]) "")
    ++ memoryFields.map (fun f => .ofType (Namespace.ofValues ["procfs", "meminfo", f.1]) "kB")
    ++ cpuFields.map (fun f => .ofType (cpuNamespace f) "jiffies")

def rootKey : String := "procfs_root"

def hostnameFile : String := "sys/kernel/hostname"

def readNode (files : FileTree) (root : String) : String :=
  match files.readText (FileTree.joinPath root hostnameFile) with
  | .ok text => String.ofList (Text.trimBlank text.toList)
  | .error _ => ""

def configure (p : Procfs) (files : FileTree) (c : PluginConfig) : Procfs :=
  let root := (c.getText rootKey).getD p.root
  ⟨root, (c.getText "nodename").getD (readNode files root)⟩

def paths (c : PluginConfig) : List String :=
  [hostnameFile, "loadavg", "meminfo", "stat"].map
    (FileTree.joinPath ((c.getText rootKey).getD fresh.root))

def lines (text : List Char) : List (List Char) :=
  let parts := Text.split '\n' text
  let parts := if parts.getLast? = some [] then parts.dropLast else parts
  parts.map fun l => if l.getLast? = some '\r' then l.dropLast else l

def readWord64 (cs : List Char) : Option Nat :=
  Text.readBounded Word.count64 cs

def firstFloats : Nat → List (List Char) → Option (List Float)
  | 0, _ => some []
  | _ + 1, [] => none
  | n + 1, w :: ws =>
    match Decimal.readSigned w, firstFloats n ws with
    | some x, some xs => some (x :: xs)
    | _, _ => none

def parseLoad (text : String) : Except PluginError (List Float) :=
  match firstFloats 3 (Text.words text.toList) with
  | some xs => .ok xs
  | none => .error (.other ("Malformed loadavg: " ++ Text.quoted text))

def memoryLine (line : List Char) : Option (String × Nat) :=
  if line.contains ':' then
    let key := line.takeWhile (· != ':')
    match Text.words (line.dropWhile (· != ':')).tail with
    | [] => none
    | w :: _ => (readWord64 w).map fun n => (String.ofList (Text.trimBlank key), n)
  else none

def parseMemory (text : String) : Dict Nat :=
  Dict.ofList ((lines text.toList).filterMap memoryLine)

def readWords64 : List (List Char) → Option (List Nat)
  | [] => some []
  | w :: ws =>
    match readWord64 w, readWords64 ws with
    | some n, some ns => some (n :: ns)
    | _, _ => none

def cpuLine (line : List Char) : Option (String × List Nat) :=
  if "cpu".toList.isPrefixOf line then
    match Text.words line with
    | [] => none
    | label :: ws =>
      (readWords64 (ws.take cpuFields.length)).map fun ns =>
        (if label = "cpu".toList then "all" else String.ofList label, ns)
  else none

def parseStat (text : String) : List (String × List Nat) :=
  (lines text.toList).filterMap cpuLine

structure Readings where
  load : Option (List Float)
  memory : Option (Dict Nat)
  stat : Option (List (String × List Nat))

def Readings.none : Readings := ⟨.none, .none, .none⟩

def readFile (p : Procfs) (files : FileTree) (name : String) : Except PluginError String :=
  (files.readText (FileTree.joinPath p.root name)).mapError .io

def loadOf (p : Procfs) (files : FileTree) (r : Readings) :
    Except PluginError (List Float × Readings) :=
  match r.load with
  | some xs => .ok (xs, r)
  | none =>
    match p.readFile files "loadavg" with
    | .error e => .error e
    | .ok text =>
      match parseLoad text with
      | .error e => .error e
      | .ok xs => .ok (xs, { r with load := some xs })

def memoryOf (p : Procfs) (files : FileTree) (r : Readings) :
    Except PluginError (Dict Nat × Readings) :=
  match r.memory with
  | some d => .ok (d, r)
  | none =>
    match p.readFile files "meminfo" with
    | .error e => .error e
    | .ok text => .ok (parseMemory text, { r with memory := some (parseMemory text) })

def statOf (p : Procfs) (files : FileTree) (r : Readings) :
    Except PluginError (List (String × List Nat) × Readings) :=
  match r.stat with
  | some l => .ok (l, r)
  | none =>
    match p.readFile files "stat" with
    | .error e => .error e
    | .ok text => .ok (parseStat text, { r with stat := some (parseStat text) })

def metric (p : Procfs) (now : Timestamp) (type : Metric) (value : Metric.Value) : Metric :=
  { type with value, timestamp := now, tags := type.tags.insert "nodename" p.node }

def counter (n : Nat) : Metric.Value :=
  .int (Int64.ofNat n)

def cpuMetric (p : Procfs) (now : Timestamp) (type : Metric) (field id : String) (n : Nat) :
    Metric :=
  { p.metric now type (counter n) with ns := (cpuNamespace field).setValue 2 id }

def collectType (p : Procfs) (files : FileTree) (now : Timestamp) (r : Readings)
    (type : Metric) : Except PluginError (List Metric × Readings) :=
  match type.ns.values with
  | ["procfs", "load", field] =>
    match p.loadOf files r with
    | .error e => .error e
    | .ok (xs, r) =>
      let value := (loadFields.idxOf? field).bind fun i => xs[i]?
      .ok (value.toList.map fun x => p.metric now type (.float x), r)
  | ["procfs", "meminfo", field] =>
    match p.memoryOf files r with
    | .error e => .error e
    | .ok (sizes, r) =>
      let value := (memoryFields.lookup field).bind sizes.get?
      .ok (value.toList.map fun n => p.metric now type (counter n), r)
  | ["procfs", "cpu", cpu, field] =>
    match p.statOf files r with
    | .error e => .error e
    | .ok (rows, r) =>
      match cpuFields.idxOf? field with
      | none => .ok ([], r)
      | some i =>
        let wanted := rows.filter fun row => cpu == "*" || cpu == row.1
        .ok (wanted.filterMap fun row =>
          row.2[i]?.map fun n => p.cpuMetric now type field row.1 n, r)
  | _ => .ok ([], r)

def collectFrom (p : Procfs) (files : FileTree) (now : Timestamp) (r : Readings) :
    List Metric → Except PluginError (List Metric)
  | [] => .ok []
  | type :: types =>
    match p.collectType files now r type with
    | .error e => .error e
    | .ok (here, r) =>
      match p.collectFrom files now r types with
      | .error e => .error e
      | .ok later => .ok (here ++ later)

def collect (p : Procfs) (files : FileTree) (now : Timestamp) (types : List Metric) :
    Except PluginError (List Metric) :=
  p.collectFrom files now .none types

end Procfs

end Telemetry
