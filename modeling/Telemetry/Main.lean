import Std.Async.Signal
import Std.Async.TCP
import Std.Time.DateTime.Timestamp
import Telemetry.Daemon
import Telemetry.Endpoint.Message

/-!
# Command line

Reads the files a daemon asks for, prints its log, lets time pass, writes its
output, and answers requests until it is interrupted. Nothing is downloaded:
every fetch comes back with nothing.
-/

set_option autoImplicit false

open Std.Async

namespace Telemetry.Daemon

attribute [local instance] Pattern.SizeLimit.ofAnys

def look (p : FilePath) : IO (Option FileEntry) := do
  try
    return some (.file (← IO.FS.readBinFile (FileTree.pathText p)))
  catch
    | .inappropriateType .. => return some .directory
    | _ => return none

def survey (t : FileTree) (base : FilePath) : List String → IO FileTree
  | [] => return t
  | name :: rest => do
    if name = "" ∨ name = "." then survey t base rest
    else if name = ".." then survey t base.dropLast rest
    else
      let p := base ++ [name]
      match ← look p with
      | some e => survey (t.set p e) p rest
      | none => return t

def surveyPath (t : FileTree) (path : String) : IO FileTree :=
  survey t (if path.startsWith "/" then [] else t.current) (FileTree.names path)

def observe (paths : List String) : IO Host := do
  let current := FileTree.names (← IO.currentDir).toString
  let files ← survey (.empty (current.filter (· ≠ ""))) [] current
  let files ← paths.foldlM surveyPath files
  let now ← Std.Time.Timestamp.now
  return ⟨files, .ofNanos now.toNanosecondsSinceUnixEpoch.val, fun _ => none⟩

def clear (t : FileTree) (path : String) : FileTree :=
  match t.locate path, t.read path with
  | .ok p, .ok _ => t.set p (.file .empty)
  | _, _ => t

/-- The machine with the files to write to, which count as empty. -/
def observeFor (reads writes : List String) : IO Host := do
  let host ← observe (reads ++ writes)
  return { host with files := writes.foldl clear host.files }

def flush (t : FileTree) (writes : List String) : IO Unit := do
  for path in writes.eraseDups do
    match t.read path with
    | .ok content =>
      if content.size ≠ 0 then
        let handle ← IO.FS.Handle.mk path .append
        handle.write content
    | .error _ => pure ()

partial def receive (client : TCP.Socket.Client) (head : String) : Async String := do
  if Endpoint.isComplete head ∨ 65536 < head.utf8ByteSize then return head
  match ← client.recv? 8192 with
  | none => return head
  | some bytes =>
    match String.fromUTF8? bytes with
    | some text => receive client (head ++ text)
    | none => return head

def reply (reports : Reports) (client : TCP.Socket.Client) : Async Unit := do
  try
    let head ← receive client ""
    client.send (Endpoint.answer reports head).text.toUTF8
    client.shutdown
  catch _ => pure ()

def listen (apiPort : Nat) : IO (Except AgentError TCP.Socket.Server) := do
  try
    let server ← TCP.Socket.Server.mk
    server.bind (.v4 ⟨.ofParts 0 0 0 0, UInt16.ofNat apiPort⟩)
    server.listen 128
    return .ok server
  catch
    | .alreadyExists .. | .resourceBusy .. => return .error (.bind apiPort .addressInUse)
    | e => return .error (.bind apiPort (.other (toString e)))

def replyAll (server : TCP.Socket.Server) (reports : Reports) : IO Unit := do
  while true do
    match ← server.tryAccept with
    | some client => (background (reply reports client) : Async Unit).block
    | none => return

def beat : UInt32 := 20

def print (level : Log.Level) (events : List Log.Event) : IO Unit := do
  for line in lines level events do
    IO.println line
  (← IO.getStdout).flush

def catchUp (r : Ready) (reads : List String) (a : Agent builtin) (time : Span) :
    IO (Agent builtin) := do
  let host ← observeFor reads (writes r.registry)
  let a := (a.changeWorld fun _ => host).advance (time - a.clock)
  flush a.around.world.files (writes r.registry)
  print r.level a.around.log
  return { a with around := { a.around with log := [] } }

def isDue (a : Agent builtin) (time : Span) : Bool :=
  !a.ready.isEmpty || (a.nextMillis.map Span.ofMillis).any (· < time)

def session (r : Ready) (host : Host) (reads : List String) : IO Unit := do
  let interrupt ← (← Signal.Waiter.mk .sigint false).wait
  print r.level (startEvents r)
  let server ← listen r.settings.apiPort
  match server with
  | .ok _ => print r.level [listening r.settings.apiPort]
  | .error e => print r.level [endpointStopped e]
  let began ← IO.monoMsNow
  let mut a : Agent builtin := .start host r.registry
  while !(← IO.hasFinished interrupt) do
    IO.sleep beat
    let time := Span.ofMillis ((← IO.monoMsNow) - began)
    if isDue a time then a ← catchUp r reads a time
    if let .ok s := server then replyAll s a.around.reports
  print r.level (stopEvents r)

def usage : String :=
  "Usage: node-agentd [--config <CONFIG>]\n\n"
    ++ "  -c, --config <CONFIG>  Agent settings file (JSON). "
    ++ "NODE_AGENT_* variables override its values."

def environment : IO (String → Option String) := do
  let values ← Settings.Variable.all.mapM fun v => return (v.name, ← IO.getEnv v.name)
  return fun name => (values.lookup name).join

def start (config : Option String) : IO UInt32 := do
  let lookup ← environment
  let host ← observe (reads (.empty []) config lookup)
  let host ← observe (reads host.files config lookup)
  let paths := reads host.files config lookup
  let host ← observe paths
  match prepare host config lookup with
  | .ok r =>
    session r host paths
    return 0
  | .error refusal =>
    let (out, err) := refusal.printed
    for line in out do
      IO.println line
    if err ≠ "" then IO.eprintln err
    return 1

end Telemetry.Daemon

/-- Exit codes are 0, 1 for what cannot be loaded, and 2 for bad arguments. -/
def main (args : List String) : IO UInt32 := do
  match Telemetry.Daemon.Command.ofArguments args with
  | .run config => Telemetry.Daemon.start config
  | .help =>
    IO.println Telemetry.Daemon.usage
    return 0
  | .invalid =>
    IO.eprintln Telemetry.Daemon.usage
    return 2
