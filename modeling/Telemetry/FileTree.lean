import Telemetry.Error
import Telemetry.Text.Split

/-!
# Files

A tree of files and directories, held as one entry for each path below the
root. A path text is followed component by component, and everything passed
on the way must be a directory.
-/

set_option autoImplicit false

namespace Telemetry

abbrev FilePath := List String

inductive FileEntry where
  | file (content : ByteArray)
  | directory

/-- The entries below the root, and the directory relative paths start from. -/
structure FileTree where
  entries : List (FilePath × FileEntry)
  current : FilePath

namespace FileTree

def empty (current : FilePath) : FileTree :=
  ⟨[], current⟩

def entry? (t : FileTree) : FilePath → Option FileEntry
  | [] => some .directory
  | p => t.entries.lookup p

def set (t : FileTree) (p : FilePath) (e : FileEntry) : FileTree :=
  { t with entries := (p, e) :: t.entries.filter (·.1 != p) }

def makeDirectories (t : FileTree) : List FilePath → FileTree
  | [] => t
  | p :: ps =>
    let t := if (t.entry? p).isSome then t else t.set p .directory
    t.makeDirectories ps

def above (p : FilePath) : List FilePath :=
  (List.range p.length).map p.take

def place (t : FileTree) (p : FilePath) (e : FileEntry) : FileTree :=
  (t.makeDirectories (above p)).set p e

def remove (t : FileTree) (p : FilePath) : FileTree :=
  { t with entries := t.entries.filter fun e => !p.isPrefixOf e.1 }

def names (path : String) : List String :=
  (Text.split '/' path.toList).map String.ofList

def follow (t : FileTree) (base : FilePath) : List String → Except IoError FilePath
  | [] => .ok base
  | name :: rest =>
    match t.entry? base with
    | none => .error .notFound
    | some (.file _) => .error .notDirectory
    | some .directory =>
      if name = "" ∨ name = "." then t.follow base rest
      else if name = ".." then t.follow base.dropLast rest
      else t.follow (base ++ [name]) rest

/-- The path a text names; it need not exist itself. -/
def locate (t : FileTree) (path : String) : Except IoError FilePath :=
  if path.toList.contains (Char.ofNat 0) then
    .error (.other "file name contained an unexpected NUL byte")
  else match path.toList with
    | [] => .error .notFound
    | '/' :: _ => t.follow [] (names path)
    | _ => t.follow t.current (names path)

def read (t : FileTree) (path : String) : Except IoError ByteArray :=
  match t.locate path with
  | .error e => .error e
  | .ok p =>
    match t.entry? p with
    | none => .error .notFound
    | some .directory => .error .isDirectory
    | some (.file content) => .ok content

def readText (t : FileTree) (path : String) : Except IoError String :=
  match t.read path with
  | .error e => .error e
  | .ok content =>
    match String.fromUTF8? content with
    | some s => .ok s
    | none => .error .notText

def append (t : FileTree) (path : String) (content : ByteArray) : Except IoError FileTree :=
  match t.locate path with
  | .error e => .error e
  | .ok p =>
    match t.entry? p with
    | some .directory => .error .isDirectory
    | some (.file old) => .ok (t.set p (.file (old ++ content)))
    | none =>
      match t.entry? p.dropLast with
      | some .directory => .ok (t.set p (.file content))
      | some (.file _) => .error .notDirectory
      | none => .error .notFound

def pathText (p : FilePath) : String :=
  "/" ++ Text.joinWith "/" p

def joinPath (root name : String) : String :=
  if root = "" then name else root ++ "/" ++ name

end FileTree

end Telemetry
