import Telemetry.Pattern.Reader

/-!
# Matching names

A table tells for every suffix of a text, the longest first, whether what
remains of the pattern accepts it. An item turns the table of what follows it
into its own, so a pattern is decided in one pass for each of its items.
-/

set_option autoImplicit false

namespace Telemetry.Pattern

/-- One answer for every suffix of a text, the longest first. -/
abbrev Table := List Bool

def atEnd : List Char → Table
  | [] => [true]
  | _ :: cs => false :: atEnd cs

def stepOne (p : Char → Bool) : List Char → Table → Table
  | c :: cs, _ :: table => (p c && table.headD false) :: stepOne p cs table
  | _, _ => [false]

def stepRun : List Char → Table → Table
  | c :: cs, here :: table =>
    let after := stepRun cs table
    (here || (c != '/' && after.headD false)) :: after
  | _, table => table

def Atom.step : Atom → List Char → Table → Table
  | .run => stepRun
  | .any => stepOne (· != '/')
  | .char c => stepOne (· == c)
  | .oneOf k => stepOne k.holds

def atomsTable (atoms : List Atom) (cs : List Char) (table : Table) : Table :=
  atoms.foldr (fun a t => a.step cs t) table

def union (s t : Table) : Table :=
  List.zipWith (· || ·) s t

def Item.step : Item → List Char → Table → Table
  | .atom a, cs, table => a.step cs table
  | .choice alternatives, cs, table =>
    alternatives.foldr (fun atoms t => union (atomsTable atoms cs table) t)
      (table.map fun _ => false)

def itemsTable (items : List Item) (cs : List Char) : Table :=
  items.foldr (fun i t => i.step cs t) (atEnd cs)

def accepts (items : List Item) (cs : List Char) : Bool :=
  (itemsTable items cs).headD false

def matchesName (p : Pattern) (name : String) : Bool :=
  accepts p.items (Text.trimLeft '/' name.toList)

end Telemetry.Pattern
