import Telemetry.Pattern.Segments

/-!
# Namespaces

A namespace is the list of elements that name a metric. An element has a
value, and a dynamic one also the name of its placeholder: in a catalog its
value is `*`, and a collected metric has the concrete value in its place.
-/

set_option autoImplicit false

namespace Telemetry

structure Namespace.Element where
  value : String
  description : String
  placeholder : Option String
  deriving DecidableEq, Repr

structure Namespace where
  elements : List Namespace.Element
  deriving DecidableEq, Repr

namespace Namespace

def Element.literal (value : String) : Element :=
  ⟨value, "", none⟩

def Element.dynamic (placeholder description : String) : Element :=
  ⟨String.ofList dynamicValue, description, some placeholder⟩

def Element.isDynamic (e : Element) : Bool :=
  e.placeholder.isSome

def empty : Namespace := ⟨[]⟩

def ofValues (values : List String) : Namespace :=
  ⟨values.map Element.literal⟩

def parse (name : String) : Namespace :=
  ofValues ((segments name.toList).map String.ofList)

def addLiteral (ns : Namespace) (value : String) : Namespace :=
  ⟨ns.elements ++ [.literal value]⟩

def addDynamic (ns : Namespace) (placeholder description : String) : Namespace :=
  ⟨ns.elements ++ [.dynamic placeholder description]⟩

def setValue (ns : Namespace) (i : Nat) (value : String) : Namespace :=
  ⟨ns.elements.modify i fun e => { e with value }⟩

def values (ns : Namespace) : List String :=
  ns.elements.map (·.value)

def size (ns : Namespace) : Nat :=
  ns.elements.length

def key (ns : Namespace) : String :=
  Text.joinWith "/" ns.values

def path (ns : Namespace) : String :=
  "/" ++ ns.key

end Namespace

end Telemetry
