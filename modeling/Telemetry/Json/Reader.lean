import Telemetry.Json.Basic
import Telemetry.Dict
import Telemetry.Decimal.Binary64

/-!
# Reading typed values from documents

A record is read from an object, where every known field may stand once and
unknown ones are ignored, or from an array with the fields in their declared
order. Absent fields take their default; an optional field without a declared
default may be absent from an object only.
-/

set_option autoImplicit false

namespace Telemetry.Json

variable {α : Type}

def asString : Json → Option String
  | .string s => some s
  | _ => none

def asBool : Json → Option Bool
  | .bool b => some b
  | _ => none

def asNatBelow (bound : Nat) : Json → Option Nat
  | .int n => if 0 ≤ n ∧ n < bound then some n.toNat else none
  | _ => none

def asWord16 : Json → Option Nat := asNatBelow Word.count16
def asWord32 : Json → Option Nat := asNatBelow Word.count32
def asWord64 : Json → Option Nat := asNatBelow Word.count64

def asFloat : Json → Option Float
  | .int n => some (Decimal.ofInt n)
  | .float x => some x
  | _ => none

def nullable (read : Json → Option α) : Json → Option (Option α)
  | .null => some none
  | j => (read j).map some

def readAll (read : Json → Option α) : List Json → Option (List α)
  | [] => some []
  | j :: js =>
    match read j, readAll read js with
    | some x, some xs => some (x :: xs)
    | _, _ => none

def asList (read : Json → Option α) : Json → Option (List α)
  | .array elements => readAll read elements
  | _ => none

def readMembers (read : Json → Option α) :
    List (String × Json) → Option (List (String × α))
  | [] => some []
  | (k, j) :: ms =>
    match read j, readMembers read ms with
    | some x, some xs => some ((k, x) :: xs)
    | _, _ => none

def asDict (read : Json → Option α) : Json → Option (Dict α)
  | .object members => (readMembers read members).map Dict.ofList
  | _ => none

structure Record where
  positional : Bool
  fields : List (String × Json)
  deriving Repr

def named (name : String) (members : List (String × Json)) : List Json :=
  (members.filter (·.1 == name)).map Prod.snd

/-- Known fields among the members; none when one of them is repeated. -/
def knownFields (members : List (String × Json)) : List String → Option (List (String × Json))
  | [] => some []
  | name :: names =>
    match named name members, knownFields members names with
    | [], some fields => some fields
    | [j], some fields => some ((name, j) :: fields)
    | _, _ => none

def asRecord (names : List String) : Json → Option Record
  | .object members => (knownFields members names).map (⟨false, ·⟩)
  | .array elements =>
    if elements.length ≤ names.length then some ⟨true, names.zip elements⟩ else none
  | _ => none

namespace Record

def get? (r : Record) (name : String) : Option Json :=
  r.fields.lookup name

def required (r : Record) (name : String) (read : Json → Option α) : Option α :=
  (r.get? name).bind read

def withDefault (r : Record) (name : String) (default : α) (read : Json → Option α) :
    Option α :=
  match r.get? name with
  | none => some default
  | some j => read j

def optional (r : Record) (name : String) (read : Json → Option α) : Option (Option α) :=
  match r.get? name with
  | none => if r.positional then none else some none
  | some j => nullable read j

end Record

mutual

def depth : Json → Nat
  | .array elements => elementsDepth elements + 1
  | .object members => membersDepth members + 1
  | _ => 0

def elementsDepth : List Json → Nat
  | [] => 0
  | j :: js => max j.depth (elementsDepth js)

def membersDepth : List (String × Json) → Nat
  | [] => 0
  | (_, j) :: ms => max j.depth (membersDepth ms)

end

mutual

/-- Members of every object sorted, the last one with a name kept; none when
something unreadable is inside. -/
def normal : Json → Option Json
  | .array elements => (elementsNormal elements).map .array
  | .object members => (membersNormal members).map fun ms => .object (Dict.ofList ms).toList
  | .unreadable => none
  | j => some j

def elementsNormal : List Json → Option (List Json)
  | [] => some []
  | j :: js =>
    match j.normal, elementsNormal js with
    | some x, some xs => some (x :: xs)
    | _, _ => none

def membersNormal : List (String × Json) → Option (List (String × Json))
  | [] => some []
  | (k, j) :: ms =>
    match j.normal, membersNormal ms with
    | some x, some xs => some ((k, x) :: xs)
    | _, _ => none

end

def maxDepth : Nat := 127

def asFreeObject (outer : Nat) (j : Json) : Option (Dict Json) :=
  if outer + j.depth ≤ maxDepth then
    match j.normal with
    | some (.object members) => some (Dict.ofList members)
    | _ => none
  else none

end Telemetry.Json
