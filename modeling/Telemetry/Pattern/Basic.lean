import Telemetry.Pattern.Class

/-!
# Glob patterns over separated names

A pattern is a sequence of items. An alternation holds whole sequences of
plain items, so alternations do not nest.
-/

set_option autoImplicit false

namespace Telemetry

namespace Pattern

inductive Atom where
  | run
  | any
  | char (c : Char)
  | oneOf (k : CharClass)
  deriving DecidableEq, Repr

inductive Item where
  | atom (a : Atom)
  | choice (alternatives : List (List Atom))
  deriving DecidableEq, Repr

def Atom.ordered : Atom → Bool
  | .oneOf k => k.ordered
  | _ => true

def Item.ordered : Item → Bool
  | .atom a => a.ordered
  | .choice alternatives => alternatives.all (·.all (·.ordered))

def isOperator (c : Char) : Bool :=
  c == '*' || c == '?' || c == '[' || c == '{' || c == '\\'

def isGlob (text : List Char) : Bool :=
  text.any isOperator

/-- Why a text is not a pattern. -/
inductive Fault where
  | empty
  | trailingEscape
  | unclosedClass
  | emptyClass
  | nestedAlternation
  | unclosedAlternation
  | reversedRange
  deriving DecidableEq, Repr

def Fault.reason : Fault → String
  | .empty => "empty pattern"
  | .trailingEscape => "trailing escape"
  | .unclosedClass => "unclosed character class"
  | .emptyClass => "empty character class"
  | .nestedAlternation => "nested alternation"
  | .unclosedAlternation => "unclosed alternation"
  | .reversedRange => "regex parse error: invalid character class range"

/-- Why a text is refused that is a pattern. -/
def tooLarge : String := "Compiled regex exceeds size limit of 10485760 bytes."

end Pattern

structure Pattern where
  raw : List Char
  items : List Pattern.Item
  deriving DecidableEq, Repr

structure PatternError where
  pattern : String
  reason : String
  deriving DecidableEq, Repr

def PatternError.message (e : PatternError) : String :=
  "Invalid pattern '" ++ e.pattern ++ "': " ++ e.reason

namespace Pattern

def text (p : Pattern) : String :=
  String.ofList p.raw

def isLiteral (p : Pattern) : Bool :=
  !isGlob p.raw

end Pattern

end Telemetry
