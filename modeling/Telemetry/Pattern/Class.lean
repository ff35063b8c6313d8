/-!
# Bracket classes

A class lists characters and inclusive ranges of code points. Two adjacent
dashes take what follows them out of what precedes them. A negated class
accepts a character that is neither a segment separator nor listed.
-/

set_option autoImplicit false

namespace Telemetry.Pattern

inductive Member where
  | one (c : Char)
  | range (low high : Char)
  deriving DecidableEq, Repr

def Member.holds : Member → Char → Bool
  | .one c, x => x == c
  | .range low high, x => decide (low ≤ x) && decide (x ≤ high)

def Member.ordered : Member → Bool
  | .one _ => true
  | .range low high => decide (low ≤ high)

structure CharClass where
  negated : Bool
  members : List Member
  removed : List (List Member)
  deriving DecidableEq, Repr

def listed (members : List Member) (x : Char) : Bool :=
  members.any (·.holds x)

def CharClass.holds (k : CharClass) (x : Char) : Bool :=
  let kept := !k.removed.any (listed · x)
  if k.negated then !((x == '/' || listed k.members x) && kept)
  else listed k.members x && kept

def CharClass.ordered (k : CharClass) : Bool :=
  k.members.all (·.ordered) && k.removed.all (·.all (·.ordered))

/-- A class text is read as characters and dashes: a dash is one that may
stand between the ends of a range, every other character is itself. -/
inductive Token where
  | char (c : Char)
  | dash
  deriving DecidableEq, Repr

def Token.toChar : Token → Char
  | .char c => c
  | .dash => '-'

def consMember (m : Member) : List (List Member) → List (List Member)
  | [] => [[m]]
  | ms :: rest => (m :: ms) :: rest

/-- The operands between double dashes, ranges read from the left. -/
def operands : List Token → List (List Member)
  | [] => [[]]
  | .dash :: .dash :: ts => [] :: operands ts
  | .char a :: .dash :: .char b :: ts => consMember (.range a b) (operands ts)
  | t :: ts => consMember (.one t.toChar) (operands ts)

def CharClass.ofTokens (negated : Bool) (ts : List Token) : CharClass :=
  match operands ts with
  | [] => ⟨negated, [], []⟩
  | members :: removed => ⟨negated, members, removed⟩

end Telemetry.Pattern
