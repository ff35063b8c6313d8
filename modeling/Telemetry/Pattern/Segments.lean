import Telemetry.Pattern.Basic
import Telemetry.Text.Split

/-!
# Names segment by segment

A name is a list of segments between separators. A template takes the
segments of a concrete name at the places of its own glob segments, and two
names are compared as far as the shorter one goes.
-/

set_option autoImplicit false

namespace Telemetry

def dynamicValue : List Char := ['*']

def segments (name : List Char) : List (List Char) :=
  Text.split '/' (Text.trimLeft '/' name)

theorem segments_trimLeft (cs : List Char) : segments (Text.trimLeft '/' cs) = segments cs := by
  rw [segments, Text.trimLeft_trimLeft, segments]

namespace Pattern

/-- Glob segments of a template replaced by those at the same place of a
concrete name; past its end they stay as written. -/
def fillSegments : List (List Char) → List (List Char) → List (List Char)
  | [], _ => []
  | t :: ts, [] => t :: fillSegments ts []
  | t :: ts, c :: cs => (if isGlob t then c else t) :: fillSegments ts cs

def resolveChars (template concrete : List Char) : List Char :=
  Text.join '/' (fillSegments (segments template) (segments concrete))

def resolveWildcard (template concrete : String) : String :=
  String.ofList (resolveChars template.toList concrete.toList)

def resolve (p : Pattern) (concrete : String) : String :=
  String.ofList (resolveChars p.raw concrete.toList)

end Pattern

def segmentsAgree (actual expected : List Char) : Bool :=
  actual == expected || actual == dynamicValue || expected == dynamicValue

def agreeAlong : List (List Char) → List (List Char) → Bool
  | _, [] => true
  | [], _ :: _ => false
  | a :: actual, e :: expected => segmentsAgree a e && agreeAlong actual expected

/-- Segment-wise test that a name starts with `start`. The separators around
`start` do not count, and an empty one starts every name. -/
def beginsWith (name start : List Char) : Bool :=
  let trimmed := Text.trimRight '/' (Text.trimLeft '/' start)
  if trimmed = [] then true
  else agreeAlong (segments name) (Text.split '/' trimmed)

def hasSegmentStart (name start : String) : Bool :=
  beginsWith name.toList start.toList

end Telemetry
