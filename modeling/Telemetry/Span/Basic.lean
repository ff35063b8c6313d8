import Telemetry.Word

/-!
# Lengths of time

A length of time is a whole number of nanoseconds. Its number of whole
seconds has 64 bits, so every length lies below `Span.bound`.
-/

set_option autoImplicit false

namespace Telemetry

abbrev Span := Nat

namespace Span

def nanosPerSecond : Nat := 1000000000
def nanosPerMilli : Nat := 1000000

def bound : Span := Word.count64 * nanosPerSecond

def ofSeconds (n : Nat) : Span := n * nanosPerSecond

def ofMillis (n : Nat) : Span := n * nanosPerMilli

def wholeSeconds (s : Span) : Nat := s / nanosPerSecond

def subsecond (s : Span) : Nat := s % nanosPerSecond

end Span

inductive TimeUnit where
  | nano
  | micro
  | milli
  | second
  | minute
  | hour
  | day
  | week
  | month
  | year
  deriving DecidableEq, Repr

namespace TimeUnit

def seconds : TimeUnit → Nat
  | nano | micro | milli => 0
  | second => 1
  | minute => 60
  | hour => 3600
  | day => 86400
  | week => 604800
  | month => 2630016
  | year => 31557600

def nanos : TimeUnit → Nat
  | nano => 1
  | micro => 1000
  | milli => 1000000
  | u => u.seconds * Span.nanosPerSecond

def names : TimeUnit → List String
  | nano => ["nanos", "nsec", "ns"]
  | micro => ["usec", "us", "µs"]
  | milli => ["millis", "msec", "ms"]
  | second => ["seconds", "second", "secs", "sec", "s"]
  | minute => ["minutes", "minute", "min", "mins", "m"]
  | hour => ["hours", "hour", "hr", "hrs", "h"]
  | day => ["days", "day", "d"]
  | week => ["weeks", "week", "wk", "wks", "w"]
  | month => ["months", "month", "M"]
  | year => ["years", "year", "yr", "yrs", "y"]

def all : List TimeUnit :=
  [nano, micro, milli, second, minute, hour, day, week, month, year]

def ofName? (name : String) : Option TimeUnit :=
  all.find? fun u => u.names.contains name

end TimeUnit

end Telemetry
