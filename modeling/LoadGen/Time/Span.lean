/-!
# Spans of time

A `Span` is a non-negative length of time in whole nanoseconds, at most `Span.max`. Offsets from
the start of a run are spans too. Two texts are written: `words` names every unit down to the
nanosecond (`1m 3s 20ms`), and `brief` is one decimal number with a unit (`1.501s`).
-/

namespace LoadGen.Time

/-- A length of time in nanoseconds. -/
structure Span where
  nanos : Nat
  deriving Repr, DecidableEq, Inhabited

namespace Span

/-- The longest span that can be represented: all seconds of 64 bits and one nanosecond less than
a further second. -/
def max : Span := ⟨UInt64.size * 1000000000 - 1⟩

def zero : Span := ⟨0⟩

def ofSeconds (n : Nat) : Span := ⟨n * 1000000000⟩

def ofMillis (n : Nat) : Span := ⟨n * 1000000⟩

def ofMicros (n : Nat) : Span := ⟨n * 1000⟩

/-- Whole seconds. -/
def seconds (s : Span) : Nat := s.nanos / 1000000000

/-- Nanoseconds after the last whole second. -/
def subsecond (s : Span) : Nat := s.nanos % 1000000000

/-- Whole milliseconds. -/
def millis (s : Span) : Nat := s.nanos / 1000000

/-- Whole microseconds. -/
def micros (s : Span) : Nat := s.nanos / 1000

/-- Milliseconds, a fraction counting as a whole one. -/
def millisUp (s : Span) : Nat := (s.nanos + 999999) / 1000000

def add (s t : Span) : Span := ⟨s.nanos + t.nanos⟩

instance : Add Span := ⟨add⟩

/-- The time from `t` to `s`, zero if `t` is the later one. -/
def since (s t : Span) : Span := ⟨s.nanos - t.nanos⟩

/-- `n` times the span, at most the longest span. -/
def scale (s : Span) (n : Nat) : Span := ⟨min (s.nanos * n) max.nanos⟩

/-- The span in seconds: the whole seconds plus the nanoseconds over a thousand million, each
step rounded. -/
def toSeconds (s : Span) : Float :=
  (UInt64.ofNat s.seconds).toFloat + (UInt64.ofNat s.subsecond).toFloat / 1000000000

/-! ## Texts -/

/-- The parts of a span by unit, largest first. A year has 365.25 days and a month is a twelfth
of that. -/
def parts (s : Span) : List (Nat × String) :=
  let years := s.seconds / 31557600
  let afterYears := s.seconds % 31557600
  let months := afterYears / 2630016
  let afterMonths := afterYears % 2630016
  let days := afterMonths / 86400
  let afterDays := afterMonths % 86400
  let plural (n : Nat) (unit : String) : String := if n = 1 then unit else unit ++ "s"
  [(years, plural years "year"), (months, plural months "month"), (days, plural days "day"),
    (afterDays / 3600, "h"), (afterDays % 3600 / 60, "m"), (afterDays % 60, "s"),
    (s.subsecond / 1000000, "ms"), (s.subsecond / 1000 % 1000, "us"), (s.subsecond % 1000, "ns")]

/-- The span with every unit named and zero parts left out. -/
def words (s : Span) : String :=
  match s.parts.filter (·.1 != 0) with
  | [] => "0s"
  | named => " ".intercalate (named.map fun (n, unit) => toString n ++ unit)

/-- A decimal fraction `whole + part / 10 ^ places` without trailing zeros. -/
def decimalText (whole part places : Nat) : String :=
  if part = 0 then toString whole
  else
    let ds := Nat.toDigits 10 part
    let padded := List.replicate (places - ds.length) '0' ++ ds
    let kept := (padded.reverse.dropWhile (· == '0')).reverse
    toString whole ++ "." ++ String.ofList kept

/-- The span as one number in its largest unit. -/
def brief (s : Span) : String :=
  if 1000000000 ≤ s.nanos then decimalText s.seconds s.subsecond 9 ++ "s"
  else if 1000000 ≤ s.nanos then decimalText s.millis (s.nanos % 1000000) 6 ++ "ms"
  else if 1000 ≤ s.nanos then decimalText s.micros (s.nanos % 1000) 3 ++ "µs"
  else decimalText s.nanos 0 0 ++ "ns"

end Span

end LoadGen.Time
