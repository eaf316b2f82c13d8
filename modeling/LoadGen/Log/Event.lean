/-!
# Log events

What a run reports besides its windows: an event has a level, the component it comes from, a
message and named fields. Operations return their events as values; writing them down is left to
the caller.
-/

namespace LoadGen.Log

/-- Levels from the most severe to the most verbose. -/
inductive Level
  | error
  | warn
  | info
  | debug
  | trace
  deriving Repr, DecidableEq, Inhabited

/-- The position of a level, growing with verbosity. -/
def Level.rank : Level → Nat
  | .error => 0
  | .warn => 1
  | .info => 2
  | .debug => 3
  | .trace => 4

/-- The parts of the program that log. -/
inductive Component
  | config
  | pool
  | worker
  | run
  | limits
  | logging
  | program
  deriving Repr, DecidableEq, Inhabited

/-- The value of a field. -/
inductive Value
  | number (n : Nat)
  | flag (b : Bool)
  | text (s : String)
  deriving Repr, DecidableEq, Inhabited

/-- An event with its fields in the order they are given. -/
structure Event where
  level : Level
  component : Component
  message : String
  fields : List (String × Value)
  deriving Repr, DecidableEq, Inhabited

/-- The events that are kept when `limit` is the most verbose level. -/
def upTo (limit : Level) (events : List Event) : List Event :=
  events.filter (·.level.rank ≤ limit.rank)

end LoadGen.Log
