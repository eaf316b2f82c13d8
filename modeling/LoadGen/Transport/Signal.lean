import LoadGen.Pool.Acquire

/-!
# Wants and signals

The engine does no input or output of its own. What it needs from its surroundings is a `Want`, and
what it is told in return is a `Signal`; any network, real or made up, and any order of events is a
sequence of signals.
-/

namespace LoadGen

open Time (Span)

/-- What has to happen before the engine can go on. -/
inductive Want
  /-- Nothing: it can go on at once. -/
  | turn
  /-- Nothing, but others may go first. -/
  | giveWay
  /-- A free permit, until a moment. -/
  | permit (limit : Span)
  /-- A new connection to an endpoint, until a moment. -/
  | connect (endpoint : String) (limit : Span)
  /-- A moment. -/
  | moment (time : Span)
  /-- Bytes are to be written to a stream, until a moment. -/
  | write (stream : Nat) (bytes : Wire.Bytes) (limit : Span)
  /-- Bytes are to be read from a stream, until a moment. -/
  | read (stream : Nat) (limit : Span)
  /-- Nothing can happen any more. -/
  | nothing
  deriving Repr

/-- What happened. -/
inductive Signal
  /-- It is the engine's turn. -/
  | resume
  | acquire (signal : Acquire.Signal)
  | exchange (signal : Exchange.Signal)
  /-- The run is over. -/
  | stop
  deriving Repr

namespace Want

/-- The moment up to which something is wanted. -/
def limit? : Want → Option Span
  | permit limit => some limit
  | connect _ limit => some limit
  | write _ _ limit => some limit
  | read _ limit => some limit
  | _ => none

/-- The signal that the moment has passed. -/
def timeUp : Want → Signal
  | write .. => .exchange .timeUp
  | read .. => .exchange .timeUp
  | _ => .acquire .timeUp

end Want

/-- What an acquire at an endpoint waits for. -/
def Acquire.want (a : Acquire) (endpoint : String) : Want :=
  match a.stage with
  | .queued => .permit a.deadline
  | .connecting => .connect endpoint a.deadline
  | .pausing resume => .moment resume

end LoadGen
