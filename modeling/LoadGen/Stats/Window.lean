import LoadGen.Config.Command
import LoadGen.Stats.Histogram
import LoadGen.Time.Span

/-!
# Window statistics

Counters of the operations of a window, by action: what was attempted and how it ended, what was
skipped, and how long attempts took. Recording adds one operation; merging adds counters and
histograms, so that windows can be merged in any order.
-/

namespace LoadGen.Stats

open Config (Action)

/-- How an attempt can fail. -/
inductive FailureKind
  | connection
  | timeout
  | protocol
  | io
  deriving Repr, DecidableEq, Inhabited

/-- All kinds in the order in which they are reported. -/
def FailureKind.all : List FailureKind := [.connection, .timeout, .protocol, .io]

def FailureKind.name : FailureKind → String
  | .connection => "connection"
  | .timeout => "timeout"
  | .protocol => "protocol"
  | .io => "io"

/-- How an operation ended. -/
inductive Outcome
  | success
  | failure (kind : FailureKind)
  /-- Rejected by the server for a structure that is known not to exist. -/
  | expectedMiss
  /-- Held back by the watermarks and never sent. -/
  | skipped
  deriving Repr, DecidableEq

/-- An operation that is to be counted. -/
structure Entry where
  action : Action
  outcome : Outcome
  latency : Time.Span
  /-- Bytes sent and received, zero unless there was a response. -/
  sent : Nat := 0
  received : Nat := 0
  deriving Repr, DecidableEq

/-- Failures by kind. -/
structure Failures where
  connection : Nat
  timeout : Nat
  protocol : Nat
  io : Nat
  deriving Repr, DecidableEq, Inhabited

namespace Failures

def none : Failures := ⟨0, 0, 0, 0⟩

def get (f : Failures) : FailureKind → Nat
  | .connection => f.connection
  | .timeout => f.timeout
  | .protocol => f.protocol
  | .io => f.io

def bump (f : Failures) : FailureKind → Failures
  | .connection => { f with connection := f.connection + 1 }
  | .timeout => { f with timeout := f.timeout + 1 }
  | .protocol => { f with protocol := f.protocol + 1 }
  | .io => { f with io := f.io + 1 }

def merge (f g : Failures) : Failures :=
  ⟨f.connection + g.connection, f.timeout + g.timeout, f.protocol + g.protocol, f.io + g.io⟩

def total (f : Failures) : Nat := f.connection + f.timeout + f.protocol + f.io

end Failures

/-- Counters of one action. -/
structure ActionStats where
  attempted : Nat
  succeeded : Nat
  failed : Failures
  expectedMisses : Nat
  skipped : Nat
  /-- Latencies of attempts in microseconds. -/
  latency : Histogram
  deriving Repr, DecidableEq, Inhabited

namespace ActionStats

def empty : ActionStats := ⟨0, 0, .none, 0, 0, .empty⟩

/-- The latency that is counted for a span, at least one microsecond. -/
def latencyMicros (latency : Time.Span) : Nat := max latency.micros 1

/-- Counts an attempt. -/
def attempt (s : ActionStats) (latency : Time.Span) : ActionStats :=
  { s with attempted := s.attempted + 1, latency := s.latency.record (latencyMicros latency) }

/-- Counts an operation; one that was skipped is no attempt. -/
def record (s : ActionStats) (outcome : Outcome) (latency : Time.Span) : ActionStats :=
  match outcome with
  | .skipped => { s with skipped := s.skipped + 1 }
  | .success => { s with succeeded := s.succeeded + 1 }.attempt latency
  | .expectedMiss => { s with expectedMisses := s.expectedMisses + 1 }.attempt latency
  | .failure kind => { s with failed := s.failed.bump kind }.attempt latency

/-- Adds counters. Latencies that cannot be added are left out. -/
def merge (s t : ActionStats) : ActionStats :=
  { attempted := s.attempted + t.attempted
    succeeded := s.succeeded + t.succeeded
    failed := s.failed.merge t.failed
    expectedMisses := s.expectedMisses + t.expectedMisses
    skipped := s.skipped + t.skipped
    latency := (s.latency.add? t.latency).getD s.latency }

end ActionStats

/-- Counters of a window, or of a whole run once merged. -/
structure WindowStats where
  /-- One entry for each action, in their order. -/
  actions : Vector ActionStats 8
  bytesSent : Nat
  bytesReceived : Nat
  deriving Repr, DecidableEq

namespace WindowStats

theorem index_lt (a : Action) : a.index < 8 := by cases a <;> decide

def empty : WindowStats := ⟨Vector.replicate 8 .empty, 0, 0⟩

instance : Inhabited WindowStats := ⟨empty⟩

/-- The counters of an action. -/
def action (w : WindowStats) (a : Action) : ActionStats :=
  w.actions.get ⟨a.index, index_lt a⟩

/-- Counts an operation. -/
def record (w : WindowStats) (a : Action) (outcome : Outcome) (latency : Time.Span) : WindowStats :=
  { w with actions := w.actions.set a.index ((w.action a).record outcome latency) (index_lt a) }

/-- Counts bytes. -/
def recordBytes (w : WindowStats) (sent received : Nat) : WindowStats :=
  { w with bytesSent := w.bytesSent + sent, bytesReceived := w.bytesReceived + received }

/-- Counts an operation that was answered, with its bytes. -/
def recordRequest (w : WindowStats) (a : Action) (outcome : Outcome) (latency : Time.Span)
    (sent received : Nat) : WindowStats :=
  (w.record a outcome latency).recordBytes sent received

def merge (w v : WindowStats) : WindowStats where
  actions := Vector.zipWith ActionStats.merge w.actions v.actions
  bytesSent := w.bytesSent + v.bytesSent
  bytesReceived := w.bytesReceived + v.bytesReceived

/-- Counts an entry. -/
def count (w : WindowStats) (e : Entry) : WindowStats :=
  w.recordRequest e.action e.outcome e.latency e.sent e.received

/-- The same counters, all zero. -/
def reset (w : WindowStats) : WindowStats where
  actions := w.actions.map fun _ => .empty
  bytesSent := 0
  bytesReceived := 0

/-- The number of attempts of all actions. -/
def attempted (w : WindowStats) : Nat :=
  total (·.attempted) w.actions.toList

end WindowStats

end LoadGen.Stats
