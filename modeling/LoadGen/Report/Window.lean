import LoadGen.Stats.Window

/-!
# Reports

What is reported of a window: the actions that were drawn with their counters and latencies, bytes
sent and received, and how many structures exist at its end. The same form reports a whole run.
-/

namespace LoadGen.Report

open Config (Action)
open Stats
open Time (Span)

/-- Latencies of an action in microseconds. -/
structure Latency where
  min : Nat
  p50 : Nat
  p90 : Nat
  p99 : Nat
  p999 : Nat
  max : Nat
  deriving Repr, DecidableEq

/-- The latencies counted in a histogram. -/
def Latency.ofHistogram (h : Histogram) : Latency where
  min := h.min
  p50 := h.valueAt (.near 1 2)
  p90 := h.valueAt (.near 9 10)
  p99 := h.valueAt (.near 99 100)
  p999 := h.valueAt (.near 999 1000)
  max := h.max

/-- What is reported of an action. -/
structure ActionReport where
  action : Action
  attempted : Nat
  succeeded : Nat
  failed : Nat
  failures : List (FailureKind × Nat)
  expectedMisses : Nat
  skipped : Nat
  /-- Absent when nothing was attempted. -/
  latency : Option Latency
  deriving Repr, DecidableEq

/-- The report of an action, if it was drawn at all. -/
def ActionReport.ofStats? (action : Action) (s : ActionStats) : Option ActionReport :=
  if s.attempted = 0 ∧ s.skipped = 0 then none
  else some
    { action
      attempted := s.attempted
      succeeded := s.succeeded
      failed := s.failed.total
      failures := FailureKind.all.map fun kind => (kind, s.failed.get kind)
      expectedMisses := s.expectedMisses
      skipped := s.skipped
      latency := if 0 < s.attempted then some (.ofHistogram s.latency) else none }

/-- The report of a window or of a run. -/
structure WindowReport where
  /-- The number of the window, from zero. -/
  window : Nat
  /-- When the window starts, counted from the start of the run. -/
  start : Span
  stop : Span
  /-- The actions that were drawn, in their order. -/
  actions : List ActionReport
  bytesSent : Nat
  bytesReceived : Nat
  /-- The number of existing structures of each keyspace, where it is tracked. -/
  existing : List (Option Nat)
  deriving Repr, DecidableEq

namespace WindowReport

/-- The report of counters. -/
def ofStats (window : Nat) (start stop : Span) (stats : WindowStats)
    (existing : List (Option Nat)) : WindowReport where
  window
  start
  stop
  actions := Action.all.filterMap fun a => ActionReport.ofStats? a (stats.action a)
  bytesSent := stats.bytesSent
  bytesReceived := stats.bytesReceived
  existing

def duration (r : WindowReport) : Span := r.stop.since r.start

def attempted (r : WindowReport) : Nat := Stats.total (·.attempted) r.actions

def succeeded (r : WindowReport) : Nat := Stats.total (·.succeeded) r.actions

def failed (r : WindowReport) : Nat := Stats.total (·.failed) r.actions

def skipped (r : WindowReport) : Nat := Stats.total (·.skipped) r.actions

/-- Attempts per second, zero for a window without duration. -/
def throughput (r : WindowReport) : Float :=
  let seconds := r.duration.toSeconds
  if seconds == 0 then 0 else (UInt64.ofNat r.attempted).toFloat / seconds

/-- The report of an action, if it was drawn. -/
def action? (r : WindowReport) (a : Action) : Option ActionReport :=
  r.actions.find? (·.action = a)

end WindowReport

/-- What a finished or interrupted run adds up to. -/
structure Summary where
  /-- The number of windows that were reported. -/
  windows : Nat
  /-- Whether the run reached its last window. -/
  completed : Bool
  elapsed : Span
  /-- All reported windows together. -/
  total : WindowReport
  deriving Repr, DecidableEq

end LoadGen.Report
