import LoadGen.Report.Window
import LoadGen.Run.Fault
import LoadGen.Stats.Collector
import LoadGen.Text.Quoted
import LoadGen.Worker.Step

/-!
# Runs

A run starts its workers, seals a window each time an interval has passed, and ends after the
configured number of windows, or early: when it is asked to, when a worker aborts, or when no worker
is healthy any more. Then the workers are told to stop, and the run is over once the last one has
ended. The total of a run is the merge of its sealed windows; what happened after the last of them
is in no report.

`Run` is the state of all this. Each function below is what one event does to it, and the events
may come in any order.
-/

namespace LoadGen

open Log (Event)
open Report (Summary WindowReport)
open Stats (Collector WindowStats)
open Time (Span)

/-- How a run ends. -/
inductive Verdict (R : Type)
  /-- After its last window. -/
  | completed
  /-- Early, because it was asked to. -/
  | interrupted
  | failed (fault : RunFault R)

/-- A run under way. -/
structure Run (R : Type) where
  shared : Shared R
  workers : Array (Worker R)
  /-- What the workers have recorded, in the order of their positions. -/
  collector : Collector
  /-- The sealed windows together. -/
  total : WindowStats
  /-- The number of sealed windows. -/
  sealed : Nat
  /-- How the run ends and when that was decided. -/
  verdict : Option (Verdict R × Span)

namespace Run

variable {R : Type}

/-- The settings of the run. -/
def general (r : Run R) : Config.General := r.shared.workload.config.general

/-- The seeds of `n` workers: the next words of a source. -/
def seeds : Nat → Random.Source → List UInt64
  | 0, _ => []
  | n + 1, s =>
    let (word, s) := s.next
    word :: seeds n s

/-- A run of a configuration that has endpoints. Its workers are seeded from the configured seed,
and from `entropy` if there is none. -/
def start [Weights.Weight R] (config : Config R) (entropy : UInt64) :
    Except (RunFault R) (Run R × List Event) :=
  if config.endpoints.isEmpty then .error (.config .noEndpoints)
  else
    let general := config.general
    let source := Random.Source.ofSeed (general.seed.getD entropy)
    let workers := (seeds general.clients source).zipIdx.map fun (seed, id) =>
      Worker.new config id (.ofSeed seed)
    .ok
      ({ shared :=
          { workload := .new config, health := .new general.clients, stopping := false }
         workers := workers.toArray
         collector := workers.foldl (fun c _ => c.register) .empty
         total := .empty
         sealed := 0
         verdict := none },
       [{ level := .info, component := .run, message := "run started",
          fields := [("clients", .number general.clients), ("poolsize", .number general.poolsize),
            ("endpoints", .text (Text.listed config.endpoints)),
            ("windows", .number general.windows), ("interval", .text general.interval.brief)] }])

/-- The report of the windows from `first` up to `stop`, which is not part of it. -/
def report (r : Run R) (first stop : Nat) (stats : WindowStats) : WindowReport :=
  let offset := Config.windowOffset r.general.interval
  .ofStats first (offset first) (offset stop) stats r.shared.workload.existing

/-- Decides how the run ends and tells the workers to stop. -/
def decide (r : Run R) (verdict : Verdict R) (now : Span) : Run R :=
  { r with
    verdict := some (verdict, now)
    shared := { r.shared with stopping := true } }

/-- Seals a window. The last window completes the run. -/
def tick (r : Run R) (now : Span) : Run R × WindowReport × List Event :=
  let (stats, collector) := r.collector.flush
  let r := { r with collector, total := r.total.merge stats }
  let report := r.report r.sealed (r.sealed + 1) stats
  let event : Event :=
    { level := .info, component := .run, message := "window sealed",
      fields := [("window", .number r.sealed), ("attempted", .number report.attempted),
        ("failed", .number report.failed), ("skipped", .number report.skipped)] }
  let r := { r with sealed := r.sealed + 1 }
  (if r.general.windows ≤ r.sealed then r.decide .completed now else r, report, [event])

/-- Looks for a notice that no worker is healthy. -/
def checkHealth (r : Run R) (now : Span) : Run R × List Event :=
  let (health, lost) := r.shared.health.takeNotice
  let r := { r with shared := { r.shared with health } }
  if lost then
    (r.decide (.failed .noHealthyWorkers) now,
      [{ level := .error, component := .run, message := "all workers degraded", fields := [] }])
  else (r, [])

/-- Ends the run early. -/
def shutDown (r : Run R) (now : Span) : Run R × List Event :=
  (r.decide .interrupted now,
    [{ level := .info, component := .run, message := "shutdown requested: stop run early",
       fields := [("window", .number r.sealed)] }])

/-- Gives a signal to the worker at a position. A worker that aborts ends the run. -/
def signal [Weights.Weight R] (r : Run R) (position : Nat) (now : Span) (s : Signal) :
    Run R × List Event :=
  match r.workers[position]? with
  | none => (r, [])
  | some w =>
    let turn := w.step r.shared now s
    let r := { r with
      shared := turn.shared
      workers := r.workers.setIfInBounds position turn.worker
      collector := r.collector.update position fun b => turn.entries.foldl WindowStats.count b }
    match r.verdict, turn.worker.phase with
    | none, .aborted v => (r.decide (.failed (.violation v)) now, turn.events)
    | _, _ => (r, turn.events)

/-- Gives a signal to the worker at a position, which waited until then. -/
def poll [Weights.Weight R] (r : Run R) (position : Nat) (now : Span) (s : Signal) :
    Run R × List Event :=
  match r.workers[position]? with
  | none => (r, [])
  | some w => r.signal position now (w.heed r.shared s)

/-- Whether all workers have ended. -/
def isOver (r : Run R) : Bool := r.workers.all (·.isOver)

/-- The violation of a worker that aborted, the last one in order. -/
def violation? (r : Run R) : Option Workload.Violation :=
  r.workers.toList.reverse.findSome? fun w => match w.phase with
    | .aborted v => some v
    | _ => none

/-- What the run adds up to. -/
def summary (r : Run R) (completed : Bool) (elapsed : Span) : Summary where
  windows := r.sealed
  completed
  elapsed
  total := r.report 0 r.sealed r.total

/-- The result of a run whose workers have ended. -/
def result (r : Run R) : Except (RunFault R) (Summary × List Event) :=
  let finish (completed : Bool) (elapsed : Span) : Except (RunFault R) (Summary × List Event) :=
    match r.violation? with
    | some v => .error (.violation v)
    | none => .ok (r.summary completed elapsed,
        [{ level := .info, component := .run, message := "run finished",
           fields := [("windows", .number r.sealed), ("elapsed", .text elapsed.brief),
             ("completed", .flag completed)] }])
  match r.verdict with
  | some (.failed fault, _) => .error fault
  | some (.completed, elapsed) => finish true elapsed
  | some (.interrupted, elapsed) => finish false elapsed
  | none => finish false .zero

end Run

end LoadGen
