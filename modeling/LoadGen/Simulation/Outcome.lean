import LoadGen.Simulation.Basic

/-!
# Outcomes of simulated runs

Whole runs against a scripted network, and runs of a single worker without a run loop around it.
-/

namespace LoadGen.Simulation

open Log (Event)
open Report (Summary WindowReport)
open Time (Span)

variable {R : Type} [Weights.Weight R]

/-- What a simulated run leaves behind. -/
structure Outcome (R : Type) where
  result : Except (RunFault R) Summary
  /-- The reports of the sealed windows. -/
  reports : List WindowReport
  events : List Event
  network : Network

/-- Runs a configuration for at most `limit` events. A configuration without endpoints does not
start. -/
def ofConfig (config : Config R) (entropy : UInt64) (plan : Plan) (script : Script)
    (limit : Nat) : Except (RunFault R) (Outcome R) := do
  let (run, events) ← Run.start config entropy
  let s := (start plan run script events).steps limit
  let (result, events) := match s.run.result with
    | .ok (summary, events) => (.ok summary, events)
    | .error fault => (.error fault, [])
  return {
    result
    reports := s.reports.toList
    events := s.events.toList ++ events
    network := s.network }

/-- What a simulated worker leaves behind. -/
structure WorkerOutcome where
  /-- The violation that made it abort. -/
  violation : Option Workload.Violation
  elapsed : Span
  health : Health
  /-- One window with all that the worker has recorded. -/
  report : WindowReport
  events : List Event
  network : Network

/-- Lets one worker run, for at most `limit` events, until the network or the time `stopAt` stops
it. -/
def ofWorker (worker : Worker R) (config : Config R) (health : Health) (stopAt : Option Nat)
    (script : Script) (limit : Nat) : WorkerOutcome :=
  let run : Run R :=
    { shared := { workload := .new config, health, stopping := false }
      workers := #[worker]
      collector := Stats.Collector.empty.register
      total := .empty
      sealed := 0
      verdict := none }
  let plan : Plan := { attended := false, shutdownAt := none, stopAt, listening := false }
  let s := (start plan run script []).steps limit
  { violation := s.run.violation?
    elapsed := s.clock
    health := s.run.shared.health
    report := .ofStats 0 .zero s.clock s.run.collector.flush.1 s.run.shared.workload.existing
    events := s.events.toList
    network := s.network }

end LoadGen.Simulation
