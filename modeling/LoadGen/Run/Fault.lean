import LoadGen.Config.Fault
import LoadGen.Workload.Violation

/-!
# Faults of a run

Why a run cannot start, or ends without a result.
-/

namespace LoadGen

open Weights

inductive RunFault (R : Type)
  | config (fault : Config.Fault R)
  | violation (violation : Workload.Violation)
  /-- Every worker is degraded. -/
  | noHealthyWorkers
  /-- The statistics cannot be kept. -/
  | stats (reason : String)
  /-- A worker ended in a way of its own. -/
  | worker (reason : String)

namespace RunFault

variable {R : Type} [Weight R]

def message : RunFault R → String
  | config fault => s!"invalid config: {fault.message}"
  | violation v => v.message
  | noHealthyWorkers => "no worker can reach any endpoint"
  | stats reason => s!"stats: {reason}"
  | worker reason => s!"worker task: {reason}"

/-- The message of the fault behind this one. -/
def cause? : RunFault R → Option String
  | config fault => some fault.message
  | violation v => some v.message
  | stats reason => some reason
  | noHealthyWorkers => none
  | worker _ => none

end RunFault

end LoadGen
