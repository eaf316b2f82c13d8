/-!
# Violations

Bookkeeping that contradicts itself. A violation ends the run; none can arise from the public
operations on a lifecycle store.
-/

namespace LoadGen.Workload

inductive Violation
  /-- A key is listed as existing and flagged as absent. -/
  | listedAbsent (index : Nat)
  /-- The count of existing structures is not the number of listed ones. -/
  | countMismatch (existing listed : Nat)
  /-- A structure is taken from none. -/
  | negativeCount
  /-- A worker has nowhere to send its requests. -/
  | noEndpoint (worker : Nat)
  /-- Any other contradiction. -/
  | other (detail : String)
  deriving Repr, DecidableEq

/-- What is violated. -/
def Violation.detail : Violation → String
  | listedAbsent index => s!"key #{index} listed as existing while flagged absent"
  | countMismatch existing listed =>
    s!"existing-count {existing} disagrees with {listed} tracked structures"
  | negativeCount => "existing-count would go negative"
  | noEndpoint worker => s!"worker {worker} has no endpoint"
  | other detail => detail

def Violation.message (v : Violation) : String :=
  "internal invariant violated: " ++ v.detail

end LoadGen.Workload
