import LoadGen.Workload.Selection

/-!
# Surveys

What a workload would do without any server: operations are drawn one after the other, and every
one that is not expected to miss succeeds at once. A survey counts what was drawn.
-/

namespace LoadGen.Workload

variable {R : Type} [Weights.Weight R]

/-- What was drawn: by action, and over all. -/
structure Survey where
  dispatched : Array Nat
  skipped : Array Nat
  /-- Operations on structures that do not exist. -/
  misses : Nat
  /-- The sum of the key indices as a 64-bit word. -/
  keySum : UInt64

def Survey.empty : Survey := ⟨Array.replicate 8 0, Array.replicate 8 0, 0, 0⟩

/-- Draws `n` operations: the survey, the last operation that was dispatched, and what follows. -/
def survey : Nat → Survey → Option (Operation R) → Workload R → Random.Source →
    Except Violation (Survey × Option (Operation R) × Workload R × Random.Source)
  | 0, v, latest, w, s => .ok (v, latest, w, s)
  | n + 1, v, latest, w, s => do
    match ← w.select s with
    | (.skipped _ action, w, s) =>
      survey n { v with skipped := v.skipped.modify action.index (· + 1) } latest w s
    | (.dispatched o, w, s) =>
      let v := { v with
        dispatched := v.dispatched.modify o.action.index (· + 1)
        misses := if o.expectsMiss then v.misses + 1 else v.misses
        keySum := v.keySum + UInt64.ofNat o.keyIndex }
      survey n v (some o) (if o.expectsMiss then w else w.complete o .success) s

end LoadGen.Workload
