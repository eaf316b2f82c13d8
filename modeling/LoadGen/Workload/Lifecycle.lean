import LoadGen.Config.Command
import LoadGen.Random.Source
import LoadGen.Workload.Violation

/-!
# Lifecycle of structures

For every key of a tracked keyspace the store knows if its structure exists and how many elements
it has. The existing keys are also listed, each with its position in the list, so that a random
one is found and removed without a search: the last listed key takes the place of the removed one.

A create goes out for a structure that does not exist while fewer than `high` exist, a delete for
one that exists while more than `low` do; `tryCreate` and `tryDelete` claim the structure at once.
-/

namespace LoadGen.Workload

open Config (Watermarks)

/-- How many keys a create looks at, from the drawn one on, for one that does not exist. -/
def maxProbes : Nat := 64

/-- The largest population that is counted. -/
def maxPopulation : Nat := UInt32.size - 1

/-- The state of every structure of a keyspace. -/
structure Lifecycle where
  watermarks : Watermarks
  /-- Whether the structure of a key exists. -/
  flags : Array Bool
  /-- The number of elements of each structure. -/
  populations : Array Nat
  /-- The keys of the existing structures, in no particular order. -/
  keys : Array Nat
  /-- Where an existing key stands in `keys`. -/
  positions : Array (Option Nat)
  /-- The number of existing structures. -/
  existing : Nat
  deriving Repr

/-- What came of a create or a delete. -/
inductive Transition
  /-- The structure at this index changed, and the request may go out. -/
  | claimed (index : Nat)
  /-- The watermarks forbid it. -/
  | suppressed
  /-- No structure in the required state was found. -/
  | noCandidate
  deriving Repr, DecidableEq

namespace Lifecycle

/-- The store of a keyspace with `count` keys, of which none exists. -/
def new (count : Nat) (watermarks : Watermarks) : Lifecycle where
  watermarks
  flags := Array.replicate count false
  populations := Array.replicate count 0
  keys := #[]
  positions := Array.replicate count none
  existing := 0

/-- The number of keys. -/
def count (s : Lifecycle) : Nat := s.flags.size

def exists? (s : Lifecycle) (index : Nat) : Bool := s.flags.getD index false

def population (s : Lifecycle) (index : Nat) : Nat := s.populations.getD index 0

/-- The store in one line. -/
def describe (s : Lifecycle) : String :=
  let marks := s!"Watermarks \x7b low: {s.watermarks.low}, high: {s.watermarks.high} \x7d"
  s!"StructureState \x7b watermarks: {marks}, count: {s.count}, existing: {s.existing} \x7d"

/-! ## Creating -/

/-- The keys a create looks at, in order. -/
def probes (count index : Nat) : List Nat :=
  (List.range (min maxProbes count)).map fun probe => (index + probe) % count

/-- Makes an absent structure exist, without elements. -/
def insert (s : Lifecycle) (index : Nat) : Lifecycle where
  watermarks := s.watermarks
  flags := s.flags.setIfInBounds index true
  populations := s.populations.setIfInBounds index 0
  positions := s.positions.setIfInBounds index (some s.keys.size)
  keys := s.keys.push index
  existing := s.existing + 1

/-- Claims the first absent structure from an index on. -/
def tryCreate (s : Lifecycle) (index : Nat) : Except Violation (Transition × Lifecycle) :=
  if s.watermarks.high ≤ s.existing then .ok (.suppressed, s)
  else match (probes s.count index).find? (!s.exists? ·) with
    | none => .ok (.noCandidate, s)
    | some i =>
      if (s.positions.getD i none).isSome then .error (.listedAbsent i)
      else .ok (.claimed i, s.insert i)

/-! ## Deleting -/

/-- Removes the structure listed at a position; the last listed one moves there. -/
def removeAt (s : Lifecycle) (position victim : Nat) : Lifecycle :=
  let last := s.keys.getD (s.keys.size - 1) 0
  let keys := (s.keys.setIfInBounds position last).pop
  let positions :=
    if position < keys.size then s.positions.setIfInBounds last (some position) else s.positions
  { watermarks := s.watermarks
    flags := s.flags.setIfInBounds victim false
    populations := s.populations.setIfInBounds victim 0
    keys
    positions := positions.setIfInBounds victim none
    existing := s.existing - 1 }

/-- Claims a random existing structure. Nothing is drawn while deletes are suppressed. -/
def tryDelete (s : Lifecycle) (source : Random.Source) :
    Except Violation (Transition × Lifecycle × Random.Source) :=
  if s.existing ≤ s.watermarks.low then .ok (.suppressed, s, source)
  else if s.keys.size ≠ s.existing then .error (.countMismatch s.existing s.keys.size)
  else if s.existing = 0 then .error .negativeCount
  else
    let (position, source) := source.position s.keys.size
    let victim := s.keys.getD position 0
    .ok (.claimed victim, s.removeAt position victim, source)

/-! ## Populations -/

/-- Changes the population of a structure if it exists. -/
def adjust (s : Lifecycle) (index : Nat) (change : Nat → Nat) : Lifecycle :=
  if s.exists? index then { s with populations := s.populations.modify index change } else s

/-- Adds elements, up to the largest population. -/
def grow (s : Lifecycle) (index items : Nat) : Lifecycle :=
  s.adjust index fun population => min (population + items) maxPopulation

/-- Takes elements away, down to none. -/
def shrink (s : Lifecycle) (index items : Nat) : Lifecycle :=
  s.adjust index (· - items)

/-- Leaves at most the given number of elements. -/
def truncate (s : Lifecycle) (index items : Nat) : Lifecycle :=
  s.adjust index (min · items)

end Lifecycle

end LoadGen.Workload
