import LoadGen.Stats.Window

/-!
# Collecting statistics

Every worker records into a buffer of its own. At the end of a window the collector takes the
buffers one after the other: a spare buffer takes the place of the worker's, the worker's is merged
into the window and then reset to be the spare of the next worker. Workers may go on recording
between two such swaps.
-/

namespace LoadGen.Stats

/-- A window being sealed: what was merged so far, and the spare buffer. -/
structure Sealing where
  merged : WindowStats
  spare : WindowStats
  deriving Repr

namespace Sealing

def start : Sealing := ⟨.empty, .empty⟩

/-- Takes the buffer of a worker and leaves the spare one in its place. -/
def swap (s : Sealing) (buffer : WindowStats) : Sealing × WindowStats :=
  (⟨s.merged.merge buffer, buffer.reset⟩, s.spare)

/-- Takes buffers in order. -/
def swapAll (s : Sealing) : List WindowStats → Sealing × List WindowStats
  | [] => (s, [])
  | buffer :: rest =>
    let (s, buffer) := s.swap buffer
    let (s, rest) := s.swapAll rest
    (s, buffer :: rest)

end Sealing

/-- The buffers of all workers. -/
structure Collector where
  buffers : List WindowStats
  deriving Repr

namespace Collector

def empty : Collector := ⟨[]⟩

/-- Adds a worker, which gets the next position. -/
def register (c : Collector) : Collector := ⟨c.buffers ++ [.empty]⟩

/-- Lets a worker record. -/
def update (c : Collector) (worker : Nat) (f : WindowStats → WindowStats) : Collector :=
  ⟨c.buffers.modify worker f⟩

/-- Seals the window: all that was recorded since the last time, and the collector with fresh
buffers. -/
def flush (c : Collector) : WindowStats × Collector :=
  let (s, buffers) := Sealing.start.swapAll c.buffers
  (s.merged, ⟨buffers⟩)

end Collector

end LoadGen.Stats
