import LoadGen.Config.Command
import LoadGen.Keys.Alphabet
import LoadGen.Time.Span
import LoadGen.Weights.Table

/-!
# Configurations

A checked description of a run: how long it takes and how many clients it has, the endpoints they
talk to, and the keyspaces with their weighted commands and values. The engine takes its
properties for granted; `Config.Check` establishes them.
-/

namespace LoadGen

namespace Config

open Weights

/-- A family of keys and what is done to them. -/
structure Keyspace (R : Type) where
  /-- The position among the configured keyspaces. -/
  ordinal : Nat
  /-- The number of configured keyspaces; their keys are interleaved. -/
  stride : Nat
  /-- The number of bytes of a key. -/
  length : Nat
  alphabet : Keys.Alphabet
  /-- The number of keys. -/
  count : Nat
  weight : R
  commands : WeightedTable R Command
  values : Option (WeightedTable R ValueSpec)
  /-- Bounds on the number of existing structures. -/
  watermarks : Watermarks

namespace Keyspace

variable {R : Type}

/-- Whether a create or a delete has a share in the draws, so that it matters which structures
exist. -/
def tracksLifecycle [Weight R] (k : Keyspace R) : Bool :=
  k.commands.items.zipIdx.any fun (command, i) =>
    command.action.isLifecycle && Weight.less 0 (k.commands.share i)

/-- The element size that creates announce: the length of the first configured value. -/
def elementSize (k : Keyspace R) : Nat :=
  match k.values with
  | none => 0
  | some values => (values.items.head?.map (·.length)).getD 0

end Keyspace

/-- Settings of the whole run. -/
structure General where
  protocol : Protocol
  /-- The length of a measurement window. -/
  interval : Time.Span
  windows : Nat
  clients : Nat
  /-- Connections of one client to one endpoint. -/
  poolsize : Nat
  /-- Send small packets at once. -/
  noDelay : Bool
  requestTimeout : Time.Span
  connectTimeout : Time.Span
  seed : Option UInt64

/-- The offset of the end of the first `n` windows of a length. The number of windows is taken as
a 32-bit word, the largest one standing for all larger numbers. -/
def windowOffset (interval : Time.Span) (n : Nat) : Time.Span :=
  interval.scale (min n (UInt32.size - 1))

/-- The length of the whole run. -/
def General.duration (g : General) : Time.Span :=
  windowOffset g.interval g.windows

end Config

/-- A checked configuration. -/
structure Config (R : Type) where
  general : Config.General
  endpoints : List String
  keyspaces : Weights.WeightedTable R (Config.Keyspace R)

/-- Descriptors left for standard streams, log files and the runtime. -/
def reservedDescriptors : Nat := 64

/-- The open files that a run needs when every pool is full, at most `2 ^ 64 - 1`. -/
def Config.requiredDescriptors {R : Type} (c : Config R) : Nat :=
  let most := UInt64.size - 1
  let perEndpoint := min (c.general.clients * c.general.poolsize) most
  let all := min (perEndpoint * max c.endpoints.length 1) most
  min (all + reservedDescriptors) most

end LoadGen
