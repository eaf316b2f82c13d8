import LoadGen.Keys.Key
import LoadGen.Wire.Response
import LoadGen.Workload.Lifecycle

/-!
# Selecting operations

A selection draws a keyspace and one of its commands. In a tracked keyspace a create or a delete
then has to claim a structure from the lifecycle store, and is skipped if it cannot; all other
commands draw a key. Commands that carry values also draw what these look like.
-/

namespace LoadGen

open Config

/-- What is to be done: a command on the structure of a key. -/
structure Operation (R : Type) where
  keyspace : Keyspace R
  command : Command
  keyIndex : Nat
  /-- Whether the structure existed when the operation was selected, if that is tracked. -/
  existed : Option Bool
  value : Option ValueSpec

namespace Operation

variable {R : Type}

def action (o : Operation R) : Action := o.command.action

/-- Whether a rejection is what the server is expected to answer: the structure does not exist,
and the operation does not create it. -/
def expectsMiss (o : Operation R) : Bool :=
  o.existed == some false && o.action != .create

end Operation

/-- The outcome of a selection. -/
inductive Selection (R : Type)
  | dispatched (operation : Operation R)
  /-- A create or a delete that could claim no structure. -/
  | skipped (keyspace : Nat) (action : Action)

/-- A configuration with the lifecycle of its tracked keyspaces. -/
structure Workload (R : Type) where
  config : Config R
  states : Array (Option Workload.Lifecycle)

namespace Workload

variable {R : Type} [Weights.Weight R]

/-- The workload of a configuration; no structure exists. -/
def new (config : Config R) : Workload R where
  config
  states := (config.keyspaces.items.map fun k =>
    if k.tracksLifecycle then some (Lifecycle.new k.count k.watermarks) else none).toArray

omit [Weights.Weight R] in
/-- The lifecycle of the keyspace at a position, if it is tracked. -/
def state? (w : Workload R) (keyspace : Nat) : Option Lifecycle :=
  (w.states[keyspace]?).join

omit [Weights.Weight R] in
/-- The number of existing structures of each keyspace, where it is tracked. -/
def existing (w : Workload R) : List (Option Nat) :=
  w.states.toList.map (·.map (·.existing))

omit [Weights.Weight R] in
def setState (w : Workload R) (keyspace : Nat) (s : Lifecycle) : Workload R :=
  { w with states := w.states.setIfInBounds keyspace (some s) }

/-- The structure a command is about: nothing if a lifecycle command can claim none, otherwise its
index and whether it existed. -/
def claim (w : Workload R) (k : Keyspace R) (action : Action) (source : Random.Source) :
    Except Violation (Option (Nat × Option Bool) × Workload R × Random.Source) :=
  match action, w.state? k.ordinal with
  | .create, some s => do
    let (index, source) := k.drawIndex source
    match ← s.tryCreate index with
    | (.claimed i, s) => return (some (i, some false), w.setState k.ordinal s, source)
    | (_, s) => return (none, w.setState k.ordinal s, source)
  | .delete, some s => do
    match ← s.tryDelete source with
    | (.claimed i, s, source) => return (some (i, some true), w.setState k.ordinal s, source)
    | (_, s, source) => return (none, w.setState k.ordinal s, source)
  | _, s =>
    let (index, source) := k.drawIndex source
    .ok (some (index, s.map (·.exists? index)), w, source)

/-- Draws the next operation. -/
def select (w : Workload R) (source : Random.Source) :
    Except Violation (Selection R × Workload R × Random.Source) := do
  let (keyspace, source) := w.config.keyspaces.sample source
  let (command, source) := keyspace.commands.sample source
  match ← w.claim keyspace command.action source with
  | (none, w, source) => return (.skipped keyspace.ordinal command.action, w, source)
  | (some (keyIndex, existed), w, source) =>
    let (value, source) := match keyspace.values with
      | some values =>
        if command.action.carriesValue then
          let (spec, source) := values.sample source
          (some spec, source)
        else (none, source)
      | none => (none, source)
    return (.dispatched { keyspace, command, keyIndex, existed, value }, w, source)

omit [Weights.Weight R] in
/-- Applies a response to the population of the structure it is about. -/
def complete (w : Workload R) (o : Operation R) (response : Wire.Response) : Workload R :=
  match response, w.state? o.keyspace.ordinal with
  | .success, some s =>
    let items := o.command.items
    match o.action with
    | .insert => w.setState o.keyspace.ordinal (s.grow o.keyIndex items)
    | .remove => w.setState o.keyspace.ordinal (s.shrink o.keyIndex items)
    | .truncate => w.setState o.keyspace.ordinal (s.truncate o.keyIndex items)
    | _ => w
  | _, _ => w

end Workload

end LoadGen
