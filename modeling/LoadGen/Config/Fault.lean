import LoadGen.Config.Basic

/-!
# What can be wrong with a configuration

Every way in which a configuration is refused, with its message. Keyspaces are named by their
position.
-/

namespace LoadGen.Config

open Weights

/-- Settings that must be positive. -/
inductive Setting
  | interval
  | windows
  | clients
  | poolsize
  | requestTimeout
  | connectTimeout
  deriving Repr, DecidableEq

def Setting.name : Setting → String
  | interval => "general.interval"
  | windows => "general.windows"
  | clients => "general.clients"
  | poolsize => "general.poolsize"
  | requestTimeout => "general.request_timeout"
  | connectTimeout => "general.connect_timeout"

/-- The largest key count of a keyspace whose structures are tracked. -/
def maxTrackedKeys : Nat := 1 <<< 27

/-- What is wrong inside a keyspace. -/
inductive KeyspaceFault
  | zeroLength
  | zeroCount
  /-- Keys of this length cannot tell this many keys apart in every keyspace. -/
  | tooFewKeys (length count : Nat)
  | noCommands
  | zeroItems (action : Action)
  | tooManyItems (action : Action) (items : Nat)
  /-- Watermarks on an action that neither creates nor deletes. -/
  | strayWatermarks (action : Action)
  | noValues
  | badValueLength (length : Nat)
  | wideInteger (length : Nat)
  | tooManyTracked (count : Nat)
  deriving Repr, DecidableEq

def KeyspaceFault.message : KeyspaceFault → String
  | .zeroLength => "key length must be greater than zero"
  | .zeroCount => "key count must be greater than zero"
  | .tooFewKeys length count => s!"key length {length} cannot hold {count} distinct keys"
  | .noCommands => "command list is empty"
  | .zeroItems action => s!"{action.name}: items must be at least 1"
  | .tooManyItems action items => s!"{action.name}: items {items} is too large"
  | .strayWatermarks action => s!"{action.name}: watermarks only apply to create and delete"
  | .noValues => "value producing commands require at least one value"
  | .badValueLength length => s!"value length {length} is invalid"
  | .wideInteger length => s!"integer values are at most 8 bytes, got {length}"
  | .tooManyTracked count =>
    s!"create/delete track at most {maxTrackedKeys} keys, got {count}"

/-- The weighted lists of a configuration. -/
inductive WeightedList
  | keyspaces
  | commands (keyspace : Nat)
  | values (keyspace : Nat)
  deriving Repr, DecidableEq

def WeightedList.name : WeightedList → String
  | .keyspaces => "keyspaces"
  | .commands keyspace => s!"keyspace #{keyspace} commands"
  | .values keyspace => s!"keyspace #{keyspace} values"

/-- Why a file cannot be read as text. -/
inductive ReadFault
  | notFound
  | notText
  | other (reason : String)
  deriving Repr, DecidableEq

def ReadFault.message : ReadFault → String
  | .notFound => "No such file or directory (os error 2)"
  | .notText => "stream did not contain valid UTF-8"
  | .other reason => reason

/-- Why a configuration is refused. -/
inductive Fault (R : Type)
  | unreadable (path : String) (reason : ReadFault)
  /-- The text is no document of the expected shape. -/
  | malformed (reason : String)
  | unknownProtocol (name : String)
  | zero (setting : Setting)
  | invalidEndpoint (endpoint : String)
  | noEndpoints
  | noKeyspaces
  | invalidKeyspace (keyspace : Nat) (fault : KeyspaceFault)
  | unknownAction (keyspace : Nat) (name : String)
  | unknownValueClass (keyspace : Nat) (name : String)
  | invertedWatermarks (keyspace low high : Nat)
  | conflictingWatermarks (keyspace : Nat) (first second : Watermarks)
  | badWeights (list : WeightedList) (fault : WeightFault R)

namespace Fault

variable {R : Type} [Weight R]

def message : Fault R → String
  | unreadable path reason => s!"read config file '{path}': {reason.message}"
  | malformed reason => s!"parse config: {reason}"
  | unknownProtocol name => s!"unknown protocol '{name}'"
  | zero setting => s!"{setting.name}: must be greater than zero"
  | invalidEndpoint endpoint => s!"invalid endpoint '{endpoint}': expected host:port"
  | noEndpoints => "no endpoints configured"
  | noKeyspaces => "no keyspaces configured"
  | invalidKeyspace keyspace fault => s!"keyspace #{keyspace}: {fault.message}"
  | unknownAction keyspace name => s!"keyspace #{keyspace}: unknown action '{name}'"
  | unknownValueClass keyspace name => s!"keyspace #{keyspace}: unknown value class '{name}'"
  | invertedWatermarks keyspace low high =>
    s!"keyspace #{keyspace}: watermark_low ({low}) exceeds watermark_high ({high})"
  | conflictingWatermarks keyspace first second =>
    s!"keyspace #{keyspace}: watermarks {second.low}..={second.high} " ++
      s!"conflict with {first.low}..={first.high}"
  | badWeights list fault => s!"{list.name}: {fault.message}"

/-- The message of the fault behind this one. -/
def cause? : Fault R → Option String
  | unreadable _ reason => some reason.message
  | malformed reason => some reason
  | badWeights _ fault => some fault.message
  | _ => none

end Fault

end LoadGen.Config
