import LoadGen.Weights.Weight

/-!
# Configurations as written

The shape of a configuration file before anything in it is checked: names are still text, absent
settings are filled in with their defaults, and numbers may be anything that fits 64 bits.
-/

namespace LoadGen.Config

/-- A value as written. -/
structure ValueDraft (R : Type) where
  length : Nat
  weight : R
  kind : String := "bytes"

/-- A command as written. -/
structure CommandDraft (R : Type) where
  action : String
  weight : R
  low : Option Nat := none
  high : Option Nat := none
  items : Option Nat := none

/-- A keyspace as written. -/
structure KeyspaceDraft (R : Type) where
  length : Nat
  count : Nat
  weight : R
  commands : List (CommandDraft R) := []
  values : List (ValueDraft R) := []

/-- The settings of the run as written: the interval in seconds, timeouts in microseconds. -/
structure GeneralDraft where
  protocol : String
  interval : Nat
  windows : Nat
  clients : Nat
  poolsize : Nat
  noDelay : Bool := false
  requestTimeout : Nat
  connectTimeout : Nat
  seed : Option UInt64 := none

/-- A configuration as written. -/
structure Draft (R : Type) where
  general : GeneralDraft
  endpoints : List String := []
  keyspaces : List (KeyspaceDraft R) := []

end LoadGen.Config
