import LoadGen.Text.Blank

/-!
# Commands

The eight actions on a sorted array, the bounds on how many structures of a keyspace exist, and
the shape of values. Names are read with blanks around them removed and ASCII case folded.
-/

namespace LoadGen.Config

/-- What a request asks of a structure. -/
inductive Action
  | create
  | delete
  | find
  | get
  | insert
  | len
  | remove
  | truncate
  deriving Repr, DecidableEq, Inhabited

namespace Action

/-- All actions in the order in which they are reported. -/
def all : List Action := [create, delete, find, get, insert, len, remove, truncate]

def name : Action → String
  | create => "create"
  | delete => "delete"
  | find => "find"
  | get => "get"
  | insert => "insert"
  | len => "len"
  | remove => "remove"
  | truncate => "truncate"

/-- The position of an action in `all`. -/
def index : Action → Nat
  | create => 0
  | delete => 1
  | find => 2
  | get => 3
  | insert => 4
  | len => 5
  | remove => 6
  | truncate => 7

/-- Whether the action changes if a structure exists. -/
def isLifecycle : Action → Bool
  | create | delete => true
  | _ => false

/-- Whether a keyspace that uses the action has to say what its values look like: a create
announces the size of elements, the others carry values. -/
def needsValue : Action → Bool
  | create | find | insert | remove => true
  | _ => false

/-- Whether requests of the action carry values. -/
def carriesValue : Action → Bool
  | find | insert | remove => true
  | _ => false

/-- The action of a name; the command family `sarray_` may stand in front of it. -/
def ofName? (s : String) : Option Action :=
  let name := (Text.foldCase (Text.trim s)).toList
  let family := "sarray_".toList
  let name := if family.isPrefixOf name then name.drop family.length else name
  all.find? fun a => a.name.toList == name

end Action

/-- How values are made. -/
inductive ValueClass
  /-- Random bytes. -/
  | bytes
  /-- Unsigned numbers of one to eight bytes, least significant byte first. -/
  | integer
  deriving Repr, DecidableEq, Inhabited

def ValueClass.name : ValueClass → String
  | bytes => "bytes"
  | integer => "integer"

/-- The class of a name. -/
def ValueClass.ofName? (s : String) : Option ValueClass :=
  match Text.foldCase (Text.trim s) with
  | "bytes" | "raw" => some bytes
  | "integer" | "u64" => some integer
  | _ => none

/-- How requests and replies are framed. -/
inductive Protocol
  /-- Arrays of bulk strings to a server of rich data structures. -/
  | rds
  deriving Repr, DecidableEq, Inhabited

def Protocol.name : Protocol → String
  | rds => "rds"

/-- The protocol of a name. -/
def Protocol.ofName? (s : String) : Option Protocol :=
  if Text.foldCase (Text.trim s) = "rds" then some rds else none

/-- Bounds on the number of existing structures: creates stop at `high`, deletes at `low`. -/
structure Watermarks where
  low : Nat
  high : Nat
  deriving Repr, DecidableEq, Inhabited

/-- A command of a keyspace. -/
structure Command where
  action : Action
  /-- The bounds given with the command itself. -/
  watermarks : Option Watermarks
  /-- How many elements the command is about. -/
  items : Nat
  deriving Repr, DecidableEq, Inhabited

/-- The shape of a value. -/
structure ValueSpec where
  length : Nat
  kind : ValueClass
  deriving Repr, DecidableEq, Inhabited

end LoadGen.Config
