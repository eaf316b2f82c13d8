/-!
# Configuration documents

A document is a tree of named values. While it is read, each table remembers how it came about:
a table with a header of its own is closed to dotted keys, a table made by dotted keys is closed
to headers, and a table that only lies on the way to another one may still get its header.
`Node` is the tree in that state; `Node.toValue` forgets the difference.
-/

namespace LoadGen.Toml

/-- A value of a document. -/
inductive Value
  | text (s : String)
  | integer (n : Int)
  | float (x : Float)
  | boolean (b : Bool)
  | array (items : List Value)
  | table (entries : List (String × Value))
  deriving Repr, Inhabited

/-- How a table came about. -/
inductive Origin
  /-- By a header, or as an element of an array of tables. -/
  | header
  /-- By lying on the path of a header. -/
  | onPath
  /-- By a dotted key. -/
  | dottedKey
  deriving Repr, DecidableEq

/-- A node of a document that is being read. An array of tables has its latest table first. -/
inductive Node
  | leaf (v : Value)
  | table (origin : Origin) (entries : List (String × Node))
  | tables (latestFirst : List (List (String × Node)))

/-- The entries of a table. -/
abbrev Entries := List (String × Node)

mutual

/-- The value that a node stands for. -/
def Node.toValue : Node → Value
  | .leaf v => v
  | .table _ entries => .table (entriesToValues entries)
  | .tables latestFirst => .array (tablesToValues latestFirst [])

def entriesToValues : List (String × Node) → List (String × Value)
  | [] => []
  | (key, node) :: rest => (key, node.toValue) :: entriesToValues rest

def tablesToValues : List (List (String × Node)) → List Value → List Value
  | [], done => done
  | entries :: earlier, done => tablesToValues earlier (.table (entriesToValues entries) :: done)

end

namespace Entries

/-- The node of a key. -/
def find? (entries : Entries) (key : String) : Option Node :=
  (List.find? (·.1 == key) entries).map (·.2)

/-- The entries with the node of a key replaced, or added at the end. -/
def set (entries : Entries) (key : String) (node : Node) : Entries :=
  if List.any entries (·.1 == key) then
    List.map (fun e => if e.1 == key then (key, node) else e) entries
  else entries ++ [(key, node)]

/-- Changes the table at the end of a path, making the tables on the way that do not exist. A path
of a dotted key does not enter tables that have a header. -/
def within (dotted : Bool) (change : Origin → Entries → Option Entries) :
    List String → Origin → Entries → Option Entries
  | [], origin, entries => change origin entries
  | key :: path, _, entries =>
    match entries.find? key with
    | none => do
      let origin := if dotted then Origin.dottedKey else Origin.onPath
      let inner ← within dotted change path origin []
      return entries.set key (.table origin inner)
    | some (.table origin inner) =>
      if dotted && origin == .header then none
      else do
        let inner ← within dotted change path origin inner
        return entries.set key (.table origin inner)
    | some (.tables (latest :: earlier)) => do
      let latest ← within dotted change path .header latest
      return entries.set key (.tables (latest :: earlier))
    | some (.tables []) => none
    | some (.leaf _) => none

/-- Adds a value under a dotted key, which must be new. All tables on the way must have been made
by dotted keys too. -/
def addValue (path : List String) (key : String) (v : Value) (origin : Origin)
    (entries : Entries) : Option Entries :=
  within true (fun origin entries =>
    if (origin == .dottedKey) == path.isEmpty then none
    else if (entries.find? key).isSome then none
    else some (entries.set key (.leaf v))) path origin entries

/-- Opens the table of a header. -/
def openTable (path : List String) (key : String) (entries : Entries) : Option Entries :=
  within false (fun _ entries =>
    match entries.find? key with
    | none => some (entries.set key (.table .header []))
    | some (.table .onPath inner) => some (entries.set key (.table .header inner))
    | _ => none) path .header entries

/-- Opens the next table of an array of tables. -/
def openElement (path : List String) (key : String) (entries : Entries) : Option Entries :=
  within false (fun _ entries =>
    match entries.find? key with
    | none => some (entries.set key (.tables [[]]))
    | some (.tables latestFirst) => some (entries.set key (.tables ([] :: latestFirst)))
    | _ => none) path .header entries

end Entries

end LoadGen.Toml
