import LoadGen.Config.Command

/-!
# Requests

A request goes out as one array of bulk strings: the command of the action, the key, and the
arguments. Numbers among the arguments are written in decimal.
-/

namespace LoadGen.Wire

open Config (Action Watermarks)

abbrev Bytes := List UInt8

/-- The bytes of a text. -/
def textBytes (s : String) : Bytes := s.toUTF8.toList

/-- The bytes of a number in decimal. -/
def numberBytes (n : Nat) : Bytes := (Nat.toDigits 10 n).map fun c => UInt8.ofNat c.toNat

/-- The end of a line. -/
def lineEnd : Bytes := [0x0d, 0x0a]

/-- What is asked of a server. -/
structure Request where
  action : Action
  key : Bytes
  /-- Values back to back. -/
  values : Bytes
  /-- The length of each value. -/
  valueLength : Nat
  items : Nat
  /-- The element size that a create announces. -/
  elementSize : Nat
  watermarks : Option Watermarks
  deriving Repr

/-- A list cut into pieces of `size` elements, `0 < size`; the last piece may be shorter. At most
`fuel` pieces are cut. -/
def chunksOf {α : Type} (size : Nat) : Nat → List α → List (List α)
  | 0, _ => []
  | _ + 1, [] => []
  | fuel + 1, a :: as => (a :: as).take size :: chunksOf size fuel ((a :: as).drop size)

/-- The values of a request one by one. -/
def Request.chunks (r : Request) : List Bytes :=
  chunksOf (max r.valueLength 1) r.values.length r.values

/-- The command of an action. -/
def commandName : Action → String
  | .create => "SArray.create"
  | .delete => "SArray.delete"
  | .find => "SArray.find"
  | .get => "SArray.get"
  | .insert => "SArray.insert"
  | .len => "SArray.len"
  | .remove => "SArray.remove"
  | .truncate => "SArray.truncate"

/-- What follows the key. -/
def Request.arguments (r : Request) : List Bytes :=
  match r.action with
  | .create =>
    numberBytes r.elementSize :: match r.watermarks with
      | none => []
      | some marks => [numberBytes marks.low, numberBytes marks.high]
  | .delete | .get | .len => []
  | .find => [r.chunks.headD []]
  | .insert | .remove => r.chunks
  | .truncate => [numberBytes r.items]

/-- All parts of a request. -/
def Request.parts (r : Request) : List Bytes :=
  textBytes (commandName r.action) :: r.key :: r.arguments

/-- A bulk string. -/
def bulk (body : Bytes) : Bytes :=
  0x24 :: numberBytes body.length ++ lineEnd ++ body ++ lineEnd

/-- The bytes of a request. -/
def Request.encode (r : Request) : Bytes :=
  0x2a :: numberBytes r.parts.length ++ lineEnd ++ r.parts.flatMap bulk

/-- A buffer with the bytes of a request behind what it holds already. -/
def Request.encodeOnto (r : Request) (buffer : Bytes) : Bytes := buffer ++ r.encode

end LoadGen.Wire
