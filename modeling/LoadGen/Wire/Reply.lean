import LoadGen.Text.Blank
import LoadGen.Text.Numeral
import LoadGen.Wire.Request

/-!
# Replies

The values a server replies with: text lines, error lines, integers, bulk strings and arrays of
values, the last two possibly absent. `Reply.serialise` writes a value, `Reply.read` reads one from
the front of a byte string and tells incomplete input from malformed input.
-/

namespace LoadGen.Wire

/-- A reply value. -/
inductive Reply
  | simple (line : String)
  | error (line : String)
  | integer (n : Int)
  | bulk (body : Option Bytes)
  | array (items : Option (List Reply))
  deriving Repr, Inhabited

/-- Arrays may be nested this deep. -/
def maxNesting : Nat := 100

/-! ## Writing -/

/-- The bytes of a whole number in decimal. -/
def integerBytes : Int → Bytes
  | .ofNat n => numberBytes n
  | .negSucc n => 0x2d :: numberBytes (n + 1)

mutual

/-- The bytes of a reply. -/
def Reply.serialise : Reply → Bytes
  | .simple line => 0x2b :: textBytes line ++ lineEnd
  | .error line => 0x2d :: textBytes line ++ lineEnd
  | .integer n => 0x3a :: integerBytes n ++ lineEnd
  | .bulk none => 0x24 :: integerBytes (-1) ++ lineEnd
  | .bulk (some body) => Wire.bulk body
  | .array none => 0x2a :: integerBytes (-1) ++ lineEnd
  | .array (some items) => 0x2a :: numberBytes items.length ++ lineEnd ++ serialiseAll items

def serialiseAll : List Reply → Bytes
  | [] => []
  | r :: rs => r.serialise ++ serialiseAll rs

end

/-! ## Reading -/

/-- What reading from the front of a byte string comes to. -/
inductive Scan (α : Type)
  /-- A value and the bytes after it. -/
  | complete (value : α) (rest : Bytes)
  /-- The bytes end before the value does. -/
  | incomplete
  /-- No value begins this way. -/
  | malformed
  deriving Repr

namespace Scan

def bind {α β : Type} (s : Scan α) (f : α → Bytes → Scan β) : Scan β :=
  match s with
  | complete value rest => f value rest
  | incomplete => incomplete
  | malformed => malformed

def map {α β : Type} (f : α → β) (s : Scan α) : Scan β :=
  s.bind fun value rest => complete (f value) rest

end Scan

/-- The bytes up to the first line end, with `done` in front, reversed. -/
def lineBytes : Bytes → Bytes → Scan Bytes
  | [], _ => .incomplete
  | 0x0d :: 0x0a :: rest, done => .complete done.reverse rest
  | b :: rest, done => lineBytes rest (b :: done)

/-- A line of text. -/
def readLine (s : Bytes) : Scan String :=
  (lineBytes s []).bind fun line rest =>
    match String.fromUTF8? ⟨line.toArray⟩ with
    | some text => .complete text rest
    | none => .malformed

/-- A line with a whole number of 64 bits, perhaps with blanks around it. -/
def readInteger (s : Bytes) : Scan Int :=
  (readLine s).bind fun line rest =>
    match Text.integer? 64 (Text.trimChars line.toList) with
    | some n => .complete n rest
    | none => .malformed

/-- The given bytes. -/
def expect : Bytes → Bytes → Scan Unit
  | [], s => .complete () s
  | _ :: _, [] => .incomplete
  | b :: bs, c :: s => if b = c then expect bs s else .malformed

/-- A body of a known length and its line end. -/
def readBody (length : Nat) (s : Bytes) : Scan Bytes :=
  let body := s.take length
  if body.length < length then .incomplete
  else (expect lineEnd (s.drop length)).map fun _ => body

/-- `n` values in a row, with `done` in front, reversed. -/
def readMany (readOne : Bytes → Scan Reply) : Nat → Bytes → List Reply → Scan (List Reply)
  | 0, s, done => .complete done.reverse s
  | n + 1, s, done =>
    match readOne s with
    | .complete value rest => readMany readOne n rest (value :: done)
    | .incomplete => .incomplete
    | .malformed => .malformed

/-- Bytes that cannot begin a value: known to be so only when another byte follows. -/
def refuse (rest : Bytes) : Scan Reply :=
  if rest.isEmpty then .incomplete else .malformed

/-- A value whose arrays are nested at most `depth` deep. -/
def Reply.readNested : Nat → Bytes → Scan Reply
  | _, [] => .incomplete
  | depth, b :: s =>
    if b = 0x2b then (readLine s).map .simple
    else if b = 0x2d then (readLine s).map .error
    else if b = 0x3a then (readInteger s).map .integer
    else if b = 0x24 then
      (readInteger s).bind fun length rest =>
        if length < 0 then .complete (.bulk none) rest
        else (readBody length.toNat rest).map fun body => .bulk (some body)
    else if b = 0x2a then
      match depth with
      | 0 => refuse s
      | depth + 1 =>
        (readInteger s).bind fun length rest =>
          if length < 0 then .complete (.array none) rest
          else (readMany (readNested depth) length.toNat rest []).map fun items =>
            .array (some items)
    else refuse s

/-- A value. -/
def Reply.read (s : Bytes) : Scan Reply := Reply.readNested maxNesting s

end LoadGen.Wire
