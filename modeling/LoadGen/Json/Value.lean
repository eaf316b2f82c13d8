import LoadGen.Decimal.Shortest

/-!
# Compact JSON

Values are written on one line without blanks, the keys of an object in ascending order. Numbers
that are not whole have the fewest digits that identify them.
-/

namespace LoadGen.Json

/-- A JSON value. -/
inductive Value
  | null
  | boolean (b : Bool)
  | number (n : Nat)
  | float (x : Float)
  | text (s : String)
  | array (items : List Value)
  | object (fields : List (String × Value))

/-- Numbers are written positionally while the power of ten of their leading digit is between -5
and 15, and always with a point. -/
def floatLayout : Decimal.Layout where
  tie := .toEven
  plain := some (-5, 16)
  pointZero := true

/-- The two lowest hexadecimal digits of a number. -/
def hexPair (n : Nat) : List Char :=
  [Nat.digitChar (n / 16 % 16), Nat.digitChar (n % 16)]

/-- A character inside a string. -/
def escape (c : Char) : List Char :=
  if c == '"' then ['\\', '"']
  else if c == '\\' then ['\\', '\\']
  else if c == '\n' then ['\\', 'n']
  else if c == '\r' then ['\\', 'r']
  else if c == '\t' then ['\\', 't']
  else if c == '\x08' then ['\\', 'b']
  else if c == '\x0c' then ['\\', 'f']
  else if c.toNat < 0x20 then ['\\', 'u', '0', '0'] ++ hexPair c.toNat
  else [c]

/-- A string in quotes. -/
def quote (s : String) : String :=
  String.ofList ('"' :: s.toList.flatMap escape ++ ['"'])

/-- Puts a field where its key belongs among fields in ascending order. -/
def insertField {α : Type} (field : String × α) : List (String × α) → List (String × α)
  | [] => [field]
  | other :: rest =>
    if field.1 < other.1 then field :: other :: rest else other :: insertField field rest

/-- Fields in ascending order of their keys. -/
def sortFields {α : Type} (fields : List (String × α)) : List (String × α) :=
  fields.foldl (fun sorted field => insertField field sorted) []

mutual

/-- The text of a value. -/
def Value.compact : Value → String
  | .null => "null"
  | .boolean b => if b then "true" else "false"
  | .number n => toString n
  | .float x => if x.isFinite then floatLayout.render x else "null"
  | .text s => quote s
  | .array items => "[" ++ ",".intercalate (compactAll items) ++ "]"
  | .object fields =>
    let texts := sortFields (compactFields fields)
    "\x7b" ++ ",".intercalate (texts.map fun (key, t) => quote key ++ ":" ++ t) ++ "\x7d"

def compactAll : List Value → List String
  | [] => []
  | v :: vs => v.compact :: compactAll vs

def compactFields : List (String × Value) → List (String × String)
  | [] => []
  | (key, v) :: fields => (key, v.compact) :: compactFields fields

end

/-- The text of a value that may be absent. -/
def Value.ofOption {α : Type} (f : α → Value) : Option α → Value
  | none => .null
  | some a => f a

end LoadGen.Json
