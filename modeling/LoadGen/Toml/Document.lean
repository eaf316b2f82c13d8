import LoadGen.Toml.Scalar

/-!
# Reading documents

`Document.read?` reads a whole document: key-value lines, table headers and array-of-tables
headers. Keys are bare, quoted or dotted. Arrays may be broken into lines and end with a comma,
inline tables may do neither. Anything outside this grammar, and any key or table defined twice,
makes the document unreadable. Dates are not among the values: no setting is a date.
-/

namespace LoadGen.Toml

/-! ## Keys -/

def isBareKey (c : Char) : Bool :=
  c.isAlphanum || c == '_' || c == '-'

/-- One part of a key. -/
def keyPart? (s : List Char) : Option (String × List Char) :=
  match s with
  | '"' :: _ | '\'' :: _ => shortString? s
  | _ =>
    let bare := s.takeWhile isBareKey
    if bare.isEmpty then none else some (String.ofList bare, s.dropWhile isBareKey)

/-- A key with at most `fuel` dots, as the parts in front of the last one and the last one. Blanks
around the parts are skipped. -/
def key? : Nat → List Char → Option ((List String × String) × List Char)
  | 0, _ => none
  | fuel + 1, s => do
    let (part, r) ← keyPart? (skipSpace s)
    match skipSpace r with
    | '.' :: r =>
      let ((path, last), r) ← key? fuel r
      return ((part :: path, last), r)
    | r => return (([], part), r)

/-! ## Values -/

/-- The items of an array after its opening bracket. -/
def arrayItems? (item? : List Char → Option (Value × List Char)) :
    Nat → List Char → Option (List Value × List Char)
  | 0, _ => none
  | fuel + 1, s =>
    match skipLines s.length s with
    | ']' :: r => some ([], r)
    | s => do
      let (v, r) ← item? s
      match skipLines r.length r with
      | ',' :: r =>
        let (vs, r) ← arrayItems? item? fuel r
        return (v :: vs, r)
      | ']' :: r => return ([v], r)
      | _ => none

/-- A key, an equals sign and a value. -/
def pair? (item? : List Char → Option (Value × List Char)) (s : List Char) :
    Option ((List String × String × Value) × List Char) := do
  let ((path, key), r) ← key? (s.length + 1) s
  match r with
  | '=' :: r =>
    let (v, r) ← item? (skipSpace r)
    return ((path, key, v), r)
  | _ => none

/-- The pairs of an inline table, of which there is at least one. -/
def inlinePairs? (item? : List Char → Option (Value × List Char)) :
    Nat → Entries → List Char → Option (Entries × List Char)
  | 0, _, _ => none
  | fuel + 1, entries, s => do
    let ((path, key, v), r) ← pair? item? s
    let entries ← entries.addValue path key v .header
    match skipSpace r with
    | ',' :: r => inlinePairs? item? fuel entries r
    | '\x7d' :: r => return (entries, r)
    | _ => none

/-- Characters of words and numbers. -/
def isWordChar (c : Char) : Bool :=
  isBareKey c || c == '+' || c == '.' || c == ':'

/-- A value nested at most `fuel` deep. -/
def value? : Nat → List Char → Option (Value × List Char)
  | 0, _ => none
  | fuel + 1, s =>
    match s with
    | '"' :: _ | '\'' :: _ => (string? s).map fun (t, r) => (.text t, r)
    | '[' :: r => (arrayItems? (value? fuel) (r.length + 1) r).map fun (vs, r) => (.array vs, r)
    | '\x7b' :: r =>
      match skipSpace r with
      | '\x7d' :: r => some (.table [], r)
      | s => (inlinePairs? (value? fuel) (s.length + 1) [] s).map fun (entries, r) =>
        (.table (entriesToValues entries), r)
    | _ =>
      let word := s.takeWhile isWordChar
      let r := s.dropWhile isWordChar
      if word == "true".toList then some (.boolean true, r)
      else if word == "false".toList then some (.boolean false, r)
      else (number? word).map (·, r)

/-! ## Lines -/

/-- A document being read: its entries, and the path of the table that pairs go to. -/
structure Draft where
  entries : Entries
  path : List String

/-- Reads one line that is not empty and returns what follows its end. -/
def Draft.line? (d : Draft) (s : List Char) : Option (Draft × List Char) :=
  match s with
  | '[' :: '[' :: r => do
    let ((path, key), r) ← key? (r.length + 1) r
    match r with
    | ']' :: ']' :: r =>
      let r ← endLine? r
      let entries ← d.entries.openElement path key
      return (⟨entries, path ++ [key]⟩, r)
    | _ => none
  | '[' :: r => do
    let ((path, key), r) ← key? (r.length + 1) r
    match r with
    | ']' :: r =>
      let r ← endLine? r
      let entries ← d.entries.openTable path key
      return (⟨entries, path ++ [key]⟩, r)
    | _ => none
  | _ => do
    let ((path, key, v), r) ← pair? (value? (s.length + 1)) s
    let r ← endLine? r
    let entries ← Entries.within false (Entries.addValue path key v) d.path .header d.entries
    return (⟨entries, d.path⟩, r)

/-- Reads at most `fuel` lines up to the end of the text. -/
def Draft.lines? : Nat → Draft → List Char → Option Draft
  | 0, _, _ => none
  | fuel + 1, d, s =>
    match skipLines s.length s with
    | [] => some d
    | s => do
      let (d, r) ← d.line? s
      lines? fuel d r

/-- The table that a text describes, if it is a document. A byte order mark in front is skipped. -/
def read? (text : String) : Option (List (String × Value)) := do
  let s := match text.toList with
    | '\ufeff' :: r => r
    | s => s
  let d ← Draft.lines? (s.length + 1) ⟨[], []⟩ s
  return entriesToValues d.entries

end LoadGen.Toml
