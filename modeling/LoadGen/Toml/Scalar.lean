import LoadGen.Decimal.Binary
import LoadGen.Text.Numeral
import LoadGen.Toml.Value

/-!
# Numbers and strings of a document

Readers of single values. Each takes the characters that are left and returns what it read with
the characters after it. Underscores may separate digits; whole numbers have 64 bits with a sign;
strings come with and without escapes, on one line or on several.
-/

namespace LoadGen.Toml

/-! ## Blanks, comments and line ends -/

def isSpace (c : Char) : Bool := c == ' ' || c == '\t'

def skipSpace (s : List Char) : List Char := s.dropWhile isSpace

/-- Characters of comments and strings: no control characters but the tab. -/
def isPlain (c : Char) : Bool :=
  c == '\t' || (0x20 ≤ c.toNat && c.toNat != 0x7f)

/-- What follows a line end. -/
def newline? : List Char → Option (List Char)
  | '\n' :: rest => some rest
  | '\r' :: '\n' :: rest => some rest
  | _ => none

def skipComment : List Char → List Char
  | '#' :: rest => rest.dropWhile isPlain
  | s => s

/-- Skips blanks and a comment up to the next line, or to the end of the text. -/
def endLine? (s : List Char) : Option (List Char) :=
  match skipComment (skipSpace s) with
  | [] => some []
  | rest => newline? rest

/-- Skips blanks, comments and line ends, at most `fuel` lines. -/
def skipLines (fuel : Nat) (s : List Char) : List Char :=
  let s := skipComment (skipSpace s)
  match fuel, newline? s with
  | fuel + 1, some rest => skipLines fuel rest
  | _, _ => s

/-! ## Strings -/

def hexDigit? (c : Char) : Option Nat :=
  if c.isDigit then some (c.toNat - '0'.toNat)
  else if 'a' ≤ c ∧ c ≤ 'f' then some (c.toNat - 'a'.toNat + 10)
  else if 'A' ≤ c ∧ c ≤ 'F' then some (c.toNat - 'A'.toNat + 10)
  else none

/-- The character with a hexadecimal code point. -/
def codePoint? (digits : List Char) : Option Char := do
  let n ← digits.foldlM (fun n c => (hexDigit? c).map (16 * n + ·)) 0
  if n.isValidChar then some (Char.ofNat n)
  else none

/-- The character that an escape stands for, with what follows it. The backslash is gone. -/
def escape? : List Char → Option (Char × List Char)
  | 'b' :: r => some ('\x08', r)
  | 't' :: r => some ('\t', r)
  | 'n' :: r => some ('\n', r)
  | 'f' :: r => some ('\x0c', r)
  | 'r' :: r => some ('\r', r)
  | '"' :: r => some ('"', r)
  | '\\' :: r => some ('\\', r)
  | 'u' :: r => if r.length < 4 then none else (codePoint? (r.take 4)).map (·, r.drop 4)
  | 'U' :: r => if r.length < 8 then none else (codePoint? (r.take 8)).map (·, r.drop 8)
  | _ => none

/-- The rest of a string on one line that ends with `quote`; backslashes escape if `escapes`.
`done` holds the characters so far, latest first. -/
def line? (escapes : Bool) (quote : Char) :
    Nat → List Char → List Char → Option (String × List Char)
  | 0, _, _ => none
  | _ + 1, _, [] => none
  | fuel + 1, done, c :: r =>
    if c == quote then some (String.ofList done.reverse, r)
    else if escapes && c == '\\' then do
      let (c, r) ← escape? r
      line? escapes quote fuel (c :: done) r
    else if isPlain c then line? escapes quote fuel (c :: done) r
    else none

/-- Skips blanks and line ends, at most `fuel` of them. -/
def skipBlankLines (fuel : Nat) (s : List Char) : List Char :=
  let s := skipSpace s
  match fuel, newline? s with
  | fuel + 1, some rest => skipBlankLines fuel rest
  | _, _ => s

/-- The rest of a string over several lines that ends with three quotes. Up to two quotes may
stand right in front of the closing ones. A backslash at the end of a line skips to the next
character that is neither blank nor line end. -/
def lines? (escapes : Bool) (quote : Char) :
    Nat → List Char → List Char → Option (String × List Char)
  | 0, _, _ => none
  | _ + 1, _, [] => none
  | fuel + 1, done, c :: r =>
    if c == quote then
      let quotes := 1 + (r.takeWhile (· == quote)).length
      let after := r.dropWhile (· == quote)
      if quotes < 3 then lines? escapes quote fuel (List.replicate quotes quote ++ done) after
      else
        let kept := min (quotes - 3) 2
        some (String.ofList (List.replicate kept quote ++ done).reverse,
          List.replicate (quotes - 3 - kept) quote ++ after)
    else if escapes && c == '\\' then
      match newline? (skipSpace r) with
      | some next =>
        lines? escapes quote fuel done (skipBlankLines next.length next)
      | none => do
        let (c, r) ← escape? r
        lines? escapes quote fuel (c :: done) r
    else if isPlain c then lines? escapes quote fuel (c :: done) r
    else match newline? (c :: r) with
      | some r => lines? escapes quote fuel ('\n' :: done) r
      | none => none

/-- A string on one line. -/
def shortString? : List Char → Option (String × List Char)
  | '"' :: r => line? true '"' (r.length + 1) [] r
  | '\'' :: r => line? false '\'' (r.length + 1) [] r
  | _ => none

/-- A string, on one line or on several. A line end right after the opening quotes is dropped. -/
def string? : List Char → Option (String × List Char)
  | '"' :: '"' :: '"' :: r => lines? true '"' (r.length + 1) [] ((newline? r).getD r)
  | '\'' :: '\'' :: '\'' :: r => lines? false '\'' (r.length + 1) [] ((newline? r).getD r)
  | s => shortString? s

/-! ## Numbers -/

/-- Digits with single underscores between them, the underscores removed. -/
def digitGroup? (isDigit : Char → Bool) : List Char → Option (List Char)
  | [] => none
  | [c] => if isDigit c then some [c] else none
  | c :: '_' :: r => if isDigit c then (digitGroup? isDigit r).map (c :: ·) else none
  | c :: r => if isDigit c then (digitGroup? isDigit r).map (c :: ·) else none

/-- The value of digits in a base. -/
def digitsValue (base : Nat) (s : List Char) : Nat :=
  s.foldl (fun n c => base * n + (hexDigit? c).getD 0) 0

/-- Decimal digits without needless zeros in front. -/
def wholeDigits? (s : List Char) : Option (List Char) := do
  let ds ← digitGroup? Char.isDigit s
  if 1 < ds.length ∧ ds.head? = some '0' then none else some ds

/-- A whole number of 64 bits. -/
def bounded? (n : Int) : Option Value :=
  if Int64.minValue.toInt ≤ n ∧ n ≤ Int64.maxValue.toInt then some (.integer n) else none

/-- A number with a fraction or an exponent. A number too large for the format is refused, a
negative one stands for minus infinity. -/
def fractional? (negative : Bool) (s : List Char) : Option Value := do
  let isMark (c : Char) : Bool := c == 'e' || c == 'E'
  let mantissa := s.takeWhile (!isMark ·)
  let power ← match s.dropWhile (!isMark ·) with
    | [] => some 0
    | _ :: r =>
      match r with
      | '-' :: r => (digitGroup? Char.isDigit r).map fun ds => -(digitsValue 10 ds : Int)
      | '+' :: r => (digitGroup? Char.isDigit r).map fun ds => (digitsValue 10 ds : Int)
      | r => (digitGroup? Char.isDigit r).map fun ds => (digitsValue 10 ds : Int)
  let whole ← wholeDigits? (mantissa.takeWhile (· != '.'))
  let places ← match mantissa.dropWhile (· != '.') with
    | [] => some []
    | _ :: r => digitGroup? Char.isDigit r
  let digits := digitsValue 10 (whole ++ places)
  let x := Decimal.nearestDecimal negative digits (power - places.length)
  if x.isInf && !negative then none else some (.float x)

/-- A decimal number after its sign. -/
def decimal? (negative : Bool) (s : List Char) : Option Value :=
  match s with
  | ['i', 'n', 'f'] =>
    some (.float (Float.ofBits (if negative then 0xfff0000000000000 else 0x7ff0000000000000)))
  | ['n', 'a', 'n'] => some (.float (Float.ofBits 0x7ff8000000000000))
  | _ =>
    match wholeDigits? s with
    | some ds =>
      let n : Int := digitsValue 10 ds
      bounded? (if negative then -n else n)
    | none => fractional? negative s

/-- A number, from all of its characters. -/
def number? : List Char → Option Value
  | '0' :: 'x' :: r => do
    bounded? (digitsValue 16 (← digitGroup? (fun c => (hexDigit? c).isSome) r))
  | '0' :: 'o' :: r => do
    bounded? (digitsValue 8 (← digitGroup? (fun c => '0' ≤ c && c ≤ '7') r))
  | '0' :: 'b' :: r => do
    bounded? (digitsValue 2 (← digitGroup? (fun c => c == '0' || c == '1') r))
  | '-' :: r => decimal? true r
  | '+' :: r => decimal? false r
  | s => decimal? false s

end LoadGen.Toml
