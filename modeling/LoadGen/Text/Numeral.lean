/-!
# Decimal numerals

Reading whole numbers from text: at least one ASCII digit, an optional sign in front, and a value
within bounds. Nothing else is accepted, neither blanks nor separators.
-/

namespace LoadGen.Text

/-- The value of an ASCII decimal digit. -/
def digit? (c : Char) : Option Nat :=
  if '0' ≤ c ∧ c ≤ '9' then some (c.toNat - '0'.toNat) else none

/-- The value of a non-empty list of decimal digits, most significant first. -/
def digits? (s : List Char) : Option Nat :=
  if s.isEmpty then none else s.foldlM (fun n c => (digit? c).map (10 * n + ·)) 0

/-- A natural number of at most `max`, with an optional plus sign. -/
def natural? (max : Nat) (s : List Char) : Option Nat :=
  let body := match s with
    | '+' :: rest => rest
    | _ => s
  (digits? body).filter (· ≤ max)

/-- A whole number with an optional sign that fits a word of `width` bits: from `-half` to
`half - 1`, where `half` is `2 ^ (width - 1)`. -/
def integer? (width : Nat) (s : List Char) : Option Int :=
  let half := Nat.pow 2 (width - 1)
  match s with
  | '-' :: rest => ((digits? rest).filter (· ≤ half)).map fun n => -(n : Int)
  | '+' :: rest => ((digits? rest).filter (· < half)).map Int.ofNat
  | _ => ((digits? s).filter (· < half)).map Int.ofNat

end LoadGen.Text
