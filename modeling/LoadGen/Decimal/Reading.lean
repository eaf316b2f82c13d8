import LoadGen.Decimal.Binary
import LoadGen.Text.Numeral

/-!
# Reading decimal numbers

A decimal number has digits before or after a point, or both, and may have a sign and an exponent.
The names of infinity and of the undefined number are read in any case.
-/

namespace LoadGen.Decimal

/-- The exponent at the end of a number. -/
def exponent? : List Char → Option Int
  | [] => some 0
  | mark :: rest =>
    if mark == 'e' || mark == 'E' then
      match rest with
      | '-' :: digits => (Text.digits? digits).map fun n => -(n : Int)
      | '+' :: digits => (Text.digits? digits).map Int.ofNat
      | digits => (Text.digits? digits).map Int.ofNat
    else none

/-- A number without its sign. -/
def magnitude? (negative : Bool) (s : List Char) : Option Float := do
  let whole := s.takeWhile (·.isDigit)
  let rest := s.dropWhile (·.isDigit)
  let (places, rest) := match rest with
    | '.' :: rest => (rest.takeWhile (·.isDigit), rest.dropWhile (·.isDigit))
    | _ => ([], rest)
  let digits ← Text.digits? (whole ++ places)
  let power ← exponent? rest
  return nearestDecimal negative digits (power - places.length)

/-- The number that a text stands for. -/
def ofText? (s : String) : Option Float :=
  let (negative, body) := match s.toList with
    | '-' :: body => (true, body)
    | '+' :: body => (false, body)
    | body => (false, body)
  let name := String.ofList (body.map (·.toLower))
  if name == "inf" || name == "infinity" then
    some (Float.ofBits (if negative then 0xfff0000000000000 else 0x7ff0000000000000))
  else if name == "nan" then some (Float.ofBits 0x7ff8000000000000)
  else magnitude? negative body

end LoadGen.Decimal
