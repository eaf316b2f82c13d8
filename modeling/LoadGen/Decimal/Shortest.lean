import LoadGen.Decimal.Binary

/-!
# The fewest digits that read back

Every finite binary number is the nearest one to an interval of reals. `shortest` finds the
decimal with the fewest significant digits in that interval, and of those the one closest to the
number itself. It looks at one decimal grid after the other, coarse to fine: on each grid only the
number's two neighbours can lie in the interval if any point does.

`Layout` lays such a decimal out as text.
-/

namespace LoadGen.Decimal

/-- The non-negative decimal `digits * 10 ^ exponent`. -/
structure Numeral where
  digits : Nat
  exponent : Int
  deriving Repr, DecidableEq

/-- The interval of reals that round to a number, over one common denominator: the reals between
`low / den` and `high / den`, the ends included when `closed`. The number is `value / den`. -/
structure Interval where
  low : Nat
  value : Nat
  high : Nat
  den : Nat
  closed : Bool

/-- The rounding interval of a positive number. Below a power of two the neighbour is only half
as far away. -/
def Interval.ofParts (p : Parts) : Interval :=
  let below := if p.significand = leadingBit ∧ -1074 < p.exponent then 1 else 2
  let (scale, den) := if 0 ≤ p.exponent - 2 then (1 <<< (p.exponent - 2).toNat, 1)
    else (1, 1 <<< (2 - p.exponent).toNat)
  { low := (4 * p.significand - below) * scale
    value := 4 * p.significand * scale
    high := (4 * p.significand + 2) * scale
    den := den
    closed := p.significand % 2 = 0 }

/-- Whether `num / den` reads back to the number the interval belongs to. -/
def Interval.contains (i : Interval) (num den : Nat) : Bool :=
  if i.closed then i.low * den ≤ num * i.den && num * i.den ≤ i.high * den
  else i.low * den < num * i.den && num * i.den < i.high * den

/-- A multiple of `10 ^ k` on the grid around the interval's value that lies in the interval, the
closer one if both neighbours do. -/
def Interval.onGrid (tie : Tie) (i : Interval) (k : Int) : Option Numeral :=
  let (up, down) := if 0 ≤ k then (Nat.pow 10 k.toNat, 1) else (1, Nat.pow 10 (-k).toNat)
  -- the value in units of the grid is `num / den`
  let num := i.value * down
  let den := i.den * up
  let floor := num / den
  let lower := i.contains (floor * up) down
  let upper := i.contains ((floor + 1) * up) down
  match lower, upper with
  | false, false => none
  | true, false => some ⟨floor, k⟩
  | false, true => some ⟨floor + 1, k⟩
  | true, true => some ⟨roundDiv tie num den, k⟩

/-- The power of ten of the leading digit of `num / den`, for a positive ratio. -/
def leadingPower (num den : Nat) : Int :=
  let guess : Int := ((num.log2 : Int) - den.log2) * 30103 / 100000
  -- the guess is off by at most one to either side
  let reaches (e : Int) : Bool :=
    if 0 ≤ e then den * Nat.pow 10 e.toNat ≤ num else den ≤ num * Nat.pow 10 (-e).toNat
  if reaches (guess + 1) then guess + 1 else if reaches guess then guess else guess - 1

/-- Drops up to `fuel` trailing zeros of the digits. -/
def Numeral.strip (fuel : Nat) (d : Numeral) : Numeral :=
  match fuel with
  | 0 => d
  | fuel + 1 => if d.digits ≠ 0 ∧ d.digits % 10 = 0
      then Numeral.strip fuel ⟨d.digits / 10, d.exponent + 1⟩ else d

/-- The shortest decimal that reads back to a finite number's magnitude. Seventeen digits always
suffice. -/
def shortest (tie : Tie) (p : Parts) : Numeral :=
  if p.significand = 0 then ⟨0, 0⟩
  else
    let i := Interval.ofParts p
    let lead := leadingPower i.value i.den
    let found := (List.range 17).findSome? fun n : Nat => i.onGrid tie (lead - n)
    (found.getD ⟨i.value / i.den, 0⟩).strip 17

/-- How a decimal is laid out. -/
structure Layout where
  tie : Tie
  /-- A decimal is written positionally if the decimal exponent of its leading digit is at least
  the first number and below the second one, and with an exponent otherwise. Without the two all
  decimals are positional. -/
  plain : Option (Int × Int)
  /-- Whether twelve is written `12.0`. -/
  pointZero : Bool

/-- The decimal digits of a number. -/
def digitChars (n : Nat) : List Char :=
  Nat.toDigits 10 n

/-- A decimal in positional notation. -/
def positional (pointZero : Bool) (d : Numeral) : List Char :=
  let ds := digitChars d.digits
  if 0 ≤ d.exponent then
    ds ++ List.replicate (if d.digits = 0 then 0 else d.exponent.toNat) '0'
      ++ (if pointZero then ['.', '0'] else [])
  else
    let places := (-d.exponent).toNat
    if places < ds.length then ds.take (ds.length - places) ++ '.' :: ds.drop (ds.length - places)
    else '0' :: '.' :: (List.replicate (places - ds.length) '0' ++ ds)

/-- A decimal with one digit before the point and a power of ten. -/
def scientific (d : Numeral) : List Char :=
  let ds := digitChars d.digits
  let power := d.exponent + (ds.length - 1 : Nat)
  ds.take 1 ++ (if ds.length ≤ 1 then [] else '.' :: ds.drop 1) ++ 'e' :: (toString power).toList

/-- The text of a number in a layout. -/
def Layout.render (style : Layout) (x : Float) : String :=
  if x.isNaN then "NaN"
  else
    let p := Parts.ofFloat x
    let sign := if p.negative then ['-'] else []
    if x.isInf then String.ofList (sign ++ ['i', 'n', 'f'])
    else
      let d := shortest style.tie p
      let power := d.exponent + ((digitChars d.digits).length - 1 : Nat)
      let isPlain := match style.plain with
        | none => true
        | some (low, high) => d.digits = 0 || (low ≤ power && power < high)
      String.ofList (sign ++ if isPlain then positional style.pointZero d else scientific d)

/-- The text of a number with a set number of places, the exact value rounded and a tie going to
the even digit. -/
def fixed (places : Nat) (x : Float) : String :=
  if x.isNaN then "NaN"
  else
    let p := Parts.ofFloat x
    let sign := if p.negative then ['-'] else []
    if x.isInf then String.ofList (sign ++ ['i', 'n', 'f'])
    else
      let (num, den) := p.ratio
      let unit := Nat.pow 10 places
      let scaled := roundDiv .toEven (num * unit) den
      let whole := digitChars (scaled / unit)
      let tail := digitChars (scaled % unit)
      String.ofList (sign ++ whole ++
        if places = 0 then [] else '.' :: (List.replicate (places - tail.length) '0' ++ tail))

end LoadGen.Decimal
