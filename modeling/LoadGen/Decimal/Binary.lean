/-!
# Binary floating-point numbers and exact ratios

A finite number of the 64-bit binary format is `± significand · 2 ^ exponent`. `Parts.ofFloat`
takes such a number apart, and `nearest` goes the other way: it rounds an exact ratio of natural
numbers to the nearest representable number, a tie to the even significand.
-/

namespace LoadGen.Decimal

/-- Sign and magnitude of a finite binary number: the magnitude is `significand * 2 ^ exponent`. -/
structure Parts where
  negative : Bool
  significand : Nat
  exponent : Int
  deriving Repr, DecidableEq

/-- The weight of the leading significand bit, which is not stored. -/
def leadingBit : Nat := 1 <<< 52

/-- The weight of the sign among a number's bits. -/
def signBit : Nat := 1 <<< 63

/-- The parts of a finite number. -/
def Parts.ofFloat (x : Float) : Parts :=
  let bits := x.toBits.toNat
  let field : Nat := bits / leadingBit % 2048
  let fraction : Nat := bits % leadingBit
  let negative := decide (signBit ≤ bits)
  if field = 0 then ⟨negative, fraction, -1074⟩
  else ⟨negative, fraction + leadingBit, Int.ofNat field - 1075⟩

/-- Numerator and denominator of `significand * 2 ^ exponent`. -/
def Parts.ratio (p : Parts) : Nat × Nat :=
  if 0 ≤ p.exponent then (p.significand <<< p.exponent.toNat, 1)
  else (p.significand, 1 <<< (-p.exponent).toNat)

/-- Where a quotient that lies halfway between two whole numbers is rounded to. -/
inductive Tie
  | toEven
  | up
  deriving Repr, DecidableEq

/-- The whole number nearest to `num / den`. -/
def roundDiv (tie : Tie) (num den : Nat) : Nat :=
  let q := num / den
  let twice := 2 * (num % den)
  if twice < den then q
  else if den < twice then q + 1
  else match tie with
    | .up => q + 1
    | .toEven => if q % 2 = 0 then q else q + 1

/-- The magnitude nearest to `num / den` among the 64-bit binary numbers, as its bits. Ratios too
large for the format give infinity. -/
def nearestBits (num den : Nat) : Nat :=
  if num = 0 ∨ den = 0 then 0
  else
    -- the power of two just below the ratio, off by one at most
    let guess : Int := (num.log2 : Int) - den.log2
    let below : Bool :=
      if 0 ≤ guess then decide (num < den <<< guess.toNat)
      else decide (num <<< (-guess).toNat < den)
    let top : Int := if below then guess - 1 else guess
    -- the weight of the last significand bit
    let unit : Int := max (top - 52) (-1074)
    let significand :=
      if 0 ≤ unit then roundDiv .toEven num (den <<< unit.toNat)
      else roundDiv .toEven (num <<< (-unit).toNat) den
    -- a significand that rounds up to the next power of two carries into the exponent field
    let bits := if significand < leadingBit then significand
      else (unit + 1075).toNat * leadingBit + (significand - leadingBit)
    if 971 < unit ∨ 0x7ff0000000000000 ≤ bits then 0x7ff0000000000000 else bits

/-- The number nearest to `± num / den`. -/
def nearest (negative : Bool) (num den : Nat) : Float :=
  Float.ofBits (UInt64.ofNat (nearestBits num den + if negative then signBit else 0))

/-- The number nearest to `± digits * 10 ^ exponent`. Exponents far outside the range of the
format are not raised to a power: such numbers are zero or infinite whatever their digits. -/
def nearestDecimal (negative : Bool) (digits : Nat) (exponent : Int) : Float :=
  let size : Int := digits.log2
  -- `10 ^ 3 < 2 ^ 10` and `2 ^ 3 < 10`
  if digits = 0 then nearest negative 0 1
  else if 400 < exponent then nearest negative (Nat.pow 10 400) 1
  else if exponent < -400 - size then nearest negative 1 (Nat.pow 10 400)
  else if 0 ≤ exponent then nearest negative (digits * Nat.pow 10 exponent.toNat) 1
  else nearest negative digits (Nat.pow 10 (-exponent).toNat)

end LoadGen.Decimal
