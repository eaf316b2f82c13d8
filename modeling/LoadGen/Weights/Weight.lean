import LoadGen.Decimal.Shortest

/-!
# Arithmetic of weights

Weights are numbers of some type `R` with the operations that weighted selection needs. A run
reads them as 64-bit binary numbers, whose sums are rounded and may overflow to infinity. The
class leaves the type open, so that what selection does in exact arithmetic can be said of the
same definitions.
-/

namespace LoadGen.Weights

/-- The numbers that weights are: sums, differences, shares, comparisons, and a uniform draw from
`[0, 1)` made of one random word. -/
class Weight (R : Type) extends Zero R, Add R, Sub R, Mul R, Div R where
  /-- `less a b` says that `a` is smaller than `b`. -/
  less : R → R → Bool
  /-- `upTo a b` says that `a` is smaller than or equal to `b`. -/
  upTo : R → R → Bool
  /-- Neither infinite nor undefined. -/
  isFinite : R → Bool
  /-- The draw from `[0, 1)` that a random word stands for: its upper 53 bits over `2 ^ 53`. -/
  unit : UInt64 → R
  /-- The number as it appears in messages. -/
  text : R → String

/-- In messages weights have the fewest digits that identify them and never an exponent. -/
def messageLayout : Decimal.Layout where
  tie := .up
  plain := none
  pointZero := false

instance : Weight Float where
  less a b := a < b
  upTo a b := a ≤ b
  isFinite := Float.isFinite
  unit word := (word >>> 11).toFloat * Float.ofBits 0x3ca0000000000000
  text := messageLayout.render

end LoadGen.Weights
