import LoadGen.Weights.Table
import Mathlib.Data.Rat.Defs
import Mathlib.Algebra.Order.Ring.Rat

/-!
# Exact weights

Weights that are rational numbers: nothing is rounded, so that a weighted draw can be computed and
reasoned about as it is meant.
-/

namespace LoadGen.Weights

instance : Weight ℚ where
  less a b := a < b
  upTo a b := a ≤ b
  isFinite _ := true
  unit word := mkRat (word >>> 11).toNat (2 ^ 53)
  text a := toString a

end LoadGen.Weights
