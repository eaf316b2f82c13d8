import Mathlib

/-!
# Rounding

Sums, products and quotients of 64-bit binary numbers are rounded to the nearest number that has
53 bits, or fewer next to zero (`Rounds`). A number that is not too small keeps its magnitude, up
to a part in `2 ^ 53`, and one that fits is kept as it is. `roundWithAccuracy_spec` and `round_spec`
say that the model of these numbers rounds so.
-/

namespace LoadGen.Weights.Binary

open Float.Model Float.Model.UnpackedFloat

/-- The number with a mantissa and an exponent. -/
def value (m : ℕ) (e : ℤ) : ℚ := m * 2 ^ e

/-! ## Powers of two -/

theorem two_pow_pos (e : ℤ) : (0 : ℚ) < 2 ^ e := zpow_pos two_pos e

theorem two_pow_add (e f : ℤ) : (2 : ℚ) ^ (e + f) = 2 ^ e * 2 ^ f := zpow_add₀ two_ne_zero e f

theorem two_pow_le_iff {e f : ℤ} : (2 : ℚ) ^ e ≤ 2 ^ f ↔ e ≤ f :=
  zpow_le_zpow_iff_right₀ one_lt_two

theorem two_pow_lt_iff {e f : ℤ} : (2 : ℚ) ^ e < 2 ^ f ↔ e < f :=
  zpow_lt_zpow_iff_right₀ one_lt_two

theorem two_pow_sub_one (e : ℤ) : (2 : ℚ) ^ (e - 1) = 2 ^ e / 2 := by
  rw [zpow_sub_one₀ two_ne_zero, div_eq_mul_inv]

theorem value_nonneg (m : ℕ) (e : ℤ) : 0 ≤ value m e := mul_nonneg m.cast_nonneg (two_pow_pos e).le

theorem value_pos {m : ℕ} (hm : m ≠ 0) (e : ℤ) : 0 < value m e :=
  mul_pos (Nat.cast_pos.2 (Nat.pos_of_ne_zero hm)) (two_pow_pos e)

theorem value_zero (e : ℤ) : value 0 e = 0 := by rw [value, Nat.cast_zero, zero_mul]

/-- The exponent can be lowered. -/
theorem value_shift (m k : ℕ) (e : ℤ) : value (m * 2 ^ k) (e - k) = value m e := by
  rw [value, value, Nat.cast_mul, Nat.cast_pow, Nat.cast_two, mul_assoc, ← zpow_natCast,
    ← two_pow_add, add_sub_cancel]

theorem exists_value_eq {m : ℕ} {e t : ℤ} (h : t ≤ e) : ∃ n : ℕ, value m e = value n t := by
  obtain ⟨k, hk⟩ := Int.eq_ofNat_of_zero_le (Int.sub_nonneg.2 h)
  refine ⟨m * 2 ^ k, ?_⟩
  rw [← value_shift m k e]
  congr 1
  omega

theorem value_lt_iff {m n : ℕ} {e : ℤ} : value m e < value n e ↔ m < n := by
  rw [value, value, mul_lt_mul_iff_of_pos_right (two_pow_pos e), Nat.cast_lt]

theorem value_lt {m k : ℕ} (h : m < 2 ^ k) (e : ℤ) : value m e < 2 ^ (e + k) := by
  rw [value, add_comm, two_pow_add, zpow_natCast, mul_lt_mul_iff_of_pos_right (two_pow_pos e)]
  exact_mod_cast h

theorem le_value {m k : ℕ} (h : 2 ^ k ≤ m) (e : ℤ) : (2 : ℚ) ^ (e + k) ≤ value m e := by
  rw [value, add_comm, two_pow_add, zpow_natCast, mul_le_mul_iff_of_pos_right (two_pow_pos e)]
  exact_mod_cast h

/-- Two multiples of a power of two that differ by at most half of it are the same. -/
theorem value_eq_of_near {m n : ℕ} {t : ℤ} (h : |value m t - value n t| ≤ 2 ^ (t - 1)) : m = n := by
  have hpos := two_pow_pos t
  rw [value, value, ← sub_mul, abs_mul, abs_of_pos hpos, two_pow_sub_one] at h
  have hlt : |(m : ℚ) - n| < 1 := by nlinarith
  have hint : |(m : ℤ) - n| < 1 := by exact_mod_cast hlt
  rw [Int.abs_lt_one_iff] at hint
  omega

/-! ## Rounded numbers -/

/-- `r` is `x` rounded to the nearest multiple of `2 ^ t`: 53 bits of `x` are kept, or fewer if the
exponent cannot be lowered any more. -/
structure RoundsAt (t : ℤ) (x r : ℚ) : Prop where
  le_exponent : -1074 ≤ t
  lower : t = -1074 ∨ (2 : ℚ) ^ (t + 52) ≤ x
  upper : x < 2 ^ (t + 53)
  multiple : ∃ n : ℕ, r = value n t
  near : |r - x| ≤ 2 ^ (t - 1)

/-- `r` is `x` rounded. -/
def Rounds (x r : ℚ) : Prop := ∃ t, RoundsAt t x r

/-- A mantissa and an exponent that numbers are given by. -/
structure Canonical (m : ℕ) (e : ℤ) : Prop where
  lt : m < 2 ^ 53
  le_exponent : -1074 ≤ e
  le_or_eq : 2 ^ 52 ≤ m ∨ e = -1074

theorem canonical_zero : Canonical 0 (-1074) := ⟨by decide, le_rfl, .inr rfl⟩

/-- **A number is kept as it is.** -/
theorem Canonical.rounds {m : ℕ} {e : ℤ} (h : Canonical m e) : Rounds (value m e) (value m e) := by
  refine ⟨e, h.le_exponent, ?_, value_lt h.lt e, ⟨m, rfl⟩, ?_⟩
  · exact h.le_or_eq.symm.imp_right fun hm => le_value hm e
  · rw [sub_self, abs_zero]
    exact (two_pow_pos _).le

/-- Below the smallest number of 53 bits the exponent is the smallest. -/
theorem RoundsAt.eq_of_lt {t : ℤ} {x r : ℚ} (h : RoundsAt t x r) (hx : x < 2 ^ (-1022 : ℤ)) :
    t = -1074 := by
  refine h.lower.resolve_right fun hlower => ?_
  have := two_pow_lt_iff.1 (hlower.trans_lt hx)
  have := h.le_exponent
  omega

namespace Rounds

variable {x r : ℚ} (h : Rounds x r)

include h

theorem nonneg : 0 ≤ r := by
  obtain ⟨t, ht⟩ := h
  obtain ⟨n, rfl⟩ := ht.multiple
  exact value_nonneg n t

/-- More than half of the smallest number does not vanish. -/
theorem pos (hx : 2 ^ (-1075 : ℤ) < x) : 0 < r := by
  refine h.nonneg.lt_of_ne' ?_
  rintro rfl
  obtain ⟨t, ht⟩ := h
  have hnear := ht.near
  rw [zero_sub, abs_neg, abs_of_pos ((two_pow_pos _).trans hx)] at hnear
  rcases ht.lower with rfl | hlower
  · exact absurd hx (not_lt.2 hnear)
  · have := two_pow_le_iff.1 (hlower.trans hnear)
    omega

/-- The relative error of a number that is not too small. -/
theorem near (hx : 2 ^ (-1022 : ℤ) ≤ x) : |r - x| ≤ x / 2 ^ 53 := by
  obtain ⟨t, ht⟩ := h
  have hle : (2 : ℚ) ^ (t + 52) ≤ x := by
    rcases ht.lower with rfl | hlower
    · exact hx
    · exact hlower
  have hsplit : (2 : ℚ) ^ (t + 52) = 2 ^ (t - 1) * 2 ^ 53 := by
    rw [← zpow_natCast, ← two_pow_add]
    congr 1
    omega
  refine ht.near.trans ?_
  rw [le_div_iff₀ (by positivity), ← hsplit]
  exact hle

theorem half_le (hx : 2 ^ (-1074 : ℤ) ≤ x) : x / 2 ≤ r := by
  rcases lt_or_ge x (2 ^ (-1022 : ℤ)) with hlt | hge
  · obtain ⟨t, ht⟩ := h
    obtain rfl := ht.eq_of_lt hlt
    have hnear := (abs_le.1 ht.near).1
    rw [two_pow_sub_one] at hnear
    linarith
  · have hnear := (abs_le.1 (h.near hge)).1
    have hpos := (two_pow_pos _).trans_le hge
    have : x / 2 ^ 53 ≤ x / 2 := by gcongr; norm_num
    linarith

theorem le_of_lt (hx : x < 2 ^ (-1022 : ℤ)) : r ≤ 2 ^ (-1022 : ℤ) := by
  obtain ⟨t, ht⟩ := h
  obtain rfl := ht.eq_of_lt hx
  obtain ⟨n, rfl⟩ := ht.multiple
  have hnear := (abs_le.1 ht.near).2
  rw [two_pow_sub_one] at hnear
  have hexponent : (-1022 : ℤ) = -1074 + (52 : ℕ) := by decide
  have hmin : (2 : ℚ) ^ (-1022 : ℤ) = value (2 ^ 52) (-1074) := by
    rw [hexponent, add_comm, two_pow_add, zpow_natCast, value, Nat.cast_pow, Nat.cast_two]
  rw [hmin] at hx ⊢
  have hlt : value n (-1074) < value (2 ^ 52 + 1) (-1074) := by
    have := two_pow_pos (-1074)
    have hone : value (2 ^ 52 + 1) (-1074) = value (2 ^ 52) (-1074) + 2 ^ (-1074 : ℤ) := by
      rw [value, Nat.cast_add, Nat.cast_one, add_one_mul]
      rfl
    linarith
  rw [← not_lt, value_lt_iff, not_lt]
  exact Nat.lt_succ_iff.1 (value_lt_iff.1 hlt)

/-- **A number that fits is kept as it is.** -/
theorem eq_of_fits {n : ℕ} {e : ℤ} (hx : x = value n e) (hn : n < 2 ^ 53) (he : -1074 ≤ e) :
    r = x := by
  obtain ⟨t, ht⟩ := h
  have hle : t ≤ e := by
    rcases ht.lower with rfl | hlower
    · exact he
    · have := two_pow_lt_iff.1 (hlower.trans_lt (hx ▸ value_lt hn e))
      omega
  obtain ⟨m, hm⟩ := ht.multiple
  obtain ⟨n', hn'⟩ := exists_value_eq (m := n) hle
  rw [hx, hn', hm]
  have hnear := ht.near
  rw [hx, hn', hm] at hnear
  rw [value_eq_of_near hnear]

/-- What does not exceed the largest number does not overflow. -/
theorem lt_of_le (hx : x ≤ value (2 ^ 53 - 1) 971) : r < 2 ^ (1024 : ℤ) := by
  obtain ⟨t, ht⟩ := h
  have hlt : x < 2 ^ (1024 : ℤ) := hx.trans_lt (value_lt (k := 53) (by decide) 971)
  have hle : t - 1 ≤ 970 := by
    rcases ht.lower with rfl | hlower
    · decide
    · have := two_pow_lt_iff.1 (hlower.trans_lt hlt)
      omega
  have hnear := (abs_le.1 (ht.near.trans (two_pow_le_iff.2 hle))).2
  have hsum : value (2 ^ 53 - 1) 971 + 2 ^ (970 : ℤ) < 2 ^ (1024 : ℤ) := by
    have h971 : (2 : ℚ) ^ (971 : ℤ) = 2 ^ (970 : ℤ) * 2 := zpow_add_one₀ two_ne_zero 970
    have h1024 : (2 : ℚ) ^ (1024 : ℤ) = 2 ^ (970 : ℤ) * 2 ^ 54 := two_pow_add 970 54
    have hpos := two_pow_pos 970
    rw [value, h971, h1024]
    generalize (2 : ℚ) ^ (970 : ℤ) = p at hpos ⊢
    push_cast
    linarith
  linarith

end Rounds

/-! ## Mantissas with residual bits -/

/-- `y` has the whole part and the residual bits of an extended mantissa. -/
def Stands (em : ExtendedMantissa) (y : ℚ) : Prop :=
  match em.accuracy with
  | .exact => y = em.mantissa
  | .inexact .lt => em.mantissa < y ∧ y < em.mantissa + 1 / 2
  | .inexact .eq => y = em.mantissa + 1 / 2
  | .inexact .gt => em.mantissa + 1 / 2 < y ∧ y < em.mantissa + 1

namespace Stands

theorem exact_iff {m : ℕ} {y : ℚ} : Stands ⟨m, false, false⟩ y ↔ y = m := .rfl

theorem less_iff {m : ℕ} {y : ℚ} : Stands ⟨m, false, true⟩ y ↔ (m : ℚ) < y ∧ y < m + 1 / 2 := .rfl

theorem half_iff {m : ℕ} {y : ℚ} : Stands ⟨m, true, false⟩ y ↔ y = m + 1 / 2 := .rfl

theorem more_iff {m : ℕ} {y : ℚ} : Stands ⟨m, true, true⟩ y ↔ m + 1 / 2 < y ∧ y < m + 1 := .rfl

variable {em : ExtendedMantissa} {y : ℚ} (h : Stands em y)

include h

theorem mantissa_le : (em.mantissa : ℚ) ≤ y ∧ y < em.mantissa + 1 := by
  rw [Stands.eq_def] at h
  split at h <;> constructor <;> linarith

theorem shiftRightOne : Stands em.shiftRightOne (y / 2) := by
  obtain ⟨m, round, sticky⟩ := em
  have hm : (m : ℚ) = 2 * (m / 2 : ℕ) + (m % 2 : ℕ) := by exact_mod_cast (Nat.div_add_mod m 2).symm
  rw [ExtendedMantissa.shiftRightOne]
  dsimp only
  rcases m.mod_two_eq_zero_or_one with hmod | hmod <;> rw [hmod] at hm ⊢ <;>
    cases round <;> cases sticky <;>
    simp only [bne_self_eq_false, Nat.reduceBNe, Bool.or_false, Bool.or_true, exact_iff, less_iff,
      half_iff, more_iff, hm, Nat.cast_zero, Nat.cast_one] at h ⊢ <;>
    first | linarith | constructor <;> linarith

theorem shiftRight (n : ℕ) : Stands (em >>> n) (y / 2 ^ n) := by
  induction n with
  | zero => rwa [pow_zero, div_one]
  | succ n ih =>
    rw [pow_succ, ← div_div]
    exact ih.shiftRightOne

/-- Rounding goes to the nearest mantissa. -/
theorem roundedMantissa : |(em.roundedMantissa : ℚ) - y| ≤ 1 / 2 := by
  rw [Stands.eq_def] at h
  rw [ExtendedMantissa.roundedMantissa]
  split at h <;> next haccuracy =>
    rw [haccuracy, Accuracy.roundToNearestEven, abs_le]
    try
      have hparity : (em.mantissa % 2 : ℕ) ≤ 1 := by omega
      have hparity : ((em.mantissa % 2 : ℕ) : ℚ) ≤ 1 := by exact_mod_cast hparity
      have hnonneg := (em.mantissa % 2).cast_nonneg (α := ℚ)
    constructor <;> push_cast at * <;> linarith

end Stands

/-! ## Rounding of the model -/

/-- The number with a sign, a mantissa and an exponent. -/
def number (s : Sign) (m : ℕ) (e : ℤ) : UnpackedFloat :=
  if h : m = 0 then .zero s else .finite s m e (Nat.pos_of_ne_zero h)

theorem targetExponent_eq (m : ℕ) (e : ℤ) :
    Format.binary64.targetExponent (totalExponent m e) = max (m.log2 + e - 52) (-1074) := by
  simp only [Format.targetExponent, totalExponent, Format.mantissaBits, Format.minExponent]
  omega

theorem shiftToTargetExponent_of_lt {m : ℕ} {e : ℤ} (hm : m < 2 ^ 53) (he : -1074 ≤ e) :
    shiftToTargetExponent Format.binary64 m e .exact = (⟨m, false, false⟩, e) := by
  have hlog : m.log2 ≤ 52 := by
    rcases eq_or_ne m 0 with rfl | hzero
    · decide
    · exact Nat.lt_succ_iff.1 ((Nat.log2_lt hzero).2 hm)
  have hshift : (max (m.log2 + e - 52) (-1074) - e).toNat = 0 := by omega
  rw [shiftToTargetExponent, targetExponent_eq, shiftToExponent, hshift, Nat.cast_zero, add_zero]
  rfl

/-- A carry out of the mantissa goes into the exponent. -/
theorem shiftToTargetExponent_carry {e : ℤ} (he : -1074 ≤ e) :
    shiftToTargetExponent Format.binary64 (2 ^ 53) e .exact = (⟨2 ^ 52, false, false⟩, e + 1) := by
  have hshift : (max ((2 ^ 53 : ℕ).log2 + e - 52) (-1074) - e).toNat = 1 := by
    rw [Nat.log2_two_pow]
    omega
  rw [shiftToTargetExponent, targetExponent_eq, shiftToExponent, hshift]
  rfl

/-- The second shift keeps the value and leaves at most 53 bits. -/
theorem exists_shift_eq {r : ℕ} {t : ℤ} (hr : r ≤ 2 ^ 53) (ht : -1074 ≤ t)
    (hlow : 2 ^ 52 ≤ r ∨ t = -1074) :
    ∃ n f, shiftToTargetExponent Format.binary64 r t .exact = (⟨n, false, false⟩, f) ∧
      Canonical n f ∧ value n f = value r t := by
  rcases hr.lt_or_eq with hlt | rfl
  · exact ⟨r, t, shiftToTargetExponent_of_lt hlt ht, ⟨hlt, ht, hlow⟩, rfl⟩
  · refine ⟨2 ^ 52, t + 1, shiftToTargetExponent_carry ht, ⟨by decide, by omega, .inl le_rfl⟩, ?_⟩
    rw [← value_shift _ 1 (t + 1)]
    congr 1
    omega

section Shifted

variable {m k : ℕ} {e : ℤ} {y : ℚ} (ht : max (m.log2 + e - 52) (-1074) = e + k)

include ht

/-- The first shift leaves at most 53 bits before the point. -/
theorem shifted_lt (hy : y < m + 1) : y / 2 ^ k < 2 ^ 53 := by
  rw [div_lt_iff₀ (by positivity), ← pow_add]
  have hm : m + 1 ≤ 2 ^ (53 + k) := Nat.succ_le_of_lt <|
    Nat.lt_log2_self.trans_le (Nat.pow_le_pow_right two_pos (by omega))
  exact hy.trans_le (by exact_mod_cast hm)

/-- It leaves 53 bits unless the exponent is the smallest. -/
theorem le_shifted (hy : m ≤ y) : e + k = -1074 ∨ (2 : ℚ) ^ 52 ≤ y / 2 ^ k := by
  refine or_iff_not_imp_left.2 fun hmin => ?_
  have hlog : m.log2 = 52 + k := by omega
  have hzero : m ≠ 0 := by
    rintro rfl
    rw [Nat.log2_zero] at hlog
    omega
  have hm : 2 ^ (52 + k) ≤ m := hlog ▸ Nat.log2_self_le hzero
  rw [le_div_iff₀ (by positivity), ← pow_add]
  exact le_trans (by exact_mod_cast hm) hy

end Shifted

section Near

variable {r : ℕ} {t : ℤ} {z : ℚ} (hnear : |(r : ℚ) - z| ≤ 1 / 2)
  (hlower : t = -1074 ∨ (2 : ℚ) ^ 52 ≤ z)

include hnear

/-- A mantissa that is rounded up may have one bit more. -/
theorem le_of_near (hupper : z < 2 ^ 53) : r ≤ 2 ^ 53 := by
  have hhigh := (abs_le.1 hnear).2
  have hlt : (r : ℚ) < (2 ^ 53 + 1 : ℕ) := by
    push_cast
    linarith
  exact Nat.lt_succ_iff.1 (by exact_mod_cast hlt)

include hlower

theorem le_or_eq_of_near : 2 ^ 52 ≤ r ∨ t = -1074 := by
  refine hlower.symm.imp_left fun hz => ?_
  have hlow := (abs_le.1 hnear).1
  have hlt : ((2 ^ 52 : ℕ) : ℚ) < (r + 1 : ℕ) := by
    push_cast
    linarith
  exact Nat.lt_succ_iff.1 (by exact_mod_cast hlt)

/-- A mantissa is rounded to the nearest one, and the number with it. -/
theorem roundsAt_of_near (hupper : z < 2 ^ 53) (ht : -1074 ≤ t) :
    RoundsAt t (z * 2 ^ t) (value r t) := by
  have hpos := two_pow_pos t
  have hsplit (i : ℕ) : (2 : ℚ) ^ (t + i) = 2 ^ i * 2 ^ t := by
    rw [two_pow_add, zpow_natCast, mul_comm]
  refine ⟨ht, ?_, ?_, ⟨r, rfl⟩, ?_⟩
  · exact hlower.imp_right fun hz => (hsplit 52).trans_le (mul_le_mul_of_nonneg_right hz hpos.le)
  · exact (mul_lt_mul_of_pos_right hupper hpos).trans_eq (hsplit 53).symm
  · rw [value, ← sub_mul, abs_mul, abs_of_pos hpos, two_pow_sub_one]
    nlinarith

end Near

/-- **Rounding of a mantissa with what it leaves over.** -/
theorem roundWithAccuracy_spec (s : Sign) {m : ℕ} {e : ℤ} {accuracy : Accuracy} {y : ℚ}
    (hy : Stands (.ofMantissaAndAccuracy m accuracy) y)
    (he : e ≤ Format.binary64.targetExponent (totalExponent m e)) :
    ∃ n f, roundWithAccuracy Format.binary64 s m e accuracy = number s n f ∧ Canonical n f ∧
      Rounds (y * 2 ^ e) (value n f) := by
  have hmantissa : (ExtendedMantissa.ofMantissaAndAccuracy m accuracy).mantissa = m := by
    rcases accuracy with _ | (_ | _ | _) <;> rfl
  obtain ⟨hle, hlt⟩ := hy.mantissa_le
  rw [hmantissa] at hle hlt
  rw [targetExponent_eq] at he
  rw [roundWithAccuracy, shiftToTargetExponent, targetExponent_eq, shiftToExponent]
  obtain ⟨k, hk⟩ := Int.eq_ofNat_of_zero_le (Int.sub_nonneg.2 he)
  have ht : max (m.log2 + e - 52) (-1074) = e + k := by omega
  have hshift : (e + k - e).toNat = k := by omega
  rw [ht, hshift]
  -- what is rounded is `y / 2 ^ k` with the exponent `e + k`
  have hlower := le_shifted ht hle
  have hupper := shifted_lt ht hlt
  have hnear := (hy.shiftRight k).roundedMantissa
  have hvalue : y * 2 ^ e = y / 2 ^ k * 2 ^ (e + k : ℤ) := by
    rw [two_pow_add, zpow_natCast]
    field_simp
  rw [hvalue]
  dsimp only
  generalize (ExtendedMantissa.ofMantissaAndAccuracy m accuracy >>> k).roundedMantissa = r at hnear
  obtain ⟨n, f, hshift, hcanonical, hvalue⟩ :=
    exists_shift_eq (le_of_near hnear hupper) (by omega) (le_or_eq_of_near hnear hlower)
  refine ⟨n, f, by rw [hshift]; rfl, hcanonical, e + k, ?_⟩
  rw [hvalue]
  exact roundsAt_of_near hnear hlower hupper (by omega)

theorem log2_shiftLeft {m : ℕ} (hm : m ≠ 0) (k : ℕ) : (m <<< k).log2 = m.log2 + k := by
  rw [Nat.log2_eq_iff (Nat.shiftLeft_eq_zero_iff.not.2 hm), Nat.shiftLeft_eq]
  constructor
  · rw [pow_add]
    exact Nat.mul_le_mul_right _ (Nat.log2_self_le hm)
  · rw [add_right_comm, pow_add]
    exact Nat.mul_lt_mul_of_pos_right Nat.lt_log2_self (Nat.two_pow_pos k)

/-- **Rounding of a number.** -/
theorem round_spec (s : Sign) {m : ℕ} (hm : m ≠ 0) (e : ℤ) :
    ∃ n f, UnpackedFloat.round Format.binary64 s m e = number s n f ∧ Canonical n f ∧
      Rounds (value m e) (value n f) := by
  unfold UnpackedFloat.round decreaseExponent
  rw [targetExponent_eq]
  dsimp only
  generalize hk : (e - max (m.log2 + e - 52) (-1074)).toNat = k
  have hexact : Stands (.ofMantissaAndAccuracy (m <<< k) .exact) (m <<< k : ℕ) :=
    Stands.exact_iff.2 rfl
  have he : e - k ≤ Format.binary64.targetExponent (totalExponent (m <<< k) (e - k)) := by
    rw [targetExponent_eq, log2_shiftLeft hm]
    omega
  obtain ⟨n, f, hround, hcanonical, hrounds⟩ := roundWithAccuracy_spec s hexact he
  refine ⟨n, f, hround, hcanonical, ?_⟩
  rwa [Nat.shiftLeft_eq, ← value.eq_def, value_shift] at hrounds

end LoadGen.Weights.Binary
