import LoadGen.Proofs.Weights.Rounding
import LoadGen.Weights.Weight

/-!
# Binary weights

A weight that is accepted is a number and not negative (`Amount`). Sums, differences, products and
quotients of such weights are rounded, unless they are too large (`Amount.add` and so on), and they
are compared by their values. Two numbers that differ do so by a good part of the larger one
(`Amount.gap`), and a random word makes a multiple of `2 ^ -53` (`amount_unit`).
-/

namespace LoadGen.Weights.Binary

open Float.Model Float.Model.UnpackedFloat

/-! ## Packing -/

theorem unpackSign_packComponents {spec : Format} (s : Sign) (b : BitVec spec.exponentBits)
    (m : BitVec spec.mantissaBitsWithoutImplicit) :
    unpackSign (packComponents spec s b m) = s.toBitVec := by
  refine BitVec.eq_of_getLsbD_eq fun i hi => ?_
  obtain rfl : i = 0 := by omega
  simp [unpackSign, packComponents, BitVec.getLsbD_append, BitVec.getElem_append]

theorem ofBitVec_toBitVec (s : Sign) : Sign.ofBitVec s.toBitVec = s := by cases s <;> rfl

theorem toNat_implicit_append (m : BitVec 52) : (1#1 ++ m).toNat = 2 ^ 52 + m.toNat := by
  rw [BitVec.toNat_append, ← Nat.shiftLeft_add_eq_or_of_lt m.isLt]
  rfl

/-- What the exponent and the mantissa of a number that is not special stand for. -/
theorem unpack_eq_number {bits : BitVec 64} (h : @unpackExponent Format.binary64 bits ≠ -1#11) :
    UnpackedFloat.unpack Format.binary64 bits =
      if @unpackExponent Format.binary64 bits = 0#11 then
        number (Sign.ofBitVec (@unpackSign Format.binary64 bits))
          (@unpackMantissa Format.binary64 bits).toNat (-1074)
      else
        number (Sign.ofBitVec (@unpackSign Format.binary64 bits))
          (2 ^ 52 + (@unpackMantissa Format.binary64 bits).toNat)
          ((@unpackExponent Format.binary64 bits).toNat - 1075) := by
  rw [UnpackedFloat.unpack]
  dsimp only
  rw [if_neg h]
  split
  · next hzero =>
    rw [number]
    by_cases hm : @unpackMantissa Format.binary64 bits = 0#52
    · rw [dif_pos hm, dif_pos (by rw [hm]; rfl)]
    · rw [dif_neg hm, dif_neg (show _ ≠ 0 from fun h => hm (BitVec.eq_of_toNat_eq h)), hzero]
      rfl
  · rw [number, dif_neg (by omega)]
    congr 1
    exact toNat_implicit_append _

theorem canonical_unpack {bits : BitVec 64} (h : @unpackExponent Format.binary64 bits ≠ -1#11) :
    ∃ s m e, UnpackedFloat.unpack Format.binary64 bits = number s m e ∧ Canonical m e ∧
      e ≤ 971 := by
  rw [unpack_eq_number h]
  have hm := (@unpackMantissa Format.binary64 bits).isLt
  have hb := (@unpackExponent Format.binary64 bits).isLt
  split
  · exact ⟨_, _, _, rfl, ⟨hm.trans (by decide), le_rfl, .inr rfl⟩, by decide⟩
  · next hzero =>
    have hpos : (@unpackExponent Format.binary64 bits).toNat ≠ 0 := fun h =>
      hzero (BitVec.eq_of_toNat_eq h)
    have hmax : (@unpackExponent Format.binary64 bits).toNat ≠ 2047 := fun hmax =>
      h (BitVec.eq_of_toNat_eq hmax)
    dsimp only at hm hb
    exact ⟨_, _, _, rfl, ⟨by omega, by omega, .inl (by omega)⟩, by omega⟩

/-- **Every finite float is a number.** -/
theorem exists_number {x : Float} (h : x.isFinite = true) :
    ∃ s m e, x.toModel.unpack = number s m e ∧ Canonical m e ∧ e ≤ 971 := by
  refine canonical_unpack fun hexponent => ?_
  rw [Float.isFinite, Float.Model.isFinite, Float.Model.unpack, UnpackedFloat.unpack] at h
  dsimp only at h
  rw [if_pos hexponent] at h
  split at h <;> cases h

variable {s : Sign} {m : ℕ} {e : ℤ}

theorem unpack_packComponents (s : Sign) {b : BitVec 11} (hb : b ≠ -1#11) (m : BitVec 52) :
    UnpackedFloat.unpack Format.binary64 (packComponents Format.binary64 s b m) =
      if b = 0#11 then number s m.toNat (-1074)
      else number s (2 ^ 52 + m.toNat) (b.toNat - 1075) := by
  have hexponent : @unpackExponent Format.binary64 (packComponents Format.binary64 s b m) = b :=
    unpackExponent_packComponents
  have hmantissa : @unpackMantissa Format.binary64 (packComponents Format.binary64 s b m) = m :=
    unpackMantissa_packComponents
  rw [unpack_eq_number (by rw [hexponent]; exact hb), hexponent, hmantissa,
    unpackSign_packComponents, ofBitVec_toBitVec]

theorem pack_finite (s : Sign) (m : ℕ) (e : ℤ) (h : 0 < m) :
    UnpackedFloat.pack Format.binary64 (.finite s m e h) =
      if 2 ^ 11 ≤ (e + 1023 + 52).toNat + 1 then packedInfinity Format.binary64 s
      else if m.log2 + 1 = 53 then
        packComponents Format.binary64 s (BitVec.ofNat 11 (e + 1023 + 52).toNat) (BitVec.ofNat 52 m)
      else packComponents Format.binary64 s 0#11 (BitVec.ofNat 52 m) := rfl

/-- **A number is packed without loss**, unless its exponent is too large. -/
theorem unpack_pack (h : Canonical m e) (he : e ≤ 971) :
    (Float.Model.pack (number s m e)).unpack = number s m e := by
  have hle := h.le_exponent
  rw [Float.Model.unpack, Float.Model.pack]
  dsimp only
  by_cases hzero : m = 0
  · rw [number, dif_pos hzero]
    cases s <;> rfl
  · have hlog := Nat.log2_lt hzero (k := 52)
    have hlog' := (Nat.log2_lt hzero).2 h.lt
    have hbiased : (BitVec.ofNat 11 (e + 1023 + 52).toNat).toNat = (e + 1023 + 52).toNat := by
      rw [BitVec.toNat_ofNat, Nat.mod_eq_of_lt (by omega)]
    have hmantissa : (BitVec.ofNat 52 m).toNat = if m < 2 ^ 52 then m else m - 2 ^ 52 := by
      have := h.lt
      rw [BitVec.toNat_ofNat]
      split <;> omega
    have hnumber := number.eq_def s m e
    rw [dif_neg hzero] at hnumber
    rw [hnumber, pack_finite, if_neg (by omega)]
    split
    · next hnormal =>
      have hzero' : BitVec.ofNat 11 (e + 1023 + 52).toNat ≠ 0#11 := by
        intro h
        have := hbiased.symm.trans (congrArg BitVec.toNat h)
        change _ = 0 at this
        omega
      have hmax : BitVec.ofNat 11 (e + 1023 + 52).toNat ≠ -1#11 := by
        intro h
        have := hbiased.symm.trans (congrArg BitVec.toNat h)
        change _ = 2047 at this
        omega
      rw [unpack_packComponents s hmax, if_neg hzero', hbiased, hmantissa, if_neg (by omega)]
      have hm : 2 ^ 52 + (m - 2 ^ 52) = m := by omega
      have he : ((e + 1023 + 52).toNat - 1075 : ℤ) = e := by omega
      rw [hm, he, hnumber]
    · next hsubnormal =>
      have he : e = -1074 := h.le_or_eq.resolve_left (by omega)
      rw [unpack_packComponents s (by decide), if_pos rfl, hmantissa, if_pos (by omega), ← he,
        hnumber]

theorem unpack_pack_overflow (h : Canonical m e) (he : 971 < e) :
    (Float.Model.pack (number s m e)).unpack = .infinity s := by
  have hm : 2 ^ 52 ≤ m := h.le_or_eq.resolve_right (by omega)
  rw [number, dif_neg (by omega), Float.Model.unpack, Float.Model.pack]
  dsimp only
  rw [pack_finite, if_pos (by omega)]
  cases s <;> rfl

/-! ## Amounts -/

theorem number_zero (s : Sign) (e : ℤ) : number s 0 e = .zero s := dif_pos rfl

theorem number_of_pos (s : Sign) (hm : 0 < m) (e : ℤ) : number s m e = .finite s m e hm :=
  dif_neg hm.ne'

theorem rounds_zero : Rounds 0 0 := value_zero (-1074) ▸ canonical_zero.rounds

theorem stands_exact (m : ℕ) : Stands (.ofMantissaAndAccuracy m .exact) m := rfl

/-- A float is a number that is not negative. Zero may have any sign. -/
inductive Amount (x : Float) : ℚ → Prop
  | zero {s : Sign} (h : x.toModel.unpack = .zero s) : Amount x 0
  | positive {m : ℕ} {e : ℤ} {hm : 0 < m} (h : x.toModel.unpack = .finite .positive m e hm)
      (hcanonical : Canonical m e) (he : e ≤ 971) : Amount x (value m e)

/-- What comes of an operation whose exact result is `q`: it is rounded, or too large. -/
def Gives (x : Float) (q : ℚ) : Prop :=
  (∃ r, Amount x r ∧ Rounds q r) ∨
    x.toModel.unpack = .infinity .positive ∧ value (2 ^ 53 - 1) 971 < q

theorem value_le_max {m : ℕ} {e : ℤ} (hm : m < 2 ^ 53) (he : e ≤ 971) :
    value m e ≤ value (2 ^ 53 - 1) 971 := by
  have hle : m ≤ 2 ^ 53 - 1 := Nat.le_pred_of_lt hm
  rw [value, value]
  exact mul_le_mul (by exact_mod_cast hle) (two_pow_le_iff.2 he) (two_pow_pos e).le
    (Nat.cast_nonneg _)

namespace Amount

variable {x : Float} {q : ℚ} (h : Amount x q)

include h

theorem nonneg : 0 ≤ q := by
  cases h with
  | zero => exact le_rfl
  | positive => exact value_nonneg ..

/-- A number is what it is rounded to. -/
theorem rounds : Rounds q q := by
  cases h with
  | zero => exact rounds_zero
  | positive _ hcanonical => exact hcanonical.rounds

theorem le_max : q ≤ value (2 ^ 53 - 1) 971 := by
  cases h with
  | zero => exact value_nonneg ..
  | positive _ hcanonical he => exact value_le_max hcanonical.lt he

theorem gives : Gives x q := .inl ⟨q, h, h.rounds⟩

end Amount

theorem Gives.amount {x : Float} {q : ℚ} (h : Gives x q) (hq : q ≤ value (2 ^ 53 - 1) 971) :
    ∃ r, Amount x r ∧ Rounds q r :=
  h.resolve_right fun hlarge => (hlarge.2.trans_le hq).false

theorem amount_number (h : Canonical m e) (he : e ≤ 971) :
    Amount (.ofModel (Float.Model.pack (number .positive m e))) (value m e) := by
  have hunpack := unpack_pack (s := .positive) h he
  rcases m.eq_zero_or_pos with rfl | hm
  · rw [number_zero] at hunpack ⊢
    rw [value_zero]
    exact .zero hunpack
  · rw [number_of_pos _ hm] at hunpack ⊢
    exact .positive hunpack h he

theorem amount_finite (h : Canonical m e) (he : e ≤ 971) (hm : 0 < m) :
    Amount (.ofModel (Float.Model.pack (.finite .positive m e hm))) (value m e) :=
  number_of_pos .positive hm e ▸ amount_number h he

theorem amount_zero (s : Sign) : Amount (.ofModel (Float.Model.pack (.zero s))) 0 :=
  .zero (by cases s <;> rfl)

/-- A rounded number is packed. -/
theorem gives_pack {u : UnpackedFloat} {q : ℚ}
    (h : ∃ n f, u = number .positive n f ∧ Canonical n f ∧ Rounds q (value n f)) :
    Gives (.ofModel (Float.Model.pack u)) q := by
  obtain ⟨n, f, rfl, hcanonical, hrounds⟩ := h
  by_cases hf : f ≤ 971
  · exact .inl ⟨value n f, amount_number hcanonical hf, hrounds⟩
  · have hn : 2 ^ 52 ≤ n := hcanonical.le_or_eq.resolve_right (by omega)
    refine .inr ⟨unpack_pack_overflow hcanonical (by omega), ?_⟩
    by_contra! hle
    have := two_pow_lt_iff.1 ((le_value hn f).trans_lt (hrounds.lt_of_le hle))
    omega

/-! ## Operations -/

theorem value_add (m n : ℕ) (e : ℤ) : value (m + n) e = value m e + value n e := by
  rw [value, Nat.cast_add, add_mul]
  rfl

theorem value_sub {m n : ℕ} (h : n ≤ m) (e : ℤ) : value (m - n) e = value m e - value n e := by
  rw [value, Nat.cast_sub h, sub_mul]
  rfl

theorem value_decreaseExponent (m : ℕ) {e t : ℤ} (h : t ≤ e) :
    value (decreaseExponent m e t).1 t = value m e := by
  obtain ⟨k, hk⟩ := Int.eq_ofNat_of_zero_le (Int.sub_nonneg.2 h)
  rw [decreaseExponent, hk, Int.toNat_natCast, Nat.shiftLeft_eq, ← value_shift m k e]
  congr 1
  omega

/-- A difference that is not negative is rounded. -/
theorem normalize_spec (n : ℕ) (e : ℤ) :
    ∃ m f, normalize Format.binary64 n e .positive = number .positive m f ∧ Canonical m f ∧
      Rounds (value n e) (value m f) := by
  rw [UnpackedFloat.normalize]
  rcases n.eq_zero_or_pos with rfl | hn
  · refine ⟨0, -1074, ?_, canonical_zero, ?_⟩
    · rw [number_zero]
      rfl
    · rw [value_zero, value_zero]
      exact rounds_zero
  · have hcompare : compare (n : ℤ) 0 = .gt := Int.compare_eq_gt.2 (by omega)
    rw [hcompare]
    exact round_spec .positive hn.ne' e

/-- The product of two mantissas has enough bits to be rounded. -/
theorem Canonical.le_targetExponent_mul {m m' : ℕ} {e e' : ℤ} (h : Canonical m e)
    (h' : Canonical m' e') (hm : 0 < m) (hm' : 0 < m') :
    e + e' ≤ Format.binary64.targetExponent (totalExponent (m * m') (e + e')) := by
  have hproduct : m * m' ≠ 0 := (Nat.mul_pos hm hm').ne'
  rw [targetExponent_eq]
  rcases h.le_or_eq with hnormal | rfl
  · have := (Nat.le_log2 hproduct).2 (hnormal.trans (Nat.le_mul_of_pos_right m hm'))
    omega
  rcases h'.le_or_eq with hnormal | rfl
  · have := (Nat.le_log2 hproduct).2 (hnormal.trans (Nat.le_mul_of_pos_left m' hm))
    omega
  · omega

namespace Amount

variable {x y : Float} {a b : ℚ} (hx : Amount x a) (hy : Amount y b)

include hx hy

/-- **Sums are rounded.** -/
theorem add : Gives (x + y) (a + b) := by
  show Gives (.ofModel (Float.Model.pack (UnpackedFloat.add _ x.toModel.unpack y.toModel.unpack))) _
  cases hx with
  | zero h =>
    rw [h, zero_add]
    cases hy with
    | zero h' =>
      rw [h', UnpackedFloat.add]
      split <;> exact (amount_zero _).gives
    | positive h' hcanonical he =>
      rw [h']
      exact (amount_finite hcanonical he _).gives
  | @positive m e _ h hcanonical he =>
    rw [h]
    cases hy with
    | zero h' =>
      rw [h', add_zero]
      exact (amount_finite hcanonical he _).gives
    | @positive m' e' _ h' =>
      rw [h']
      have hsum := normalize_spec ((decreaseExponent m e (min e e')).1 +
        (decreaseExponent m' e' (min e e')).1) (min e e')
      rw [value_add, value_decreaseExponent m (min_le_left e e'),
        value_decreaseExponent m' (min_le_right e e'), Nat.cast_add] at hsum
      exact gives_pack hsum

/-- **Differences are rounded**, if they are not negative. -/
theorem sub (hle : b ≤ a) : Gives (x - y) (a - b) := by
  show Gives (.ofModel (Float.Model.pack (UnpackedFloat.sub _ x.toModel.unpack y.toModel.unpack))) _
  cases hx with
  | zero h =>
    rw [h]
    cases hy with
    | zero h' =>
      rw [h', UnpackedFloat.sub, sub_zero]
      split <;> exact (amount_zero _).gives
    | positive => exact absurd (value_pos (by omega) _) (not_lt.2 hle)
  | @positive m e _ h hcanonical he =>
    rw [h]
    cases hy with
    | zero h' =>
      rw [h', sub_zero]
      exact (amount_finite hcanonical he _).gives
    | @positive m' e' _ h' =>
      rw [h']
      have hvalue := value_decreaseExponent m (min_le_left e e')
      have hvalue' := value_decreaseExponent m' (min_le_right e e')
      have hmantissa : (decreaseExponent m' e' (min e e')).1 ≤
          (decreaseExponent m e (min e e')).1 := by
        rw [← hvalue, ← hvalue'] at hle
        exact not_lt.1 fun hlt => (not_lt.2 hle) (value_lt_iff.2 hlt)
      have hdiff := normalize_spec ((decreaseExponent m e (min e e')).1 -
        (decreaseExponent m' e' (min e e')).1) (min e e')
      rw [value_sub hmantissa, hvalue, hvalue', Nat.cast_sub hmantissa] at hdiff
      exact gives_pack hdiff

/-- **Products are rounded.** -/
theorem mul : Gives (x * y) (a * b) := by
  show Gives (.ofModel (Float.Model.pack (UnpackedFloat.mul _ x.toModel.unpack y.toModel.unpack))) _
  cases hx with
  | zero h =>
    rw [h, zero_mul]
    cases hy with
    | zero h' | positive h' =>
      rw [h']
      exact (amount_zero _).gives
  | @positive m e hm h hcanonical =>
    rw [h]
    cases hy with
    | zero h' =>
      rw [h', mul_zero]
      exact (amount_zero _).gives
    | @positive m' e' hm' h' hcanonical' =>
      rw [h']
      have hvalue : value m e * value m' e' = (m * m' : ℕ) * 2 ^ (e + e') := by
        rw [value, value, Nat.cast_mul, two_pow_add]
        ring
      rw [hvalue]
      exact gives_pack (roundWithAccuracy_spec .positive (stands_exact _)
        (hcanonical.le_targetExponent_mul hcanonical' hm hm'))

end Amount

theorem stands_accuracyOfFraction {r d : ℕ} (h : r < d) (n : ℕ) :
    Stands (.ofMantissaAndAccuracy n (accuracyOfFraction r d)) (n + r / d) := by
  have hd : (0 : ℚ) < d := by exact_mod_cast (Nat.zero_lt_of_lt h)
  have hlt : (r : ℚ) / d < 1 := (div_lt_one hd).2 (by exact_mod_cast h)
  rw [accuracyOfFraction]
  split
  · next hzero =>
    rw [hzero, Nat.cast_zero, zero_div, add_zero]
    exact stands_exact n
  · next hzero =>
    have hpos : (0 : ℚ) < r / d := by positivity
    cases hcompare : compare (2 * r) d with
    | lt =>
      have hhalf : (2 * r : ℚ) < d := by exact_mod_cast Nat.compare_eq_lt.1 hcompare
      refine Stands.less_iff.2 ⟨by linarith, ?_⟩
      rw [add_lt_add_iff_left, div_lt_iff₀ hd]
      linarith
    | eq =>
      have hhalf : (2 * r : ℚ) = d := by exact_mod_cast Nat.compare_eq_eq.1 hcompare
      refine Stands.half_iff.2 ?_
      rw [add_right_inj, div_eq_iff hd.ne']
      linarith
    | gt =>
      have hhalf : (d : ℚ) < 2 * r := by exact_mod_cast Nat.compare_eq_gt.1 hcompare
      refine Stands.more_iff.2 ⟨?_, by linarith⟩
      rw [add_lt_add_iff_left, lt_div_iff₀ hd]
      linarith

/-- The quotient of two mantissas has enough bits to be rounded. -/
theorem divCore_spec {m m' : ℕ} (hm : 0 < m) (hm' : 0 < m') (e e' : ℤ) :
    ∃ n f accuracy y, divCore Format.binary64 m e m' e' = (n, f, accuracy) ∧
      Stands (.ofMantissaAndAccuracy n accuracy) y ∧ y * 2 ^ f = value m e / value m' e' ∧
      f ≤ Format.binary64.targetExponent (totalExponent n f) := by
  have htarget : Format.binary64.targetExponent (totalExponent m e - totalExponent m' e') =
      max (m.log2 + e - (m'.log2 + e') - 53) (-1074) := by
    simp only [Format.targetExponent, totalExponent, Format.mantissaBits, Format.minExponent]
    omega
  rw [divCore, htarget]
  generalize hf : min (e - e') (max (m.log2 + e - (m'.log2 + e') - 53) (-1074)) = f
  obtain ⟨k, hk⟩ := Int.eq_ofNat_of_zero_le (show 0 ≤ e - e' - f by omega)
  rw [hk, Int.toNat_natCast]
  have hquotient : (((m <<< k / m' : ℕ) : ℚ) + (m <<< k % m' : ℕ) / m') * 2 ^ f =
      value m e / value m' e' := by
    have hdivmod : ((m * 2 ^ k : ℕ) : ℚ) = m' * (m <<< k / m' : ℕ) + (m <<< k % m' : ℕ) := by
      rw [← Nat.shiftLeft_eq]
      exact_mod_cast (Nat.div_add_mod (m <<< k) m').symm
    have hne : (m' : ℚ) ≠ 0 := by exact_mod_cast hm'.ne'
    have hpow : (2 : ℚ) ^ e = 2 ^ k * 2 ^ f * 2 ^ e' := by
      rw [← zpow_natCast, ← two_pow_add, ← two_pow_add]
      congr 1
      omega
    have hpos := two_pow_pos e'
    rw [value, value, hpow]
    push_cast at hdivmod
    field_simp
    linear_combination -hdivmod
  refine ⟨_, _, _, _, rfl, stands_accuracyOfFraction (Nat.mod_lt _ hm') _, hquotient, ?_⟩
  rw [targetExponent_eq]
  by_cases hmin : f ≤ -1074
  · omega
  · -- the mantissa of the quotient has 53 bits
    have hbits : 2 ^ 52 ≤ m <<< k / m' := by
      rw [Nat.le_div_iff_mul_le hm', Nat.shiftLeft_eq]
      calc 2 ^ 52 * m' ≤ 2 ^ 52 * 2 ^ (m'.log2 + 1) := Nat.mul_le_mul_left _ Nat.lt_log2_self.le
        _ = 2 ^ (52 + (m'.log2 + 1)) := (pow_add ..).symm
        _ ≤ 2 ^ (m.log2 + k) := Nat.pow_le_pow_right two_pos (by omega)
        _ = 2 ^ m.log2 * 2 ^ k := pow_add ..
        _ ≤ m * 2 ^ k := Nat.mul_le_mul_right _ (Nat.log2_self_le hm.ne')
    have := (Nat.le_log2 (by omega)).2 hbits
    omega

/-- **Quotients are rounded.** -/
theorem Amount.div {x y : Float} {a b : ℚ} (hx : Amount x a) (hy : Amount y b) (hb : 0 < b) :
    Gives (x / y) (a / b) := by
  show Gives (.ofModel (Float.Model.pack (UnpackedFloat.div _ x.toModel.unpack y.toModel.unpack))) _
  cases hy with
  | zero => exact absurd hb (lt_irrefl 0)
  | @positive m' e' hm' h' =>
    rw [h']
    cases hx with
    | zero h =>
      rw [h, zero_div]
      exact (amount_zero _).gives
    | @positive m e hm h =>
      rw [h]
      obtain ⟨n, f, accuracy, y, hdiv, hstands, hvalue, hexponent⟩ := divCore_spec hm hm' e e'
      rw [UnpackedFloat.div, hdiv, ← hvalue]
      exact gives_pack (roundWithAccuracy_spec .positive hstands hexponent)

/-! ## Comparisons -/

theorem Canonical.value_lt_value {m m' : ℕ} {e e' : ℤ} (h : Canonical m e) (h' : Canonical m' e')
    (he : e < e') : value m e < value m' e' := by
  have hle := h.le_exponent
  have hm' : 2 ^ 52 ≤ m' := h'.le_or_eq.resolve_right (by omega)
  calc value m e < 2 ^ (e + 53) := value_lt h.lt e
    _ ≤ 2 ^ (e' + 52) := two_pow_le_iff.2 (by omega)
    _ ≤ value m' e' := le_value hm' e'

/-- **Numbers are compared by their values.** -/
theorem Amount.compare_eq {x y : Float} {a b : ℚ} (hx : Amount x a) (hy : Amount y b) :
    UnpackedFloat.compare x.toModel.unpack y.toModel.unpack = some (compare a b) := by
  cases hx with
  | zero h =>
    rw [h]
    cases hy with
    | zero h' =>
      rw [h', compare_eq_iff_eq.2 rfl]
      rfl
    | positive h' =>
      rw [h', compare_lt_iff_lt.2 (value_pos (by omega) _)]
      rfl
  | @positive m e hm h hcanonical =>
    rw [h]
    cases hy with
    | zero h' =>
      rw [h', compare_gt_iff_gt.2 (value_pos (by omega) _)]
      rfl
    | @positive m' e' hm' h' hcanonical' =>
      rw [h', UnpackedFloat.compare]
      congr 1
      rcases lt_trichotomy e e' with he | rfl | he
      · rw [compare_lt_iff_lt.2 he, compare_lt_iff_lt.2 (hcanonical.value_lt_value hcanonical' he)]
        rfl
      · rw [compare_eq_iff_eq.2 rfl, Ordering.eq_then]
        rcases lt_trichotomy m m' with hm | rfl | hm
        · rw [compare_lt_iff_lt.2 hm, compare_lt_iff_lt.2 (value_lt_iff.2 hm)]
        · rw [compare_eq_iff_eq.2 rfl, compare_eq_iff_eq.2 rfl]
        · rw [compare_gt_iff_gt.2 hm, compare_gt_iff_gt.2 (value_lt_iff.2 hm)]
      · rw [compare_gt_iff_gt.2 he, compare_gt_iff_gt.2 (hcanonical'.value_lt_value hcanonical he)]
        rfl

theorem less_eq (x y : Float) :
    Weight.less x y = (UnpackedFloat.compare x.toModel.unpack y.toModel.unpack == some .lt) := by
  show decide (Float.lt x y = true) = _
  rw [Bool.decide_eq_true]
  show decide ((_ : Bool) = true) = _
  rw [Bool.decide_eq_true]
  rfl

theorem upTo_eq (x y : Float) :
    Weight.upTo x y = (UnpackedFloat.compare x.toModel.unpack y.toModel.unpack).any (·.isLE) := by
  show decide (Float.le x y = true) = _
  rw [Bool.decide_eq_true]
  show decide ((_ : Bool) = true) = _
  rw [Bool.decide_eq_true]
  rfl

theorem Amount.less_iff {x y : Float} {a b : ℚ} (hx : Amount x a) (hy : Amount y b) :
    Weight.less x y = true ↔ a < b := by
  rw [less_eq, hx.compare_eq hy, beq_iff_eq, Option.some_inj, compare_lt_iff_lt]

theorem Amount.upTo_iff {x y : Float} {a b : ℚ} (hx : Amount x a) (hy : Amount y b) :
    Weight.upTo x y = true ↔ a ≤ b := by
  rw [upTo_eq, hx.compare_eq hy, Option.any_some, ← compare_le_iff_le, Ordering.isLE_iff_ne_gt]

theorem amount_literal_zero : Amount (0 : Float) 0 := .zero (s := .positive) rfl

/-- **A weight that is accepted is a number.** -/
theorem exists_amount {x : Float} (hfinite : Weight.isFinite x = true)
    (hless : Weight.less x 0 = false) : ∃ q, Amount x q := by
  obtain ⟨s, m, e, hunpack, hcanonical, he⟩ := exists_number hfinite
  rcases m.eq_zero_or_pos with rfl | hm
  · exact ⟨0, .zero (hunpack.trans (number_zero s e))⟩
  · rw [number_of_pos s hm] at hunpack
    cases s with
    | positive => exact ⟨_, .positive hunpack hcanonical he⟩
    | negative =>
      rw [less_eq, hunpack] at hless
      cases hless

/-- Infinity is positive. -/
theorem less_infinity {x : Float} (h : x.toModel.unpack = .infinity .positive) :
    Weight.less 0 x = true := by
  rw [less_eq, h]
  rfl

theorem not_finite_infinity {x : Float} (h : x.toModel.unpack = .infinity .positive) :
    Weight.isFinite x = false := by
  show UnpackedFloat.isFinite x.toModel.unpack = false
  rw [h]
  rfl

theorem Amount.isFinite {x : Float} {q : ℚ} (h : Amount x q) : Weight.isFinite x = true := by
  show UnpackedFloat.isFinite x.toModel.unpack = true
  cases h with
  | zero h | positive h =>
    rw [h]
    rfl

/-- Next to infinity everything vanishes. -/
theorem not_less_div_infinity (x : Float) {y : Float} (h : y.toModel.unpack = .infinity .positive) :
    Weight.less 0 (x / y) = false := by
  have hdiv : (x / y).toModel =
      Float.Model.pack (UnpackedFloat.div Format.binary64 x.toModel.unpack y.toModel.unpack) := rfl
  rw [less_eq, hdiv, h]
  cases x.toModel.unpack with
  | finite s =>
    rw [UnpackedFloat.div]
    cases s <;> rfl
  | infinity s | zero s => cases s <;> rfl
  | notANumber => rfl

/-- Infinity stays when numbers are added. -/
theorem infinity_add {x y : Float} {b : ℚ} (h : x.toModel.unpack = .infinity .positive)
    (hy : Amount y b) : (x + y).toModel.unpack = .infinity .positive := by
  have hadd : UnpackedFloat.add Format.binary64 x.toModel.unpack y.toModel.unpack =
      .infinity .positive := by
    rw [h]
    cases hy with
    | zero h' | positive h' =>
      rw [h']
      rfl
  show (Float.Model.pack (UnpackedFloat.add Format.binary64 _ _)).unpack = _
  rw [hadd]
  rfl

/-! ## Gaps -/

theorem two_pow_le_sub {m n : ℕ} {t : ℤ} (h : value n t < value m t) :
    (2 : ℚ) ^ t ≤ value m t - value n t := by
  have hlt : n + 1 ≤ m := value_lt_iff.1 h
  rw [← value_sub (by omega), value]
  have hone : (1 : ℚ) ≤ (m - n : ℕ) := by exact_mod_cast (by omega : 1 ≤ m - n)
  exact le_mul_of_one_le_left (two_pow_pos t).le hone

theorem Amount.exists_eq {x : Float} {q : ℚ} (h : Amount x q) : ∃ n, q = value n (-1074) := by
  cases h with
  | zero => exact ⟨0, (value_zero _).symm⟩
  | positive _ hcanonical => exact exists_value_eq hcanonical.le_exponent

section Gaps

variable {x y : Float} {a b : ℚ} (hx : Amount x a) (hy : Amount y b) (hlt : b < a)

include hx hy hlt

theorem Amount.min_le_sub : (2 : ℚ) ^ (-1074 : ℤ) ≤ a - b := by
  obtain ⟨m, rfl⟩ := hx.exists_eq
  obtain ⟨n, rfl⟩ := hy.exists_eq
  exact two_pow_le_sub hlt

/-- **Two numbers that differ are not close.** -/
theorem Amount.gap : a / 2 ^ 54 ≤ a - b := by
  cases hx with
  | zero => exact absurd hlt (not_lt.2 hy.nonneg)
  | @positive m e _ _ hcanonical =>
    have hsmall : value m e / 2 ^ 54 ≤ 2 ^ (e - 1) := by
      have hpow : (2 : ℚ) ^ (e - 1) * 2 ^ 54 = 2 ^ (e + 53) := by
        rw [← zpow_natCast, ← two_pow_add]
        congr 1
        omega
      rw [div_le_iff₀ (by positivity), hpow]
      exact (value_lt hcanonical.lt e).le
    refine hsmall.trans ?_
    cases hy with
    | zero =>
      rw [sub_zero]
      have hpos := two_pow_pos e
      have hone : (1 : ℚ) ≤ m := by exact_mod_cast (by omega : 1 ≤ m)
      rw [value, two_pow_sub_one]
      nlinarith
    | @positive m' e' _ _ hcanonical' =>
      rcases lt_or_ge e' (e - 1) with hfar | hnear
      · -- the smaller number has a smaller exponent still
        have hm : 2 ^ 52 ≤ m := hcanonical.le_or_eq.resolve_right (by
          have := hcanonical'.le_exponent
          omega)
        have hle := le_value hm e
        have hle' := (value_lt hcanonical'.lt e').le.trans
          (two_pow_le_iff.2 (show e' + 53 ≤ e + 51 by omega))
        have h51 : (2 : ℚ) ^ (e + 52) = 2 ^ (e + 51) * 2 := by
          rw [← zpow_add_one₀ two_ne_zero]
          congr 1
          omega
        have hmono := two_pow_le_iff.2 (show e - 1 ≤ e + 51 by omega)
        push_cast at hle
        linarith
      · -- both are multiples of one power of two
        obtain ⟨n, hn⟩ := exists_value_eq (m := m) (show e - 1 ≤ e by omega)
        obtain ⟨n', hn'⟩ := exists_value_eq (m := m') hnear
        rw [hn, hn'] at hlt ⊢
        exact two_pow_le_sub hlt

end Gaps

/-! ## Random draws -/

/-- **A random word makes a multiple of `2 ^ -53` below one.** -/
theorem amount_unit (word : UInt64) :
    ∃ k < 2 ^ 53, Amount (Weight.unit word) (value k (-53)) := by
  have hlt : (word >>> 11).toNat < 2 ^ 53 := by
    rw [UInt64.toNat_shiftRight, Nat.shiftRight_eq_div_pow]
    exact Nat.div_lt_of_lt_mul word.toNat_lt
  obtain ⟨r, hr, hrounds⟩ :=
    (gives_pack (normalize_spec (word >>> 11).toNat 0)).amount (value_le_max hlt (by decide))
  rw [hrounds.eq_of_fits rfl hlt (by decide)] at hr
  have hulp : Amount (Float.ofBits 0x3ca0000000000000) (value (2 ^ 52) (-105)) :=
    @Amount.positive _ _ _ (by decide) rfl ⟨by decide, by decide, .inl le_rfl⟩ (by decide)
  have hvalue : value (word >>> 11).toNat 0 * value (2 ^ 52) (-105) =
      value (word >>> 11).toNat (-53) := by
    rw [value, value, value]
    norm_num
  have hproduct := hr.mul hulp
  rw [hvalue] at hproduct
  obtain ⟨r, hr, hrounds⟩ := hproduct.amount (value_le_max hlt (by decide))
  rw [hrounds.eq_of_fits rfl hlt (by decide)] at hr
  exact ⟨_, hlt, hr⟩

end LoadGen.Weights.Binary
