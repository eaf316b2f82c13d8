import LoadGen.Proofs.Weights.Binary
import LoadGen.Proofs.Weights.Tables

/-!
# Shares of what is drawn

Sums of weights are rounded, and so are their shares. If the sum of all weights is finite, and the
first positive weight does not vanish next to it (`WeightedTable.SharesOut`), every item that can be
drawn has a share (`WeightedTable.less_share_indexFor`). If the sum is not finite, no item has one
(`WeightedTable.not_less_share`).
-/

namespace LoadGen.Weights

open Binary

variable {α : Type}

/-! ## Positions -/

namespace WeightedTable

section Positions

variable {R : Type} [Weight R] (t : WeightedTable R α) (draw : R)

theorem length_takeWhile_eq {β : Type} (p : β → Bool) (as : List β) :
    (as.takeWhile p).length = as.findIdx (!p ·) := by
  rw [List.takeWhile_eq_take_findIdx_not, List.length_take, min_eq_left List.findIdx_le_length]

theorem val_indexFor :
    (t.indexFor draw).val = min (t.bounds.findIdx (!Weight.upTo · draw)) t.lastPositive := by
  rw [indexFor]
  dsimp only
  rw [length_takeWhile_eq]

/-- The bounds before the item that is drawn do not exceed the draw. -/
theorem upTo_of_lt {i : ℕ} (hi : i < (t.indexFor draw).val) :
    Weight.upTo (t.bounds.getD i 0) draw = true := by
  rw [val_indexFor] at hi
  have hlt := hi.trans_le (min_le_left ..)
  have hnot := List.not_of_lt_findIdx hlt
  rw [List.getD_eq_getElem _ _ (hlt.trans_le List.findIdx_le_length)]
  simpa using hnot

/-- The bound of the item that is drawn exceeds the draw, unless it is the last positive one. -/
theorem eq_lastPositive_of_upTo
    (h : Weight.upTo (t.bounds.getD (t.indexFor draw) 0) draw = true) :
    (t.indexFor draw).val = t.lastPositive := by
  rw [val_indexFor] at h ⊢
  refine min_eq_right ?_
  by_contra! hlt
  have hfound := hlt.trans (t.length_bounds ▸ t.lastPositive_lt)
  have hnot := List.findIdx_getElem (w := hfound)
  rw [min_eq_left hlt.le, List.getD_eq_getElem _ _ hfound] at h
  rw [h] at hnot
  cases hnot

end Positions

/-- Where the draws of the item at a position begin. -/
def lower {R : Type} [Weight R] (t : WeightedTable R α) (i : ℕ) : R :=
  if i = 0 then 0 else t.bounds.getD (i - 1) 0

/-- The weights of a table add up to a number, next to which the first positive one does not
vanish. -/
structure SharesOut {R : Type} [Weight R] (t : WeightedTable R α) : Prop where
  isFinite_total : Weight.isFinite t.total = true
  first : ∀ i < t.items.length, Weight.less 0 (t.lower i) = false →
    Weight.less 0 (t.bounds.getD i 0) = true → Weight.less 0 (t.share i) = true

instance {R : Type} [Weight R] (t : WeightedTable R α) : Decidable t.SharesOut :=
  decidable_of_iff (Weight.isFinite t.total = true ∧ ∀ i < t.items.length,
    Weight.less 0 (t.lower i) = false → Weight.less 0 (t.bounds.getD i 0) = true →
      Weight.less 0 (t.share i) = true) ⟨fun h => ⟨h.1, h.2⟩, fun h => ⟨h.1, h.2⟩⟩

section Bounds

variable {R : Type} [Weight R] {t : WeightedTable R α} {weighted : List (α × R)}
  (ht : t.Weighs weighted)

include ht

theorem length_items : t.items.length = weighted.length := by
  rw [ht.items_eq, List.length_map]

theorem lower_eq {i : ℕ} (hi : i ≤ weighted.length) :
    t.lower i = sumOf ((weighted.map (·.2)).take i) := by
  rw [lower]
  cases i with
  | zero => rfl
  | succ i => rw [if_neg (Nat.succ_ne_zero i), Nat.succ_sub_one, ht.getD_bounds hi]

/-- A bound is the one before it and the weight. -/
theorem getD_bounds_eq_add {i : ℕ} {p : α × R} (hp : weighted[i]? = some p) :
    t.bounds.getD i 0 = t.lower i + p.2 := by
  obtain ⟨hi, rfl⟩ := List.getElem?_eq_some_iff.1 hp
  rw [ht.getD_bounds hi, lower_eq ht hi.le, List.take_add_one, sumOf, List.foldl_append,
    List.getElem?_map, List.getElem?_eq_getElem hi]
  rfl

end Bounds

end WeightedTable

/-! ## Sums -/

namespace Binary

theorem Amount.unique {x : Float} {q r : ℚ} (h : Amount x q) (h' : Amount x r) : q = r := by
  cases h with
  | zero h =>
    cases h' with
    | zero => rfl
    | positive h' => cases h.symm.trans h'
  | positive h =>
    cases h' with
    | zero h' => cases h.symm.trans h'
    | positive h' =>
      cases h.symm.trans h'
      rfl

/-- A positive number is not smaller than the smallest one. -/
theorem Amount.min_le {x : Float} {q : ℚ} (h : Amount x q) (hq : 0 < q) :
    (2 : ℚ) ^ (-1074 : ℤ) ≤ q := by
  have := h.min_le_sub amount_literal_zero hq
  rwa [sub_zero] at this

theorem Amount.not_infinity {x : Float} {q : ℚ} (h : Amount x q) :
    x.toModel.unpack ≠ .infinity .positive := by
  intro hinf
  cases h with
  | zero h | positive h => cases h.symm.trans hinf

/-- The sum of two numbers is rounded if it is a number. -/
theorem Amount.rounds_add {x y : Float} {a b r : ℚ} (hx : Amount x a) (hy : Amount y b)
    (hr : Amount (x + y) r) : Rounds (a + b) r := by
  rcases hx.add hy with ⟨r', hr', hrounds⟩ | ⟨hinf, -⟩
  · rwa [hr.unique hr']
  · exact absurd hinf hr.not_infinity

/-- A sum is positive if one of the two numbers is. -/
theorem Amount.add_pos {x y : Float} {a b r : ℚ} (hx : Amount x a) (hy : Amount y b)
    (hr : Amount (x + y) r) (hpos : 0 < a + b) : 0 < r := by
  have hmin : (2 : ℚ) ^ (-1074 : ℤ) ≤ a + b := by
    rcases hx.nonneg.lt_or_eq with ha | rfl
    · exact (hx.min_le ha).trans (le_add_of_nonneg_right hy.nonneg)
    · rw [zero_add] at hpos ⊢
      exact hy.min_le hpos
  have := (hx.rounds_add hy hr).half_le hmin
  linarith

/-- A number is kept by rounding. -/
theorem Amount.eq_of_rounds {x : Float} {q r : ℚ} (h : Amount x q) (hr : Rounds q r) : r = q := by
  cases h with
  | zero => exact hr.eq_of_fits (value_zero 0).symm (by decide) (by decide)
  | positive _ hcanonical => exact hr.eq_of_fits rfl hcanonical.lt hcanonical.le_exponent

theorem Amount.add_zero {x y : Float} {q : ℚ} (hx : Amount x q) (hy : Amount y 0) :
    Amount (x + y) q := by
  obtain ⟨r, hr, hrounds⟩ := (hx.add hy).amount (by simpa using hx.le_max)
  rwa [← hx.eq_of_rounds (by simpa using hrounds)]

/-! ### Lists -/

section Sums

variable {ws : List Float} (hws : ∀ w ∈ ws, ∃ q, Amount w q)

include hws

theorem foldl_infinity {x : Float} (hx : x.toModel.unpack = .infinity .positive) :
    (ws.foldl (· + ·) x).toModel.unpack = .infinity .positive := by
  induction ws generalizing x with
  | nil => exact hx
  | cons w ws ih =>
    rw [List.forall_mem_cons] at hws
    obtain ⟨q, hw⟩ := hws.1
    exact ih hws.2 (infinity_add hx hw)

/-- A sum of numbers is a number, or infinite. -/
theorem foldl_amount {x : Float} {q : ℚ} (hx : Amount x q) :
    (∃ r, Amount (ws.foldl (· + ·) x) r) ∨
      (ws.foldl (· + ·) x).toModel.unpack = .infinity .positive := by
  induction ws generalizing x q with
  | nil => exact .inl ⟨q, hx⟩
  | cons w ws ih =>
    rw [List.forall_mem_cons] at hws
    obtain ⟨q', hw⟩ := hws.1
    rcases hx.add hw with ⟨r, hr, -⟩ | ⟨hinf, -⟩
    · exact ih hws.2 hr
    · exact .inr (foldl_infinity hws.2 hinf)

/-- What is positive stays so. -/
theorem foldl_pos {x : Float} {q r : ℚ} (hx : Amount x q) (hq : 0 < q)
    (hr : Amount (ws.foldl (· + ·) x) r) : 0 < r := by
  induction ws generalizing x q with
  | nil => rwa [hr.unique hx]
  | cons w ws ih =>
    rw [List.forall_mem_cons] at hws
    obtain ⟨q', hw⟩ := hws.1
    rcases hx.add hw with ⟨q'', hsum, -⟩ | ⟨hinf, -⟩
    · exact ih hws.2 hsum (hx.add_pos hw hsum (add_pos_of_pos_of_nonneg hq hw.nonneg)) hr
    · exact absurd (foldl_infinity hws.2 hinf) hr.not_infinity

end Sums

theorem foldl_zeros {ws : List Float} (hws : ∀ w ∈ ws, Amount w 0) {x : Float} {q : ℚ}
    (hx : Amount x q) : Amount (ws.foldl (· + ·) x) q := by
  induction ws generalizing x with
  | nil => exact hx
  | cons w ws ih =>
    rw [List.forall_mem_cons] at hws
    exact ih hws.2 (hx.add_zero hws.1)

/-! ## Shares -/

/-- A quotient that does not vanish is positive, even if it is too large. -/
theorem less_div {x y : Float} {a b : ℚ} (hx : Amount x a) (hy : Amount y b) (hb : 0 < b)
    (hlarge : 2 ^ (-1075 : ℤ) * b < a) : Weight.less 0 (x / y) = true := by
  rcases hx.div hy hb with ⟨r, hr, hrounds⟩ | ⟨hinf, -⟩
  · exact (amount_literal_zero.less_iff hr).2 (hrounds.pos ((lt_div_iff₀ hb).2 hlarge))
  · exact less_infinity hinf

/-- **The share of two bounds that differ is positive**, if the sum of all weights is small or not
much larger than the upper bound. -/
theorem less_share {lower bound total : Float} {l b q : ℚ} (hlower : Amount lower l)
    (hbound : Amount bound b) (htotal : Amount total q) (hq : 0 < q) (hlt : l < b)
    (hlarge : q < 2 ∨ q / 2 ^ 54 ≤ b) : Weight.less 0 ((bound - lower) / total) = true := by
  have hfits : b - l ≤ value (2 ^ 53 - 1) 971 := by
    have := hbound.le_max
    have := hlower.nonneg
    linarith
  obtain ⟨r, hr, hrounds⟩ := (hbound.sub hlower hlt.le).amount hfits
  have hhalf := hrounds.half_le (hbound.min_le_sub hlower hlt)
  have hmin := hbound.min_le_sub hlower hlt
  refine less_div hr htotal hq ?_
  rcases hlarge with hsmall | hlarge
  · -- the difference is at least the smallest number
    have hr := hr.min_le (by have := two_pow_pos (-1074); linarith)
    have h1075 : (2 : ℚ) ^ (-1074 : ℤ) = 2 ^ (-1075 : ℤ) * 2 := zpow_add_one₀ two_ne_zero (-1075)
    have := two_pow_pos (-1075)
    nlinarith
  · -- the difference is a good part of the bound
    have hgap := hbound.gap hlower hlt
    have hpow : (2 : ℚ) ^ (-1075 : ℤ) < 2 ^ (-109 : ℤ) := two_pow_lt_iff.2 (by decide)
    calc (2 : ℚ) ^ (-1075 : ℤ) * q < 2 ^ (-109 : ℤ) * q := mul_lt_mul_of_pos_right hpow hq
      _ = q / 2 ^ 54 / 2 ^ 54 / 2 := by norm_num; ring
      _ ≤ b / 2 ^ 54 / 2 := by gcongr
      _ ≤ (b - l) / 2 := by gcongr
      _ ≤ r := hhalf

/-- A draw that rounding lifts to the sum of all weights: the sum is tiny. -/
theorem le_of_lifted {k : ℕ} {q d : ℚ} (hk : k < 2 ^ 53) (hrounds : Rounds (value k (-53) * q) d)
    (hq : 0 < q) (hle : q ≤ d) : q ≤ 2 ^ (-1022 : ℤ) := by
  by_contra! hlarge
  have hk : (k : ℚ) ≤ 2 ^ 53 - 1 := by
    have : k + 1 ≤ 2 ^ 53 := hk
    exact le_sub_iff_add_le.2 (by exact_mod_cast this)
  have hx : value k (-53) * q ≤ q - q / 2 ^ 53 := by
    have hunit : value k (-53) = k / 2 ^ 53 := by
      rw [value, zpow_neg, div_eq_mul_inv]
      rfl
    rw [hunit]
    calc (k : ℚ) / 2 ^ 53 * q ≤ (2 ^ 53 - 1) / 2 ^ 53 * q := by gcongr
      _ = q - q / 2 ^ 53 := by ring
  rcases lt_or_ge (value k (-53) * q) (2 ^ (-1022 : ℤ)) with hlt | hge
  · exact (hlarge.trans_le hle).not_ge (hrounds.le_of_lt hlt)
  · have hnear := (abs_le.1 (hrounds.near hge)).2
    linarith

/-- Numbers that add up to a tiny number do so exactly. -/
theorem eq_add_of_le {x y : Float} {a b r : ℚ} (hx : Amount x a) (hy : Amount y b)
    (hrounds : Rounds (a + b) r) (hr : r ≤ 2 ^ (-1022 : ℤ)) : r = a + b := by
  obtain ⟨m, rfl⟩ := hx.exists_eq
  obtain ⟨n, rfl⟩ := hy.exists_eq
  rw [← value_add] at hrounds ⊢
  refine hrounds.eq_of_fits rfl ?_ le_rfl
  by_contra! hlarge
  have hle := le_value hlarge (-1074)
  have h1021 : (2 : ℚ) ^ (-1074 + (53 : ℕ) : ℤ) = 2 ^ (-1022 : ℤ) * 2 :=
    zpow_add_one₀ two_ne_zero (-1022)
  rw [h1021] at hle
  have hpos := two_pow_pos (-1022)
  have hnear := (abs_le.1 (hrounds.near (by linarith))).1
  linarith

end Binary

namespace WeightedTable

variable {t : WeightedTable Float α} {weighted : List (α × Float)} (ht : t.Weighs weighted)
  (hw : Weighable (weighted.map (·.2)))

include ht hw

omit ht in
theorem exists_amount_of_weighable : ∀ w ∈ weighted.map (·.2), ∃ q, Amount w q := fun w hmem =>
  exists_amount (hw.regular w hmem).1 (hw.regular w hmem).2

/-- The sum of all weights is a number, or infinite. -/
theorem exists_amount_total_or : (∃ q, Amount t.total q) ∨
    t.total.toModel.unpack = .infinity .positive := by
  rw [ht.total_eq]
  exact foldl_amount (exists_amount_of_weighable hw) amount_literal_zero

/-- If the sum of all weights is not finite, no item has a share. -/
theorem not_less_share (hinf : Weight.isFinite t.total = false) (i : ℕ) :
    Weight.less 0 (t.share i) = false := by
  rcases exists_amount_total_or ht hw with ⟨q, hq⟩ | htotal
  · cases hinf.symm.trans hq.isFinite
  · exact not_less_div_infinity _ htotal

section Finite

variable (hfinite : Weight.isFinite t.total = true)

include hfinite

theorem exists_amount_total : ∃ q, Amount t.total q := by
  refine (exists_amount_total_or ht hw).resolve_right fun hinf => ?_
  rw [not_finite_infinity hinf] at hfinite
  cases hfinite

theorem exists_amount_take (i : ℕ) : ∃ q, Amount (sumOf ((weighted.map (·.2)).take i)) q := by
  have hws := exists_amount_of_weighable hw
  refine (foldl_amount (fun w hmem => hws w (List.mem_of_mem_take hmem))
    amount_literal_zero).resolve_right fun hinf => ?_
  obtain ⟨q, hq⟩ := exists_amount_total ht hw hfinite
  have hdrop : ∀ w ∈ (weighted.map (·.2)).drop i, ∃ q, Amount w q := fun w hmem =>
    hws w (List.mem_of_mem_drop hmem)
  have hrest := foldl_infinity hdrop hinf
  rw [← List.foldl_append, List.take_append_drop, ← sumOf.eq_def, ← ht.total_eq] at hrest
  exact hq.not_infinity hrest

/-- Where a draw stands among the bounds: it has reached the item that it selects, and gone past it
only if this is the last one of positive weight. -/
theorem exists_amount_indexFor {draw : Float} {d : ℚ} (hdraw : Amount draw d) :
    ∃ l b, Amount (t.lower (t.indexFor draw)) l ∧ Amount (t.bounds.getD (t.indexFor draw) 0) b ∧
      l ≤ d ∧ (b ≤ d → (t.indexFor draw).val = t.lastPositive) := by
  have hupTo (i : ℕ) := t.upTo_of_lt draw (i := i)
  have hlast := t.eq_lastPositive_of_upTo draw
  have hi : (t.indexFor draw).val < weighted.length := length_items ht ▸ (t.indexFor draw).isLt
  generalize (t.indexFor draw).val = i at hupTo hlast hi ⊢
  obtain ⟨l, hlower⟩ := exists_amount_take ht hw hfinite i
  obtain ⟨b, hbound⟩ := exists_amount_take ht hw hfinite (i + 1)
  rw [← lower_eq ht hi.le] at hlower
  rw [← ht.getD_bounds hi] at hbound
  refine ⟨l, b, hlower, hbound, ?_, fun hle => hlast ((hbound.upTo_iff hdraw).2 hle)⟩
  cases i with
  | zero =>
    rw [hlower.unique amount_literal_zero]
    exact hdraw.nonneg
  | succ j => exact (hlower.upTo_iff hdraw).1 (hupTo j j.lt_succ_self)

end Finite

/-- The sum of the weights up to the last positive one is that of all. -/
theorem amount_total_of_lastPositive {q : ℚ}
    (h : Amount (t.bounds.getD t.lastPositive 0) q) : Amount t.total q := by
  have hlt : t.lastPositive < weighted.length := length_items ht ▸ t.lastPositive_lt
  rw [ht.getD_bounds hlt] at h
  rw [ht.total_eq, sumOf, ← List.take_append_drop (t.lastPositive + 1) (weighted.map (·.2)),
    List.foldl_append]
  refine foldl_zeros (fun w hmem => ?_) h
  obtain ⟨j, hj⟩ := List.getElem?_of_mem hmem
  rw [List.getElem?_drop, List.getElem?_map] at hj
  obtain ⟨p, hp, rfl⟩ := Option.map_eq_some_iff.1 hj
  obtain ⟨q', hq'⟩ := exists_amount_of_weighable hw p.2
    (List.mem_map_of_mem (List.mem_of_getElem? hp))
  have hless := ht.not_less_later _ p (by omega) hp
  rcases hq'.nonneg.lt_or_eq with hpos | rfl
  · rw [(amount_literal_zero.less_iff hq').2 hpos] at hless
    cases hless
  · exact hq'

/-- The sum of all weights is positive if a bound is. -/
theorem total_pos {i : ℕ} {b q : ℚ} (hi : i < weighted.length)
    (hbound : Amount (t.bounds.getD i 0) b) (hb : 0 < b) (htotal : Amount t.total q) : 0 < q := by
  have hdrop : ∀ w ∈ (weighted.map (·.2)).drop (i + 1), ∃ q, Amount w q := fun w hmem =>
    exists_amount_of_weighable hw w (List.mem_of_mem_drop hmem)
  rw [ht.getD_bounds hi] at hbound
  rw [ht.total_eq, sumOf, ← List.take_append_drop (i + 1) (weighted.map (·.2)),
    List.foldl_append] at htotal
  exact foldl_pos hdrop hbound hb htotal

section Drawn

variable {i k : ℕ} {l b q d : ℚ} (htotal : Amount t.total q)
  (hrounds : Rounds (value k (-53) * q) d)

include htotal hrounds

/-- A draw that is lifted to the sum of all weights selects the last item of positive weight. The
sum is tiny then. -/
theorem less_share_lastPositive (hk : k < 2 ^ 53) (hlower : Amount (t.lower t.lastPositive) l)
    (hbound : Amount (t.bounds.getD t.lastPositive 0) q) (hlifted : q ≤ d) :
    Weight.less 0 (t.share t.lastPositive) = true := by
  obtain ⟨p, hp, hless⟩ := ht.less_lastPositive
  obtain ⟨w, hweight⟩ := exists_amount_of_weighable hw p.2
    (List.mem_map_of_mem (List.mem_of_getElem? hp))
  have hwpos := (amount_literal_zero.less_iff hweight).1 hless
  have hsum := hbound
  rw [getD_bounds_eq_add ht hp] at hsum
  have hqpos := hlower.add_pos hweight hsum (add_pos_of_nonneg_of_pos hlower.nonneg hwpos)
  have htiny := le_of_lifted hk hrounds hqpos hlifted
  have hexact := eq_add_of_le hlower hweight (hlower.rounds_add hweight hsum) htiny
  have htwo : (2 : ℚ) ^ (-1022 : ℤ) < 2 ^ (1 : ℤ) := two_pow_lt_iff.2 (by decide)
  exact less_share hlower hbound htotal hqpos (by linarith) (.inl (htiny.trans_lt htwo))

/-- A draw below a bound selects an item with a share. -/
theorem less_share_of_draw (hs : t.SharesOut) (hi : i < weighted.length) (hlower : Amount (t.lower i) l)
    (hbound : Amount (t.bounds.getD i 0) b) (hd : 0 ≤ d) (hle : l ≤ d) (hlt : d < b) :
    Weight.less 0 (t.share i) = true := by
  have hbpos : 0 < b := hd.trans_lt hlt
  have hq := total_pos ht hw hi hbound hbpos htotal
  rcases lt_or_ge q 2 with hsmall | hlarge
  · exact less_share hlower hbound htotal hq (hle.trans_lt hlt) (.inl hsmall)
  rcases k.eq_zero_or_pos with rfl | hkpos
  · -- the first positive weight is drawn
    rw [value_zero, zero_mul] at hrounds
    obtain rfl := hrounds.eq_of_fits (value_zero 0).symm (by decide) (by decide)
    refine hs.first i (length_items ht ▸ hi) ?_ ((amount_literal_zero.less_iff hbound).2 hbpos)
    rw [Bool.eq_false_iff, Ne, amount_literal_zero.less_iff hlower]
    exact not_lt.2 hle
  · -- the draw, and so the bound, is a good part of the sum
    have hunit : (2 : ℚ) ^ (-53 : ℤ) ≤ value k (-53) := le_value (k := 0) hkpos (-53)
    have hmin : (2 : ℚ) ^ (-1074 : ℤ) ≤ 2 ^ (-53 : ℤ) := two_pow_le_iff.2 (by decide)
    have h53 : (2 : ℚ) ^ (-53 : ℤ) = 1 / 2 ^ 53 := by norm_num
    have hlow : 2 ^ (-53 : ℤ) * q ≤ value k (-53) * q := mul_le_mul_of_nonneg_right hunit hq.le
    have hone : (2 : ℚ) ^ (-53 : ℤ) ≤ 2 ^ (-53 : ℤ) * q :=
      le_mul_of_one_le_right (two_pow_pos _).le (by linarith)
    have hhalf := hrounds.half_le (hmin.trans (hone.trans hlow))
    refine less_share hlower hbound htotal hq (hle.trans_lt hlt) (.inr ?_)
    rw [h53] at hlow
    linarith

end Drawn

omit ht hw in
/-- A random word makes a draw up to the sum of all weights. -/
theorem exists_amount_draw {q : ℚ} (htotal : Amount t.total q) (word : UInt64) :
    ∃ k < 2 ^ 53, ∃ d, Amount (Weight.unit word * t.total) d ∧ Rounds (value k (-53) * q) d := by
  obtain ⟨k, hk, hunit⟩ := amount_unit word
  have hbelow : value k (-53) * q ≤ q := by
    have hone : value k (-53) < 1 := (value_lt hk (-53)).trans_eq (zpow_zero 2)
    exact mul_le_of_le_one_left htotal.nonneg hone.le
  obtain ⟨d, hdraw, hrounds⟩ := (hunit.mul htotal).amount (hbelow.trans htotal.le_max)
  exact ⟨k, hk, d, hdraw, hrounds⟩

/-- **Every item that can be drawn has a share.** -/
theorem less_share_indexFor (hs : t.SharesOut) (word : UInt64) :
    Weight.less 0 (t.share (t.indexFor (Weight.unit word * t.total))) = true := by
  obtain ⟨q, htotal⟩ := exists_amount_total ht hw hs.isFinite_total
  obtain ⟨k, hk, d, hdraw, hrounds⟩ := exists_amount_draw htotal word
  obtain ⟨l, b, hlower, hbound, hle, hlast⟩ := exists_amount_indexFor ht hw hs.isFinite_total hdraw
  have hi : (t.indexFor (Weight.unit word * t.total)).val < weighted.length :=
    length_items ht ▸ (t.indexFor (Weight.unit word * t.total)).isLt
  generalize (t.indexFor (Weight.unit word * t.total)).val = i at hlower hbound hlast hi ⊢
  rcases le_or_gt b d with hlifted | hlt
  · obtain rfl := hlast hlifted
    obtain rfl := (amount_total_of_lastPositive ht hw hbound).unique htotal
    exact less_share_lastPositive ht hw htotal hrounds hk hlower hbound hlifted
  · exact less_share_of_draw ht hw htotal hrounds hs hi hlower hbound hdraw.nonneg hle hlt

/-- **Every item that can be drawn has a positive weight**, if the sum of all weights is finite. -/
theorem less_weight_indexFor (hfinite : Weight.isFinite t.total = true) (word : UInt64) :
    ∃ p, weighted[(t.indexFor (Weight.unit word * t.total)).val]? = some p ∧
      Weight.less 0 p.2 = true := by
  obtain ⟨q, htotal⟩ := exists_amount_total ht hw hfinite
  obtain ⟨-, -, d, hdraw, -⟩ := exists_amount_draw htotal word
  obtain ⟨l, b, hlower, hbound, hle, hlast⟩ := exists_amount_indexFor ht hw hfinite hdraw
  have hi : (t.indexFor (Weight.unit word * t.total)).val < weighted.length :=
    length_items ht ▸ (t.indexFor (Weight.unit word * t.total)).isLt
  generalize (t.indexFor (Weight.unit word * t.total)).val = i at hlower hbound hlast hi ⊢
  rcases le_or_gt b d with hlifted | hlt
  · obtain rfl := hlast hlifted
    exact ht.less_lastPositive
  · have hp := List.getElem?_eq_getElem hi
    obtain ⟨r, hweight⟩ := exists_amount_of_weighable hw weighted[i].2
      (List.mem_map_of_mem (List.getElem_mem hi))
    refine ⟨_, hp, (amount_literal_zero.less_iff hweight).2 (hweight.nonneg.lt_of_ne ?_)⟩
    rintro rfl
    -- a weight of zero leaves no room for the draw
    rw [getD_bounds_eq_add ht hp] at hbound
    exact (hle.trans_lt hlt).ne ((hlower.add_zero hweight).unique hbound)

end WeightedTable

end LoadGen.Weights
