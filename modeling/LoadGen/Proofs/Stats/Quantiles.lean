import LoadGen.Proofs.Stats.Buckets
import LoadGen.Report.Window
import Mathlib.Data.Rat.Floor
import Mathlib.Tactic.Linarith
import Mathlib.Tactic.Ring

/-!
# Quantiles are in order

A quantile is the highest value of the bucket that has its rank, and the lowest and the highest
latency are those of the first and the last bucket. Ranks grow with quantiles, and none that is
reported exceeds the number of latencies (`Quantile.rank_le`), although ranks are rounded. So
the latencies that are reported are in order (`Latency.ordered_ofHistogram`), and they also are if
ranks are not rounded (`Latency.ordered_exact`).
-/

namespace LoadGen

/-! ## Rounded quotients -/

namespace Decimal

variable {tie : Tie} {num num' den : Nat}

/-- A quotient is rounded up past the half, and at the half as ties are. -/
theorem roundDiv_eq : roundDiv tie num den =
    num / den + if den < 2 * (num % den) ∨
      den = 2 * (num % den) ∧ (tie = .up ∨ num / den % 2 = 1) then 1 else 0 := by
  cases tie <;> simp only [roundDiv] <;> grind

theorem div_le_roundDiv : num / den ≤ roundDiv tie num den := by
  rw [roundDiv_eq]
  exact Nat.le_add_right ..

theorem roundDiv_le : roundDiv tie num den ≤ num / den + 1 := by
  rw [roundDiv_eq]
  split <;> omega

/-- Rounding up is by half a unit at most. -/
theorem two_mul_roundDiv_le (tie : Tie) (num den : Nat) :
    2 * (roundDiv tie num den * den) ≤ 2 * num + den := by
  have hnum : num / den * den + num % den = num := Nat.div_add_mod' num den
  rw [roundDiv_eq, Nat.add_mul]
  split
  · rw [Nat.one_mul]
    omega
  · omega

theorem roundDiv_mono (tie : Tie) (den : Nat) (h : num ≤ num') :
    roundDiv tie num den ≤ roundDiv tie num' den := by
  rcases (Nat.div_le_div_right (c := den) h).lt_or_eq with hlt | heq
  · exact roundDiv_le.trans (hlt.trans_le div_le_roundDiv)
  · -- the quotients are the same, and the rest is not smaller
    have hnum := Nat.div_add_mod num den
    have hnum' := Nat.div_add_mod num' den
    rw [roundDiv_eq, roundDiv_eq, heq]
    rw [heq] at hnum
    have hmod : num % den ≤ num' % den := by omega
    refine Nat.add_le_add_left ?_ _
    rcases hmod.lt_or_eq with hlt | heq
    · split
      · rw [if_pos (.inl (by omega))]
      · exact Nat.zero_le _
    · rw [heq]

theorem roundDiv_mul_self (k : Nat) (hden : 0 < den) : roundDiv tie (k * den) den = k := by
  rw [roundDiv_eq, Nat.mul_mod_left, Nat.mul_div_cancel k hden, if_neg (by omega), Nat.add_zero]

end Decimal

namespace Stats.Histogram

/-! ## Significant bits -/

/-- Between two powers of two, a number is rounded to a multiple of a unit. -/
theorem significant_eq {n : Nat} (hn : 2 ^ 53 ≤ n) :
    significant n = Decimal.roundDiv .toEven n (2 ^ (n.log2 - 52)) * 2 ^ (n.log2 - 52) := by
  rw [significant, if_neg (by simpa using hn), Nat.one_shiftLeft]

theorem two_pow_log2_eq {n : Nat} (hn : 2 ^ 53 ≤ n) :
    2 ^ n.log2 = 2 ^ 52 * 2 ^ (n.log2 - 52) := by
  have hlog : 52 ≤ n.log2 := (Nat.le_log2 (by omega)).2 (le_trans (by decide) hn)
  rw [← pow_add, Nat.add_sub_cancel' hlog]

/-- A number that is rounded up grows by a fraction of `2 ^ -53` at most. -/
theorem significant_le (n : Nat) : 2 ^ 53 * significant n ≤ (2 ^ 53 + 1) * n := by
  rcases lt_or_ge n (2 ^ 53) with hlt | hge
  · rw [significant, if_pos (by simpa using hlt)]
    exact Nat.mul_le_mul_right n (Nat.le_succ _)
  · have hunit : 2 ^ 52 * 2 ^ (n.log2 - 52) ≤ n :=
      two_pow_log2_eq hge ▸ Nat.log2_self_le (by omega)
    have hround := Decimal.two_mul_roundDiv_le .toEven n (2 ^ (n.log2 - 52))
    rw [significant_eq hge]
    omega

theorem two_pow_log2_le_significant {n : Nat} (hn : 2 ^ 53 ≤ n) :
    2 ^ n.log2 ≤ significant n := by
  have hpow := two_pow_log2_eq hn
  have hround := Decimal.roundDiv_mono .toEven (2 ^ (n.log2 - 52))
    (hpow ▸ Nat.log2_self_le (by omega : n ≠ 0))
  rw [Decimal.roundDiv_mul_self _ (Nat.two_pow_pos _)] at hround
  rw [significant_eq hn, hpow]
  exact Nat.mul_le_mul_right _ hround

theorem significant_le_two_pow {n : Nat} (hn : 2 ^ 53 ≤ n) :
    significant n ≤ 2 ^ (n.log2 + 1) := by
  have hpow : 2 ^ (n.log2 + 1) = 2 ^ 53 * 2 ^ (n.log2 - 52) := by
    rw [pow_succ, two_pow_log2_eq hn]
    ring
  have hround := Decimal.roundDiv_mono .toEven (2 ^ (n.log2 - 52))
    (hpow ▸ Nat.lt_log2_self.le : n ≤ _)
  rw [Decimal.roundDiv_mul_self _ (Nat.two_pow_pos _)] at hround
  rw [significant_eq hn, hpow]
  exact Nat.mul_le_mul_right _ hround

theorem significant_mono {n m : Nat} (h : n ≤ m) : significant n ≤ significant m := by
  rcases lt_or_ge m (2 ^ 53) with hm | hm
  · rw [significant, significant, if_pos (by simpa using h.trans_lt hm), if_pos (by simpa using hm)]
    exact h
  rcases lt_or_ge n (2 ^ 53) with hn | hn
  · have hlog : 53 ≤ m.log2 := (Nat.le_log2 (by omega)).2 hm
    rw [significant, if_pos (by simpa using hn)]
    exact hn.le.trans ((Nat.pow_le_pow_right two_pos hlog).trans (two_pow_log2_le_significant hm))
  have hlog : n.log2 ≤ m.log2 :=
    (Nat.le_log2 (by omega)).2 ((Nat.log2_self_le (by omega)).trans h)
  rcases hlog.lt_or_eq with hlt | heq
  · exact (significant_le_two_pow hn).trans
      ((Nat.pow_le_pow_right two_pos hlt).trans (two_pow_log2_le_significant hm))
  · rw [significant_eq hn, significant_eq hm, heq]
    exact Nat.mul_le_mul_right _ (Decimal.roundDiv_mono _ _ h)

/-! ## Ranks -/

namespace Quantile

variable {q q' : Quantile} {count : Nat}

theorem one_le_rank (q : Quantile) (count : Nat) : 1 ≤ q.rank count :=
  Nat.le_max_left ..

theorem rank_mono (h : q.units ≤ q'.units) (count : Nat) : q.rank count ≤ q'.rank count := by
  have := significant_mono (Nat.mul_le_mul_right (significant count) h)
  refine max_le_max le_rfl (Nat.div_le_div_right ?_)
  omega

/-- **A quantile that is not next to one has a rank among the values**, whatever is rounded. -/
theorem rank_le (hq : q.units + 2 ≤ 2 ^ 53) (hcount : 0 < count) : q.rank count ≤ count := by
  have hrounded : significant (q.units * significant count) ≤ 2 ^ 53 * count := by
    -- both roundings may be upwards
    refine Nat.le_of_mul_le_mul_left ?_ (Nat.two_pow_pos 106)
    calc 2 ^ 106 * significant (q.units * significant count)
        = 2 ^ 53 * (2 ^ 53 * significant (q.units * significant count)) := by ring
      _ ≤ 2 ^ 53 * ((2 ^ 53 + 1) * (q.units * significant count)) :=
        Nat.mul_le_mul_left _ (significant_le _)
      _ = (2 ^ 53 + 1) * q.units * (2 ^ 53 * significant count) := by ring
      _ ≤ (2 ^ 53 + 1) * q.units * ((2 ^ 53 + 1) * count) :=
        Nat.mul_le_mul_left _ (significant_le _)
      _ = (2 ^ 53 + 1) ^ 2 * q.units * count := by ring
      _ ≤ 2 ^ 159 * count := Nat.mul_le_mul_right count (by omega)
      _ = 2 ^ 106 * (2 ^ 53 * count) := by ring
  refine max_le hcount (Nat.le_of_lt_succ (Nat.div_lt_of_lt_mul ?_))
  rw [Nat.one_shiftLeft]
  omega

end Quantile

/-- The rank of a quantile among `count` values, without rounding: their product rounded up, at
least one. -/
def exactRank (q : ℚ) (count : Nat) : Nat := Nat.max 1 ⌈q * count⌉₊

theorem one_le_exactRank (q : ℚ) (count : Nat) : 1 ≤ exactRank q count :=
  Nat.le_max_left ..

theorem exactRank_mono {q q' : ℚ} (h : q ≤ q') (count : Nat) :
    exactRank q count ≤ exactRank q' count :=
  max_le_max le_rfl (Nat.ceil_mono (mul_le_mul_of_nonneg_right h count.cast_nonneg))

theorem exactRank_le {q : ℚ} {count : Nat} (hq : q ≤ 1) (hcount : 0 < count) :
    exactRank q count ≤ count :=
  max_le hcount (Nat.ceil_le.2 (mul_le_of_le_one_left count.cast_nonneg hq))

/-! ## Values -/

section Values

variable {rank rank' before : Nat} {buckets : List (Nat × Nat)}

/-- A rank among the counts is that of a bucket. -/
theorem exists_valueAtRank_eq (hbefore : before < rank)
    (hrank : rank ≤ before + total (·.2) buckets) :
    ∃ b ∈ buckets, valueAtRank rank before buckets = bucketHigh b.1 := by
  induction buckets generalizing before with
  | nil => exact absurd hrank hbefore.not_ge
  | cons b rest ih =>
    rw [valueAtRank]
    split
    · exact ⟨b, List.mem_cons_self, rfl⟩
    · next hnot =>
      rw [total, List.foldr_cons] at hrank
      obtain ⟨c, hc, heq⟩ := @ih (before + b.2) (by omega)
        (by rw [total]; omega)
      exact ⟨c, List.mem_cons_of_mem _ hc, heq⟩

/-- A higher rank has no lower value. -/
theorem valueAtRank_mono (hsorted : buckets.Pairwise (·.1 < ·.1)) (h : rank ≤ rank')
    (hrank : rank' ≤ before + total (·.2) buckets) :
    valueAtRank rank before buckets ≤ valueAtRank rank' before buckets := by
  induction buckets generalizing before with
  | nil => exact le_rfl
  | cons b rest ih =>
    obtain ⟨hb, hrest⟩ := List.pairwise_cons.1 hsorted
    have htotal : rank' ≤ before + b.2 + total (·.2) rest := by
      rw [total, List.foldr_cons] at hrank
      rw [total]
      omega
    rw [valueAtRank, valueAtRank]
    split
    · split
      · exact le_rfl
      · next hnot =>
        obtain ⟨c, hc, heq⟩ := exists_valueAtRank_eq (by omega) htotal
        rw [heq]
        exact bucketHigh_mono (hb c hc).le
    · rw [if_neg (by omega)]
      exact ih hrest htotal

end Values

namespace Proper

variable {h : Histogram} (hh : h.Proper) {rank rank' : Nat}

include hh

theorem valueAtRank_mono (hle : rank ≤ rank') (hrank : rank' ≤ h.count) :
    valueAtRank rank 0 h.buckets ≤ valueAtRank rank' 0 h.buckets :=
  Histogram.valueAtRank_mono hh.sorted hle (by rwa [Nat.zero_add])

/-- The lowest latency is not higher than the value of a rank. -/
theorem min_le_valueAtRank (hpos : 0 < rank) (hrank : rank ≤ h.count) :
    h.min ≤ valueAtRank rank 0 h.buckets := by
  obtain ⟨b, hb, heq⟩ := exists_valueAtRank_eq hpos (hrank.trans_eq (Nat.zero_add _).symm)
  rw [heq, Histogram.min]
  refine le_trans ?_ (le_bucketHigh b.1)
  have hsorted := hh.sorted
  generalize h.buckets = l at hb hsorted
  cases hb with
  | head => exact le_rfl
  | tail _ hb => exact ((List.pairwise_cons.1 hsorted).1 b hb).le

/-- The value of a rank is not higher than the highest latency. -/
theorem valueAtRank_le_max (hpos : 0 < rank) (hrank : rank ≤ h.count) :
    valueAtRank rank 0 h.buckets ≤ h.max := by
  obtain ⟨b, hb, heq⟩ := exists_valueAtRank_eq hpos (hrank.trans_eq (Nat.zero_add _).symm)
  rw [heq, Histogram.max]
  have hsorted := hh.sorted
  rcases List.eq_nil_or_concat' h.buckets with hnil | ⟨l, last, heq⟩
  · rw [hnil] at hb
    cases hb
  · rw [heq] at hb hsorted ⊢
    rw [List.getLast?_concat]
    refine bucketHigh_mono ?_
    rcases List.mem_append.1 hb with hb | hb
    · exact ((List.pairwise_append.1 hsorted).2.2 b hb last (List.mem_singleton_self _)).le
    · rw [List.mem_singleton.1 hb]

end Proper

end Stats.Histogram

/-! ## Reported latencies -/

namespace Report

open Stats Histogram

/-- Reported latencies are in order. -/
structure Latency.Ordered (l : Latency) : Prop where
  min_le_p50 : l.min ≤ l.p50
  p50_le_p90 : l.p50 ≤ l.p90
  p90_le_p99 : l.p90 ≤ l.p99
  p99_le_p999 : l.p99 ≤ l.p999
  p999_le_max : l.p999 ≤ l.max

/-- The latencies counted in a histogram at four ranks. -/
def Latency.atRanks (h : Histogram) (r50 r90 r99 r999 : Nat) : Latency where
  min := h.min
  p50 := valueAtRank r50 0 h.buckets
  p90 := valueAtRank r90 0 h.buckets
  p99 := valueAtRank r99 0 h.buckets
  p999 := valueAtRank r999 0 h.buckets
  max := h.max

/-- The latencies counted in a histogram, at ranks that are not rounded. -/
def Latency.exact (h : Histogram) : Latency :=
  .atRanks h (exactRank (1 / 2) h.count) (exactRank (9 / 10) h.count)
    (exactRank (99 / 100) h.count) (exactRank (999 / 1000) h.count)

namespace Latency

variable {h : Histogram} (hh : h.Proper)

include hh

theorem ordered_atRanks {r50 r90 r99 r999 : Nat} (hpos : 0 < r50) (h90 : r50 ≤ r90)
    (h99 : r90 ≤ r99) (h999 : r99 ≤ r999) (hle : r999 ≤ h.count) :
    (atRanks h r50 r90 r99 r999).Ordered where
  min_le_p50 := hh.min_le_valueAtRank hpos (by omega)
  p50_le_p90 := hh.valueAtRank_mono h90 (by omega)
  p90_le_p99 := hh.valueAtRank_mono h99 (by omega)
  p99_le_p999 := hh.valueAtRank_mono h999 hle
  p999_le_max := hh.valueAtRank_le_max (by omega) hle

/-- **The latencies that are reported are in order.** -/
theorem ordered_ofHistogram (hcount : 0 < h.count) : (ofHistogram h).Ordered :=
  ordered_atRanks hh (Quantile.one_le_rank _ _) (Quantile.rank_mono (by decide) _)
    (Quantile.rank_mono (by decide) _) (Quantile.rank_mono (by decide) _)
    (Quantile.rank_le (by decide) hcount)

/-- They also are if ranks are not rounded. -/
theorem ordered_exact (hcount : 0 < h.count) : (exact h).Ordered :=
  ordered_atRanks hh (one_le_exactRank _ _) (exactRank_mono (by norm_num) _)
    (exactRank_mono (by norm_num) _) (exactRank_mono (by norm_num) _)
    (exactRank_le (by norm_num) hcount)

end Latency

end Report

end LoadGen
