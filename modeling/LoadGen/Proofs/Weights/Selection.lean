import Mathlib.Algebra.Order.Ring.Rat
import LoadGen.Proofs.Weights.Exact
import LoadGen.Proofs.Weights.Shares

/-!
# What a draw selects

The bounds of a table do not decrease, so that the one that decides a draw can be found by halving
(`WeightedTable.search_eq`): where weights are zero, a run of bounds is the same, and the first of
them is found. In exact arithmetic each item is selected by the draws of an interval as long as its
weight, and the sum of all weights selects the last item of positive weight
(`WeightedTable.draws_match_weights`).
-/

namespace LoadGen.Weights

variable {α : Type}

/-! ## Search by halving -/

/-- The number of positions up to which `p` holds, of `size` ones from `low` on: the middle one says
which half to go on with. -/
def bisect (p : ℕ → Bool) (low size : ℕ) : ℕ :=
  if size ≤ 1 then
    if size = 1 ∧ p low = true then low + 1 else low
  else
    bisect p (if p (low + size / 2) then low + size / 2 else low) (size - size / 2)
termination_by size

/-- Halving finds where `p` stops to hold. -/
theorem bisect_eq {p : ℕ → Bool} {low size k : ℕ} (hlow : low ≤ k) (hk : k ≤ low + size)
    (hp : ∀ i, low ≤ i → i < low + size → (p i = true ↔ i < k)) : bisect p low size = k := by
  induction size using Nat.strong_induction_on generalizing low with
  | h size ih =>
    rw [bisect]
    split
    · split
      · next h =>
        have hlt := (hp low le_rfl (by omega)).1 h.2
        omega
      · next h =>
        by_contra hne
        exact h ⟨by omega, (hp low le_rfl (by omega)).2 (by omega)⟩
    · -- either half that is gone on with has `k` in it
      have hmid := hp (low + size / 2) (by omega) (by omega)
      split
      · next h =>
        have hlt := hmid.1 h
        exact ih _ (by omega) (by omega) (by omega) fun i hi hlt => hp i (by omega) (by omega)
      · next h =>
        have hle := mt hmid.2 h
        exact ih _ (by omega) hlow (by omega) fun i hi hlt => hp i hi (by omega)

namespace WeightedTable

/-- The number of bounds up to a draw, found by halving. -/
def search {R : Type} [Weight R] (t : WeightedTable R α) (draw : R) : ℕ :=
  bisect (fun i => Weight.upTo (t.bounds.getD i 0) draw) 0 t.bounds.length

end WeightedTable

/-! ## Exact arithmetic -/

section Exact

theorem sumOf_eq_sum (ws : List ℚ) : sumOf ws = ws.sum :=
  List.sum_eq_foldl.symm

theorem less_iff {a b : ℚ} : Weight.less a b = true ↔ a < b :=
  decide_eq_true_iff

theorem upTo_iff {a b : ℚ} : Weight.upTo a b = true ↔ a ≤ b :=
  decide_eq_true_iff

/-- A random word stands for a draw from zero to one, without the latter. -/
theorem unit_mem_interval (word : UInt64) :
    (0 : ℚ) ≤ Weight.unit word ∧ Weight.unit word < (1 : ℚ) := by
  have hlt : (word >>> 11).toNat < 2 ^ 53 := by
    rw [UInt64.toNat_shiftRight]
    have := word.toNat_lt
    change word.toNat >>> 11 < 2 ^ 53
    omega
  rw [show (Weight.unit word : ℚ) = mkRat (word >>> 11).toNat (2 ^ 53) from rfl, Rat.mkRat_eq_div]
  generalize (word >>> 11).toNat = n at hlt
  have hlt : (n : ℚ) < 2 ^ 53 := by exact_mod_cast hlt
  push_cast
  exact ⟨by positivity, (div_lt_one (by positivity)).2 hlt⟩

theorem weighable_iff {ws : List ℚ} : Weighable ws ↔ (∀ w ∈ ws, 0 ≤ w) ∧ ∃ w ∈ ws, 0 < w := by
  have hregular (w : ℚ) : Weight.isFinite w = true ∧ Weight.less w 0 = false ↔ 0 ≤ w := by
    rw [Bool.eq_false_iff, Ne, less_iff, not_lt]
    exact and_iff_right rfl
  constructor
  · intro h
    exact ⟨fun w hw => (hregular w).1 (h.regular w hw), by simpa [less_iff] using h.positive⟩
  · rintro ⟨hnonneg, hpositive⟩
    exact ⟨fun w hw => (hregular w).2 (hnonneg w hw), by simpa [less_iff] using hpositive⟩

theorem sum_take_mono {ws : List ℚ} (hws : ∀ w ∈ ws, 0 ≤ w) {i j : ℕ} (h : i ≤ j) :
    (ws.take i).sum ≤ (ws.take j).sum :=
  List.Sublist.sum_le_sum (List.take_prefix_take_left h).sublist fun w hw =>
    hws w (List.mem_of_mem_take hw)

namespace WeightedTable

variable {t : WeightedTable ℚ α} {weighted : List (α × ℚ)} (ht : t.Weighs weighted)
  (hw : ∀ p ∈ weighted, 0 ≤ p.2)

include ht

theorem getD_bounds_eq_sum {i : ℕ} (hi : i < weighted.length) :
    t.bounds.getD i 0 = ((weighted.map (·.2)).take (i + 1)).sum := by
  rw [ht.getD_bounds hi, sumOf_eq_sum]

theorem lower_eq_sum {i : ℕ} (hi : i ≤ weighted.length) :
    t.lower i = ((weighted.map (·.2)).take i).sum := by
  rw [lower_eq ht hi, sumOf_eq_sum]

/-- The draws that select an item make up an interval as long as its weight. -/
theorem getD_bounds_sub_lower {i : ℕ} {p : α × ℚ} (hp : weighted[i]? = some p) :
    t.bounds.getD i 0 - t.lower i = p.2 := by
  rw [getD_bounds_eq_add ht hp]
  exact add_sub_cancel_left (t.lower i) p.2

include hw

/-- An item's draws begin where those of the items before it have ended. -/
theorem getD_bounds_le_lower {i j : ℕ} (hij : i < j) (hj : j ≤ weighted.length) :
    t.bounds.getD i 0 ≤ t.lower j := by
  rw [getD_bounds_eq_sum ht (by omega), lower_eq_sum ht hj]
  exact sum_take_mono (List.forall_mem_map.2 hw) hij

theorem getD_bounds_mono {i j : ℕ} (hij : i ≤ j) (hj : j < weighted.length) :
    t.bounds.getD i 0 ≤ t.bounds.getD j 0 := by
  rw [getD_bounds_eq_sum ht (by omega), getD_bounds_eq_sum ht hj]
  exact sum_take_mono (List.forall_mem_map.2 hw) (Nat.succ_le_succ hij)

theorem eq_zero_of_lastPositive_lt {i : ℕ} {p : α × ℚ} (hi : t.lastPositive < i)
    (hp : weighted[i]? = some p) : p.2 = 0 :=
  le_antisymm (not_lt.1 fun h => Bool.eq_false_iff.1 (ht.not_less_later i p hi hp) (less_iff.2 h))
    (hw p (List.mem_of_getElem? hp))

/-- Where the draws of the last item of positive weight end, all end. -/
theorem getD_bounds_lastPositive : t.bounds.getD t.lastPositive 0 = t.total := by
  have hlt : t.lastPositive < weighted.length := length_items ht ▸ t.lastPositive_lt
  rw [getD_bounds_eq_sum ht hlt, ht.total_eq, sumOf_eq_sum,
    ← List.sum_take_add_sum_drop (weighted.map (·.2)) (t.lastPositive + 1), left_eq_add]
  refine List.sum_eq_zero fun w hmem => ?_
  obtain ⟨j, hj⟩ := List.getElem?_of_mem hmem
  rw [List.getElem?_drop, List.getElem?_map] at hj
  obtain ⟨p, hp, rfl⟩ := Option.map_eq_some_iff.1 hj
  exact eq_zero_of_lastPositive_lt ht hw (by omega) hp

/-- **Halving finds the bound that a scan from the left finds.** -/
theorem search_eq (d : ℚ) : t.search d = t.bounds.findIdx (!Weight.upTo · d) := by
  refine bisect_eq (Nat.zero_le _) (by simpa using List.findIdx_le_length) fun i _ hi => ?_
  rw [zero_add] at hi
  constructor
  · intro hup
    by_contra! hle
    have hfound := List.findIdx_getElem (w := hle.trans_lt hi)
    rw [Bool.not_eq_true', ← List.getD_eq_getElem _ 0, Bool.eq_false_iff] at hfound
    have hlt : i < weighted.length := by rwa [← length_items ht, ← t.length_bounds]
    exact hfound (upTo_iff.2 ((getD_bounds_mono ht hw hle hlt).trans (upTo_iff.1 hup)))
  · intro hlt
    rw [List.getD_eq_getElem _ _ hi]
    simpa using List.not_of_lt_findIdx hlt

section Drawn

variable {d : ℚ}

/-- The draws of an item that is selected below the sum of all weights. -/
theorem mem_interval_indexFor (hd : 0 ≤ d) (hlt : d < t.total) :
    t.lower (t.indexFor d) ≤ d ∧ d < t.bounds.getD (t.indexFor d) 0 := by
  constructor
  · rw [lower]
    split
    · exact hd
    · exact upTo_iff.1 (t.upTo_of_lt d (by omega))
  · by_contra! hle
    have hlast := t.eq_lastPositive_of_upTo d (upTo_iff.2 hle)
    rw [hlast, getD_bounds_lastPositive ht hw] at hle
    exact hle.not_gt hlt

omit hw in
theorem pos_of_mem_interval {i : ℕ} {p : α × ℚ} (hp : weighted[i]? = some p)
    (h : t.lower i ≤ d ∧ d < t.bounds.getD i 0) : 0 < p.2 := by
  rw [← getD_bounds_sub_lower ht hp]
  exact sub_pos.2 (h.1.trans_lt h.2)

/-- The draws of two items do not meet. -/
theorem eq_of_mem_interval {i j : ℕ} (hi : i < weighted.length) (hj : j < weighted.length)
    (h : t.lower i ≤ d ∧ d < t.bounds.getD i 0) (h' : t.lower j ≤ d ∧ d < t.bounds.getD j 0) :
    i = j := by
  rcases lt_trichotomy i j with hlt | heq | hlt
  · exact absurd ((getD_bounds_le_lower ht hw hlt hj.le).trans h'.1) h.2.not_ge
  · exact heq
  · exact absurd ((getD_bounds_le_lower ht hw hlt hi.le).trans h.1) h'.2.not_ge

/-- Below the sum of all weights, a scan from the left finds a bound. -/
theorem findIdx?_eq_indexFor (hd : 0 ≤ d) (hlt : d < t.total) :
    t.bounds.findIdx? (d < ·) = some (t.indexFor d).val := by
  have hmem := mem_interval_indexFor ht hw hd hlt
  have hbound := (t.indexFor d).isLt.trans_eq t.length_bounds.symm
  rw [List.findIdx?_eq_some_iff_getElem]
  refine ⟨hbound, ?_, fun i hi => ?_⟩
  · rw [← List.getD_eq_getElem _ 0]
    exact decide_eq_true hmem.2
  · have hle := upTo_iff.1 (t.upTo_of_lt d hi)
    rw [List.getD_eq_getElem _ _ (hi.trans hbound)] at hle
    simpa using hle

/-- The sum of all weights selects the last item of positive weight. -/
theorem indexFor_total : (t.indexFor t.total).val = t.lastPositive := by
  refine t.eq_lastPositive_of_upTo t.total (upTo_iff.2 ?_)
  rw [← getD_bounds_lastPositive ht hw]
  refine getD_bounds_mono ht hw ?_ (length_items ht ▸ t.lastPositive_lt)
  rw [val_indexFor]
  exact min_le_right ..

/-- What is selected has a positive weight. -/
theorem pos_of_indexFor (hd : 0 ≤ d) (hle : d ≤ t.total) :
    ∃ p, weighted[(t.indexFor d).val]? = some p ∧ 0 < p.2 := by
  rcases hle.lt_or_eq with hlt | rfl
  · have hi : (t.indexFor d).val < weighted.length := length_items ht ▸ (t.indexFor d).isLt
    have hp := List.getElem?_eq_getElem hi
    exact ⟨_, hp, pos_of_mem_interval ht hp (mem_interval_indexFor ht hw hd hlt)⟩
  · rw [indexFor_total ht hw]
    obtain ⟨p, hp, hless⟩ := ht.less_lastPositive
    exact ⟨p, hp, less_iff.1 hless⟩

end Drawn

/-- Every random word selects an item of positive weight. -/
theorem pos_of_sampleIndex (s : Random.Source) :
    ∃ p, weighted[(t.sampleIndex s).1.val]? = some p ∧ 0 < p.2 := by
  have htotal : 0 ≤ t.total := by
    rw [ht.total_eq, sumOf_eq_sum]
    exact List.sum_nonneg (List.forall_mem_map.2 hw)
  obtain ⟨hunit, hone⟩ := unit_mem_interval s.next.1
  exact pos_of_indexFor ht hw (mul_nonneg hunit htotal) (mul_le_of_le_one_left htotal hone.le)

omit ht hw in
/-- **Weighted selection matches the weights.** A list of weights of which none is negative and one
is positive has a table. The bounds are the sums of the first weights, and the share of an item is
that of its weight in the sum of all. Every draw from zero to this sum selects an item of positive
weight:

* below the sum, the item at the first bound above the draw. The draws that select an item are those
  from the bound before it up to its own, without the latter: as many as its weight says;
* the sum itself selects the last item of positive weight.

The bound may be searched for by halving. -/
theorem draws_match_weights (weighted : List (α × ℚ)) (hnonneg : ∀ p ∈ weighted, 0 ≤ p.2)
    (hpos : ∃ p ∈ weighted, 0 < p.2) :
    ∃ t, ofList weighted = .ok t ∧ t.items = weighted.map (·.1) ∧
      t.total = (weighted.map (·.2)).sum ∧
      (∀ i p, weighted[i]? = some p →
        t.bounds.getD i 0 = ((weighted.map (·.2)).take (i + 1)).sum ∧
        t.bounds.getD i 0 - t.lower i = p.2 ∧ t.share i = p.2 / t.total) ∧
      ∀ d, 0 ≤ d → d ≤ t.total →
        (∃ p, weighted[(t.indexFor d).val]? = some p ∧ 0 < p.2) ∧
        (t.indexFor d).val = min (t.search d) t.lastPositive ∧
        (d < t.total →
          t.bounds.findIdx? (d < ·) = some (t.indexFor d).val ∧
          ∀ i < weighted.length,
            (t.indexFor d).val = i ↔ t.lower i ≤ d ∧ d < t.bounds.getD i 0) ∧
        (d = t.total →
          ∀ i p, (t.indexFor d).val < i → weighted[i]? = some p → p.2 = 0) := by
  obtain ⟨p, hmem, hp⟩ := hpos
  have hweighable : Weighable (weighted.map (·.2)) :=
    weighable_iff.2 ⟨List.forall_mem_map.2 hnonneg, p.2, List.mem_map_of_mem hmem, hp⟩
  obtain ⟨t, hok⟩ := (decides_ofList weighted).2 hweighable
  have ht := ((decides_ofList weighted).1 t hok).2
  refine ⟨t, hok, ht.items_eq, by rw [ht.total_eq, sumOf_eq_sum], fun i p hp => ?_,
    fun d hd hle => ⟨pos_of_indexFor ht hnonneg hd hle, ?_, fun hlt => ?_, ?_⟩⟩
  · have hlength := getD_bounds_sub_lower ht hp
    exact ⟨getD_bounds_eq_sum ht (List.getElem?_eq_some_iff.1 hp).1, hlength,
      congrArg (· / t.total) hlength⟩
  · rw [val_indexFor, search_eq ht hnonneg]
  · have hmem := mem_interval_indexFor ht hnonneg hd hlt
    have hval : (t.indexFor d).val < weighted.length := length_items ht ▸ (t.indexFor d).isLt
    refine ⟨findIdx?_eq_indexFor ht hnonneg hd hlt, fun i hi => ⟨?_, fun h => ?_⟩⟩
    · rintro rfl
      exact hmem
    · exact eq_of_mem_interval ht hnonneg hval hi hmem h
  · rintro rfl i p hi hp
    rw [indexFor_total ht hnonneg] at hi
    exact eq_zero_of_lastPositive_lt ht hnonneg hi hp

omit ht hw in
/-- A weight of zero in the middle and one at the end: what the draws 0, 1 and 4 select. -/
theorem draws_match_weights_zeros :
    ∃ t, ofList [('a', (1 : ℚ)), ('b', 0), ('c', 3), ('d', 0)] = .ok t ∧ t.total = 4 ∧
      (t.indexFor 0).val = 0 ∧ (t.indexFor 1).val = 2 ∧ (t.indexFor 4).val = 2 := by
  obtain ⟨t, hok, -, hsum, hitem, hdraw⟩ :=
    draws_match_weights [('a', (1 : ℚ)), ('b', 0), ('c', 3), ('d', 0)] (by simp) (by simp)
  have htotal : t.total = 4 := hsum.trans (by norm_num)
  have ha : t.bounds.getD 0 0 = 1 := by simpa using (hitem 0 _ rfl).1
  have hb : t.bounds.getD 1 0 = 1 := by simpa using (hitem 1 _ rfl).1
  have hc : t.bounds.getD 2 0 = 4 := (hitem 2 _ rfl).1.trans (by norm_num)
  obtain ⟨-, -, hzero, -⟩ := hdraw 0 le_rfl (by norm_num [htotal])
  obtain ⟨-, -, hone, -⟩ := hdraw 1 zero_le_one (by norm_num [htotal])
  obtain ⟨⟨p, hp, hpos⟩, -, -, hlast⟩ := hdraw 4 (by norm_num) htotal.ge
  refine ⟨t, hok, htotal, ?_, ?_, ?_⟩
  · exact ((hzero (by norm_num [htotal])).2 0 (by simp)).2 ⟨le_rfl, ha ▸ zero_lt_one⟩
  · exact ((hone (by norm_num [htotal])).2 2 (by simp)).2 ⟨hb.le, hc ▸ by norm_num⟩
  · have hle : 2 ≤ (t.indexFor 4).val := by
      by_contra! hlt
      exact absurd (hlast htotal.symm 2 _ hlt rfl) (by norm_num)
    have hlt := (List.getElem?_eq_some_iff.1 hp).1
    generalize (t.indexFor 4).val = i at hp hle hlt
    match i, hle with
    | 2, _ => rfl
    | 3, _ =>
      cases hp
      exact absurd hpos (lt_irrefl 0)

end WeightedTable

end Exact

end LoadGen.Weights
