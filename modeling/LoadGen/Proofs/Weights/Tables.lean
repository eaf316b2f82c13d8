import LoadGen.Proofs.Config.Decides
import Mathlib

/-!
# Weighted tables say what the weights are

A list of weights can be drawn from if all of them are finite and none is negative, and one is
positive (`Weighable`). A table `Weighs` such a list: its bounds are the sums of the first weights,
one, two and so on, from left to right, and its last position is that of the last positive weight.
The share of an item in the draws can be read off the weights (`WeightedTable.Weighs.share_eq`).
-/

namespace LoadGen.Weights

variable {R α : Type} [Weight R]

/-- The weights added up from left to right. -/
def sumOf (ws : List R) : R := ws.foldl (· + ·) 0

/-- The share of the draws that the weight at a position gets. -/
def shareOf (ws : List R) (i : Nat) : R :=
  (sumOf (ws.take (i + 1)) - sumOf (ws.take i)) / sumOf ws

/-- A weight is finite and not negative. -/
def isRegular (w : R) : Bool := Weight.isFinite w && !Weight.less w 0

/-- Weights that can be drawn from. -/
structure Weighable (ws : List R) : Prop where
  regular : ∀ w ∈ ws, Weight.isFinite w = true ∧ Weight.less w 0 = false
  positive : ∃ w ∈ ws, Weight.less 0 w = true

/-- A table has the items and the weights of a list. -/
structure WeightedTable.Weighs (t : WeightedTable R α) (weighted : List (α × R)) : Prop where
  items_eq : t.items = weighted.map (·.1)
  bounds_eq : t.bounds = (List.range weighted.length).map fun i =>
    sumOf ((weighted.map (·.2)).take (i + 1))
  less_lastPositive : ∃ p, weighted[t.lastPositive]? = some p ∧ Weight.less 0 p.2 = true
  not_less_later : ∀ i p, t.lastPositive < i → weighted[i]? = some p → Weight.less 0 p.2 = false

omit [Weight R] in
theorem runningSums_eq [Add R] (start : R) (ws : List R) :
    runningSums start ws =
      (List.range ws.length).map fun i => (ws.take (i + 1)).foldl (· + ·) start := by
  induction ws generalizing start with
  | nil => rfl
  | cons w ws ih =>
    rw [runningSums, List.length_cons, List.range_succ_eq_map, List.map_cons, List.map_map, ih]
    rfl

theorem lastIndex?_eq_none {p : α → Bool} {as : List α} (h : lastIndex? p as = none) :
    ∀ a ∈ as, p a = false := by
  induction as with
  | nil => exact List.forall_mem_nil _
  | cons a as ih =>
    rw [lastIndex?] at h
    split at h
    · cases h
    · next hrest =>
      split at h
      · cases h
      · next ha => exact List.forall_mem_cons.2 ⟨Bool.eq_false_iff.2 ha, ih hrest⟩

theorem lastIndex?_eq_some {p : α → Bool} {as : List α} {i : Nat} (h : lastIndex? p as = some i) :
    (∃ a, as[i]? = some a ∧ p a = true) ∧
      ∀ j a, i < j → as[j]? = some a → p a = false := by
  induction as generalizing i with
  | nil => cases h
  | cons a as ih =>
    rw [lastIndex?] at h
    split at h
    · next k hk =>
      cases h
      obtain ⟨hat, hlater⟩ := ih hk
      refine ⟨hat, fun j b hj hb => ?_⟩
      cases j with
      | zero => omega
      | succ j => exact hlater j b (by omega) hb
    · next hnone =>
      split at h
      · next ha =>
        cases h
        refine ⟨⟨a, rfl, ha⟩, fun j b hj hb => ?_⟩
        cases j with
        | zero => omega
        | succ j => exact lastIndex?_eq_none hnone b (List.mem_of_getElem? hb)
      · cases h

omit [Weight R] in
theorem find?_zipIdx_eq_none (p : R → Bool) {weighted : List (α × R)} :
    (weighted.zipIdx.find? fun x => !p x.1.2) = none ↔ ∀ w ∈ weighted.map (·.2), p w = true := by
  rw [List.find?_eq_none, List.forall_mem_map]
  constructor
  · intro h x hx
    obtain ⟨i, hi⟩ := List.getElem?_of_mem hx
    simpa using h (x, i) (List.mem_zipIdx_iff_getElem?.2 hi)
  · rintro h ⟨x, i⟩ hx
    simpa using h x (List.mem_of_getElem? (List.mem_zipIdx_iff_getElem?.1 hx))

/-- **A table is made of a list exactly if its weights can be drawn from.** -/
theorem WeightedTable.decides_ofList (weighted : List (α × R)) :
    Config.Decides (ofList weighted) (Weighable (weighted.map (·.2))) (·.Weighs weighted) := by
  constructor
  · intro t h
    rw [ofList] at h
    dsimp only at h
    split at h
    · cases h
    next hregular =>
    split at h
    · cases h
    split at h
    · cases h
    next last hlast =>
    cases h
    obtain ⟨hpositive, hlater⟩ := lastIndex?_eq_some hlast
    refine ⟨⟨fun w hw => ?_, ?_⟩, rfl, ?_, hpositive, hlater⟩
    · simpa [isRegular] using (find?_zipIdx_eq_none isRegular).1 hregular w hw
    · obtain ⟨x, hx, hless⟩ := hpositive
      exact ⟨x.2, List.mem_map_of_mem (List.mem_of_getElem? hx), hless⟩
    · dsimp only
      rw [runningSums_eq, List.length_map]
      rfl
  · rintro ⟨hregular, w, hw, hless⟩
    obtain ⟨x, hx, rfl⟩ := List.mem_map.1 hw
    have hfind := (find?_zipIdx_eq_none isRegular).2 fun w hw => by
      simpa [isRegular] using hregular w hw
    rw [ofList]
    dsimp only
    split
    · next hfound => cases hfind.symm.trans hfound
    split
    · next hempty =>
      rw [List.isEmpty_iff.1 hempty] at hx
      cases hx
    split
    · next hnone => cases (lastIndex?_eq_none hnone x hx).symm.trans hless
    · exact ⟨_, rfl⟩

namespace WeightedTable.Weighs

variable {t : WeightedTable R α} {weighted : List (α × R)} (h : t.Weighs weighted)

include h

theorem getD_bounds {i : Nat} (hi : i < weighted.length) :
    t.bounds.getD i 0 = sumOf ((weighted.map (·.2)).take (i + 1)) := by
  rw [h.bounds_eq, List.getD_eq_getElem?_getD, List.getElem?_map, List.getElem?_range hi]
  rfl

theorem total_eq : t.total = sumOf (weighted.map (·.2)) := by
  rw [total, h.bounds_eq]
  cases hlength : weighted.length with
  | zero =>
    rw [List.length_eq_zero_iff.1 hlength]
    rfl
  | succ n =>
    rw [List.range_succ, List.map_append, List.map_singleton, List.getLastD_concat,
      List.take_of_length_le (by rw [List.length_map, hlength])]

/-- **The share of an item is that of its weight.** -/
theorem share_eq {i : Nat} (hi : i < weighted.length) :
    t.share i = shareOf (weighted.map (·.2)) i := by
  rw [share, shareOf, h.total_eq, h.getD_bounds hi]
  cases i with
  | zero => rfl
  | succ i => rw [if_neg (Nat.succ_ne_zero i), Nat.succ_sub_one, h.getD_bounds (by omega)]

end WeightedTable.Weighs

end LoadGen.Weights
