import LoadGen.Random.Source
import LoadGen.Weights.Weight

/-!
# Weighted tables

A table holds items in their configured order with the running sums of their weights. A draw from
`[0, total)` selects the first item whose sum exceeds it, so an item of weight zero, whose sum is
that of its predecessor, is never selected; a draw that rounding lifts to the total selects the
last item of positive weight.
-/

namespace LoadGen.Weights

/-- What is wrong with a weighted list. -/
inductive WeightFault (R : Type)
  | empty
  /-- The weight at this position is negative, infinite or undefined. -/
  | invalid (index : Nat) (weight : R)
  | allZero
  deriving Repr

/-- The message of a fault. -/
def WeightFault.message {R : Type} [Weight R] : WeightFault R → String
  | .empty => "weighted list is empty"
  | .invalid index weight =>
    s!"weight #{index} is invalid ({Weight.text weight}): must be finite and >= 0"
  | .allZero => "all weights are zero"

/-- The sums `start + w₀`, `start + w₀ + w₁`, … of a list. -/
def runningSums {R : Type} [Add R] (start : R) : List R → List R
  | [] => []
  | w :: ws => (start + w) :: runningSums (start + w) ws

@[simp]
theorem length_runningSums {R : Type} [Add R] (start : R) (ws : List R) :
    (runningSums start ws).length = ws.length := by
  induction ws generalizing start with
  | nil => rfl
  | cons w ws ih => simp [runningSums, ih]

/-- The last position of a list whose element satisfies `p`. -/
def lastIndex? {α : Type} (p : α → Bool) : List α → Option Nat
  | [] => none
  | a :: as => match lastIndex? p as with
    | some i => some (i + 1)
    | none => if p a then some 0 else none

theorem lastIndex?_lt {α : Type} {p : α → Bool} {as : List α} {i : Nat}
    (h : lastIndex? p as = some i) : i < as.length := by
  induction as generalizing i with
  | nil => simp [lastIndex?] at h
  | cons a as ih =>
    rw [lastIndex?] at h
    split at h
    · next j hj => cases h; simpa using ih hj
    · split at h
      · cases h; simp
      · simp at h

/-- Items with the running sums of their weights. -/
structure WeightedTable (R α : Type) where
  items : List α
  /-- The running sums, one for each item. -/
  bounds : List R
  /-- The position of the last item of positive weight. -/
  lastPositive : Nat
  length_bounds : bounds.length = items.length
  lastPositive_lt : lastPositive < items.length

namespace WeightedTable

variable {R α : Type}

/-- The table of a list of items with their weights, or the first thing wrong with it. -/
def ofList [Weight R] (weighted : List (α × R)) : Except (WeightFault R) (WeightedTable R α) :=
  let isValid (w : R) : Bool := Weight.isFinite w && !Weight.less w 0
  match weighted.zipIdx.find? fun p => !isValid p.1.2 with
  | some ((_, w), i) => .error (.invalid i w)
  | none =>
    if weighted.isEmpty then .error .empty
    else match h : lastIndex? (fun p => Weight.less 0 p.2) weighted with
      | none => .error .allZero
      | some last => .ok
        { items := weighted.map (·.1)
          bounds := runningSums 0 (weighted.map (·.2))
          lastPositive := last
          length_bounds := by simp
          lastPositive_lt := by simpa using lastIndex?_lt h }

/-- The number of items. -/
def size (t : WeightedTable R α) : Nat := t.items.length

/-- The sum of all weights. -/
def total [Weight R] (t : WeightedTable R α) : R := t.bounds.getLastD 0

/-- The position of the item that a draw from `[0, total]` selects. -/
def indexFor [Weight R] (t : WeightedTable R α) (draw : R) : Fin t.items.length :=
  ⟨min (t.bounds.takeWhile (Weight.upTo · draw)).length t.lastPositive,
    Nat.lt_of_le_of_lt (Nat.min_le_right ..) t.lastPositive_lt⟩

/-- Draws the position of an item; takes one random word. -/
def sampleIndex [Weight R] (t : WeightedTable R α) (s : Random.Source) :
    Fin t.items.length × Random.Source :=
  let (word, s) := s.next
  (t.indexFor (Weight.unit word * t.total), s)

/-- Draws an item; takes one random word. -/
def sample [Weight R] (t : WeightedTable R α) (s : Random.Source) : α × Random.Source :=
  let (i, s) := t.sampleIndex s
  (t.items[i], s)

/-- The share of the draws that the item at a position receives. -/
def share [Weight R] (t : WeightedTable R α) (i : Nat) : R :=
  let lower : R := if i = 0 then 0 else t.bounds.getD (i - 1) 0
  (t.bounds.getD i 0 - lower) / t.total

end WeightedTable

end LoadGen.Weights
