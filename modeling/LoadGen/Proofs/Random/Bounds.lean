import LoadGen.Random.Source

/-!
# Draws stay in range

A draw from `0, …, n - 1` is below `n`, whatever the words are (`below_lt`, `position_lt`). The
upper half of a word times `n` is below `n`; a second word is looked at only when the lower half
exceeds the size of a word less `n`, and then the upper half is not the largest one, so that a carry
does not lead out of the range.
-/

namespace LoadGen.Random.Source

theorem scaled_lt {width : Nat} {draw : Source → Nat × Source}
    (hdraw : ∀ s, (draw s).1 < Nat.pow 2 width) {n : Nat} (hn : 0 < n) (s : Source) :
    (scaled width draw n s).1 < n := by
  have hword := hdraw s
  have hhigh : (draw s).1 * n / Nat.pow 2 width < n :=
    Nat.div_lt_of_lt_mul (Nat.mul_lt_mul_of_pos_right hword hn)
  have hsplit := Nat.div_add_mod ((draw s).1 * n) (Nat.pow 2 width)
  have hlast := Nat.mul_le_mul_right n (Nat.succ_le_of_lt hword)
  rw [Nat.succ_mul] at hlast
  simp only [scaled]
  split
  · next hlow =>
    -- the largest upper half leaves a lower half of at most `2 ^ width - n`
    have hroom : (draw s).1 * n / Nat.pow 2 width + 1 ≠ n := by
      intro htop
      have hsize : Nat.pow 2 width * ((draw s).1 * n / Nat.pow 2 width) + Nat.pow 2 width =
          Nat.pow 2 width * n := by
        conv => rhs; rw [← htop]
        rw [Nat.mul_succ]
      omega
    dsimp only
    split <;> omega
  · exact hhigh

theorem nextHalf_lt (s : Source) : s.nextHalf.1 < Nat.pow 2 32 :=
  Nat.div_lt_of_lt_mul (Nat.lt_of_lt_of_le s.next.1.toNat_lt (by decide))

/-- **A number drawn below `n` is below `n`.** -/
theorem below_lt {n : Nat} (hn : 0 < n) (s : Source) : (below n s).1 < n :=
  scaled_lt (fun s => s.next.1.toNat_lt) hn s

/-- **A position drawn in a list of `n` elements is one of its positions.** -/
theorem position_lt {n : Nat} (hn : 0 < n) (s : Source) : (position n s).1 < n := by
  rw [position]
  split
  · exact scaled_lt nextHalf_lt hn s
  · exact below_lt hn s

end LoadGen.Random.Source
