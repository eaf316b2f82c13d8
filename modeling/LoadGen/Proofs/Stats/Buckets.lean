import LoadGen.Stats.Histogram

/-!
# Histograms are their counts

What a histogram has to say is how many latencies each bucket counts. `Proper` says that the listed
buckets are those with a count, in ascending order, and within the range that histograms track. A
proper histogram is determined by its counts (`Proper.ext`), recording and merging add counts
(`countAt_record`, `countAt_merge`), and no proper histogram is ever refused by another one
(`Proper.add?_eq`).
-/

namespace LoadGen.Stats.Histogram

/-! ## Counts -/

/-- How many latencies a list of buckets counts in the bucket with the given lowest value. -/
def countIn (low : Nat) : List (Nat × Nat) → Nat
  | [] => 0
  | (b, n) :: rest => (if b = low then n else 0) + countIn low rest

/-- How many latencies a histogram counts in the bucket with the given lowest value. -/
def countAt (h : Histogram) (low : Nat) : Nat := countIn low h.buckets

@[simp]
theorem countAt_empty (low : Nat) : countAt .empty low = 0 := rfl

theorem countIn_bump (low n b : Nat) (l : List (Nat × Nat)) :
    countIn b (bump low n l) = countIn b l + if low = b then n else 0 := by
  induction l with
  | nil => simp [bump, countIn]
  | cons p rest ih =>
    obtain ⟨c, m⟩ := p
    simp only [bump]
    split
    · simp only [countIn]
      omega
    · split
      · next h =>
        subst h
        simp only [countIn]
        split <;> omega
      · simp only [countIn, ih]
        omega

/-- Recording counts the latency once, in its bucket. -/
theorem countAt_record (h : Histogram) (v low : Nat) :
    (h.record v).countAt low =
      h.countAt low + if bucketLow (clampLatency v) = low then 1 else 0 :=
  countIn_bump ..

/-- **Merging adds counts.** -/
theorem countAt_merge (h other : Histogram) (low : Nat) :
    (h.merge other).countAt low = h.countAt low + other.countAt low := by
  obtain ⟨l⟩ := h
  obtain ⟨l'⟩ := other
  simp only [countAt, merge]
  induction l' generalizing l with
  | nil => rfl
  | cons p rest ih =>
    obtain ⟨c, m⟩ := p
    rw [List.foldl_cons, ih, countIn_bump, countIn]
    simp only [eq_comm]
    omega

/-! ## Proper histograms -/

/-- The buckets are those with a count, in ascending order, and none lies past the range. -/
structure Proper (h : Histogram) : Prop where
  sorted : h.buckets.Pairwise (·.1 < ·.1)
  pos : ∀ b ∈ h.buckets, 0 < b.2
  le_last : ∀ b ∈ h.buckets, b.1 ≤ lastBucketed

theorem proper_empty : Proper .empty := ⟨.nil, nofun, nofun⟩

theorem fst_of_mem_bump {low n : Nat} {l : List (Nat × Nat)} {p : Nat × Nat}
    (hp : p ∈ bump low n l) : p.1 = low ∨ ∃ q ∈ l, q.1 = p.1 := by
  induction l with
  | nil => simp_all [bump]
  | cons q rest ih =>
    simp only [bump] at hp
    split at hp
    · rcases List.mem_cons.1 hp with rfl | hp
      · exact .inl rfl
      · exact .inr ⟨p, hp, rfl⟩
    · split at hp
      · rcases List.mem_cons.1 hp with rfl | hp
        · exact .inr ⟨q, List.mem_cons_self, rfl⟩
        · exact .inr ⟨p, List.mem_cons_of_mem _ hp, rfl⟩
      · rcases List.mem_cons.1 hp with rfl | hp
        · exact .inr ⟨_, List.mem_cons_self, rfl⟩
        · rcases ih hp with h | ⟨q, hq, h⟩
          · exact .inl h
          · exact .inr ⟨q, List.mem_cons_of_mem _ hq, h⟩

theorem sorted_bump (low n : Nat) {l : List (Nat × Nat)} (hl : l.Pairwise (·.1 < ·.1)) :
    (bump low n l).Pairwise (·.1 < ·.1) := by
  induction l with
  | nil => simp [bump]
  | cons q rest ih =>
    obtain ⟨hq, hrest⟩ := List.pairwise_cons.1 hl
    simp only [bump]
    split
    · next h =>
      refine List.pairwise_cons.2 ⟨fun p hp => ?_, hl⟩
      rcases List.mem_cons.1 hp with rfl | hp
      · exact h
      · exact Nat.lt_trans h (hq p hp)
    · split
      · exact List.pairwise_cons.2 ⟨hq, hrest⟩
      · refine List.pairwise_cons.2 ⟨fun p hp => ?_, ih hrest⟩
        rcases fst_of_mem_bump hp with h | ⟨r, hr, h⟩
        · rw [h]
          dsimp only
          omega
        · exact h ▸ hq r hr

theorem pos_of_mem_bump {low n : Nat} {l : List (Nat × Nat)} (hn : 0 < n)
    (hl : ∀ b ∈ l, 0 < b.2) : ∀ b ∈ bump low n l, 0 < b.2 := by
  induction l with
  | nil => simpa [bump] using hn
  | cons q rest ih =>
    obtain ⟨hq, hrest⟩ := List.forall_mem_cons.1 hl
    simp only [bump]
    split
    · exact List.forall_mem_cons.2 ⟨hn, hl⟩
    · split
      · exact List.forall_mem_cons.2 ⟨Nat.add_pos_left hq n, hrest⟩
      · exact List.forall_mem_cons.2 ⟨hq, ih hrest⟩

theorem proper_bump {low n : Nat} {l : List (Nat × Nat)} (hl : Proper ⟨l⟩) (hn : 0 < n)
    (hlow : low ≤ lastBucketed) : Proper ⟨bump low n l⟩ where
  sorted := sorted_bump low n hl.sorted
  pos := pos_of_mem_bump hn hl.pos
  le_last p hp := by
    rcases fst_of_mem_bump hp with h | ⟨q, hq, h⟩
    · omega
    · exact h ▸ hl.le_last q hq

theorem clampLatency_le (v : Nat) : clampLatency v ≤ lastBucketed := by
  rw [clampLatency]
  split
  · assumption
  · decide

namespace Proper

variable {h other : Histogram}

theorem record (hh : h.Proper) (v : Nat) : (h.record v).Proper :=
  proper_bump hh Nat.one_pos (Nat.le_trans (Nat.sub_le ..) (clampLatency_le v))

theorem merge (hh : h.Proper) (ho : other.Proper) : (h.merge other).Proper := by
  obtain ⟨l⟩ := h
  obtain ⟨l'⟩ := other
  simp only [Histogram.merge]
  induction l' generalizing l with
  | nil => exact hh
  | cons p rest ih =>
    have hrest : Proper ⟨rest⟩ :=
      ⟨(List.pairwise_cons.1 ho.sorted).2, (List.forall_mem_cons.1 ho.pos).2,
        (List.forall_mem_cons.1 ho.le_last).2⟩
    exact ih _ (proper_bump hh (ho.pos p List.mem_cons_self) (ho.le_last p List.mem_cons_self))
      hrest

end Proper

/-! ## Equal counts -/

theorem countIn_eq_zero {low : Nat} {l : List (Nat × Nat)} (h : ∀ p ∈ l, low < p.1) :
    countIn low l = 0 := by
  induction l with
  | nil => rfl
  | cons p rest ih =>
    obtain ⟨hp, hrest⟩ := List.forall_mem_cons.1 h
    rw [countIn, ih hrest, if_neg (by omega)]

/-- The first bucket of a list is the first one with a count. -/
theorem le_of_countIn_eq {b n c m : Nat} {l l' : List (Nat × Nat)} (hpos : 0 < n)
    (hsorted : ((c, m) :: l').Pairwise (·.1 < ·.1))
    (h : countIn b ((b, n) :: l) = countIn b ((c, m) :: l')) : c ≤ b := by
  refine Nat.le_of_not_lt fun hlt => ?_
  have hzero : countIn b ((c, m) :: l') = 0 := by
    refine countIn_eq_zero (List.forall_mem_cons.2 ⟨hlt, fun p hp => ?_⟩)
    exact Nat.lt_trans hlt ((List.pairwise_cons.1 hsorted).1 p hp)
  rw [hzero, countIn, if_pos rfl] at h
  omega

theorem eq_of_countIn {l l' : List (Nat × Nat)} (hl : l.Pairwise (·.1 < ·.1))
    (hl' : l'.Pairwise (·.1 < ·.1)) (hpos : ∀ p ∈ l, 0 < p.2) (hpos' : ∀ p ∈ l', 0 < p.2)
    (h : ∀ low, countIn low l = countIn low l') : l = l' := by
  induction l generalizing l' with
  | nil =>
    cases l' with
    | nil => rfl
    | cons p rest =>
      have hcount := h p.1
      have hp := hpos' p List.mem_cons_self
      rw [countIn, countIn, if_pos rfl] at hcount
      omega
  | cons p rest ih =>
    cases l' with
    | nil =>
      have hcount := h p.1
      have hp := hpos p List.mem_cons_self
      rw [countIn, countIn, if_pos rfl] at hcount
      omega
    | cons p' rest' =>
      obtain ⟨b, n⟩ := p
      obtain ⟨c, m⟩ := p'
      obtain ⟨hn, hrestpos⟩ := List.forall_mem_cons.1 hpos
      obtain ⟨hm, hrestpos'⟩ := List.forall_mem_cons.1 hpos'
      obtain ⟨hb, hrest⟩ := List.pairwise_cons.1 hl
      obtain ⟨hc, hrest'⟩ := List.pairwise_cons.1 hl'
      -- both lists begin with the lowest bucket that has a count
      obtain rfl : b = c := Nat.le_antisymm (le_of_countIn_eq hm hl (h c).symm)
        (le_of_countIn_eq hn hl' (h b))
      have hcount := h b
      rw [countIn, countIn, if_pos rfl, if_pos rfl, countIn_eq_zero hb,
        countIn_eq_zero hc] at hcount
      obtain rfl : n = m := hcount
      rw [ih hrest hrest' hrestpos hrestpos' fun low => ?_]
      have := h low
      rw [countIn, countIn] at this
      omega

/-- **Proper histograms with the same counts are the same.** -/
theorem Proper.ext {h other : Histogram} (hh : h.Proper) (ho : other.Proper)
    (hcount : ∀ low, h.countAt low = other.countAt low) : h = other := by
  obtain ⟨l⟩ := h
  obtain ⟨l'⟩ := other
  rw [Histogram.mk.injEq]
  exact eq_of_countIn hh.sorted ho.sorted hh.pos ho.pos hcount

/-! ## The range -/

theorem bucketWidth_pos (v : Nat) : 0 < bucketWidth v := by
  rw [bucketWidth]
  split
  · exact Nat.one_pos
  · rw [Nat.one_shiftLeft]
    exact Nat.two_pow_pos _

/-- Buckets get wider, and a wider one is made of whole narrower ones. -/
theorem bucketWidth_dvd {v w : Nat} (h : v ≤ w) : bucketWidth v ∣ bucketWidth w := by
  rw [bucketWidth, bucketWidth]
  split
  · exact Nat.one_dvd _
  · next hv =>
    have hpos : v ≠ 0 := fun h => hv (h ▸ by decide)
    have hlog : v.log2 ≤ w.log2 :=
      (Nat.le_log2 (by omega)).2 (Nat.le_trans (Nat.log2_self_le hpos) h)
    rw [if_neg (by omega), Nat.one_shiftLeft, Nat.one_shiftLeft]
    exact Nat.pow_dvd_pow 2 (by omega)

/-- A bucket ends right before the next multiple of its width. -/
theorem bucketHigh_add_one (v : Nat) :
    bucketHigh v + 1 = bucketWidth v * (v / bucketWidth v + 1) := by
  have := bucketWidth_pos v
  have := Nat.mod_add_div v (bucketWidth v)
  rw [bucketHigh, bucketLow, Nat.mul_succ]
  omega

theorem le_bucketHigh (v : Nat) : v ≤ bucketHigh v := by
  have := bucketWidth_pos v
  have := Nat.mod_lt v this
  rw [bucketHigh, bucketLow]
  omega

/-- Higher values are in higher buckets. -/
theorem bucketHigh_mono {v w : Nat} (h : v ≤ w) : bucketHigh v ≤ bucketHigh w := by
  have hend := le_bucketHigh w
  obtain ⟨k, hk⟩ := Nat.dvd_trans (bucketWidth_dvd h) ⟨_, bucketHigh_add_one w⟩
  have hquotient : v / bucketWidth v + 1 ≤ k := Nat.div_lt_of_lt_mul (by omega)
  have := Nat.mul_le_mul_left (bucketWidth v) hquotient
  rw [← bucketHigh_add_one, ← hk] at this
  omega

/-- A bucket of the range ends within it. -/
theorem bucketHigh_le {v : Nat} (hv : v ≤ lastBucketed) : bucketHigh v ≤ lastBucketed :=
  Nat.le_trans (bucketHigh_mono hv) (by decide)

namespace Proper

variable {h other : Histogram}

theorem max_le (hh : h.Proper) : h.max ≤ lastBucketed := by
  rw [Histogram.max]
  cases hlast : h.buckets.getLast? with
  | none => exact Nat.zero_le _
  | some b => exact bucketHigh_le (hh.le_last b (List.mem_of_getLast? hlast))

/-- A proper histogram is never refused. -/
theorem add?_eq (ho : other.Proper) (h : Histogram) : h.add? other = some (h.merge other) :=
  if_pos ho.max_le

end Proper

end LoadGen.Stats.Histogram
