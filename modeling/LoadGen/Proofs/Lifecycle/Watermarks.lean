import LoadGen.Proofs.Lifecycle.Calls

/-!
# The watermarks hold

The number of existing structures never passes the high watermark, nor the number of keys, and once
it has reached the low one it never falls below it again (`existing_within_watermarks`), in whatever
order creates and deletes come. All of this is read off `Performed.existing_cases`: a call changes
the number by at most one, upwards only below the high watermark and downwards only above the low
one.
-/

namespace LoadGen.Workload.Lifecycle

open Config (Watermarks)

variable {s s' : Lifecycle} {call : Call} {o : Option Transition}

/-- What a call does to the number of existing structures. -/
theorem Performed.existing_cases (h : s.Performed call o s') :
    (s'.existing = s.existing ∧ ∀ i, o ≠ some (.claimed i)) ∨
      (∃ index i, call = .create index ∧ o = some (.claimed i) ∧
        s.existing < s.watermarks.high ∧ s'.existing = s.existing + 1) ∨
      (∃ source i, call = .delete source ∧ o = some (.claimed i) ∧
        s.watermarks.low < s.existing ∧ s'.existing + 1 = s.existing) := by
  cases h with
  | @create index t _ h =>
    cases h with
    | suppressed => exact .inl ⟨rfl, by simp⟩
    | noCandidate => exact .inl ⟨rfl, by simp⟩
    | @claimed hroom i => exact .inr (.inl ⟨index, i, rfl, rfl, hroom, rfl⟩)
  | @delete source t _ h =>
    cases h with
    | suppressed => exact .inl ⟨rfl, by simp⟩
    | @claimed hmany position victim =>
      refine .inr (.inr ⟨source, victim, rfl, rfl, hmany, ?_⟩)
      simp only [removeAt]
      omega
  | adjust a index items => exact .inl ⟨existing_adjust _ _ _, by simp⟩

/-- A call changes the number of existing structures by at most one. -/
theorem Performed.existing_le (h : s.Performed call o s') :
    s'.existing ≤ s.existing + 1 ∧ s.existing ≤ s'.existing + 1 := by
  rcases h.existing_cases with ⟨h, -⟩ | ⟨_, _, _, _, _, h⟩ | ⟨_, _, _, _, _, h⟩ <;> omega

theorem Performed.lt_high {index i : Nat} (h : s.Performed (.create index) (some (.claimed i)) s') :
    s.existing < s.watermarks.high := by
  rcases h.existing_cases with ⟨-, h⟩ | ⟨_, _, _, _, h, _⟩ | ⟨_, _, h, _⟩
  · exact absurd rfl (h i)
  · exact h
  · cases h

theorem Performed.low_lt {source : Random.Source} {i : Nat}
    (h : s.Performed (.delete source) (some (.claimed i)) s') :
    s.watermarks.low < s.existing := by
  rcases h.existing_cases with ⟨-, h⟩ | ⟨_, _, h, _⟩ | ⟨_, _, _, _, h, _⟩
  · exact absurd rfl (h i)
  · cases h
  · exact h

theorem Performed.le_high (h : s.Performed call o s') (hle : s.existing ≤ s.watermarks.high) :
    s'.existing ≤ s'.watermarks.high := by
  rw [h.frame.2]
  rcases h.existing_cases with ⟨h, -⟩ | ⟨_, _, _, _, _, h⟩ | ⟨_, _, _, _, _, h⟩ <;> omega

theorem Performed.low_le (h : s.Performed call o s') (hle : s.watermarks.low ≤ s.existing) :
    s'.watermarks.low ≤ s'.existing := by
  rw [h.frame.2]
  rcases h.existing_cases with ⟨h, -⟩ | ⟨_, _, _, _, _, h⟩ | ⟨_, _, _, _, _, h⟩ <;> omega

/-- **The watermarks hold** in every state that calls on a fresh store lead to, in any order and by
any number of workers: at most `high` structures and at most `count` exist; the next call changes
their number by at most one, claiming a create only below `high` and a delete only above `low`; and
if at least `low` exist, then at least `low` exist after all later calls. The low watermark may be
above the high one. -/
theorem existing_within_watermarks (count : Nat) (marks : Watermarks) (calls : List Call) :
    ∃ s, (new count marks).performAll calls = .ok s ∧
      s.existing ≤ min marks.high count ∧
      (∀ call, ∃ o s', s.perform call = .ok (o, s') ∧
        s'.existing ≤ s.existing + 1 ∧ s.existing ≤ s'.existing + 1 ∧
        (∀ index i, call = .create index → o = some (.claimed i) → s.existing < marks.high) ∧
        (∀ source i, call = .delete source → o = some (.claimed i) → marks.low < s.existing)) ∧
      (marks.low ≤ s.existing →
        ∀ later, ∃ s', s.performAll later = .ok s' ∧ marks.low ≤ s'.existing) := by
  obtain ⟨s, hrun, hs, hcount, hmarks, hhigh⟩ :=
    (sound_new count marks).performAll_induction
      (P := fun s => s.count = count ∧ s.watermarks = marks ∧ s.existing ≤ s.watermarks.high)
      (fun _ hp h =>
        ⟨hp.frame.1.trans h.1, hp.frame.2.trans h.2.1, hp.le_high h.2.2⟩)
      ⟨by simp [new, Lifecycle.count], rfl, Nat.zero_le _⟩ calls
  refine ⟨s, hrun, ?_, fun call => ?_, fun hlow later => ?_⟩
  · have := hs.existing_le_count
    rw [hmarks] at hhigh
    omega
  · obtain ⟨o, s', hp, hperf⟩ := hs.perform_spec call
    refine ⟨o, s', hp, hperf.existing_le.1, hperf.existing_le.2, ?_, ?_⟩
    · rintro index i rfl rfl
      exact hmarks ▸ hperf.lt_high
    · rintro source i rfl rfl
      exact hmarks ▸ hperf.low_lt
  · obtain ⟨s', hrest, -, hm', hlow'⟩ := hs.performAll_induction
      (P := fun s => s.watermarks = marks ∧ s.watermarks.low ≤ s.existing)
      (fun _ hp h => ⟨hp.frame.2.trans h.1, hp.low_le h.2⟩) ⟨hmarks, hmarks ▸ hlow⟩ later
    exact ⟨s', hrest, hm' ▸ hlow'⟩

end LoadGen.Workload.Lifecycle
