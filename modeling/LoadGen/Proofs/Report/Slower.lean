import LoadGen.Proofs.Report.Consistency

/-!
# Slower requests in reports

If one of the recorded latencies were longer, none of the reported ones should be shorter. A longer
latency is counted in a bucket that is not lower, unless it lies past the last bucket
(`latencyBucket_le_iff`). Then no more latencies are counted up to any value (`Histogram.Slows`),
whatever else is recorded, and no rank has a lower value (`Histogram.Slows.bucketAtRank_le`), so
that nothing in the report is faster (`noFaster_iff`).

Latencies past the last bucket, of more than 67 seconds, are all counted as one minute. Those right
below are counted as they are, and so a request that takes longer still is reported as a faster one
(`faster_past_last_bucket`).
-/

namespace LoadGen.Stats

open Config (Action)
open Time (Span)

namespace Histogram

/-! ## Buckets of values -/

theorem bucketWidth_of_le {v : Nat} (hv : unitBuckets ≤ v) : bucketWidth v = 2 ^ (v.log2 - 10) := by
  rw [bucketWidth, if_neg hv.not_gt, Nat.one_shiftLeft]

/-- A power of two begins a bucket. -/
theorem two_pow_log2_le_bucketLow {v : Nat} (hv : unitBuckets ≤ v) : 2 ^ v.log2 ≤ bucketLow v := by
  have hpos : v ≠ 0 := Nat.ne_of_gt (Nat.lt_of_lt_of_le (by decide) hv)
  have hlog : 10 ≤ v.log2 := (Nat.le_log2 hpos).2 (le_trans (by decide) hv)
  have hpower : 2 ^ v.log2 = bucketWidth v * 2 ^ 10 := by
    rw [bucketWidth_of_le hv, ← pow_add, Nat.sub_add_cancel hlog]
  have hquotient : 2 ^ 10 ≤ v / bucketWidth v :=
    (Nat.le_div_iff_mul_le (bucketWidth_pos v)).2 (by
      rw [mul_comm, ← hpower]
      exact Nat.log2_self_le hpos)
  calc 2 ^ v.log2 = bucketWidth v * 2 ^ 10 := hpower
    _ ≤ bucketWidth v * (v / bucketWidth v) := Nat.mul_le_mul_left _ hquotient
    _ = bucketLow v := by
      have := Nat.div_add_mod v (bucketWidth v)
      rw [bucketLow]
      omega

theorem bucketLow_le (v : Nat) : bucketLow v ≤ v := Nat.sub_le ..

/-- Higher values are in buckets that begin no lower. -/
theorem bucketLow_mono {v w : Nat} (h : v ≤ w) : bucketLow v ≤ bucketLow w := by
  rcases Nat.lt_or_ge w unitBuckets with hw | hw
  · have hone : bucketWidth w = 1 := if_pos hw
    have hself : bucketLow w = w := by rw [bucketLow, hone, Nat.mod_one, Nat.sub_zero]
    rw [hself]
    exact (bucketLow_le v).trans h
  by_cases hbelow : v < 2 ^ w.log2
  · exact (bucketLow_le v).trans (hbelow.le.trans (two_pow_log2_le_bucketLow hw))
  · -- both values lie between the same powers of two, where buckets have one width
    have hwpos : w ≠ 0 := Nat.ne_of_gt (Nat.lt_of_lt_of_le (by decide) hw)
    have hvpos : v ≠ 0 := fun hzero => hbelow (hzero ▸ Nat.two_pow_pos _)
    have hlog : v.log2 = w.log2 := Nat.le_antisymm
      ((Nat.le_log2 hwpos).2 ((Nat.log2_self_le hvpos).trans h))
      ((Nat.le_log2 hvpos).2 (Nat.le_of_not_lt hbelow))
    have hlog10 : 11 ≤ w.log2 := (Nat.le_log2 hwpos).2 (le_trans (by decide) hw)
    have hv : unitBuckets ≤ v :=
      le_trans (Nat.pow_le_pow_right two_pos hlog10) (Nat.le_of_not_lt hbelow)
    have hquotient := Nat.mul_le_mul_left (bucketWidth v)
      (Nat.div_le_div_right (c := bucketWidth v) h)
    have hwidth : bucketWidth w = bucketWidth v := by
      rw [bucketWidth_of_le hv, bucketWidth_of_le hw, hlog]
    have := Nat.div_add_mod v (bucketWidth v)
    have := Nat.div_add_mod w (bucketWidth v)
    rw [bucketLow, bucketLow, hwidth]
    omega

/-- The buckets of what is counted for two values are in order, unless only the higher value lies
past the last bucket, and the lower one is higher than what is counted instead. -/
theorem bucketLow_clampLatency_le_iff {v w : Nat} (h : v ≤ w) :
    bucketLow (clampLatency v) ≤ bucketLow (clampLatency w) ↔
      v ≤ bucketHigh maxLatency ∨ lastBucketed < v ∨ w ≤ lastBucketed := by
  have hlow : bucketLow (bucketHigh maxLatency) = bucketLow maxLatency := by decide
  have hnext : bucketLow maxLatency < bucketLow (bucketHigh maxLatency + 1) := by decide
  rw [clampLatency, clampLatency]
  rcases Nat.lt_or_ge lastBucketed w with hw | hw
  · rw [if_neg hw.not_ge]
    rcases Nat.lt_or_ge lastBucketed v with hv | hv
    · rw [if_neg hv.not_ge]
      exact iff_of_true le_rfl (.inr (.inl hv))
    · rw [if_pos hv]
      constructor
      · intro hle
        refine .inl (Nat.le_of_not_lt fun hhigh => ?_)
        exact hle.not_gt (hnext.trans_le (bucketLow_mono hhigh))
      · rintro (hhigh | hpast | hin)
        · exact (bucketLow_mono hhigh).trans_eq hlow
        · exact absurd hpast hv.not_gt
        · exact absurd hw hin.not_gt
  · rw [if_pos hw, if_pos (h.trans hw)]
    exact iff_of_true (bucketLow_mono h) (.inr (.inr hw))

/-! ## Counts up to a value -/

/-- How many latencies a list of buckets counts in those up to a value. -/
def countUpTo (x : Nat) (l : List (Nat × Nat)) : Nat :=
  total (fun b => if b.1 ≤ x then b.2 else 0) l

theorem countUpTo_cons (x low n : Nat) (rest : List (Nat × Nat)) :
    countUpTo x ((low, n) :: rest) = (if low ≤ x then n else 0) + countUpTo x rest := rfl

theorem countUpTo_bump (x low n : Nat) (l : List (Nat × Nat)) :
    countUpTo x (bump low n l) = countUpTo x l + if low ≤ x then n else 0 := by
  induction l with
  | nil => simp [bump, countUpTo, total]
  | cons b rest ih =>
    obtain ⟨b, m⟩ := b
    rw [bump]
    split
    · simp only [countUpTo_cons]
      omega
    · split
      · next heq =>
        subst heq
        simp only [countUpTo_cons]
        split <;> omega
      · simp only [countUpTo_cons, ih]
        omega

theorem countUpTo_eq_zero {x : Nat} {l : List (Nat × Nat)} (h : ∀ b ∈ l, x < b.1) :
    countUpTo x l = 0 := by
  induction l with
  | nil => rfl
  | cons b rest ih =>
    obtain ⟨hb, hrest⟩ := List.forall_mem_cons.1 h
    rw [countUpTo_cons, ih hrest, if_neg (Nat.not_le.2 hb)]

/-- The lowest value of the bucket of a rank; zero if there is none. -/
def bucketAtRank (rank before : Nat) : List (Nat × Nat) → Nat
  | [] => 0
  | (low, n) :: rest =>
    if rank ≤ before + n then low else bucketAtRank rank (before + n) rest

theorem valueAtRank_eq (rank before : Nat) (l : List (Nat × Nat)) :
    valueAtRank rank before l = bucketHigh (bucketAtRank rank before l) := by
  induction l generalizing before with
  | nil => rfl
  | cons b rest ih =>
    obtain ⟨low, n⟩ := b
    rw [valueAtRank, bucketAtRank]
    split
    · rfl
    · exact ih _

/-- **The bucket of a rank is the first one up to which as many latencies are counted.** -/
theorem bucketAtRank_spec {l : List (Nat × Nat)} (hsorted : l.Pairwise (·.1 < ·.1))
    {rank before : Nat} (hbefore : before < rank) (hrank : rank ≤ before + total (·.2) l) :
    rank ≤ before + countUpTo (bucketAtRank rank before l) l ∧
      ∀ x < bucketAtRank rank before l, before + countUpTo x l < rank := by
  induction l generalizing before with
  | nil => exact absurd hrank hbefore.not_ge
  | cons b rest ih =>
    obtain ⟨low, n⟩ := b
    obtain ⟨hlow, hrest⟩ := List.pairwise_cons.1 hsorted
    simp only [countUpTo_cons]
    rw [bucketAtRank]
    split
    · next hhere =>
      refine ⟨?_, fun x hx => ?_⟩
      · rw [if_pos le_rfl]
        omega
      · have hnone : countUpTo x rest = 0 := countUpTo_eq_zero fun c hc => hx.trans (hlow c hc)
        rw [if_neg hx.not_ge, hnone]
        exact hbefore
    · next hlater =>
      have htotal : rank ≤ before + n + total (·.2) rest := by
        rwa [total, List.foldr_cons, ← Nat.add_assoc] at hrank
      obtain ⟨hreached, hfirst⟩ := ih hrest (Nat.lt_of_not_le hlater) htotal
      -- the bucket is one of the rest, since the rank is not reached before
      have hle : low ≤ bucketAtRank rank (before + n) rest := by
        by_contra hlt
        have hnone : countUpTo (bucketAtRank rank (before + n) rest) rest = 0 :=
          countUpTo_eq_zero fun c hc => (Nat.lt_of_not_le hlt).trans (hlow c hc)
        omega
      refine ⟨?_, fun x hx => ?_⟩
      · rw [if_pos hle]
        omega
      · have := hfirst x hx
        split <;> omega

/-- The last rank is that of the last bucket. -/
theorem bucketAtRank_total {l : List (Nat × Nat)} (hpos : ∀ b ∈ l, 0 < b.2) (hne : l ≠ [])
    (before : Nat) : bucketAtRank (before + total (·.2) l) before l = (l.getLast hne).1 := by
  induction l generalizing before with
  | nil => exact absurd rfl hne
  | cons b rest ih =>
    obtain ⟨low, n⟩ := b
    have htotal : before + total (·.2) ((low, n) :: rest) = before + n + total (·.2) rest :=
      (Nat.add_assoc ..).symm
    rw [bucketAtRank, htotal]
    cases rest with
    | nil => exact if_pos le_rfl
    | cons c rest =>
      obtain ⟨-, hrest⟩ := List.forall_mem_cons.1 hpos
      have hmore : 0 < total (·.2) (c :: rest) :=
        Nat.lt_of_lt_of_le (hrest c List.mem_cons_self) (Nat.le_add_right ..)
      rw [if_neg (by omega), ih hrest (List.cons_ne_nil c rest),
        List.getLast_cons (List.cons_ne_nil c rest)]

theorem ne_nil_of_count {h : Histogram} (hcount : 0 < h.count) : h.buckets ≠ [] := by
  intro hnil
  rw [count, hnil] at hcount
  exact absurd hcount (Nat.lt_irrefl 0)

section Ends

variable {h : Histogram} (hh : h.Proper) (hcount : 0 < h.count)

include hh hcount

/-- The lowest latency begins the bucket of the first rank. -/
theorem Proper.min_eq : h.min = bucketAtRank 1 0 h.buckets := by
  have hne := ne_nil_of_count hcount
  have hpos := hh.pos
  rw [min]
  cases hbuckets : h.buckets with
  | nil => exact absurd hbuckets hne
  | cons b rest =>
    obtain ⟨low, n⟩ := b
    rw [hbuckets] at hpos
    have hn : 0 < n := hpos (low, n) List.mem_cons_self
    rw [bucketAtRank, if_pos (by omega)]
    rfl

/-- The highest latency ends the bucket of the last rank. -/
theorem Proper.max_eq : h.max = bucketHigh (bucketAtRank h.count 0 h.buckets) := by
  have hne := ne_nil_of_count hcount
  have hlast := bucketAtRank_total hh.pos hne 0
  rw [Nat.zero_add] at hlast
  rw [max, count, hlast, List.getLast?_eq_some_getLast hne]
  rfl

end Ends

/-! ## Slower histograms -/

/-- The second histogram counts as many latencies as the first one, and no more of them up to any
value. -/
structure Slows (h h' : Histogram) : Prop where
  count_eq : h'.count = h.count
  countUpTo_le : ∀ x, countUpTo x h'.buckets ≤ countUpTo x h.buckets

theorem Slows.refl (h : Histogram) : h.Slows h := ⟨rfl, fun _ => le_rfl⟩

namespace Slows

variable {h h' : Histogram} (hs : h.Slows h')

include hs

/-- A latency is recorded in the one and one of a bucket that is not lower in the other. -/
theorem record {v v' : Nat}
    (hle : bucketLow (clampLatency v) ≤ bucketLow (clampLatency v')) :
    (h.record v).Slows (h'.record v') where
  count_eq := by rw [count_record, count_record, hs.count_eq]
  countUpTo_le x := by
    have hx := hs.countUpTo_le x
    rw [Histogram.record, Histogram.record, countUpTo_bump, countUpTo_bump]
    refine Nat.add_le_add hx ?_
    split
    · next hhigh => rw [if_pos (hle.trans hhigh)]
    · exact Nat.zero_le _

variable (hh : h.Proper) (hh' : h'.Proper) {rank : Nat} (hpos : 0 < rank) (hrank : rank ≤ h.count)

include hh hh' hpos hrank

/-- **No rank is that of a lower bucket.** -/
theorem bucketAtRank_le : bucketAtRank rank 0 h.buckets ≤ bucketAtRank rank 0 h'.buckets := by
  obtain ⟨-, hfirst⟩ :=
    bucketAtRank_spec hh.sorted hpos (hrank.trans_eq (Nat.zero_add _).symm)
  obtain ⟨hreached, -⟩ :=
    bucketAtRank_spec hh'.sorted hpos ((hrank.trans_eq hs.count_eq.symm).trans_eq
      (Nat.zero_add _).symm)
  by_contra hlt
  have hless := hfirst _ (Nat.lt_of_not_le hlt)
  have hle := hs.countUpTo_le (bucketAtRank rank 0 h'.buckets)
  omega

theorem valueAtRank_le : valueAtRank rank 0 h.buckets ≤ valueAtRank rank 0 h'.buckets := by
  rw [valueAtRank_eq, valueAtRank_eq]
  exact bucketHigh_mono (hs.bucketAtRank_le hh hh' hpos hrank)

end Slows

end Histogram

/-! ## Slower windows -/

/-- The lowest value of the bucket in which a latency is counted. -/
def latencyBucket (latency : Span) : Nat :=
  bucketLow (clampLatency (ActionStats.latencyMicros latency))

/-- **A longer latency is counted in a bucket that is not lower**, unless only the longer one lies
past the last bucket and the other one takes longer than what is counted for that. -/
theorem latencyBucket_le_iff {l l' : Span} (h : l.nanos ≤ l'.nanos) :
    latencyBucket l ≤ latencyBucket l' ↔
      l.micros ≤ bucketHigh maxLatency ∨ lastBucketed < l.micros ∨ l'.micros ≤ lastBucketed := by
  have hmicros : l.micros ≤ l'.micros := Nat.div_le_div_right h
  have hlatency : ActionStats.latencyMicros l ≤ ActionStats.latencyMicros l' :=
    max_le_max hmicros le_rfl
  have hone : 1 ≤ bucketHigh maxLatency := by decide
  have hlast : 1 ≤ lastBucketed := by decide
  rw [latencyBucket, latencyBucket, Histogram.bucketLow_clampLatency_le_iff hlatency,
    ActionStats.latencyMicros, ActionStats.latencyMicros]
  omega

/-- The second one has made as many attempts, and counts their latencies as slower ones. -/
structure ActionStats.Slows (s s' : ActionStats) : Prop where
  attempted_eq : s'.attempted = s.attempted
  latency : s.latency.Slows s'.latency

theorem ActionStats.Slows.record {s s' : ActionStats} (hs : s.Slows s') (outcome : Outcome)
    {l l' : Span} (hle : latencyBucket l ≤ latencyBucket l') :
    (s.record outcome l).Slows (s'.record outcome l') := by
  have hattempts : s'.attempted + 1 = s.attempted + 1 := congrArg (· + 1) hs.attempted_eq
  cases outcome with
  | skipped => exact ⟨hs.attempted_eq, hs.latency⟩
  | _ => exact ⟨hattempts, hs.latency.record hle⟩

namespace WindowStats

/-- The second window is that of slower requests. -/
def Slows (w w' : WindowStats) : Prop := ∀ a, (w.action a).Slows (w'.action a)

theorem Slows.refl (w : WindowStats) : w.Slows w := fun _ => ⟨rfl, .refl _⟩

variable {w w' : WindowStats}

theorem action_count (w : WindowStats) (e : Entry) (a : Action) :
    (w.count e).action a =
      if e.action = a then (w.action a).record e.outcome e.latency else w.action a := by
  rw [count, recordRequest, action_recordBytes, action_record]

/-- An operation is counted in the one and the same one, if slower, in the other. -/
theorem Slows.count (hw : w.Slows w') (e : Entry) {l : Span}
    (hle : latencyBucket e.latency ≤ latencyBucket l) :
    (w.count e).Slows (w'.count { e with latency := l }) := fun a => by
  rw [action_count, action_count]
  split
  · exact (hw a).record e.outcome hle
  · exact hw a

theorem Slows.countAll (hw : w.Slows w') (entries : List Entry) :
    (w.countAll entries).Slows (w'.countAll entries) := by
  induction entries generalizing w w' with
  | nil => exact hw
  | cons e rest ih => exact ih (hw.count e le_rfl)

theorem countAll_append_cons (w : WindowStats) (before after : List Entry) (e : Entry) :
    w.countAll (before ++ e :: after) = ((w.countAll before).count e).countAll after := by
  rw [WindowStats.countAll, List.foldl_append]
  rfl

theorem Reachable.countAll (hw : w.Reachable) (entries : List Entry) :
    (w.countAll entries).Reachable := by
  induction entries generalizing w with
  | nil => exact hw
  | cons e rest ih => exact ih (.recordBytes (.record hw _ _ _) _ _)

end WindowStats

end LoadGen.Stats

namespace LoadGen.Report

open Config (Action)
open Stats Histogram
open Time (Span)

/-! ## Slower reports -/

/-- None of the second latencies is shorter. -/
structure Latency.Slows (l l' : Latency) : Prop where
  min_le : l.min ≤ l'.min
  p50_le : l.p50 ≤ l'.p50
  p90_le : l.p90 ≤ l'.p90
  p99_le : l.p99 ≤ l'.p99
  p999_le : l.p999 ≤ l'.p999
  max_le : l.max ≤ l'.max

namespace Latency

variable {h h' : Histogram} (hh : h.Proper) (hh' : h'.Proper) (hs : h.Slows h')

include hh hh' hs

theorem slows_atRanks {r50 r90 r99 r999 : Nat} (hpos : ∀ r ∈ [r50, r90, r99, r999], 0 < r)
    (hle : ∀ r ∈ [r50, r90, r99, r999], r ≤ h.count) :
    (atRanks h r50 r90 r99 r999).Slows (atRanks h' r50 r90 r99 r999) := by
  have hrank (r : Nat) (hr : r ∈ [r50, r90, r99, r999]) :
      valueAtRank r 0 h.buckets ≤ valueAtRank r 0 h'.buckets :=
    hs.valueAtRank_le hh hh' (hpos r hr) (hle r hr)
  have hcount : 0 < h.count := (hpos r50 (by simp)).trans_le (hle r50 (by simp))
  have hcount' : 0 < h'.count := hcount.trans_eq hs.count_eq.symm
  refine ⟨?min, hrank _ (by simp), hrank _ (by simp), hrank _ (by simp), hrank _ (by simp), ?max⟩
  case min =>
    rw [atRanks, atRanks]
    dsimp only
    rw [hh.min_eq hcount, hh'.min_eq hcount']
    exact hs.bucketAtRank_le hh hh' Nat.one_pos hcount
  case max =>
    rw [atRanks, atRanks]
    dsimp only
    rw [hh.max_eq hcount, hh'.max_eq hcount', hs.count_eq]
    exact bucketHigh_mono (hs.bucketAtRank_le hh hh' hcount le_rfl)

/-- **Reported latencies of slower requests are not shorter.** -/
theorem slows_ofHistogram (hcount : 0 < h.count) : (ofHistogram h).Slows (ofHistogram h') := by
  have hranks : ofHistogram h' = atRanks h' (Quantile.rank (.near 1 2) h.count)
      (Quantile.rank (.near 9 10) h.count) (Quantile.rank (.near 99 100) h.count)
      (Quantile.rank (.near 999 1000) h.count) := by
    rw [← hs.count_eq]
    rfl
  rw [hranks]
  refine slows_atRanks hh hh' hs ?_ ?_
  · simp only [List.forall_mem_cons]
    exact ⟨Quantile.one_le_rank _ _, Quantile.one_le_rank _ _, Quantile.one_le_rank _ _,
      Quantile.one_le_rank _ _, List.forall_mem_nil _⟩
  · simp only [List.forall_mem_cons]
    exact ⟨Quantile.rank_le (by decide) hcount, Quantile.rank_le (by decide) hcount,
      Quantile.rank_le (by decide) hcount, Quantile.rank_le (by decide) hcount,
      List.forall_mem_nil _⟩

/-- They are not if ranks are not rounded, either. -/
theorem slows_exact (hcount : 0 < h.count) : (exact h).Slows (exact h') := by
  rw [exact, exact, hs.count_eq]
  refine slows_atRanks hh hh' hs ?_ ?_
  · simp only [List.forall_mem_cons]
    exact ⟨one_le_exactRank _ _, one_le_exactRank _ _, one_le_exactRank _ _, one_le_exactRank _ _,
      List.forall_mem_nil _⟩
  · simp only [List.forall_mem_cons]
    exact ⟨exactRank_le (by norm_num) hcount, exactRank_le (by norm_num) hcount,
      exactRank_le (by norm_num) hcount, exactRank_le (by norm_num) hcount, List.forall_mem_nil _⟩

end Latency

namespace WindowReport

/-- Whatever operations a window counts, if one of them takes the second span instead of the first,
as many attempts are reported, and none of the latencies of any action is shorter, nor would they be
if the ranks of quantiles were not rounded. -/
def NoFaster (l l' : Span) : Prop :=
  ∀ (before after : List Entry) (e : Entry) (window : Nat) (start stop : Span)
    (existing : List (Option Nat)) (a : Action),
    let counted l := WindowStats.empty.countAll (before ++ { e with latency := l } :: after)
    let reported l := (ofStats window start stop (counted l) existing).action? a
    ((counted l').action a).attempted = ((counted l).action a).attempted ∧
      (0 < ((counted l).action a).attempted → ∃ x x',
        (reported l).bind (·.latency) = some x ∧ (reported l').bind (·.latency) = some x' ∧
          x.Slows x' ∧ (Latency.exact ((counted l).action a).latency).Slows
            (Latency.exact ((counted l').action a).latency))

variable {l l' : Span}

theorem noFaster_of_latencyBucket_le (hbucket : latencyBucket l ≤ latencyBucket l') :
    NoFaster l l' := by
  intro before after e window start stop existing a counted reported
  have hslows : (counted l).Slows (counted l') := by
    simp only [counted, WindowStats.countAll_append_cons]
    exact ((WindowStats.Slows.refl _).count { e with latency := l } hbucket).countAll after
  have hconsistent (l : Span) : ((counted l).action a).Consistent :=
    (WindowStats.Reachable.empty.countAll _).consistent a
  obtain ⟨hattempted, hlatency⟩ := hslows a
  refine ⟨hattempted, fun hpos => ?_⟩
  have hcount : 0 < ((counted l).action a).latency.count :=
    hpos.trans_eq (hconsistent l).count_latency.symm
  refine ⟨.ofHistogram ((counted l).action a).latency, .ofHistogram ((counted l').action a).latency,
    ?_, ?_, ?_, ?_⟩
  · exact (bind_latency_ofStats ..).trans (if_pos hpos)
  · exact (bind_latency_ofStats ..).trans (if_pos (hattempted ▸ hpos))
  · exact Latency.slows_ofHistogram (hconsistent l).proper (hconsistent l').proper hlatency hcount
  · exact Latency.slows_exact (hconsistent l).proper (hconsistent l').proper hlatency hcount

/-- A single request is reported by its bucket. -/
theorem latencyBucket_le_of_noFaster (h : NoFaster l l') : latencyBucket l ≤ latencyBucket l' := by
  obtain ⟨-, hlatency⟩ := h [] [] ⟨.len, .success, l, 0, 0⟩ 0 .zero .zero [] .len
  obtain ⟨x, x', hx, hx', hslows, -⟩ := hlatency Nat.one_pos
  have hone (l : Span) : ((ofStats 0 .zero .zero
      (WindowStats.empty.record .len .success l) []).action? .len).bind (·.latency) =
        some (.ofHistogram (Histogram.empty.record (ActionStats.latencyMicros l))) :=
    (bind_latency_ofStats ..).trans (if_pos Nat.one_pos)
  cases (hone l).symm.trans hx
  cases (hone l').symm.trans hx'
  exact hslows.min_le

/-- **Slower requests do not make a report look faster**, as far as buckets reach: a request may
take longer without any reported latency getting shorter, whatever else is reported, except where
only the longer time lies past the last bucket, and the other one is longer than the minute that is
counted for it. There, some reports do look faster. -/
theorem noFaster_iff (hle : l.nanos ≤ l'.nanos) :
    NoFaster l l' ↔
      l.micros ≤ bucketHigh maxLatency ∨ lastBucketed < l.micros ∨ l'.micros ≤ lastBucketed := by
  rw [← latencyBucket_le_iff hle]
  exact ⟨latencyBucket_le_of_noFaster, noFaster_of_latencyBucket_le⟩

/-- A request takes ninety seconds instead of a millisecond. -/
theorem noFaster_iff_ninety : (Span.ofMillis 1).nanos ≤ (Span.ofSeconds 90).nanos ∧
    NoFaster (.ofMillis 1) (.ofSeconds 90) := by
  have hle : (Span.ofMillis 1).nanos ≤ (Span.ofSeconds 90).nanos := by decide
  exact ⟨hle, (noFaster_iff hle).2 (.inl (by decide))⟩

/-- What is reported of a window with a single request. -/
def ofRequest (latency : Span) : Option Latency :=
  ((ofStats 0 .zero (.ofSeconds 100) (WindowStats.empty.record .find .success latency) []).action?
    .find).bind (·.latency)

/-- A request that takes 68 seconds is reported as one of a minute, and one of 67 seconds as it
is. -/
theorem faster_past_last_bucket :
    (Span.ofSeconds 67).nanos ≤ (Span.ofSeconds 68).nanos ∧
      ofRequest (.ofSeconds 67) =
        some ⟨66977792, 67010559, 67010559, 67010559, 67010559, 67010559⟩ ∧
      ofRequest (.ofSeconds 68) =
        some ⟨59998208, 60030975, 60030975, 60030975, 60030975, 60030975⟩ ∧
      ¬NoFaster (.ofSeconds 67) (.ofSeconds 68) := by
  refine ⟨by decide, by decide +kernel, by decide +kernel, fun h => ?_⟩
  exact absurd (latencyBucket_le_of_noFaster h) (by decide)

end WindowReport

end LoadGen.Report
