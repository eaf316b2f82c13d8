import LoadGen.Decimal.Binary

/-!
# Latency histograms

Latencies are counted in buckets, in microseconds. Below 2048 every value has a bucket of its own;
above that buckets double in width whenever the value doubles, so a bucket is never wider than a
thousandth of its values. Values past the last bucket are counted as the highest latency tracked.

A histogram lists its non-empty buckets in ascending order. A quantile is the highest value of the
first bucket at which the running count reaches the quantile's rank.
-/

namespace LoadGen.Stats

/-- The sum of a count over a list. -/
def total (count : α → Nat) (l : List α) : Nat := l.foldr (fun a n => count a + n) 0

/-- Values below this have buckets of width one. -/
def unitBuckets : Nat := 2048

/-- The highest latency tracked, one minute. -/
def maxLatency : Nat := 60000000

/-- The largest value with a bucket of its own range. -/
def lastBucketed : Nat := (1 <<< 26) - 1

/-- The width of the bucket of a value: with `2 ^ k * 1024 ≤ v < 2 ^ k * 2048` it is `2 ^ k`. -/
def bucketWidth (v : Nat) : Nat :=
  if v < unitBuckets then 1 else 1 <<< (v.log2 - 10)

/-- The lowest value of a value's bucket. -/
def bucketLow (v : Nat) : Nat := v - v % bucketWidth v

/-- The highest value of a value's bucket. -/
def bucketHigh (v : Nat) : Nat := bucketLow v + (bucketWidth v - 1)

/-- The value that is counted for a latency. -/
def clampLatency (v : Nat) : Nat :=
  if v ≤ lastBucketed then v else maxLatency

/-- Counts by bucket: the lowest value of each non-empty bucket with its count, ascending. -/
structure Histogram where
  buckets : List (Nat × Nat)
  deriving Repr, DecidableEq, Inhabited

namespace Histogram

def empty : Histogram := ⟨[]⟩

/-- Adds to the count of a bucket. -/
def bump (low n : Nat) : List (Nat × Nat) → List (Nat × Nat)
  | [] => [(low, n)]
  | (b, m) :: rest =>
    if low < b then (low, n) :: (b, m) :: rest
    else if low = b then (b, m + n) :: rest
    else (b, m) :: bump low n rest

/-- Counts a latency. -/
def record (h : Histogram) (v : Nat) : Histogram :=
  ⟨bump (bucketLow (clampLatency v)) 1 h.buckets⟩

/-- Adds the counts of another histogram. -/
def merge (h other : Histogram) : Histogram :=
  ⟨other.buckets.foldl (fun buckets (low, n) => bump low n buckets) h.buckets⟩

/-- The number of latencies counted. -/
def count (h : Histogram) : Nat := total (·.2) h.buckets

/-- The lowest value of the first bucket, zero if nothing was counted. -/
def min (h : Histogram) : Nat := (h.buckets.head?.map (·.1)).getD 0

/-- The highest value of the last bucket, zero if nothing was counted. -/
def max (h : Histogram) : Nat := (h.buckets.getLast?.map fun b => bucketHigh b.1).getD 0

/-- Adds the counts of another histogram, unless it has values past the last bucket. -/
def add? (h other : Histogram) : Option Histogram :=
  if other.max ≤ lastBucketed then some (h.merge other) else none

/-! ## Quantiles -/

/-- A quantile between zero and one, in units of `2 ^ -53`. -/
structure Quantile where
  units : Nat
  deriving Repr, DecidableEq

/-- The quantile nearest to `num / den`. -/
def Quantile.near (num den : Nat) : Quantile :=
  ⟨Decimal.roundDiv .toEven (num <<< 53) den⟩

/-- A number rounded to 53 significant bits, a tie to the even one. -/
def significant (n : Nat) : Nat :=
  if n < 1 <<< 53 then n
  else
    let unit := 1 <<< (n.log2 - 52)
    Decimal.roundDiv .toEven n unit * unit

/-- The rank of a quantile among `count` values: their product rounded up, at least one. Count and
product have 53 significant bits. -/
def Quantile.rank (q : Quantile) (count : Nat) : Nat :=
  Nat.max 1 ((significant (q.units * significant count) + ((1 <<< 53) - 1)) / (1 <<< 53))

/-- The highest value of the first bucket at which the running count, `before` at the start,
reaches a rank; zero if it never does. -/
def valueAtRank (rank : Nat) (before : Nat) : List (Nat × Nat) → Nat
  | [] => 0
  | (low, n) :: rest =>
    if rank ≤ before + n then bucketHigh low else valueAtRank rank (before + n) rest

/-- The value of a quantile. -/
def valueAt (h : Histogram) (q : Quantile) : Nat :=
  valueAtRank (q.rank h.count) 0 h.buckets

end Histogram

end LoadGen.Stats
