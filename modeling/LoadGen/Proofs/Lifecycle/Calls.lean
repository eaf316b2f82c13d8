import LoadGen.Proofs.Lifecycle.Sound

/-!
# Calls on a lifecycle store

All workers share the lifecycle store of a keyspace. What they ask of it are calls, each of which
is one step, so that any number of workers give one sequence of calls, in some order. `perform` is
one call and `performAll` a sequence of them.

`Performed` says all that a call does to a sound store (`perform_spec`). A fresh store is sound and
stays so under every sequence of calls, none of which ends in a violation (`performAll_induction`).
-/

namespace LoadGen.Workload.Lifecycle

/-- How the population of a structure changes. -/
inductive Adjustment
  | grow
  | shrink
  | truncate
  deriving Repr, DecidableEq

/-- The population after an adjustment by a number of elements. -/
def Adjustment.change (items : Nat) : Adjustment → Nat → Nat
  | .grow, population => min (population + items) maxPopulation
  | .shrink, population => population - items
  | .truncate, population => min population items

theorem Adjustment.change_le (a : Adjustment) (items : Nat) :
    ∀ n ≤ maxPopulation, a.change items n ≤ maxPopulation := by
  intro n hn
  cases a <;> simp only [change] <;> omega

/-- What a worker can ask of a store. -/
inductive Call
  /-- To create a structure, from a drawn index on. -/
  | create (index : Nat)
  /-- To delete a structure drawn from a source. -/
  | delete (source : Random.Source)
  | adjust (adjustment : Adjustment) (index : Nat) (items : UInt32)

/-- Performs a call. Creates and deletes tell what came of them. -/
def perform (s : Lifecycle) : Call → Except Violation (Option Transition × Lifecycle)
  | .create index => do
    let (t, s) ← s.tryCreate index
    return (some t, s)
  | .delete source => do
    let (t, s, _) ← s.tryDelete source
    return (some t, s)
  | .adjust .grow index items => .ok (none, s.grow index items.toNat)
  | .adjust .shrink index items => .ok (none, s.shrink index items.toNat)
  | .adjust .truncate index items => .ok (none, s.truncate index items.toNat)

/-- Performs calls in order. -/
def performAll (s : Lifecycle) : List Call → Except Violation Lifecycle
  | [] => .ok s
  | call :: calls => do
    let (_, s) ← s.perform call
    s.performAll calls

theorem perform_adjust (s : Lifecycle) (a : Adjustment) (index : Nat) (items : UInt32) :
    s.perform (.adjust a index items) = .ok (none, s.adjust index (a.change items.toNat)) := by
  cases a <;> rfl

/-- All that a call can come to. -/
inductive Performed (s : Lifecycle) : Call → Option Transition → Lifecycle → Prop
  | create {index : Nat} {t : Transition} {s' : Lifecycle} (h : s.Created index t s') :
      Performed s (.create index) (some t) s'
  | delete {source : Random.Source} {t : Transition} {s' : Lifecycle} (h : s.Deleted t s') :
      Performed s (.delete source) (some t) s'
  | adjust (a : Adjustment) (index : Nat) (items : UInt32) :
      Performed s (.adjust a index items) none (s.adjust index (a.change items.toNat))

namespace Sound

variable {s s' : Lifecycle} (hs : s.Sound)

include hs

theorem perform_spec (call : Call) :
    ∃ o s', s.perform call = .ok (o, s') ∧ s.Performed call o s' := by
  cases call with
  | create index =>
    obtain ⟨t, s', h, hc⟩ := hs.tryCreate_spec index
    exact ⟨some t, s', by rw [perform, h]; rfl, .create hc⟩
  | delete source =>
    obtain ⟨t, s', source', h, hd⟩ := hs.tryDelete_spec source
    exact ⟨some t, s', by rw [perform, h]; rfl, .delete hd⟩
  | adjust a index items => exact ⟨none, _, perform_adjust s a index items, .adjust a index items⟩

theorem performed {call : Call} {o : Option Transition} (h : s.Performed call o s') : s'.Sound := by
  cases h with
  | create h => exact hs.created h
  | delete h => exact hs.deleted h
  | adjust a index items => exact hs.adjust (a.change_le items.toNat)

/-- **No sequence of calls ends in a violation**, and every one leaves a sound store, for which
holds what every call keeps. -/
theorem performAll_induction {P : Lifecycle → Prop}
    (hP : ∀ {s s' call o}, Sound s → s.Performed call o s' → P s → P s') (h : P s)
    (calls : List Call) : ∃ s', s.performAll calls = .ok s' ∧ s'.Sound ∧ P s' := by
  induction calls generalizing s with
  | nil => exact ⟨s, rfl, hs, h⟩
  | cons call calls ih =>
    obtain ⟨o, s₁, hp, hperf⟩ := hs.perform_spec call
    obtain ⟨s', hrest, hs', h'⟩ := ih (hs.performed hperf) (hP hs hperf h)
    exact ⟨s', by rw [performAll, hp]; exact hrest, hs', h'⟩

end Sound

section Frame

variable {s s' : Lifecycle} {call : Call} {o : Option Transition}

/-- A call keeps the number of keys and the bounds. -/
theorem Performed.frame (h : s.Performed call o s') :
    s'.count = s.count ∧ s'.watermarks = s.watermarks := by
  cases h with
  | create h =>
    cases h with
    | suppressed => exact ⟨rfl, rfl⟩
    | noCandidate => exact ⟨rfl, rfl⟩
    | claimed => exact ⟨count_insert _ _, rfl⟩
  | delete h =>
    cases h with
    | suppressed => exact ⟨rfl, rfl⟩
    | claimed => exact ⟨count_removeAt _ _ _, rfl⟩
  | adjust a index items => exact ⟨count_adjust _ _ _, watermarks_adjust _ _ _⟩

end Frame

end LoadGen.Workload.Lifecycle
