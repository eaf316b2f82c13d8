import LoadGen.Proofs.Random.Bounds
import LoadGen.Workload.Lifecycle
import Mathlib.Data.List.Nodup
import Mathlib.Data.List.Perm.Subperm
import Mathlib.Tactic.ByContra

/-!
# Sound lifecycle stores

A lifecycle store keeps five records of the same facts: the flags, the populations, the list of
existing keys, the position of each in that list, and their number. `Sound` says that they agree,
and its core is that positions and list are inverse to each other.

Every operation keeps a sound store sound. `tryCreate_spec` and `tryDelete_spec` say all that a
create or a delete does to one; that both return a result means that no violation arises.
-/

namespace LoadGen.Workload.Lifecycle

/-- Where a key stands in the list of existing keys. -/
def position? (s : Lifecycle) (index : Nat) : Option Nat := s.positions.getD index none

/-- The records of a store agree. -/
structure Sound (s : Lifecycle) : Prop where
  size_populations : s.populations.size = s.count
  size_positions : s.positions.size = s.count
  /-- Positions and list are inverse to each other. -/
  position?_eq_some_iff : ∀ i p, s.position? i = some p ↔ s.keys[p]? = some i
  exists?_eq : ∀ i, s.exists? i = (s.position? i).isSome
  population_eq_zero : ∀ i, s.exists? i = false → s.population i = 0
  population_le : ∀ i, s.population i ≤ maxPopulation
  existing_eq : s.existing = s.keys.size

theorem exists?_eq_false_of_le {s : Lifecycle} {i : Nat} (h : s.count ≤ i) : s.exists? i = false := by
  simp only [exists?, Array.getD_eq_getD_getElem?]
  rw [Array.getElem?_eq_none (by simpa [count] using h), Option.getD_none]

theorem lt_count_of_exists? {s : Lifecycle} {i : Nat} (h : s.exists? i = true) : i < s.count := by
  by_contra hi
  rw [exists?_eq_false_of_le (by omega)] at h
  exact Bool.false_ne_true h

namespace Sound

variable {s : Lifecycle} (hs : s.Sound)

include hs

theorem position?_eq_none {i : Nat} (h : s.exists? i = false) : s.position? i = none := by
  rw [hs.exists?_eq] at h
  simpa using h

theorem exists?_of_listed {i p : Nat} (h : s.keys[p]? = some i) : s.exists? i = true := by
  rw [hs.exists?_eq, (hs.position?_eq_some_iff i p).2 h, Option.isSome_some]

theorem mem_keys_iff {i : Nat} : i ∈ s.keys ↔ s.exists? i = true := by
  rw [hs.exists?_eq, Option.isSome_iff_exists, Array.mem_iff_getElem?]
  simp only [hs.position?_eq_some_iff]

theorem listed_inj {i p q : Nat} (hp : s.keys[p]? = some i) (hq : s.keys[q]? = some i) : p = q := by
  have h := (hs.position?_eq_some_iff i p).2 hp
  rw [(hs.position?_eq_some_iff i q).2 hq] at h
  exact (Option.some.inj h).symm

theorem nodup_keys : s.keys.toList.Nodup := by
  rw [List.nodup_iff_getElem?_ne_getElem?]
  intro p q hpq hq h
  simp only [Array.getElem?_toList] at h
  have hkey : s.keys[q]? = some s.keys[q] := Array.getElem?_eq_getElem (by simpa using hq)
  have := hs.listed_inj (h.trans hkey) hkey
  omega

/-- There are at most as many existing structures as keys. -/
theorem existing_le_count : s.existing ≤ s.count := by
  have hsub : s.keys.toList ⊆ List.range s.count := by
    intro i hi
    have hmem : i ∈ s.keys := by simpa using hi
    exact List.mem_range.2 (lt_count_of_exists? (hs.mem_keys_iff.1 hmem))
  have := (hs.nodup_keys.subperm hsub).length_le
  rwa [hs.existing_eq, ← Array.length_toList, ← List.length_range (n := s.count)]

end Sound

theorem sound_new (count : Nat) (marks : Config.Watermarks) : (new count marks).Sound where
  size_populations := by simp [new, Lifecycle.count]
  size_positions := by simp [new, Lifecycle.count]
  position?_eq_some_iff i p := by
    simp only [new, position?, Array.getD_eq_getD_getElem?, Array.getElem?_replicate]
    split <;> simp
  exists?_eq i := by
    simp only [new, exists?, position?, Array.getD_eq_getD_getElem?, Array.getElem?_replicate]
    split <;> rfl
  population_eq_zero i _ := by
    simp only [new, population, Array.getD_eq_getD_getElem?, Array.getElem?_replicate]
    split <;> rfl
  population_le i := by
    simp only [new, population, Array.getD_eq_getD_getElem?, Array.getElem?_replicate]
    split <;> simp
  existing_eq := rfl

/-! ## What the operations do to the records -/

section Records

variable (s : Lifecycle) (i j : Nat)

@[simp]
theorem count_insert : (s.insert i).count = s.count := by simp [insert, count]

@[simp]
theorem count_removeAt (position victim : Nat) : (s.removeAt position victim).count = s.count := by
  simp [removeAt, count]

@[simp]
theorem count_adjust (change : Nat → Nat) : (s.adjust i change).count = s.count := by
  rw [adjust]
  split <;> rfl

@[simp]
theorem watermarks_adjust (change : Nat → Nat) : (s.adjust i change).watermarks = s.watermarks := by
  rw [adjust]
  split <;> rfl

@[simp]
theorem existing_adjust (change : Nat → Nat) : (s.adjust i change).existing = s.existing := by
  rw [adjust]
  split <;> rfl

theorem exists?_insert (hi : i < s.count) :
    (s.insert i).exists? j = if i = j then true else s.exists? j := by
  simp only [insert, exists?, Array.getD_eq_getD_getElem?, Array.getElem?_setIfInBounds]
  split
  · rw [if_pos (by simpa [count] using hi), Option.getD_some]
  · rfl

theorem population_insert : (s.insert i).population j = if i = j then 0 else s.population j := by
  simp only [insert, population, Array.getD_eq_getD_getElem?, Array.getElem?_setIfInBounds]
  split
  · split <;> rfl
  · rfl

theorem position?_insert (hi : i < s.positions.size) :
    (s.insert i).position? j = if i = j then some s.keys.size else s.position? j := by
  simp only [insert, position?, Array.getD_eq_getD_getElem?, Array.getElem?_setIfInBounds, hi,
    if_true]
  split <;> rfl

theorem exists?_removeAt (position : Nat) :
    (s.removeAt position i).exists? j = if i = j then false else s.exists? j := by
  simp only [removeAt, exists?, Array.getD_eq_getD_getElem?, Array.getElem?_setIfInBounds]
  split
  · split <;> rfl
  · rfl

theorem population_removeAt (position : Nat) :
    (s.removeAt position i).population j = if i = j then 0 else s.population j := by
  simp only [removeAt, population, Array.getD_eq_getD_getElem?, Array.getElem?_setIfInBounds]
  split
  · split <;> rfl
  · rfl

theorem exists?_adjust (change : Nat → Nat) : (s.adjust i change).exists? j = s.exists? j := by
  rw [adjust]
  split <;> rfl

theorem population_adjust (change : Nat → Nat) (hs : s.Sound) :
    (s.adjust i change).population j =
      if i = j ∧ s.exists? j = true then change (s.population j) else s.population j := by
  rw [adjust]
  split
  · next hi =>
    have hlt : i < s.populations.size := by
      rw [hs.size_populations]
      exact lt_count_of_exists? hi
    simp only [population, Array.getD_eq_getD_getElem?, Array.getElem?_modify]
    by_cases h : i = j
    · subst h
      simp [hi, Array.getElem?_eq_getElem hlt]
    · simp [h]
  · next hi =>
    rw [if_neg]
    rintro ⟨rfl, h⟩
    exact hi h

theorem keys_removeAt {position victim last p : Nat}
    (hlast : s.keys[s.keys.size - 1]? = some last) :
    (s.removeAt position victim).keys[p]? =
      if p < s.keys.size - 1 then if position = p then some last else s.keys[p]? else none := by
  simp only [removeAt, Array.getD_eq_getD_getElem?, hlast, Option.getD_some, Array.getElem?_pop,
    Array.size_setIfInBounds, Array.getElem?_setIfInBounds]
  split
  · next hp =>
    split
    · next h => rw [if_pos (by omega)]
    · rfl
  · rfl

theorem position?_removeAt {position victim last : Nat}
    (hlast : s.keys[s.keys.size - 1]? = some last) (hlt : last < s.positions.size) :
    (s.removeAt position victim).position? j =
      if victim = j then none
      else if last = j ∧ position < s.keys.size - 1 then some position else s.position? j := by
  simp only [removeAt, position?, Array.getD_eq_getD_getElem?, hlast, Option.getD_some,
    Array.size_pop, Array.size_setIfInBounds, Array.getElem?_setIfInBounds]
  by_cases hv : victim = j
  · rw [if_pos hv, if_pos hv]
    split <;> split <;> rfl
  · by_cases hp : position < s.keys.size - 1
    · by_cases hl : last = j
      · subst hl
        simp [hv, hp, hlt]
      · simp [hv, hp, hl]
    · simp [hv, hp]

end Records

/-! ## Soundness is kept -/

namespace Sound

variable {s : Lifecycle} (hs : s.Sound)

include hs

theorem insert {i : Nat} (hi : i < s.count) (habsent : s.exists? i = false) :
    (s.insert i).Sound where
  size_populations := by simpa [Lifecycle.insert, count] using hs.size_populations
  size_positions := by simpa [Lifecycle.insert, count] using hs.size_positions
  position?_eq_some_iff j p := by
    rw [position?_insert s i j (hs.size_positions ▸ hi)]
    simp only [Lifecycle.insert, Array.getElem?_push]
    have hj := hs.position?_eq_some_iff j
    have hi := hs.position?_eq_none habsent
    -- the new key has no position yet, and the new position no key
    have hsize : s.position? j ≠ some s.keys.size := by
      rw [ne_eq, hj, Array.getElem?_eq_none (Nat.le_refl _)]
      exact nofun
    grind
  exists?_eq j := by
    rw [exists?_insert s i j hi, position?_insert s i j (hs.size_positions ▸ hi), hs.exists?_eq]
    split <;> rfl
  population_eq_zero j h := by
    rw [exists?_insert s i j hi] at h
    rw [population_insert]
    split
    · rfl
    · next hne => exact hs.population_eq_zero j (by simpa [hne] using h)
  population_le j := by
    rw [population_insert]
    split
    · exact Nat.zero_le _
    · exact hs.population_le j
  existing_eq := by simp [Lifecycle.insert, hs.existing_eq]

theorem removeAt {position victim : Nat} (hv : s.keys[position]? = some victim) :
    (s.removeAt position victim).Sound := by
  have hpos : position < s.keys.size := by
    by_contra h
    rw [Array.getElem?_eq_none (by omega)] at hv
    cases hv
  obtain ⟨last, hlast⟩ : ∃ last, s.keys[s.keys.size - 1]? = some last :=
    ⟨_, Array.getElem?_eq_getElem (by omega)⟩
  have hlt : last < s.positions.size := by
    rw [hs.size_positions]
    exact lt_count_of_exists? (hs.exists?_of_listed hlast)
  exact
  { size_populations := by simpa [Lifecycle.removeAt, count] using hs.size_populations
    size_positions := by
      have := hs.size_positions
      simp only [Lifecycle.removeAt, count, Array.size_setIfInBounds] at this ⊢
      split <;> simpa using this
    position?_eq_some_iff := fun j p => by
      rw [position?_removeAt s j hlast hlt, keys_removeAt s hlast]
      have hj := hs.position?_eq_some_iff j p
      have inj : ∀ {i q r}, s.keys[q]? = some i → s.keys[r]? = some i → q = r := hs.listed_inj
      have hbound : ∀ i, s.keys[p]? = some i → p < s.keys.size := fun i h => by
        by_contra hp
        rw [Array.getElem?_eq_none (by omega)] at h
        cases h
      grind
    exists?_eq := fun j => by
      rw [exists?_removeAt, position?_removeAt s j hlast hlt, hs.exists?_eq]
      have := (hs.position?_eq_some_iff last _).2 hlast
      grind
    population_eq_zero := fun j h => by
      rw [exists?_removeAt] at h
      rw [population_removeAt]
      split
      · rfl
      · next hne => exact hs.population_eq_zero j (by simpa [hne] using h)
    population_le := fun j => by
      rw [population_removeAt]
      split
      · exact Nat.zero_le _
      · exact hs.population_le j
    existing_eq := by simp [Lifecycle.removeAt, hs.existing_eq] }

theorem adjust {i : Nat} {change : Nat → Nat}
    (hchange : ∀ n ≤ maxPopulation, change n ≤ maxPopulation) : (s.adjust i change).Sound := by
  have hplace : ∀ j, (s.adjust i change).position? j = s.position? j := fun j => by
    rw [Lifecycle.adjust]
    split <;> rfl
  have hkeys : (s.adjust i change).keys = s.keys := by
    rw [Lifecycle.adjust]
    split <;> rfl
  exact
  { size_populations := by
      have := hs.size_populations
      rw [count_adjust, Lifecycle.adjust]
      split <;> simpa using this
    size_positions := by
      have := hs.size_positions
      rw [count_adjust, Lifecycle.adjust]
      split <;> simpa using this
    position?_eq_some_iff := fun j p => by
      rw [hplace, hkeys, hs.position?_eq_some_iff]
    exists?_eq := fun j => by rw [exists?_adjust, hplace, hs.exists?_eq]
    population_eq_zero := fun j h => by
      rw [exists?_adjust] at h
      rw [population_adjust s i j change hs, if_neg (by simp [h]), hs.population_eq_zero j h]
    population_le := fun j => by
      rw [population_adjust s i j change hs]
      split
      · exact hchange _ (hs.population_le j)
      · exact hs.population_le j
    existing_eq := by rw [hkeys, existing_adjust, hs.existing_eq] }

end Sound

/-! ## Creates and deletes -/

theorem lt_of_mem_probes {count index i : Nat} (h : i ∈ probes count index) : i < count := by
  simp only [probes, List.mem_map, List.mem_range] at h
  obtain ⟨probe, hprobe, rfl⟩ := h
  exact Nat.mod_lt _ (by omega)

/-- All that a create can come to. -/
inductive Created (s : Lifecycle) (index : Nat) : Transition → Lifecycle → Prop
  | suppressed (hfull : s.watermarks.high ≤ s.existing) : Created s index .suppressed s
  | noCandidate (hroom : s.existing < s.watermarks.high)
      (htaken : ∀ i ∈ probes s.count index, s.exists? i = true) : Created s index .noCandidate s
  | claimed (hroom : s.existing < s.watermarks.high) {i : Nat}
      (hfound : (probes s.count index).find? (!s.exists? ·) = some i) (hlt : i < s.count)
      (habsent : s.exists? i = false) : Created s index (.claimed i) (s.insert i)

/-- All that a delete can come to. -/
inductive Deleted (s : Lifecycle) : Transition → Lifecycle → Prop
  | suppressed (hfew : s.existing ≤ s.watermarks.low) : Deleted s .suppressed s
  | claimed (hmany : s.watermarks.low < s.existing) {position victim : Nat}
      (hlisted : s.keys[position]? = some victim) :
      Deleted s (.claimed victim) (s.removeAt position victim)

namespace Sound

variable {s s' : Lifecycle} (hs : s.Sound)

include hs

/-- **A create has a result.** -/
theorem tryCreate_spec (index : Nat) :
    ∃ t s', s.tryCreate index = .ok (t, s') ∧ s.Created index t s' := by
  rw [tryCreate]
  split
  · next h => exact ⟨_, _, rfl, .suppressed h⟩
  · next h =>
    split
    · next hnone =>
      refine ⟨_, _, rfl, .noCandidate (by omega) fun i hi => ?_⟩
      simpa using List.find?_eq_none.1 hnone i hi
    · next i hsome =>
      have habsent : s.exists? i = false := by simpa using List.find?_some hsome
      have hlt := lt_of_mem_probes (List.mem_of_find?_eq_some hsome)
      have hplace : s.positions.getD i none = none := hs.position?_eq_none habsent
      rw [hplace]
      exact ⟨_, _, rfl, .claimed (by omega) hsome hlt habsent⟩

/-- **A delete has a result.** -/
theorem tryDelete_spec (source : Random.Source) :
    ∃ t s' source', s.tryDelete source = .ok (t, s', source') ∧ s.Deleted t s' := by
  rw [tryDelete]
  split
  · next h => exact ⟨_, _, _, rfl, .suppressed h⟩
  · next h =>
    have hpos : 0 < s.keys.size := by
      rw [← hs.existing_eq]
      omega
    rw [if_neg (by simp [hs.existing_eq]), if_neg (by omega)]
    have hlt := Random.Source.position_lt hpos source
    generalize source.position s.keys.size = drawn at hlt ⊢
    obtain ⟨position, rest⟩ := drawn
    refine ⟨_, _, _, rfl, .claimed (by omega) ?_⟩
    rw [Array.getD_eq_getD_getElem?, Array.getElem?_eq_getElem hlt, Option.getD_some]

theorem created {index : Nat} {t : Transition} (h : s.Created index t s') : s'.Sound := by
  cases h with
  | suppressed => exact hs
  | noCandidate => exact hs
  | claimed _ _ hlt habsent => exact hs.insert hlt habsent

theorem deleted {t : Transition} (h : s.Deleted t s') : s'.Sound := by
  cases h with
  | suppressed => exact hs
  | claimed _ hlisted => exact hs.removeAt hlisted

end Sound

end LoadGen.Workload.Lifecycle
