import LoadGen.Proofs.Lifecycle.Calls
import Mathlib.Data.Set.Card

/-!
# A lifecycle store keeps a census

A census is a partial map: which structures exist, and how many elements each of them has. It says
what a lifecycle store is there to know, and nothing of the five records that the store keeps for it.

`Records s c` says that the records of `s` are those of the census `c`, and `Census.Step` how a call
may change a census. The main statement is `exists_lockstep_new`: any sequence of calls on a fresh
store goes along with steps of a census that begins empty, and after each call the store records the
census.
-/

namespace LoadGen.Workload

/-- The number of elements of each existing structure. -/
abbrev Census := Nat → Option UInt32

namespace Census

/-- No structure exists. -/
def empty : Census := fun _ => none

/-- The population after an adjustment: sums stay at the largest number of 32 bits, and differences
at zero. -/
def adjusted (items population : UInt32) : Lifecycle.Adjustment → UInt32
  | .grow => if population + items < population then 0xffffffff else population + items
  | .shrink => if population < items then 0 else population - items
  | .truncate => if items < population then items else population

/-- How a call may change a census of `count` keys. -/
inductive Step (count : Nat) : Census → Lifecycle.Call → Option Transition → Census → Prop
  /-- A create makes one absent structure exist, without elements. -/
  | created {c : Census} {index i : Nat} (hlt : i < count) (habsent : c i = none) :
      Step count c (.create index) (some (.claimed i)) (Function.update c i (some 0))
  /-- A delete takes one existing structure away. -/
  | deleted {c : Census} {source : Random.Source} {i : Nat} (hexists : (c i).isSome) :
      Step count c (.delete source) (some (.claimed i)) (Function.update c i none)
  /-- A create or a delete that claims nothing changes nothing. -/
  | held {c : Census} {call : Lifecycle.Call} {t : Transition} (h : ∀ i, t ≠ .claimed i) :
      Step count c call (some t) c
  /-- The population of an existing structure is adjusted. -/
  | adjusted {c : Census} {a : Lifecycle.Adjustment} {i : Nat} {items population : UInt32}
      (hexists : c i = some population) :
      Step count c (.adjust a i items) none
        (Function.update c i (some (Census.adjusted items population a)))
  /-- An adjustment of an absent structure changes nothing. -/
  | missed {c : Census} {a : Lifecycle.Adjustment} {i : Nat} {items : UInt32}
      (habsent : c i = none) : Step count c (.adjust a i items) none c

end Census

namespace Lifecycle

/-- The records of a store of `count` keys are those of a census. -/
structure Records (count : Nat) (s : Lifecycle) (c : Census) : Prop where
  exists?_eq : ∀ i, s.exists? i = (c i).isSome
  population_eq : ∀ i, s.population i = ((c i).map UInt32.toNat).getD 0
  /-- The list of keys has the existing ones, -/
  mem_keys_iff : ∀ i, i ∈ s.keys ↔ (c i).isSome
  /-- and each of them once. -/
  nodup_keys : s.keys.toList.Nodup
  position_of_listed : ∀ p (h : p < s.keys.size), s.positions[s.keys[p]]? = some (some p)
  position_of_absent : ∀ i < count, c i = none → s.positions[i]? = some none
  existing_eq : s.existing = {i | (c i).isSome}.ncard
  /-- Only keys of the keyspace exist. -/
  lt_count : ∀ i, (c i).isSome → i < count

/-- `Lockstep count s c calls s' c'`: the calls lead from the store `s` to `s'` without a violation,
and along with that the census goes from `c` to `c'` in steps. Before and after every call the store
records the census. -/
inductive Lockstep (count : Nat) : Lifecycle → Census → List Call → Lifecycle → Census → Prop
  | done {s : Lifecycle} {c : Census} (h : s.Records count c) : Lockstep count s c [] s c
  | call {s s₁ s' : Lifecycle} {c c₁ c' : Census} {call : Call} {calls : List Call}
      {o : Option Transition} (h : s.Records count c) (hp : s.perform call = .ok (o, s₁))
      (hc : Census.Step count c call o c₁) (rest : Lockstep count s₁ c₁ calls s' c') :
      Lockstep count s c (call :: calls) s' c'

/-! ## The census of a sound store -/

/-- The census that a store records. -/
def census (s : Lifecycle) : Census :=
  fun i => if s.exists? i then some (UInt32.ofNat (s.population i)) else none

theorem isSome_census (s : Lifecycle) (i : Nat) : (s.census i).isSome = s.exists? i := by
  rw [census]
  split <;> simp_all

theorem census_eq_none {s : Lifecycle} {i : Nat} : s.census i = none ↔ s.exists? i = false := by
  rw [← isSome_census, Option.isSome_eq_false_iff, Option.isNone_iff_eq_none]

theorem census_new (count : Nat) (marks : Config.Watermarks) : (new count marks).census = .empty := by
  funext i
  rw [census_eq_none.2, Census.empty]
  simp only [new, exists?, Array.getD_eq_getD_getElem?, Array.getElem?_replicate]
  split <;> rfl

/-- A population fits 32 bits. -/
theorem Sound.toNat_population {s : Lifecycle} (hs : s.Sound) (i : Nat) :
    (UInt32.ofNat (s.population i)).toNat = s.population i := by
  have := hs.population_le i
  rw [maxPopulation] at this
  exact UInt32.toNat_ofNat_of_lt' (by simp only [UInt32.size] at this ⊢; omega)

theorem Sound.records {s : Lifecycle} (hs : s.Sound) : s.Records s.count s.census where
  exists?_eq i := (isSome_census s i).symm
  population_eq i := by
    rw [census]
    split
    · exact (hs.toNat_population i).symm
    · next h => exact hs.population_eq_zero i (by simpa using h)
  mem_keys_iff i := by rw [isSome_census, hs.mem_keys_iff]
  nodup_keys := hs.nodup_keys
  position_of_listed p h := by
    have hp := (hs.position?_eq_some_iff s.keys[p] p).2 (Array.getElem?_eq_getElem h)
    have hlt : s.keys[p] < s.positions.size := by
      rw [hs.size_positions]
      exact lt_count_of_exists? (hs.mem_keys_iff.1 (Array.getElem_mem h))
    rwa [position?, Array.getD_eq_getD_getElem?, Array.getElem?_eq_getElem hlt, Option.getD_some,
      ← Option.some_inj, ← Array.getElem?_eq_getElem hlt] at hp
  position_of_absent i hlt h := by
    have hp := hs.position?_eq_none (census_eq_none.1 h)
    have hlt : i < s.positions.size := hs.size_positions ▸ hlt
    rwa [position?, Array.getD_eq_getD_getElem?, Array.getElem?_eq_getElem hlt, Option.getD_some,
      ← Option.some_inj, ← Array.getElem?_eq_getElem hlt] at hp
  existing_eq := by
    have hset : {i | (s.census i).isSome} = ((s.keys.toList.toFinset : Finset Nat) : Set Nat) := by
      ext i
      simp [isSome_census, ← hs.mem_keys_iff]
    rw [hset, Set.ncard_coe_finset, List.toFinset_card_of_nodup hs.nodup_keys, hs.existing_eq,
      Array.length_toList]
  lt_count i h := by
    rw [isSome_census] at h
    exact lt_count_of_exists? h

/-! ## A call is a step of the census -/

theorem census_insert (s : Lifecycle) {i : Nat} (hi : i < s.count) :
    (s.insert i).census = Function.update s.census i (some 0) := by
  funext j
  simp only [census, exists?_insert s i j hi, population_insert, Function.update_apply,
    eq_comm (a := j)]
  split <;> simp_all

theorem census_removeAt (s : Lifecycle) (position i : Nat) :
    (s.removeAt position i).census = Function.update s.census i none := by
  funext j
  simp only [census, exists?_removeAt, population_removeAt, Function.update_apply,
    eq_comm (a := j)]
  split <;> simp_all

/-- On populations of 32 bits an adjustment is that of the census. -/
theorem Adjustment.ofNat_change (a : Adjustment) (items : UInt32) {n : Nat}
    (hn : n ≤ maxPopulation) :
    UInt32.ofNat (a.change items.toNat n) = Census.adjusted items (UInt32.ofNat n) a := by
  rw [maxPopulation] at hn
  have hitems := items.toNat_lt
  have hsize : n < 2 ^ 32 := by simp only [UInt32.size] at hn; omega
  have hnat : (UInt32.ofNat n).toNat = n := UInt32.toNat_ofNat_of_lt' hsize
  apply UInt32.toNat_inj.1
  rw [UInt32.toNat_ofNat_of_lt' (Nat.lt_of_le_of_lt (a.change_le _ n hn) (by decide))]
  cases a with
  | grow =>
    simp only [change, Census.adjusted, maxPopulation, UInt32.size, UInt32.lt_iff_toNat_lt,
      UInt32.toNat_add, hnat]
    split
    · rw [show (0xffffffff : UInt32).toNat = 4294967295 from rfl]
      omega
    · rw [UInt32.toNat_add, hnat]
      omega
  | shrink =>
    simp only [change, Census.adjusted, UInt32.lt_iff_toNat_lt, hnat]
    split
    · rw [show (0 : UInt32).toNat = 0 from rfl]
      omega
    · rw [UInt32.toNat_sub_of_le _ _ (by rw [UInt32.le_iff_toNat_le, hnat]; omega), hnat]
  | truncate =>
    simp only [change, Census.adjusted, UInt32.lt_iff_toNat_lt, hnat]
    split <;> omega

theorem Sound.census_adjust {s : Lifecycle} (hs : s.Sound) (a : Adjustment) {i : Nat}
    (items : UInt32) (hi : s.exists? i = true) :
    (s.adjust i (a.change items.toNat)).census = Function.update s.census i
      (some (Census.adjusted items (UInt32.ofNat (s.population i)) a)) := by
  funext j
  simp only [census, exists?_adjust, population_adjust s i j _ hs, Function.update_apply,
    eq_comm (a := j)]
  by_cases h : i = j
  · subst h
    simp [hi, a.ofNat_change items (hs.population_le i)]
  · simp [h]

theorem Performed.census_step {s s' : Lifecycle} {call : Call} {o : Option Transition}
    (h : s.Performed call o s') (hs : s.Sound) :
    Census.Step s.count s.census call o s'.census := by
  cases h with
  | create h =>
    cases h with
    | suppressed => exact .held nofun
    | noCandidate => exact .held nofun
    | claimed _ _ hlt habsent =>
      rw [census_insert s hlt]
      exact .created hlt (census_eq_none.2 habsent)
  | delete h =>
    cases h with
    | suppressed => exact .held nofun
    | claimed _ hlisted =>
      rw [census_removeAt]
      exact .deleted (by rw [isSome_census, hs.exists?_of_listed hlisted])
  | adjust a i items =>
    by_cases hi : s.exists? i = true
    · rw [hs.census_adjust a items hi]
      exact .adjusted (by rw [census, if_pos hi])
    · rw [show s.adjust i (a.change items.toNat) = s by rw [Lifecycle.adjust, if_neg hi]]
      exact .missed (census_eq_none.2 (by simpa using hi))

/-! ## Sequences of calls -/

theorem Sound.exists_lockstep {s : Lifecycle} (hs : s.Sound) (calls : List Call) :
    ∃ s', Lockstep s.count s s.census calls s' s'.census := by
  induction calls generalizing s with
  | nil => exact ⟨s, .done hs.records⟩
  | cons call calls ih =>
    obtain ⟨o, s₁, hp, hperf⟩ := hs.perform_spec call
    obtain ⟨s', hrest⟩ := ih (hs.performed hperf)
    rw [hperf.frame.1] at hrest
    exact ⟨s', .call hs.records hp (hperf.census_step hs) hrest⟩

/-- **A lifecycle store keeps a census**: whatever calls are made on a fresh store, in whatever
order the workers make them, none ends in a violation, the records of the store remain those of a
census that was empty at first, and the census changes only as a step of a census may. -/
theorem exists_lockstep_new (count : Nat) (marks : Config.Watermarks) (calls : List Call) :
    ∃ s c, Lockstep count (new count marks) .empty calls s c := by
  obtain ⟨s, h⟩ := (sound_new count marks).exists_lockstep calls
  rw [census_new, show (new count marks).count = count by simp [new, Lifecycle.count]] at h
  exact ⟨s, _, h⟩

end Lifecycle

end LoadGen.Workload
