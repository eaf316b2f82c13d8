import LoadGen.Proofs.Config.Accepted
import LoadGen.Proofs.Weights.Exact

/-!
# Keys identify structures

Of a configuration that passes its checks, every key tells which structure it belongs to: read as a
number in the alphabet of the run, it is the index of the structure times the number of keyspaces,
plus the position of the keyspace. The check of the key length makes room for all of these numbers,
so no digit is lost when one is written (`leftover_keyNumber`), and numbers of 128 bits suffice for
them (`keyNumber_lt_of_fits64`). The main statement is `keys_identify`.
-/

namespace LoadGen.Keys

/-- What is left of a number once as many of its last digits are written. -/
def leftover (radix : Nat) : Nat → Nat → Nat
  | 0, n => n
  | length + 1, n => leftover radix length (n / radix)

theorem leftover_eq_div (radix length n : Nat) : leftover radix length n = n / radix ^ length := by
  induction length generalizing n with
  | zero => simp [leftover]
  | succ length ih => rw [leftover, ih, Nat.div_div_eq_div_mul, Nat.pow_succ']

end LoadGen.Keys

namespace LoadGen.Config

open Keys Weights

variable {R : Type}

theorem Keyspace.Fits.leftover_keyNumber {k : Keyspace R} {i : Nat} (h : k.Fits)
    (hi : i < k.count) : leftover k.alphabet.radix k.length (k.keyNumber i) = 0 := by
  rw [leftover_eq_div, Nat.div_eq_of_lt (h.keyNumber_lt hi)]

/-! ## Keyspaces and their drafts -/

/-- The numbers of a draft are machine words: counts are below `2 ^ 64`, and so is the number of
keyspaces. -/
structure Draft.Fits64 (d : Draft R) : Prop where
  count_lt : ∀ k ∈ d.keyspaces, k.count < 2 ^ 64
  keyspaces_lt : d.keyspaces.length < 2 ^ 64

variable [Weight R]

/-- Checks change neither key lengths nor counts. -/
theorem sizes_of_checkKeyspaces {stride ordinal : Nat} {ds : List (KeyspaceDraft R)}
    {ks : List (Keyspace R)} (h : checkKeyspaces stride ordinal ds = .ok ks) :
    ks.map (fun k => (k.length, k.count)) = ds.map fun d => (d.length, d.count) := by
  induction ds generalizing ordinal ks with
  | nil =>
    cases h
    rfl
  | cons d ds ih =>
    rw [checkKeyspaces] at h
    obtain ⟨k, hk, h⟩ := bind_eq_ok.1 h
    obtain ⟨rest, hrest, h⟩ := bind_eq_ok.1 h
    cases h
    obtain ⟨-, -, -, -, commands, marks, table, values, -, -, -, rfl, -⟩ :=
      of_checkKeyspace_eq_ok hk
    simp [ih hrest]

theorem sizes_of_ofDraft {d : Draft R} {c : Config R} (h : Config.ofDraft d = .ok c) :
    c.keyspaces.items.map (fun k => (k.length, k.count)) =
      d.keyspaces.map fun d => (d.length, d.count) := by
  obtain ⟨ks, hks, hitems⟩ := exists_of_ofDraft h
  rw [hitems, ← sizes_of_checkKeyspaces hks, chooseAlphabet]
  split
  · rfl
  · simp

section Checked

variable {d : Draft R} {c : Config R} (h : Config.ofDraft d = .ok c)

include h

theorem length_items_of_ofDraft : c.keyspaces.items.length = d.keyspaces.length := by
  simpa using congrArg List.length (sizes_of_ofDraft h)

/-- The draft of a keyspace. -/
theorem exists_draft_of_items {p : Nat} {k : Keyspace R} (hk : c.keyspaces.items[p]? = some k) :
    ∃ kd, d.keyspaces[p]? = some kd ∧ k.length = kd.length ∧ k.count = kd.count := by
  have hsizes : (d.keyspaces[p]?).map (fun d => (d.length, d.count)) = some (k.length, k.count) := by
    rw [← List.getElem?_map, ← sizes_of_ofDraft h, List.getElem?_map, hk, Option.map_some]
  obtain ⟨kd, hkd, heq⟩ := Option.map_eq_some_iff.1 hsizes
  simp only [Prod.mk.injEq] at heq
  exact ⟨kd, hkd, heq.1.symm, heq.2.symm⟩

/-- In machine words the numbers of all keys, and their count, fit 128 bits. -/
theorem keyNumber_lt_of_fits64 (hd : d.Fits64) {k : Keyspace R} (hk : k ∈ c.keyspaces.items) :
    k.count * k.stride < 2 ^ 128 ∧ ∀ i < k.count, k.keyNumber i < 2 ^ 128 := by
  have hregular := regular_of_ofDraft h
  obtain ⟨p, hp, hget⟩ := List.mem_iff_getElem.1 hk
  obtain ⟨kd, hkd, -, hcount⟩ :=
    exists_draft_of_items h ((List.getElem?_eq_getElem hp).trans (congrArg some hget))
  have hcount64 : k.count ≤ 2 ^ 64 - 1 := by
    have := hd.count_lt kd (List.mem_of_getElem? hkd)
    omega
  have hstride64 : k.stride ≤ 2 ^ 64 - 1 := by
    have := hd.keyspaces_lt
    rw [hregular.stride_eq k hk, length_items_of_ofDraft h]
    omega
  have hslots : k.count * k.stride < 2 ^ 128 :=
    Nat.lt_of_le_of_lt (Nat.mul_le_mul hcount64 hstride64) (by decide)
  refine ⟨hslots, fun i hi => ?_⟩
  have hnext : (i + 1) * k.stride ≤ k.count * k.stride := Nat.mul_le_mul_right _ hi
  have hordinal := (hregular.fits k hk).ordinal_lt
  rw [Nat.succ_mul] at hnext
  rw [Keyspace.keyNumber]
  omega

/-- **Keys identify structures.** In a configuration that passes its checks all keyspaces use one
alphabet, and every key has the length that was asked for. Its number is read back from it without
a digit being lost: the remainder by the number of keyspaces is the position of the keyspace, and
the quotient the index of the structure. So the keys of different structures differ, in one keyspace
or in two. If the numbers of the draft are of 64 bits, those of the keys are of 128. -/
theorem keys_identify :
    ∃ a : Alphabet, c.keyspaces.items.length = d.keyspaces.length ∧
      (∀ (p : Nat) (k : Keyspace R), c.keyspaces.items[p]? = some k →
        k.alphabet = a ∧ k.ordinal = p ∧ k.stride = d.keyspaces.length ∧
        ∃ kd, d.keyspaces[p]? = some kd ∧ k.count = kd.count ∧ ∀ i < k.count,
          (k.key i).length = kd.length ∧
          a.number (k.key i) % k.stride = k.ordinal ∧ a.number (k.key i) / k.stride = i ∧
          leftover a.radix k.length (k.keyNumber i) = 0) ∧
      (∀ (p p' : Nat) (k k' : Keyspace R), c.keyspaces.items[p]? = some k →
        c.keyspaces.items[p']? = some k' → ∀ i < k.count, ∀ i' < k'.count,
          p ≠ p' ∨ i ≠ i' → k.key i ≠ k'.key i') ∧
      (d.Fits64 → ∀ k ∈ c.keyspaces.items, ∀ i < k.count, k.keyNumber i < 2 ^ 128) := by
  have hregular := regular_of_ofDraft h
  have hlength := length_items_of_ofDraft h
  obtain ⟨a, ha⟩ : ∃ a : Alphabet, ∀ k ∈ c.keyspaces.items, k.alphabet = a := by
    have hpos : 0 < c.keyspaces.items.length :=
      Nat.zero_lt_of_lt c.keyspaces.lastPositive_lt
    exact ⟨_, fun k hk => hregular.alphabet_eq k hk _ (List.getElem_mem hpos)⟩
  refine ⟨a, hlength, fun p k hk => ?_, fun p p' k k' hk hk' i hi i' hi' hne heq => ?_,
    fun hd k hk => (keyNumber_lt_of_fits64 h hd hk).2⟩
  · have hmem := List.mem_of_getElem? hk
    have hfits := hregular.fits k hmem
    obtain ⟨kd, hkd, hlen, hcount⟩ := exists_draft_of_items h hk
    refine ⟨ha k hmem, hregular.ordinal_eq p k hk, (hregular.stride_eq k hmem).trans hlength, kd,
      hkd, hcount, fun i hi => ?_⟩
    have hnumber : a.number (k.key i) = k.keyNumber i := ha k hmem ▸ hfits.number_key hi
    refine ⟨(k.length_key i).trans hlen, ?_, ?_, ha k hmem ▸ hfits.leftover_keyNumber hi⟩
    · rw [hnumber, hfits.keyNumber_mod]
    · rw [hnumber, hfits.keyNumber_div]
  · have hmem := List.mem_of_getElem? hk
    have hmem' := List.mem_of_getElem? hk'
    obtain ⟨hordinal, hindex⟩ := (hregular.fits k hmem).key_inj (hregular.fits k' hmem')
      (hregular.alphabet_eq k hmem k' hmem')
      ((hregular.stride_eq k hmem).trans (hregular.stride_eq k' hmem').symm) hi hi' heq
    rw [hregular.ordinal_eq p k hk, hregular.ordinal_eq p' k' hk'] at hordinal
    exact hne.elim (· hordinal) (· hindex)

end Checked

/-- Two keyspaces, the first of which has too many keys of one byte for the printable alphabet. -/
def shortKeys : Draft ℚ where
  general :=
    { protocol := "rds"
      interval := 1
      windows := 1
      clients := 1
      poolsize := 1
      requestTimeout := 1000
      connectTimeout := 1000 }
  keyspaces :=
    [{ length := 1, count := 100, weight := 1, commands := [{ action := "len", weight := 1 }] },
      { length := 4, count := 10, weight := 1, commands := [{ action := "get", weight := 1 }] }]

def shortKeysConfig : Config ℚ := .checked shortKeys (by decide +kernel)

theorem keys_identify_short :
    shortKeysConfig.keyspaces.items.map (fun k => (k.alphabet, k.key 1, k.key 9)) =
      [(.binary, [2], [18]), (.binary, [0, 0, 0, 3], [0, 0, 0, 19])] ∧
    (∀ (p p' : Nat) (k k' : Keyspace ℚ), shortKeysConfig.keyspaces.items[p]? = some k →
      shortKeysConfig.keyspaces.items[p']? = some k' → ∀ i < k.count, ∀ i' < k'.count,
        p ≠ p' ∨ i ≠ i' → k.key i ≠ k'.key i') ∧
    ∀ k ∈ shortKeysConfig.keyspaces.items, ∀ i < k.count, k.keyNumber i < 2 ^ 128 := by
  have hchecked : Config.ofDraft shortKeys = .ok shortKeysConfig :=
    eq_ok_of_toOption (Option.some_get _).symm
  have hwords : shortKeys.Fits64 := ⟨by decide, by decide⟩
  obtain ⟨a, -, -, hdiffer, hfit⟩ := keys_identify hchecked
  exact ⟨by decide +kernel, hdiffer, hfit hwords⟩

end LoadGen.Config
