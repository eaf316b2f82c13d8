import LoadGen.Proofs.Config.Exact
import LoadGen.Proofs.Keys.Identity

/-!
# Key capacities in words of 128 bits

Whether an alphabet has enough keys is a question about a power, and in words of 128 bits a power
may not fit. It is computed by squaring and given up as soon as a product does not fit
(`Alphabet.power128?`), and an exponent of more than 32 bits is not even tried; both count as enough
keys (`Alphabet.holds128`). For fewer than `2 ^ 128` keys this is the right answer, and the one that
`Alphabet.holds` gives (`holds128_iff`, `holds_eq_holds128`). So in an accepted configuration the
one alphabet of all keyspaces is the printable one exactly if that has keys for each of them, and in
either case there is a key for every structure (`capacity_exact`).
-/

namespace LoadGen.Keys

/-! ## Powers in words -/

/-- A number that has to fit a word of 128 bits. -/
def word128? (n : Nat) : Option Nat := if n < 2 ^ 128 then some n else none

/-- `acc` with the base as a further factor if the exponent is odd. -/
def takeOdd (acc base exponent : Nat) : Nat := if exponent % 2 = 1 then acc * base else acc

/-- The same, if it fits. -/
def takeOdd128? (acc base exponent : Nat) : Option Nat :=
  if exponent % 2 = 1 then word128? (acc * base) else some acc

/-- `acc` times a power, for a positive exponent: the base is squared while the exponent is halved,
and `acc` takes up the base wherever the exponent is odd. -/
def powerOnto128? (acc base exponent : Nat) : Option Nat :=
  if exponent ≤ 1 then word128? (acc * base)
  else do
    let acc ← takeOdd128? acc base exponent
    let square ← word128? (base * base)
    powerOnto128? acc square (exponent / 2)
termination_by exponent

/-- A power, if it fits. -/
def power128? (base exponent : Nat) : Option Nat :=
  if exponent = 0 then some 1 else powerOnto128? 1 base exponent

theorem word128?_of_lt {n : Nat} (h : n < 2 ^ 128) : word128? n = some n := if_pos h

theorem word128?_of_le {n : Nat} (h : 2 ^ 128 ≤ n) : word128? n = none := if_neg h.not_gt

/-- A factor that does not fit decides that the product does not fit either. -/
theorem word128?_bind {m n : Nat} {f : Nat → Option Nat} (hle : m ≤ n)
    (hf : m < 2 ^ 128 → f m = word128? n) : (word128? m >>= f) = word128? n := by
  rcases Nat.lt_or_ge m (2 ^ 128) with hfits | hover
  · rw [word128?_of_lt hfits]
    exact hf hfits
  · rw [word128?_of_le hover, word128?_of_le (hover.trans hle)]
    rfl

theorem takeOdd128?_eq {acc : Nat} (hfits : acc < 2 ^ 128) (base exponent : Nat) :
    takeOdd128? acc base exponent = word128? (takeOdd acc base exponent) := by
  rw [takeOdd128?, takeOdd]
  split
  · rfl
  · exact (word128?_of_lt hfits).symm

theorem takeOdd_pos {acc base : Nat} (hacc : 0 < acc) (hbase : 0 < base) (exponent : Nat) :
    0 < takeOdd acc base exponent := by
  rw [takeOdd]
  split
  · exact Nat.mul_pos hacc hbase
  · exact hacc

/-- Halving the exponent and squaring the base keeps the power. -/
theorem takeOdd_mul_pow (acc base exponent : Nat) :
    takeOdd acc base exponent * (base * base) ^ (exponent / 2) = acc * base ^ exponent := by
  have hpower : base ^ exponent = base ^ (exponent % 2) * (base * base) ^ (exponent / 2) := by
    rw [← pow_two, ← pow_mul, ← pow_add, Nat.mod_add_div]
  rw [hpower, takeOdd]
  rcases Nat.mod_two_eq_zero_or_one exponent with heven | hodd
  · rw [heven, if_neg Nat.zero_ne_one, pow_zero, one_mul]
  · rw [hodd, if_pos rfl, pow_one, mul_assoc]

/-- **Squaring gives the power exactly if that fits.** -/
theorem powerOnto128?_eq {acc base exponent : Nat} (hacc : 0 < acc) (hfits : acc < 2 ^ 128)
    (hbase : 0 < base) (hexponent : 0 < exponent) :
    powerOnto128? acc base exponent = word128? (acc * base ^ exponent) := by
  induction exponent using Nat.strong_induction_on generalizing acc base with
  | _ exponent ih =>
    rw [powerOnto128?]
    split
    · next hone =>
      obtain rfl : exponent = 1 := by omega
      rw [pow_one]
    · next hmany =>
      have hhalf : 0 < exponent / 2 := by omega
      have hsquare : 0 < base * base := Nat.mul_pos hbase hbase
      have hpos : 0 < takeOdd acc base exponent := takeOdd_pos hacc hbase exponent
      rw [takeOdd128?_eq hfits, ← takeOdd_mul_pow acc base exponent]
      refine word128?_bind (Nat.le_mul_of_pos_right _ (Nat.pow_pos hsquare)) fun hfits' => ?_
      -- the square is a factor as well, since the exponent is two at least
      have hle : base * base ≤ takeOdd acc base exponent * (base * base) ^ (exponent / 2) :=
        (Nat.le_self_pow hhalf.ne' _).trans (Nat.le_mul_of_pos_left _ hpos)
      exact word128?_bind hle fun _ => ih _ (by omega) hpos hfits' hsquare hhalf

theorem power128?_eq {base : Nat} (hbase : 0 < base) (exponent : Nat) :
    power128? base exponent = word128? (base ^ exponent) := by
  rw [power128?]
  split
  · next hzero => rw [hzero, pow_zero, word128?_of_lt (by decide)]
  · next hpos =>
    rw [powerOnto128?_eq Nat.one_pos (by decide) hbase (Nat.pos_of_ne_zero hpos), one_mul]

/-! ## Capacities in words -/

namespace Alphabet

/-- Whether `length` digits can write `keys` different numbers, in words: a length of more than 32
bits is no exponent, and a power that is not known is larger than any number of keys. -/
def holds128 (a : Alphabet) (length keys : Nat) : Bool :=
  match (word32? length).bind (power128? a.radix) with
  | some capacity => keys ≤ capacity
  | none => true
where
  word32? (n : Nat) : Option Nat := if n < 2 ^ 32 then some n else none

variable {a : Alphabet} {length keys : Nat}

/-- More digits than a word has bits are enough for any number of keys. -/
theorem two_pow_le_radix_pow (a : Alphabet) (h : 128 ≤ length) : 2 ^ 128 ≤ a.radix ^ length :=
  calc 2 ^ 128 ≤ 2 ^ length := Nat.pow_le_pow_right two_pos h
    _ ≤ a.radix ^ length := Nat.pow_le_pow_left a.two_le_radix length

/-- **Capacities are judged exactly**, although powers may not fit. -/
theorem holds128_iff (hkeys : keys < 2 ^ 128) :
    a.holds128 length keys = true ↔ keys ≤ a.radix ^ length := by
  rw [holds128, holds128.word32?]
  rcases Nat.lt_or_ge length (2 ^ 32) with hlength | hlength
  · rw [if_pos hlength, Option.bind_some, power128?_eq (Nat.zero_lt_of_lt a.two_le_radix)]
    rcases Nat.lt_or_ge (a.radix ^ length) (2 ^ 128) with hfits | hover
    · rw [word128?_of_lt hfits]
      exact decide_eq_true_iff
    · rw [word128?_of_le hover]
      exact iff_of_true rfl (hkeys.le.trans hover)
  · rw [if_neg hlength.not_gt, Option.bind_none]
    have hmany : 128 ≤ length := le_trans (by decide) hlength
    exact iff_of_true rfl (hkeys.le.trans (a.two_pow_le_radix_pow hmany))

/-- The answer in words is the one without bounds. -/
theorem holds_eq_holds128 (hkeys : keys < 2 ^ 128) :
    a.holds length keys = a.holds128 length keys := by
  rw [Bool.eq_iff_iff, holds128_iff hkeys]
  exact holds_iff_le_pow

end Alphabet

end LoadGen.Keys

namespace LoadGen.Config

open Keys Weights

variable {R : Type} [Weight R]

/-! ## Alphabets of configurations -/

section Checked

variable {d : Draft R} {c : Config R} (h : Config.ofDraft d = .ok c)

include h

/-- What is asked of the sizes of all keyspaces is asked of those that were written. -/
theorem forall_sizes_iff (P : Nat → Nat → Prop) :
    (∀ kd ∈ d.keyspaces, P kd.length kd.count) ↔
      ∀ k ∈ c.keyspaces.items, P k.length k.count := by
  have hsizes : (∀ x ∈ d.keyspaces.map fun kd => (kd.length, kd.count), P x.1 x.2) ↔
      ∀ x ∈ c.keyspaces.items.map fun k => (k.length, k.count), P x.1 x.2 := by
    rw [sizes_of_ofDraft h]
  rwa [List.forall_mem_map, List.forall_mem_map] at hsizes

/-- The alphabet of all keyspaces is the printable one exactly if that has enough keys. -/
theorem alphabet_eq_printable_iff {k : Keyspace R} (hk : k ∈ c.keyspaces.items) :
    k.alphabet = .printable ↔
      ∀ k' ∈ c.keyspaces.items, k'.count * c.keyspaces.items.length ≤ 62 ^ k'.length := by
  obtain ⟨-, hreads⟩ := (decides_ofDraft d).of_eq_ok c h
  rw [hreads.alphabet_iff k hk, length_items_of_ofDraft h,
    forall_sizes_iff h fun length count => count * d.keyspaces.length ≤ 62 ^ length]

end Checked

/-- **Key capacities are judged exactly.** For any alphabet, any length and fewer than `2 ^ 128`
keys, the answer in words is whether the keys are at most a power, and it is the one that checks go
by. The keys asked about have 128 bits if the numbers of the configuration as written have 64. So
all keyspaces of an accepted configuration use one alphabet: the printable one exactly if the keys
of each of them, times the number of keyspaces, are at most a power of 62, and otherwise the binary
one; and in the alphabet that is used there are enough of them. -/
theorem capacity_exact :
    (∀ (a : Alphabet) (length keys : Nat), keys < 2 ^ 128 →
      (a.holds128 length keys = true ↔ keys ≤ a.radix ^ length) ∧
        a.holds length keys = a.holds128 length keys) ∧
    ∀ (d : Draft R) (c config : Config R) (endpoints : List String), Config.ofDraft d = .ok c →
      c.withEndpoints endpoints = .ok config →
      let ks := config.keyspaces.items
      (d.Fits64 → ∀ k ∈ ks, k.count * ks.length < 2 ^ 128) ∧
        ∃ a : Alphabet, (∀ k ∈ ks, k.alphabet = a) ∧
          (a = .printable ↔ ∀ k ∈ ks, k.count * ks.length ≤ 62 ^ k.length) ∧
          (a = .binary ↔ ¬∀ k ∈ ks, k.count * ks.length ≤ 62 ^ k.length) ∧
          ∀ k ∈ ks, k.count * ks.length ≤ a.radix ^ k.length := by
  refine ⟨fun a length keys hkeys => ?_, fun d c config endpoints hdraft hends => ?_⟩
  · exact ⟨Alphabet.holds128_iff hkeys, Alphabet.holds_eq_holds128 hkeys⟩
  rw [keyspaces_withEndpoints hends]
  have hregular := regular_of_ofDraft hdraft
  have hpos : 0 < c.keyspaces.items.length := Nat.zero_lt_of_lt c.keyspaces.lastPositive_lt
  have hfirst := List.getElem_mem hpos
  refine ⟨fun hd k hk => ?_, c.keyspaces.items[0].alphabet,
    fun k hk => hregular.alphabet_eq k hk _ hfirst, alphabet_eq_printable_iff hdraft hfirst, ?_,
    fun k hk => ?_⟩
  · rw [← hregular.stride_eq k hk]
    exact (keyNumber_lt_of_fits64 hdraft hd hk).1
  · rw [← alphabet_eq_printable_iff hdraft hfirst]
    cases c.keyspaces.items[0].alphabet <;> decide
  · rw [← hregular.stride_eq k hk, ← hregular.alphabet_eq k hk _ hfirst]
    exact (hregular.fits k hk).count_mul_stride_le

/-- The power does not fit for 22 digits, and for 21 it does; and of two keyspaces, one has too many
keys of one byte for the printable alphabet. -/
theorem capacity_exact_short :
    Alphabet.printable.holds128 22 (2 ^ 128 - 1) = true ∧
      Alphabet.printable.holds128 21 (2 ^ 128 - 1) = false ∧
      shortKeys.Fits64 ∧
      (∀ k ∈ shortKeysConfig.keyspaces.items, k.alphabet = .binary) ∧
      ∀ k ∈ shortKeysConfig.keyspaces.items,
        k.count * shortKeysConfig.keyspaces.items.length ≤ 256 ^ k.length := by
  have hchecked : Config.ofDraft shortKeys = .ok shortKeysConfig :=
    eq_ok_of_toOption (Option.some_get _).symm
  obtain ⟨hcapacity, hconfig⟩ := capacity_exact (R := ℚ)
  obtain ⟨-, a, halphabet, -, hbinary, hfits⟩ := hconfig shortKeys _ _ [] hchecked rfl
  obtain rfl : a = .binary := hbinary.2 (by decide +kernel)
  have hkeys : 2 ^ 128 - 1 < 2 ^ 128 := by decide
  refine ⟨((hcapacity .printable 22 _ hkeys).1).2 (by decide), ?_, ⟨by decide, by decide⟩,
    halphabet, hfits⟩
  exact Bool.eq_false_iff.2 fun h => absurd (((hcapacity .printable 21 _ hkeys).1).1 h) (by decide)

end LoadGen.Config
