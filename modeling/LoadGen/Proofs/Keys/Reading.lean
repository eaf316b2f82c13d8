import LoadGen.Keys.Key
import Mathlib.Algebra.Group.Nat.Defs

/-!
# Reading keys

A key is a number in the digits of an alphabet, and `Keys.number` reads it back: the number that was
written, if it has at most as many digits as the key is long (`number_key`). From the number the
keyspace and the index follow, so that keys of different structures differ (`key_inj`), also across
keyspaces, which share one alphabet and are interleaved.
-/

namespace LoadGen.Keys

/-! ## Digits -/

theorem digitsOnto_eq (radix : Nat) (length n : Nat) (done : List Nat) :
    digitsOnto radix length n done = digits radix length n ++ done := by
  induction length generalizing n done with
  | zero => rfl
  | succ length ih =>
    rw [digits, digitsOnto, digitsOnto, ih, ih _ [n % radix], List.append_assoc,
      List.singleton_append]

theorem digits_succ (radix length n : Nat) :
    digits radix (length + 1) n = digits radix length (n / radix) ++ [n % radix] := by
  rw [digits, digitsOnto, digitsOnto_eq]

@[simp]
theorem length_digits (radix length n : Nat) : (digits radix length n).length = length := by
  induction length generalizing n with
  | zero => rfl
  | succ length ih => rw [digits_succ, List.length_append, ih, List.length_singleton]

theorem lt_of_mem_digits {radix length n d : Nat} (hr : 0 < radix)
    (hd : d ∈ digits radix length n) : d < radix := by
  induction length generalizing n with
  | zero => cases hd
  | succ length ih =>
    rw [digits_succ, List.mem_append, List.mem_singleton] at hd
    rcases hd with hd | rfl
    · exact ih hd
    · exact Nat.mod_lt _ hr

/-- The number with the given digits, most significant first. -/
def ofDigits (radix : Nat) (ds : List Nat) : Nat :=
  ds.foldl (fun n d => n * radix + d) 0

theorem ofDigits_concat (radix : Nat) (ds : List Nat) (d : Nat) :
    ofDigits radix (ds ++ [d]) = ofDigits radix ds * radix + d := by
  rw [ofDigits, List.foldl_append]
  rfl

/-- The last digits of a number are those of its remainder. -/
theorem ofDigits_digits (radix length n : Nat) :
    ofDigits radix (digits radix length n) = n % radix ^ length := by
  induction length generalizing n with
  | zero => rw [Nat.pow_zero, Nat.mod_one]; rfl
  | succ length ih =>
    rw [digits_succ, ofDigits_concat, ih, Nat.pow_succ', Nat.mod_mul, Nat.mul_comm]
    omega

namespace Alphabet

/-- The digit that a byte stands for. -/
def value : Alphabet → UInt8 → Nat
  | printable, b =>
    if b < 0x3a then b.toNat - 0x30
    else if b < 0x5b then b.toNat - 0x41 + 10
    else b.toNat - 0x61 + 36
  | binary, b => b.toNat

theorem value_digit (a : Alphabet) {n : Nat} (hn : n < a.radix) : a.value (a.digit n) = n := by
  cases a with
  | printable =>
    have h : ∀ n : Fin 62, printable.value (printable.digit n) = n := by decide +kernel
    exact h ⟨n, hn⟩
  | binary => exact Nat.mod_eq_of_lt hn

/-- The number that a key stands for. -/
def number (a : Alphabet) (key : List UInt8) : Nat :=
  ofDigits a.radix (key.map a.value)

end Alphabet

end LoadGen.Keys

namespace LoadGen.Config.Keyspace

variable {R : Type}

@[simp]
theorem length_key (k : Keyspace R) (index : Nat) : (k.key index).length = k.length := by
  simp [key]

/-- A key is read back modulo the number of keys of its length. -/
theorem number_key_mod (k : Keyspace R) (index : Nat) :
    k.alphabet.number (k.key index) = k.keyNumber index % k.alphabet.radix ^ k.length := by
  have hpos : 0 < k.alphabet.radix := Nat.lt_of_lt_of_le Nat.zero_lt_two k.alphabet.two_le_radix
  have hvalues : (k.key index).map k.alphabet.value =
      Keys.digits k.alphabet.radix k.length (k.keyNumber index) := by
    rw [key, List.map_map]
    exact (List.map_congr_left fun d hd =>
      k.alphabet.value_digit (Keys.lt_of_mem_digits hpos hd)).trans (List.map_id' _)
  rw [Keys.Alphabet.number, hvalues, Keys.ofDigits_digits]

/-- The keys of a keyspace fit in their length, and its position is one of those interleaved. -/
structure Fits (k : Keyspace R) : Prop where
  ordinal_lt : k.ordinal < k.stride
  count_mul_stride_le : k.count * k.stride ≤ k.alphabet.radix ^ k.length

namespace Fits

variable {k k' : Keyspace R} {i i' : Nat}

theorem keyNumber_div (h : k.Fits) (i : Nat) : k.keyNumber i / k.stride = i := by
  have hpos : 0 < k.stride := Nat.zero_lt_of_lt h.ordinal_lt
  rw [keyNumber, Nat.mul_comm, Nat.mul_add_div hpos, Nat.div_eq_of_lt h.ordinal_lt, Nat.add_zero]

theorem keyNumber_mod (h : k.Fits) (i : Nat) : k.keyNumber i % k.stride = k.ordinal := by
  rw [keyNumber, Nat.mul_comm, Nat.mul_add_mod, Nat.mod_eq_of_lt h.ordinal_lt]

theorem keyNumber_lt (h : k.Fits) (hi : i < k.count) :
    k.keyNumber i < k.alphabet.radix ^ k.length := by
  have hnext : (i + 1) * k.stride ≤ k.count * k.stride := Nat.mul_le_mul_right _ hi
  have hord := h.ordinal_lt
  have hfit := h.count_mul_stride_le
  rw [Nat.succ_mul] at hnext
  rw [keyNumber]
  omega

/-- **A key is read back.** -/
theorem number_key (h : k.Fits) (hi : i < k.count) :
    k.alphabet.number (k.key i) = k.keyNumber i := by
  rw [number_key_mod, Nat.mod_eq_of_lt (h.keyNumber_lt hi)]

/-- **Different structures have different keys**, in one keyspace or in two. -/
theorem key_inj (h : k.Fits) (h' : k'.Fits) (ha : k.alphabet = k'.alphabet)
    (hstride : k.stride = k'.stride) (hi : i < k.count) (hi' : i' < k'.count)
    (hkey : k.key i = k'.key i') : k.ordinal = k'.ordinal ∧ i = i' := by
  have hnumber : k.keyNumber i = k'.keyNumber i' := by
    rw [← h.number_key hi, ← h'.number_key hi', hkey, ha]
  refine ⟨?_, ?_⟩
  · rw [← h.keyNumber_mod i, ← h'.keyNumber_mod i', hnumber, hstride]
  · rw [← h.keyNumber_div i, ← h'.keyNumber_div i', hnumber, hstride]

end Fits

end LoadGen.Config.Keyspace
