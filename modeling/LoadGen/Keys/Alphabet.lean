/-!
# Key alphabets

Keys are numbers written in the digits of an alphabet. The printable alphabet has the 62 ASCII
digits and letters; the binary one has every byte value.
-/

namespace LoadGen.Keys

inductive Alphabet
  | printable
  | binary
  deriving Repr, DecidableEq, Inhabited

namespace Alphabet

/-- The number of digits. -/
def radix : Alphabet → Nat
  | printable => 62
  | binary => 256

/-- The byte that stands for a digit. -/
def digit : Alphabet → Nat → UInt8
  | printable, n =>
    if n < 10 then UInt8.ofNat (0x30 + n)
    else if n < 36 then UInt8.ofNat (0x41 + (n - 10))
    else UInt8.ofNat (0x61 + (n - 36))
  | binary, n => UInt8.ofNat n

/-- Whether `length` digits can write `keys` different numbers. As many digits as `keys` has bits
always can, so larger powers are not computed. -/
def holds (a : Alphabet) (length keys : Nat) : Bool :=
  keys ≤ Nat.pow a.radix (min length (keys.log2 + 1))

theorem two_le_radix (a : Alphabet) : 2 ≤ a.radix := by
  cases a <;> decide

/-- The bound on the exponent does not matter. -/
theorem holds_iff_le_pow {a : Alphabet} {length keys : Nat} :
    a.holds length keys = true ↔ keys ≤ Nat.pow a.radix length := by
  rw [holds, decide_eq_true_iff]
  rcases Nat.le_total length (keys.log2 + 1) with h | h
  · rw [Nat.min_eq_left h]
  · rw [Nat.min_eq_right h]
    have bits : keys ≤ Nat.pow a.radix (keys.log2 + 1) :=
      Nat.le_trans (Nat.le_of_lt Nat.lt_log2_self) (Nat.pow_le_pow_left a.two_le_radix _)
    have more : Nat.pow a.radix (keys.log2 + 1) ≤ Nat.pow a.radix length :=
      Nat.pow_le_pow_right (Nat.le_of_succ_le a.two_le_radix) h
    exact ⟨fun _ => Nat.le_trans bits more, fun _ => bits⟩

end Alphabet

end LoadGen.Keys
