import LoadGen.Config.Basic

/-!
# Keys

Keys are never stored. Index `i` of the keyspace at position `k` among `n` is the number
`i * n + k`, written in the digits of the run's alphabet, most significant first, with zeros in
front up to the key length. Interleaving the keyspaces this way keeps their keys apart.
-/

namespace LoadGen.Keys

/-- The last `length` digits of a number in a base, most significant first, with `done` after
them. -/
def digitsOnto (radix : Nat) : Nat → Nat → List Nat → List Nat
  | 0, _, done => done
  | length + 1, n, done => digitsOnto radix length (n / radix) (n % radix :: done)

/-- The last `length` digits of a number in a base, most significant first. -/
def digits (radix length n : Nat) : List Nat :=
  digitsOnto radix length n []

end LoadGen.Keys

namespace LoadGen.Config.Keyspace

variable {R : Type}

/-- The number that the key at an index stands for. -/
def keyNumber (k : Keyspace R) (index : Nat) : Nat :=
  index * k.stride + k.ordinal

/-- The key at an index. -/
def key (k : Keyspace R) (index : Nat) : List UInt8 :=
  (Keys.digits k.alphabet.radix k.length (k.keyNumber index)).map k.alphabet.digit

/-- Draws the index of a key. -/
def drawIndex (k : Keyspace R) (s : Random.Source) : Nat × Random.Source :=
  s.below k.count

end LoadGen.Config.Keyspace
