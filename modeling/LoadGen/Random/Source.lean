/-!
# Random sources

A source yields 64-bit words, one after the other. Seeded sources run a linear generator with
four words of state, filled from the seed by a mixing counter; any other sequence of words is a
source as well, so that statements about all sources quantify over this type.

Draws are taken from the words as they come: `below n` multiplies a word by `n` and keeps the
upper half of the product, looking at one more word when the lower half leaves the upper one
uncertain.
-/

namespace LoadGen.Random

/-- A source of random words. -/
inductive Source
  /-- The generator with its four words of state. -/
  | generator (s0 s1 s2 s3 : UInt64)
  /-- A given sequence of words, read from a position on. -/
  | stream (words : Nat → UInt64) (position : Nat)

namespace Source

/-- The words rotated left by `n` bits, `0 < n < 64`. -/
def rotate (w n : UInt64) : UInt64 :=
  w <<< n ||| w >>> (64 - n)

/-- One step of the mixing counter: the word it yields and the new counter. -/
def mix (counter : UInt64) : UInt64 × UInt64 :=
  let counter := counter + 0x9e3779b97f4a7c15
  let z := (counter ^^^ counter >>> 30) * 0xbf58476d1ce4e5b9
  let z := (z ^^^ z >>> 27) * 0x94d049bb133111eb
  (z ^^^ z >>> 31, counter)

/-- The generator for a seed. -/
def ofSeed (seed : UInt64) : Source :=
  let (s0, counter) := mix seed
  let (s1, counter) := mix counter
  let (s2, counter) := mix counter
  let (s3, _) := mix counter
  .generator s0 s1 s2 s3

/-- The words of a list over and over. -/
def cycle (words : Array UInt64) : Source :=
  .stream (fun i => words.getD (i % words.size) 0) 0

/-- The next word and the source after it. -/
def next : Source → UInt64 × Source
  | .generator s0 s1 s2 s3 =>
    let word := rotate (s0 + s3) 23 + s0
    let t := s1 <<< 17
    let s2 := s2 ^^^ s0
    let s3 := s3 ^^^ s1
    let s1 := s1 ^^^ s2
    let s0 := s0 ^^^ s3
    (word, .generator s0 s1 (s2 ^^^ t) (rotate s3 45))
  | .stream words position => (words position, .stream words (position + 1))

/-- The upper half of the next word. -/
def nextHalf (s : Source) : Nat × Source :=
  let (word, s) := s.next
  (word.toNat / UInt32.size, s)

/-- A draw from `0, …, n - 1` by words of `width` bits that `draw` supplies. The upper half of
word times `n` is the result; when the lower half is so large that a longer word could carry into
the upper half, one more word decides whether it does. -/
def scaled (width : Nat) (draw : Source → Nat × Source) (n : Nat) (s : Source) : Nat × Source :=
  let (word, s) := draw s
  let size := Nat.pow 2 width
  let high := word * n / size
  let low := word * n % size
  if size - n < low then
    let (more, s) := draw s
    let carry := if size ≤ low + more * n / size then 1 else 0
    (high + carry, s)
  else (high, s)

/-- A number below `n`, for `0 < n < 2 ^ 64`. -/
def below (n : Nat) (s : Source) : Nat × Source :=
  scaled 64 (fun s => let (word, s) := s.next; (word.toNat, s)) n s

/-- A position in a list of `n` elements: as `below`, from halves of words while these suffice. -/
def position (n : Nat) (s : Source) : Nat × Source :=
  if n < UInt32.size then scaled 32 nextHalf n s else below n s

/-- The bytes of a word, least significant first. -/
def wordBytes (word : UInt64) : List UInt8 :=
  (List.range 8).map fun i => (word >>> (8 * UInt64.ofNat i)).toUInt8

/-- `n` random bytes in front of which `done` stands, reversed. Eight bytes take a word; a rest of
at most four bytes takes the upper half of one. -/
def bytesOnto (n : Nat) (s : Source) (done : List UInt8) : List UInt8 × Source :=
  if 8 ≤ n then
    let (word, s) := s.next
    bytesOnto (n - 8) s ((wordBytes word).reverse ++ done)
  else if n = 0 then (done, s)
  else
    let (word, s) := s.next
    let word := if 4 < n then word else word >>> 32
    (((wordBytes word).take n).reverse ++ done, s)

/-- `n` random bytes. -/
def bytes (n : Nat) (s : Source) : List UInt8 × Source :=
  let (reversed, s) := bytesOnto n s []
  (reversed.reverse, s)

end Source

end LoadGen.Random
