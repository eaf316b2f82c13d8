import LoadGen.Random.Source

/-!
# The words of a source

Whatever is drawn from a source is made of its words, which come one after the other.
-/

namespace LoadGen.Random.Source

/-- The source after `n` more words. -/
def skip (s : Source) : Nat → Source
  | 0 => s
  | n + 1 => s.next.2.skip n

/-- The word that comes after `n` others. -/
def word (s : Source) (n : Nat) : UInt64 := (s.skip n).next.1

end LoadGen.Random.Source
