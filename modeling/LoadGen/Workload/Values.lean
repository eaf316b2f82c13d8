import LoadGen.Config.Command
import LoadGen.Random.Source

/-!
# Values

Values are made from random words, each exactly as long as its specification says. Values of the
integer class are numbers with the least significant byte first.
-/

namespace LoadGen.Workload

open Config (ValueSpec)

/-- One value in front of which `done` stands, reversed. -/
def valueOnto (spec : ValueSpec) (s : Random.Source) (done : List UInt8) :
    List UInt8 × Random.Source :=
  match spec.kind with
  | .bytes => s.bytesOnto spec.length done
  | .integer =>
    let (word, s) := s.next
    (((Random.Source.wordBytes word).take spec.length).reverse ++ done, s)

/-- `items` values, one after the other, in front of which `done` stands, reversed. -/
def valuesOnto (spec : ValueSpec) :
    Nat → Random.Source → List UInt8 → List UInt8 × Random.Source
  | 0, s, done => (done, s)
  | items + 1, s, done =>
    let (done, s) := valueOnto spec s done
    valuesOnto spec items s done

/-- `items` values, one after the other, behind what a buffer holds already. -/
def fillValues (spec : ValueSpec) (items : Nat) (s : Random.Source) (buffer : List UInt8) :
    List UInt8 × Random.Source :=
  let (reversed, s) := valuesOnto spec items s buffer.reverse
  (reversed.reverse, s)

/-- `items` values and nothing else. -/
def drawValues (spec : ValueSpec) (items : Nat) (s : Random.Source) :
    List UInt8 × Random.Source :=
  fillValues spec items s []

/-- The number that bytes stand for, least significant first. -/
def littleEndian : List UInt8 → Nat
  | [] => 0
  | b :: bs => b.toNat + 256 * littleEndian bs

/-- The number that a value of the integer class stands for: it has one to eight bytes. -/
def decodeInteger? (value : List UInt8) : Option Nat :=
  if value.isEmpty ∨ 8 < value.length then none else some (littleEndian value)

end LoadGen.Workload
