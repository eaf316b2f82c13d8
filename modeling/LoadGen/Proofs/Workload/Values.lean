import LoadGen.Proofs.Wire.Encoding
import LoadGen.Worker.Step

/-!
# Values have their length

Values are drawn one after the other, and each of them is as long as its specification says
(`length_of_mem_valuesFrom`). A request therefore carries exactly the values that were drawn for it,
one by one (`Worker.chunks_request`).
-/

namespace LoadGen

open Config (ValueSpec)
open Wire (Bytes)

/-! ## Random bytes -/

namespace Random.Source

theorem length_wordBytes (word : UInt64) : (wordBytes word).length = 8 := by
  rw [wordBytes, List.length_map, List.length_range]

/-- Random bytes do not depend on what stands before them. -/
theorem bytesOnto_eq (n : Nat) (s : Source) (done : List UInt8) :
    bytesOnto n s done = ((bytesOnto n s []).1 ++ done, (bytesOnto n s []).2) := by
  induction n using Nat.strong_induction_on generalizing s done with
  | h n ih =>
    rw [bytesOnto, bytesOnto]
    generalize s.next = drawn
    obtain ⟨word, s'⟩ := drawn
    dsimp only
    split
    · rw [ih _ (by omega), ih _ (by omega) _ (_ ++ [])]
      simp
    · split <;> simp

theorem length_bytesOnto (n : Nat) (s : Source) : (bytesOnto n s []).1.length = n := by
  induction n using Nat.strong_induction_on generalizing s with
  | h n ih =>
    rw [bytesOnto]
    generalize s.next = drawn
    obtain ⟨word, s'⟩ := drawn
    dsimp only
    split
    · rw [bytesOnto_eq, List.length_append, ih _ (by omega), List.append_nil, List.length_reverse,
        length_wordBytes]
      omega
    split
    · next h0 => exact h0.symm
    · rw [List.append_nil, List.length_reverse, List.length_take, length_wordBytes]
      omega

end Random.Source

/-! ## Values -/

namespace Workload

open LoadGen.Random (Source)

/-- A shape of values that can be drawn: a number has the bytes of one word at most. -/
def Drawable (spec : ValueSpec) : Prop := 0 < spec.length ∧ (spec.kind = .integer → spec.length ≤ 8)

/-- A value, and the source after it. -/
def nextValue (spec : ValueSpec) (s : Source) : Bytes × Source :=
  let (reversed, s) := valueOnto spec s []
  (reversed.reverse, s)

/-- `items` values, one by one. -/
def valuesFrom (spec : ValueSpec) : Nat → Source → List Bytes
  | 0, _ => []
  | items + 1, s =>
    let (value, s) := nextValue spec s
    value :: valuesFrom spec items s

variable {spec : ValueSpec}

theorem valueOnto_eq (s : Source) (done : List UInt8) :
    valueOnto spec s done = ((nextValue spec s).1.reverse ++ done, (nextValue spec s).2) := by
  rw [nextValue, valueOnto, valueOnto]
  cases spec.kind with
  | bytes =>
    dsimp only
    rw [Source.bytesOnto_eq]
    simp
  | integer => simp

/-- **A value has its length.** -/
theorem length_nextValue (hspec : Drawable spec) (s : Source) :
    (nextValue spec s).1.length = spec.length := by
  rw [nextValue, valueOnto]
  cases hkind : spec.kind with
  | bytes =>
    dsimp only
    rw [List.length_reverse, Source.length_bytesOnto]
  | integer =>
    have := hspec.2 hkind
    simpa [Source.length_wordBytes] using this

@[simp]
theorem length_valuesFrom (items : Nat) (s : Source) :
    (valuesFrom spec items s).length = items := by
  induction items generalizing s with
  | zero => rfl
  | succ items ih => rw [valuesFrom, List.length_cons, ih]

theorem length_of_mem_valuesFrom (hspec : Drawable spec) {items : Nat} {s : Source} {value : Bytes}
    (h : value ∈ valuesFrom spec items s) : value.length = spec.length := by
  induction items generalizing s with
  | zero => cases h
  | succ items ih =>
    rw [valuesFrom] at h
    rcases List.mem_cons.1 h with rfl | h
    · exact length_nextValue hspec s
    · exact ih h

theorem valuesOnto_eq (items : Nat) (s : Source) (done : List UInt8) :
    (valuesOnto spec items s done).1 = (valuesFrom spec items s).flatten.reverse ++ done := by
  induction items generalizing s done with
  | zero => rfl
  | succ items ih =>
    rw [valuesOnto, valuesFrom, valueOnto_eq]
    dsimp only
    rw [ih, List.flatten_cons, List.reverse_append, List.append_assoc]

/-- Values are drawn back to back. -/
theorem fillValues_eq (items : Nat) (s : Source) (buffer : Bytes) :
    (fillValues spec items s buffer).1 = buffer ++ (valuesFrom spec items s).flatten := by
  rw [fillValues]
  dsimp only
  rw [valuesOnto_eq, List.reverse_append, List.reverse_reverse, List.reverse_reverse]

theorem drawValues_eq (items : Nat) (s : Source) :
    (drawValues spec items s).1 = (valuesFrom spec items s).flatten :=
  fillValues_eq items s []

end Workload

/-! ## Requests -/

open Workload

/-- **A request carries the values that are drawn for it.** -/
theorem Worker.chunks_request {R : Type} {o : Operation R} {spec : ValueSpec}
    (hvalue : o.value = some spec) (hspec : Drawable spec) (s : Random.Source) :
    (request o s).1.chunks =
      valuesFrom spec (if o.action = .find then 1 else o.command.items) s := by
  have hwidth : (request o s).1.width = spec.length := by
    rw [request, hvalue]
    exact max_eq_left hspec.1
  have hvalues : (request o s).1.values =
      (valuesFrom spec (if o.action = .find then 1 else o.command.items) s).flatten := by
    rw [request, hvalue]
    exact drawValues_eq ..
  rw [Wire.Request.chunks_eq_pieces, hwidth, hvalues]
  exact Wire.pieces_flatten hspec.1 fun v hv => length_of_mem_valuesFrom hspec hv

/-- A request without a value for its operation carries none. -/
theorem Worker.chunks_request_of_none {R : Type} {o : Operation R} (hvalue : o.value = none)
    (s : Random.Source) : (request o s).1.chunks = [] := by
  rw [request, hvalue]
  rfl

end LoadGen
