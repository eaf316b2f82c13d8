import LoadGen.Proofs.Config.Exact
import LoadGen.Proofs.Random.Words
import LoadGen.Proofs.Workload.Values

/-!
# Values are read back

Values follow each other in a buffer, behind what it holds already, and a request cuts them apart
again. Values of the integer class are numbers with the least significant byte first: the bytes of
a number are given by `littleEndianBytes`, and reading them is its inverse
(`littleEndian_littleEndianBytes`, `littleEndianBytes_littleEndian`). A value is as many of the
bytes of a random word as it is long, so that it reads as the remainder of that word
(`values_read_back`).
-/

namespace LoadGen.Workload

open Config (ValueSpec ValueDraft)
open LoadGen.Random (Source)
open Wire (Bytes)

/-! ## Numbers and their bytes -/

/-- The lowest bytes of a number, least significant first. -/
def littleEndianBytes : Nat → Nat → Bytes
  | 0, _ => []
  | length + 1, n => UInt8.ofNat n :: littleEndianBytes length (n / 256)

@[simp]
theorem length_littleEndianBytes (length n : Nat) :
    (littleEndianBytes length n).length = length := by
  induction length generalizing n with
  | zero => rfl
  | succ length ih => rw [littleEndianBytes, List.length_cons, ih]

theorem getElem?_littleEndianBytes {length i : Nat} (hi : i < length) (n : Nat) :
    (littleEndianBytes length n)[i]? = some (UInt8.ofNat (n / 256 ^ i)) := by
  induction length generalizing i n with
  | zero => cases hi
  | succ length ih =>
    cases i with
    | zero => rw [littleEndianBytes, List.getElem?_cons_zero, Nat.pow_zero, Nat.div_one]
    | succ i =>
      rw [littleEndianBytes, List.getElem?_cons_succ, ih (Nat.lt_of_succ_lt_succ hi),
        Nat.div_div_eq_div_mul, Nat.pow_succ']

/-- The lowest bytes of a number are those of its remainder. -/
theorem littleEndian_littleEndianBytes (length n : Nat) :
    littleEndian (littleEndianBytes length n) = n % 256 ^ length := by
  induction length generalizing n with
  | zero => rw [Nat.pow_zero, Nat.mod_one]; rfl
  | succ length ih =>
    have hbyte : (UInt8.ofNat n).toNat = n % 256 := UInt8.toNat_ofNat'
    rw [littleEndianBytes, littleEndian, ih, hbyte, Nat.pow_succ', Nat.mod_mul]

theorem littleEndian_lt (bs : Bytes) : littleEndian bs < 256 ^ bs.length := by
  induction bs with
  | nil => decide
  | cons b bs ih =>
    have hb := b.toNat_lt
    rw [littleEndian, List.length_cons, Nat.pow_succ']
    omega

/-- Bytes are those of the number they stand for. -/
theorem littleEndianBytes_littleEndian (bs : Bytes) :
    littleEndianBytes bs.length (littleEndian bs) = bs := by
  induction bs with
  | nil => rfl
  | cons b bs ih =>
    have hb := b.toNat_lt
    have hlow : UInt8.ofNat (b.toNat + 256 * littleEndian bs) = b := by
      refine UInt8.toNat_inj.1 ?_
      rw [UInt8.toNat_ofNat']
      omega
    have hhigh : (b.toNat + 256 * littleEndian bs) / 256 = littleEndian bs := by omega
    rw [List.length_cons, littleEndian, littleEndianBytes, hlow, hhigh, ih]

/-- The first bytes of a word are its lowest ones. -/
theorem take_wordBytes (word : UInt64) {length : Nat} (hlength : length ≤ 8) :
    (Source.wordBytes word).take length = littleEndianBytes length word.toNat := by
  refine List.ext_getElem? fun i => ?_
  rcases Nat.lt_or_ge i length with hi | hi
  · have hindex : (UInt64.ofNat i).toNat = i :=
      Nat.mod_eq_of_lt (Nat.lt_of_lt_of_le (Nat.lt_of_lt_of_le hi hlength) (by decide))
    have hshift : (8 * UInt64.ofNat i).toNat = 8 * i := by
      rw [UInt64.toNat_mul, hindex]
      exact Nat.mod_eq_of_lt (by show 8 * i < _; omega)
    rw [List.getElem?_take_of_lt hi, Source.wordBytes, List.getElem?_map,
      List.getElem?_range (Nat.lt_of_lt_of_le hi hlength), getElem?_littleEndianBytes hi]
    refine congrArg some (UInt8.toNat_inj.1 ?_)
    rw [UInt64.toNat_toUInt8, UInt64.toNat_shiftRight, hshift, UInt8.toNat_ofNat',
      Nat.mod_eq_of_lt (show 8 * i < 64 by omega), Nat.shiftRight_eq_div_pow, Nat.pow_mul]
  · rw [List.getElem?_eq_none (by simp [Source.length_wordBytes]; omega),
      List.getElem?_eq_none (by simpa using hi)]

/-- A number has one to eight bytes. -/
theorem decodeInteger?_eq_none_iff {value : Bytes} :
    decodeInteger? value = none ↔ ¬(1 ≤ value.length ∧ value.length ≤ 8) := by
  rw [decodeInteger?]
  cases value with
  | nil => simp
  | cons b bs => simp

theorem decodeInteger?_eq_some {value : Bytes} (hpos : 1 ≤ value.length)
    (hle : value.length ≤ 8) : decodeInteger? value = some (littleEndian value) := by
  have hne : value ≠ [] := List.ne_nil_of_length_pos hpos
  rw [decodeInteger?, if_neg (by simpa [hne] using hle)]

theorem decodeInteger?_littleEndianBytes {length n : Nat} (hpos : 1 ≤ length) (hle : length ≤ 8)
    (hn : n < 256 ^ length) : decodeInteger? (littleEndianBytes length n) = some n := by
  have hlength := length_littleEndianBytes length n
  rw [decodeInteger?_eq_some (hlength.symm ▸ hpos) (hlength.symm ▸ hle),
    littleEndian_littleEndianBytes, Nat.mod_eq_of_lt hn]

/-- Values of one length and the numbers that fit are in one-to-one correspondence. -/
theorem bijOn_decodeInteger? {length : Nat} (hpos : 1 ≤ length) (hle : length ≤ 8) :
    Set.BijOn decodeInteger? {bs | bs.length = length} (some '' Set.Iio (256 ^ length)) := by
  refine ⟨?maps, ?injective, ?surjective⟩
  case maps =>
    rintro bs rfl
    exact ⟨_, littleEndian_lt bs, (decodeInteger?_eq_some hpos hle).symm⟩
  case injective =>
    rintro bs rfl bs' hlength h
    rw [decodeInteger?_eq_some hpos hle,
      decodeInteger?_eq_some (hlength ▸ hpos) (hlength ▸ hle)] at h
    rw [← littleEndianBytes_littleEndian bs, ← littleEndianBytes_littleEndian bs', hlength,
      Option.some.inj h]
  case surjective =>
    rintro _ ⟨n, hn, rfl⟩
    exact ⟨littleEndianBytes length n, length_littleEndianBytes length n,
      decodeInteger?_littleEndianBytes hpos hle hn⟩

/-! ## Buffers -/

variable {spec : ValueSpec}

theorem length_flatten_valuesFrom (hspec : Drawable spec) (items : Nat) (s : Source) :
    (valuesFrom spec items s).flatten.length = items * spec.length := by
  have hlengths : (valuesFrom spec items s).map List.length = List.replicate items spec.length :=
    List.eq_replicate_iff.2 ⟨by simp, List.forall_mem_map.2 fun _ hv =>
      length_of_mem_valuesFrom hspec hv⟩
  rw [List.length_flatten, hlengths, List.sum_replicate, smul_eq_mul]

section Integer

variable (hspec : Drawable spec) (hkind : spec.kind = .integer)

include hspec hkind

/-- A value of the integer class consists of the lowest bytes of a word. -/
theorem nextValue_eq (s : Source) :
    nextValue spec s = (littleEndianBytes spec.length s.next.1.toNat, s.next.2) := by
  rw [nextValue, valueOnto, hkind]
  dsimp only
  rw [List.append_nil, List.reverse_reverse, take_wordBytes _ (hspec.2 hkind)]

/-- Each value of the integer class takes a word. -/
theorem getElem?_valuesFrom {items j : Nat} (hj : j < items) (s : Source) :
    (valuesFrom spec items s)[j]? = some (littleEndianBytes spec.length (s.word j).toNat) := by
  induction items generalizing j s with
  | zero => cases hj
  | succ items ih =>
    rw [valuesFrom, nextValue_eq hspec hkind]
    cases j with
    | zero => rfl
    | succ j =>
      rw [List.getElem?_cons_succ, ih (Nat.lt_of_succ_lt_succ hj)]
      rfl

end Integer

/-- The shapes of values that pass the check can be drawn. -/
theorem drawable_of_checkValue {R : Type} {ordinal : Nat} {d : ValueDraft R} {weight : R}
    (h : Config.checkValue ordinal d = .ok (spec, weight)) : Drawable spec := by
  obtain ⟨hvalid, hreads⟩ := (Config.decides_checkValue ordinal d).of_eq_ok _ h
  obtain ⟨hlength, hnamed, -⟩ := hreads
  dsimp only at hlength hnamed
  refine ⟨hlength ▸ hvalid.length_pos, fun hkind => ?_⟩
  rw [hlength]
  exact hvalid.length_le (hkind ▸ hnamed)

/-- **Values are of fixed width and are read back.** If values of a shape that passes the check are
put behind what a buffer holds, the buffer keeps that and grows by their lengths. A request with
the new part as its values is cut into as many values as were drawn, each of its length, and those
of the integer class stand for the words that were drawn, as far as these fit. Values of any length
from one to eight bytes and the numbers that fit are in one-to-one correspondence, by their lowest
bytes in order; values of any other length stand for no number. -/
theorem values_read_back {R : Type} {ordinal : Nat} {d : ValueDraft R} {weight : R}
    (hspec : Config.checkValue ordinal d = .ok (spec, weight)) (items : Nat) (s : Source)
    (buffer : Bytes) :
    (buffer <+: (fillValues spec items s buffer).1 ∧
      (fillValues spec items s buffer).1.length = buffer.length + items * spec.length ∧
      ∀ r : Wire.Request, r.valueLength = spec.length →
        r.values = (fillValues spec items s buffer).1.drop buffer.length →
        r.chunks.flatten = r.values ∧ r.chunks.length = items ∧
          (∀ v ∈ r.chunks, v.length = spec.length) ∧
          (spec.kind = .integer → ∀ j < items,
            r.chunks[j]?.bind decodeInteger? = some ((s.word j).toNat % 256 ^ spec.length))) ∧
    (∀ length, 1 ≤ length → length ≤ 8 →
      Set.BijOn decodeInteger? {bs | bs.length = length} (some '' Set.Iio (256 ^ length)) ∧
        ∀ n < 256 ^ length, (littleEndianBytes length n).length = length ∧
          decodeInteger? (littleEndianBytes length n) = some n) ∧
    ∀ value, decodeInteger? value = none ↔ ¬(1 ≤ value.length ∧ value.length ≤ 8) := by
  have hdraw : Drawable spec := drawable_of_checkValue hspec
  have hvalues {v : Bytes} (hv : v ∈ valuesFrom spec items s) : v.length = spec.length :=
    length_of_mem_valuesFrom hdraw hv
  refine ⟨?_, fun length hpos hle => ⟨bijOn_decodeInteger? hpos hle, fun n hn =>
    ⟨length_littleEndianBytes length n, decodeInteger?_littleEndianBytes hpos hle hn⟩⟩,
    fun value => decodeInteger?_eq_none_iff⟩
  rw [fillValues_eq, List.drop_left]
  refine ⟨List.prefix_append _ _, ?_, fun r hlength hr => ?_⟩
  · rw [List.length_append, length_flatten_valuesFrom hdraw]
  · have hchunks : r.chunks = valuesFrom spec items s := by
      have hwidth : r.width = spec.length := by
        rw [Wire.Request.width, hlength]
        exact max_eq_left hdraw.1
      rw [Wire.Request.chunks_eq_pieces, hwidth, hr]
      exact Wire.pieces_flatten hdraw.1 fun v hv => hvalues hv
    rw [hchunks]
    refine ⟨hr.symm, length_valuesFrom items s, fun v hv => hvalues hv, fun hkind j hj => ?_⟩
    rw [getElem?_valuesFrom hdraw hkind hj, Option.bind_some,
      decodeInteger?_eq_some (by rw [length_littleEndianBytes]; exact hdraw.1)
        (by rw [length_littleEndianBytes]; exact hdraw.2 hkind),
      littleEndian_littleEndianBytes]

/-- Three numbers of two bytes behind a key; the words of the source are too long for them. -/
theorem values_read_back_narrow :
    Config.checkValue 0 ⟨2, 1, "integer"⟩ = .ok (⟨2, .integer⟩, (1 : ℚ)) ∧
      (fillValues ⟨2, .integer⟩ 3 (.cycle #[0x123456, 7]) (Wire.textBytes "key")).1.length = 9 ∧
      ∀ r : Wire.Request, r.valueLength = 2 → r.values = [0x56, 0x34, 7, 0, 0x56, 0x34] →
        r.chunks[2]?.bind decodeInteger? = some 0x3456 := by
  have hspec : Config.checkValue 0 ⟨2, 1, "integer"⟩ = .ok (⟨2, .integer⟩, (1 : ℚ)) :=
    Config.eq_ok_of_toOption (by decide +kernel)
  obtain ⟨⟨-, hlength, hread⟩, -⟩ :=
    values_read_back hspec 3 (.cycle #[0x123456, 7]) (Wire.textBytes "key")
  refine ⟨hspec, hlength.trans (by decide +kernel), fun r hr hvalues => ?_⟩
  obtain ⟨-, -, -, hintegers⟩ := hread r hr (hvalues.trans (by decide +kernel))
  exact hintegers rfl 2 (by decide)

end LoadGen.Workload
