import LoadGen.Proofs.Wire.Replies
import LoadGen.Proofs.Wire.Requests

/-!
# Requests are unambiguous

The bytes of a request are those of one array of bulk strings (`Request.encode_eq_serialise`), so
that they are read back as any reply is. What stands in the array is said in `Request.message`
without a word about cutting lists: the values of a request are found in it by their offsets
(`Request.parts_eq_message`). Since the number of parts and the length of each of them come before
the parts, no request is the beginning of a different one (`Request.eq_of_isPrefix`).
-/

namespace LoadGen.Wire

/-! ## Values by their offsets -/

/-- Pieces of `size` bytes, found by their offsets; the last one may be shorter. -/
def pieces (size : Nat) (s : Bytes) : List Bytes :=
  (List.range ((s.length + size - 1) / size)).map fun j => (s.drop (size * j)).take size

theorem pieces_nil {size : Nat} (hsize : 0 < size) : pieces size [] = [] := by
  have hcount : ([] : Bytes).length + size - 1 < size := by
    rw [List.length_nil]
    omega
  rw [pieces, Nat.div_eq_of_lt hcount]
  rfl

theorem pieces_of_ne_nil {size : Nat} (hsize : 0 < size) {s : Bytes} (hs : s ≠ []) :
    pieces size s = s.take size :: pieces size (s.drop size) := by
  have hpos : 0 < s.length := List.length_pos_of_ne_nil hs
  have hcount : (s.length + size - 1) / size = ((s.drop size).length + size - 1) / size + 1 := by
    rw [List.length_drop]
    rcases Nat.le_total size s.length with h | h
    · rw [← Nat.add_div_right _ hsize]
      congr 1
      omega
    · have hone : (s.length + size - 1) / size = 1 :=
        Nat.div_eq_of_lt_le (by omega) (by omega)
      have hnone : (0 + size - 1) / size = 0 := Nat.div_eq_of_lt (by omega)
      rw [Nat.sub_eq_zero_of_le h, hone, hnone]
  rw [pieces, hcount, List.range_succ_eq_map, List.map_cons, List.map_map, Nat.mul_zero,
    List.drop_zero, pieces]
  congr 1
  refine List.map_congr_left fun j _ => ?_
  rw [Function.comp_apply, List.drop_drop, Nat.succ_eq_add_one, Nat.mul_add, Nat.mul_one,
    Nat.add_comm]

/-- Lists of `size` bytes back to back are cut apart again. -/
theorem pieces_flatten {size : Nat} (hsize : 0 < size) {values : List Bytes}
    (hvalues : ∀ v ∈ values, v.length = size) : pieces size values.flatten = values := by
  induction values with
  | nil => exact pieces_nil hsize
  | cons v rest ih =>
    obtain ⟨hv, hrest⟩ := List.forall_mem_cons.1 hvalues
    have hne : v ++ rest.flatten ≠ [] := fun h => by
      rw [List.append_eq_nil_iff.1 h |>.1, List.length_nil] at hv
      omega
    rw [List.flatten_cons, pieces_of_ne_nil hsize hne, List.take_left' hv, List.drop_left' hv,
      ih hrest]

/-- Cutting a list piece by piece finds the pieces at these offsets. -/
theorem chunksOf_eq_pieces {size : Nat} (hsize : 0 < size) {fuel : Nat} {s : Bytes}
    (hfuel : s.length ≤ fuel) : chunksOf size fuel s = pieces size s := by
  induction fuel generalizing s with
  | zero =>
    obtain rfl := List.eq_nil_of_length_eq_zero (Nat.le_zero.1 hfuel)
    exact (pieces_nil hsize).symm
  | succ fuel ih =>
    cases s with
    | nil => exact (pieces_nil hsize).symm
    | cons b s =>
      have hdrop : ((b :: s).drop size).length ≤ fuel := by
        rw [List.length_drop]
        omega
      rw [pieces_of_ne_nil hsize (List.cons_ne_nil b s), chunksOf, ih hdrop]

namespace Request

/-- The length of a value, at least one byte. -/
def width (r : Request) : Nat := max r.valueLength 1

/-- What a request is to say: the command, the key, and what the action needs. -/
def message (r : Request) : List Bytes :=
  textBytes ("SArray." ++ r.action.name) :: r.key :: match r.action with
    | .create =>
      let marks := r.watermarks.toList.flatMap fun marks => [marks.low, marks.high]
      (r.elementSize :: marks).map fun n => textBytes (toString n)
    | .delete | .get | .len => []
    | .find => [r.values.take r.width]
    | .insert | .remove => pieces r.width r.values
    | .truncate => [textBytes (toString r.items)]

theorem chunks_eq_pieces (r : Request) : r.chunks = pieces r.width r.values :=
  chunksOf_eq_pieces (Nat.le_max_right _ _) (Nat.le_refl _)

/-- The first value, or nothing at all. -/
theorem headD_chunks (r : Request) : r.chunks.headD [] = r.values.take r.width := by
  have hwidth : 0 < r.width := Nat.le_max_right _ _
  rw [chunks_eq_pieces]
  by_cases h : r.values = []
  · rw [h, pieces_nil hwidth, List.take_nil]
    rfl
  · rw [pieces_of_ne_nil hwidth h]
    rfl

theorem textBytes_commandName (a : Config.Action) :
    textBytes (commandName a) = textBytes ("SArray." ++ a.name) := by
  cases a <;> rfl

/-- **A request says what it is to say.** -/
theorem parts_eq_message (r : Request) : r.parts = r.message := by
  rw [parts, textBytes_commandName, arguments.eq_def, message]
  congr 2
  cases r.action with
  | create => cases r.watermarks <;> simp [numberBytes_eq]
  | find => exact congrArg (fun value => [value]) r.headD_chunks
  | insert | remove => exact r.chunks_eq_pieces
  | truncate => simp [numberBytes_eq]
  | _ => rfl

/-! ## One array of bulk strings -/

/-- The request as a value. -/
def value (r : Request) : Reply := .array (some (r.message.map fun part => .bulk (some part)))

theorem serialiseAll_map_bulk (parts : List Bytes) :
    serialiseAll (parts.map fun part => .bulk (some part)) = parts.flatMap bulk := by
  induction parts with
  | nil => rfl
  | cons part parts ih => rw [List.map_cons, serialiseAll, ih, List.flatMap_cons, Reply.serialise]

theorem encode_eq_serialise (r : Request) : r.encode = r.value.serialise := by
  rw [encode, value, Reply.serialise, List.length_map, serialiseAll_map_bulk, parts_eq_message]

theorem regular_value (r : Request) : r.value.Regular maxNesting := by
  show Reply.Regular (99 + 1) r.value
  exact .array (List.forall_mem_map.2 fun part _ => .bulk _)

theorem not_hasError_value (r : Request) : ¬ r.value.HasError := by
  rw [value, Reply.hasError_array_iff]
  rintro ⟨item, hitem, h⟩
  obtain ⟨part, -, rfl⟩ := List.mem_map.1 hitem
  cases h

section Decoding

variable {r : Request} (hlength : r.encode.length < 2 ^ 63)

include hlength

theorem read_encode : Reply.read r.encode = .complete r.value [] := by
  rw [encode_eq_serialise] at hlength
  rw [encode_eq_serialise, ← List.append_nil r.value.serialise]
  exact r.regular_value.read_serialise hlength []

/-- The bytes of a request, taken for a reply, are a success, and all of them are taken. -/
theorem decode_encode : decode r.encode = .ok (some (.success, r.encode.length)) := by
  have hread := read_encode hlength
  obtain ⟨n, hn⟩ := (decode_of_read hread).1 r.not_hasError_value
  obtain ⟨front, hfront, happend⟩ := Reply.exists_isReply_of_readNested hread
  rw [List.append_nil] at happend
  exact decode_of_answered (happend ▸ hfront) hn

theorem decode_of_part_of_encode {front back : Bytes} (hparts : r.encode = front ++ back)
    (hback : back ≠ []) : decode front = .ok none := by
  rw [encode_eq_serialise] at hlength hparts
  exact r.regular_value.decode_of_part hlength hparts hback

end Decoding

/-! ## No request begins another -/

/-- The parts of a request, and whatever follows them, are read from the front of a buffer. -/
theorem readBulks_encode (r : Request) (rest : Bytes) :
    ∃ s, r.encode ++ rest = 0x2a :: s ∧
      (readNumber 0 s).bind (fun (n, s) => readBulks n s) = some (r.parts, rest) := by
  refine ⟨numberBytes r.parts.length ++ (lineEnd ++ (r.parts.flatMap bulk ++ rest)), ?_, ?_⟩
  · simp [encode]
  · rw [readNumber_numberBytes, Option.bind_some]
    exact readBulks_flatMap r.parts rest

theorem eq_of_isPrefix {r r' : Request} (h : r.encode <+: r'.encode) :
    r.encode = r'.encode ∧ r.parts = r'.parts := by
  obtain ⟨rest, happend⟩ := h
  obtain ⟨s, hs, hread⟩ := readBulks_encode r rest
  obtain ⟨s', hs', hread'⟩ := readBulks_encode r' []
  rw [List.append_nil, ← happend, hs, List.cons.injEq] at hs'
  rw [hs'.2, hread', Option.some.injEq, Prod.mk.injEq] at hread
  obtain ⟨hparts, rfl⟩ := hread
  exact ⟨by rw [← happend, List.append_nil], hparts.symm⟩

end Request

/-- **The bytes of a request are unambiguous.**

They go behind what the buffer holds already, and are one array of bulk strings, which are what the
request is to say; they are read back as such, all of them. Taken for a reply they are a success
with nothing left over, and less than all of them is incomplete. Requests have the same bytes only
if they say the same, and the bytes of one do not begin those of another. (A buffer is shorter than
`2 ^ 63` bytes.) -/
theorem requests_unambiguous (r : Request) :
    (∀ buffer, r.encodeOnto buffer = buffer ++ r.encode) ∧
    r.encode = (Reply.array (some (r.message.map fun part => .bulk (some part)))).serialise ∧
    readParts r.encode = some r.message ∧
    (r.encode.length < 2 ^ 63 →
      Reply.read r.encode =
        .complete (.array (some (r.message.map fun part => .bulk (some part)))) [] ∧
      decode r.encode = .ok (some (.success, r.encode.length)) ∧
      ∀ front back, r.encode = front ++ back → back ≠ [] → decode front = .ok none) ∧
    ∀ r' : Request, (r.encode = r'.encode ↔ r.message = r'.message) ∧
      (r.encode <+: r'.encode → r.encode = r'.encode) := by
  refine ⟨fun _ => rfl, r.encode_eq_serialise, ?read, fun hlength => ?decode, fun r' => ?other⟩
  case read => rw [readParts_encode, Request.parts_eq_message]
  case decode =>
    exact ⟨Request.read_encode hlength, Request.decode_encode hlength,
      fun front back => Request.decode_of_part_of_encode hlength⟩
  case other =>
    refine ⟨⟨fun h => ?_, fun h => ?_⟩, fun h => (Request.eq_of_isPrefix h).1⟩
    · have hprefix : r.encode <+: r'.encode := h ▸ List.prefix_refl _
      rw [← r.parts_eq_message, ← r'.parts_eq_message, (Request.eq_of_isPrefix hprefix).2]
    · rw [r.encode_eq_serialise, r'.encode_eq_serialise, Request.value, Request.value, h]

/-- A request with a line end in its key and a last value that is shorter than the others. -/
theorem requests_unambiguous_binary :
    let r : Request := { action := .insert, key := [0x6b, 0x0d, 0x0a], values := [0, 1, 2, 3, 4],
                         valueLength := 2, items := 0, elementSize := 2, watermarks := none }
    r.message = [textBytes "SArray.insert", [0x6b, 0x0d, 0x0a], [0, 1], [2, 3], [4]] ∧
    Reply.read r.encode =
      .complete (.array (some (r.message.map fun part => .bulk (some part)))) [] ∧
    decode r.encode = .ok (some (.success, r.encode.length)) ∧
    decode (r.encode.take 20) = .ok none := by
  intro r
  have hlength : r.encode.length < 2 ^ 63 := by decide +kernel
  obtain ⟨-, -, -, hread, -⟩ := requests_unambiguous r
  obtain ⟨hread, hdecode, hpart⟩ := hread hlength
  refine ⟨by decide +kernel, hread, hdecode, ?_⟩
  exact hpart (r.encode.take 20) (r.encode.drop 20) (List.take_append_drop 20 _).symm
    (by decide +kernel)

end LoadGen.Wire
