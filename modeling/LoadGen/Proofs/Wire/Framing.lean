import LoadGen.Proofs.Wire.Readers

/-!
# Replies in a stream

`IsReply` says which bytes are one reply, however deeply nested, and error lines are replies whether
or not they are text. Reading ends exactly where a reply does (`endsAt_replyEnd`,
`exists_isReply_of_replyEnd`): a part of a reply that is not all of it is never answered
(`decode_of_part`), all of it is taken when it is answered (`decode_of_isReply`), and what
is answered begins with one reply (`exists_isReply_of_decode`). Apart from the number of bytes
taken, what is said of some bytes stays so when more follow (`verdict_append`).
-/

namespace LoadGen.Wire

/-- The bytes of one reply: a line, a whole number, an absent value, a bulk string, or an array. -/
inductive IsReply : Bytes → Prop
  | line {b : UInt8} {line : Bytes} : b = 0x2b ∨ b = 0x2d → IsLine line →
      IsReply (b :: line ++ lineEnd)
  | integer {n : Int} {line : Bytes} : IntegerLine n line → IsReply (0x3a :: line)
  | absent {b : UInt8} {n : Int} {line : Bytes} : b = 0x24 ∨ b = 0x2a → IntegerLine n line → n < 0 →
      IsReply (b :: line)
  | bulk {line body : Bytes} : IntegerLine body.length line →
      IsReply (0x24 :: line ++ body ++ lineEnd)
  | array {line : Bytes} {items : List Bytes} : IntegerLine items.length line →
      (∀ item ∈ items, IsReply item) → IsReply (0x2a :: line ++ items.flatten)

namespace Reply

/-! ## Readers of values -/

/-- A bulk string of a given length, absent if it is negative. -/
def readBulk (length : Int) (s : Bytes) : Scan Reply :=
  if length < 0 then .complete (.bulk none) s
  else (readBody length.toNat s).map fun body => .bulk (some body)

/-- An array with a given number of items, absent if it is negative. -/
def readArray (depth : Nat) (length : Int) (s : Bytes) : Scan Reply :=
  if length < 0 then .complete (.array none) s
  else (readMany (readNested depth) length.toNat s []).map fun items => .array (some items)

section Equations

variable (depth : Nat) (s : Bytes)

theorem readNested_nil : readNested depth [] = .incomplete := by rw [readNested]

theorem readNested_simple : readNested depth (0x2b :: s) = (readLine s).map .simple := by
  cases depth <;> rfl

theorem readNested_error : readNested depth (0x2d :: s) = (readLine s).map .error := by
  cases depth <;> rfl

theorem readNested_integer : readNested depth (0x3a :: s) = (readInteger s).map .integer := by
  cases depth <;> rfl

theorem readNested_bulk : readNested depth (0x24 :: s) = (readInteger s).bind readBulk := by
  cases depth <;> rfl

theorem readNested_array_zero : readNested 0 (0x2a :: s) = refuse s := rfl

theorem readNested_array :
    readNested (depth + 1) (0x2a :: s) = (readInteger s).bind (readArray depth) := rfl

theorem readNested_other {b : UInt8} (hb : b ∉ [0x2b, 0x2d, 0x3a, 0x24, 0x2a]) :
    readNested depth (b :: s) = refuse s := by
  simp only [List.mem_cons, List.not_mem_nil, or_false, not_or] at hb
  cases depth <;> simp [readNested, hb]

theorem readBulk_neg {length : Int} (h : length < 0) :
    readBulk length s = .complete (.bulk none) s :=
  if_pos h

theorem readBulk_nat (length : Nat) :
    readBulk length s = (readBody length s).map fun body => .bulk (some body) :=
  if_neg (Int.not_lt.2 (Int.natCast_nonneg length))

theorem readArray_neg {length : Int} (h : length < 0) :
    readArray depth length s = .complete (.array none) s :=
  if_pos h

theorem readArray_nat (length : Nat) :
    readArray depth length s =
      (readMany (readNested depth) length s []).map fun items => .array (some items) :=
  if_neg (Int.not_lt.2 (Int.natCast_nonneg length))

end Equations

/-- The first byte of a reply. -/
theorem firstByte_cases (b : UInt8) :
    b = 0x2b ∨ b = 0x2d ∨ b = 0x3a ∨ b = 0x24 ∨ b = 0x2a ∨ b ∉ [0x2b, 0x2d, 0x3a, 0x24, 0x2a] := by
  by_cases hb : b ∈ [0x2b, 0x2d, 0x3a, 0x24, 0x2a]
  · simp only [List.mem_cons, List.not_mem_nil, or_false] at hb
    rcases hb with hb | hb | hb | hb | hb <;> simp [hb]
  · simp [hb]

/-! ### Stability -/

theorem stable_readBulk (length : Int) : Stable fun s => readBulk length s := by
  rcases Int.lt_or_le length 0 with hlength | hlength
  · intro s t h
    simp only [readBulk_neg _ hlength, Scan.extend]
  · obtain ⟨n, rfl⟩ := Int.eq_ofNat_of_zero_le hlength
    simp only [readBulk_nat]
    exact (stable_readBody n).map _

theorem stable_readArray {depth : Nat} (hread : Stable (readNested depth)) (length : Int) :
    Stable fun s => readArray depth length s := by
  rcases Int.lt_or_le length 0 with hlength | hlength
  · intro s t h
    simp only [readArray_neg _ _ hlength, Scan.extend]
  · obtain ⟨n, rfl⟩ := Int.eq_ofNat_of_zero_le hlength
    simp only [readArray_nat]
    exact (stable_readMany hread n []).map _

/-- Only arrays depend on the depth. -/
theorem stable_of_array {depth : Nat} (harray : Stable fun s => readNested depth (0x2a :: s)) :
    Stable (readNested depth) := by
  have hfirst (b : UInt8) : Stable fun s => readNested depth (b :: s) := by
    rcases firstByte_cases b with rfl | rfl | rfl | rfl | rfl | hb
    · simp only [readNested_simple]
      exact stable_readLine.map _
    · simp only [readNested_error]
      exact stable_readLine.map _
    · simp only [readNested_integer]
      exact stable_readInteger.map _
    · simp only [readNested_bulk]
      exact stable_readInteger.bind stable_readBulk
    · exact harray
    · simp only [readNested_other _ _ hb]
      exact stable_refuse
  intro s t h
  cases s with
  | nil => exact absurd (readNested_nil depth) h
  | cons b s => exact hfirst b s t h

theorem stable_readNested (depth : Nat) : Stable (readNested depth) := by
  induction depth with
  | zero =>
    refine stable_of_array ?_
    simp only [readNested_array_zero]
    exact stable_refuse
  | succ depth ih =>
    refine stable_of_array ?_
    simp only [readNested_array]
    exact stable_readInteger.bind (stable_readArray ih)

theorem stable_read : Stable read := stable_readNested maxNesting

/-! ### Ends -/

/-- Reading at any depth ends where a reply does. -/
theorem endsAt_readNested {s : Bytes} (h : IsReply s) (depth : Nat) (rest : Bytes) :
    (readNested depth (s ++ rest)).EndsAt rest := by
  induction h generalizing depth rest with
  | line hb hline =>
    rcases hb with rfl | rfl
    · rw [List.cons_append, List.cons_append, readNested_simple]
      exact (endsAt_readLine hline rest).map _
    · rw [List.cons_append, List.cons_append, readNested_error]
      exact (endsAt_readLine hline rest).map _
  | integer hline =>
    rw [List.cons_append, readNested_integer, readInteger_integerLine hline]
    exact .inr ⟨_, rfl⟩
  | @absent b n line hb hline hn =>
    rcases hb with rfl | rfl
    · rw [List.cons_append, readNested_bulk, readInteger_integerLine hline]
      exact .inr ⟨_, readBulk_neg rest hn⟩
    · cases depth with
      | zero =>
        rw [List.cons_append, readNested_array_zero]
        exact .inl (refuse_eq_malformed (List.append_ne_nil_of_left_ne_nil hline.ne_nil rest))
      | succ depth =>
        rw [List.cons_append, readNested_array, readInteger_integerLine hline]
        exact .inr ⟨_, readArray_neg depth rest hn⟩
  | @bulk line body hline =>
    have happend : (0x24 :: line ++ body ++ lineEnd) ++ rest =
        0x24 :: (line ++ (body ++ lineEnd ++ rest)) := by
      simp only [List.cons_append, List.append_assoc]
    rw [happend, readNested_bulk, readInteger_integerLine hline, Scan.bind, readBulk_nat,
      readBody_append]
    exact .inr ⟨_, rfl⟩
  | @array line items hline hitems ih =>
    have happend : (0x2a :: line ++ items.flatten) ++ rest =
        0x2a :: (line ++ (items.flatten ++ rest)) := by
      simp only [List.cons_append, List.append_assoc]
    rw [happend]
    cases depth with
    | zero =>
      rw [readNested_array_zero]
      exact .inl (refuse_eq_malformed (List.append_ne_nil_of_left_ne_nil hline.ne_nil _))
    | succ depth =>
      rw [readNested_array, readInteger_integerLine hline, Scan.bind, readArray_nat]
      exact (endsAt_readMany (fun item hitem => ih item hitem depth) rest []).map _

/-- What is read as a bulk string, after its first byte. -/
theorem isReply_of_readBulk {s rest line : Bytes} {length : Int} {value : Reply}
    (hline : IntegerLine length line) (h : readBulk length s = .complete value rest) :
    ∃ front, IsReply (0x24 :: line ++ front) ∧ s = front ++ rest := by
  rcases Int.lt_or_le length 0 with hlength | hlength
  · rw [readBulk_neg s hlength] at h
    cases h
    refine ⟨[], ?_, rfl⟩
    rw [List.append_nil]
    exact .absent (.inl rfl) hline hlength
  · obtain ⟨n, rfl⟩ := Int.eq_ofNat_of_zero_le hlength
    rw [readBulk_nat] at h
    obtain ⟨body, hbody, -⟩ := Scan.map_eq_complete h
    obtain ⟨rfl, rfl⟩ := exists_body_of_readBody hbody
    refine ⟨body ++ lineEnd, ?_, rfl⟩
    rw [← List.append_assoc]
    exact .bulk hline

/-- What is read as an array, after its first byte. -/
theorem isReply_of_readArray {depth : Nat} {s rest line : Bytes} {length : Int} {value : Reply}
    (hread : ∀ {s value rest}, readNested depth s = .complete value rest →
      ∃ front, IsReply front ∧ s = front ++ rest)
    (hline : IntegerLine length line) (h : readArray depth length s = .complete value rest) :
    ∃ front, IsReply (0x2a :: line ++ front) ∧ s = front ++ rest := by
  rcases Int.lt_or_le length 0 with hlength | hlength
  · rw [readArray_neg depth s hlength] at h
    cases h
    refine ⟨[], ?_, rfl⟩
    rw [List.append_nil]
    exact .absent (.inr rfl) hline hlength
  · obtain ⟨n, rfl⟩ := Int.eq_ofNat_of_zero_le hlength
    rw [readArray_nat] at h
    obtain ⟨values, hvalues, -⟩ := Scan.map_eq_complete h
    obtain ⟨items, rfl, hitems, rfl⟩ := exists_items_of_readMany hread hvalues
    exact ⟨items.flatten, .array hline hitems, rfl⟩

/-- Only arrays depend on the depth. -/
theorem exists_isReply_of_array {depth : Nat}
    (harray : ∀ {s value rest}, readNested depth (0x2a :: s) = .complete value rest →
      ∃ front, IsReply (0x2a :: front) ∧ s = front ++ rest)
    {s rest : Bytes} {value : Reply} (h : readNested depth s = .complete value rest) :
    ∃ front, IsReply front ∧ s = front ++ rest := by
  cases s with
  | nil =>
    rw [readNested_nil] at h
    cases h
  | cons b s =>
    suffices hfront : ∃ front, IsReply (b :: front) ∧ s = front ++ rest by
      obtain ⟨front, hreply, rfl⟩ := hfront
      exact ⟨b :: front, hreply, rfl⟩
    rcases firstByte_cases b with rfl | rfl | rfl | rfl | rfl | hb
    · rw [readNested_simple] at h
      obtain ⟨text, htext, -⟩ := Scan.map_eq_complete h
      obtain ⟨line, hline, -, rfl⟩ := exists_line_of_readLine htext
      exact ⟨line ++ lineEnd, .line (.inl rfl) hline, rfl⟩
    · rw [readNested_error] at h
      obtain ⟨text, htext, -⟩ := Scan.map_eq_complete h
      obtain ⟨line, hline, -, rfl⟩ := exists_line_of_readLine htext
      exact ⟨line ++ lineEnd, .line (.inr rfl) hline, rfl⟩
    · rw [readNested_integer] at h
      obtain ⟨n, hn, -⟩ := Scan.map_eq_complete h
      obtain ⟨line, hline, rfl⟩ := exists_integerLine_of_readInteger hn
      exact ⟨line, .integer hline, rfl⟩
    · rw [readNested_bulk] at h
      obtain ⟨length, rest', hlength, hbulk⟩ := Scan.bind_eq_complete h
      obtain ⟨line, hline, rfl⟩ := exists_integerLine_of_readInteger hlength
      obtain ⟨front, hreply, rfl⟩ := isReply_of_readBulk hline hbulk
      exact ⟨line ++ front, hreply, (List.append_assoc _ _ _).symm⟩
    · exact harray h
    · rw [readNested_other _ _ hb, refuse] at h
      split at h <;> cases h

/-- A value that was read is one reply. -/
theorem exists_isReply_of_readNested {depth : Nat} {s rest : Bytes} {value : Reply}
    (h : readNested depth s = .complete value rest) :
    ∃ front, IsReply front ∧ s = front ++ rest := by
  induction depth generalizing s rest value with
  | zero =>
    refine exists_isReply_of_array (fun {s value rest} h => ?_) h
    rw [readNested_array_zero, refuse] at h
    split at h <;> cases h
  | succ depth ih =>
    refine exists_isReply_of_array (fun {s value rest} h => ?_) h
    rw [readNested_array] at h
    obtain ⟨length, rest', hlength, hitems⟩ := Scan.bind_eq_complete h
    obtain ⟨line, hline, rfl⟩ := exists_integerLine_of_readInteger hlength
    obtain ⟨front, hreply, rfl⟩ := isReply_of_readArray ih hline hitems
    exact ⟨line ++ front, hreply, (List.append_assoc _ _ _).symm⟩

end Reply

end LoadGen.Wire
