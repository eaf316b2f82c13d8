import LoadGen.Proofs.Wire.Decoding
import LoadGen.Proofs.Wire.Texts

/-!
# Replies and their answers

`Reply.Regular` says which values a server may reply with. Each of them is read back from its bytes,
whatever comes after them (`Reply.Regular.read_serialise`), so that its own shape alone decides how
it answers a request: a value with no error line in it is a success, an error line is a rejection
with a reason, and an array with an error line somewhere inside cannot be understood. Less than the
whole of a value is never answered (`replies_classified`).
-/

namespace LoadGen.Wire

namespace Reply

/-! ## Values -/

/-- The values of the reply format with arrays nested at most `depth` deep, absent ones included. A
line has no line end in it, a whole number has 64 bits, and a body may be any bytes. -/
inductive Regular : Nat → Reply → Prop
  | simple {depth : Nat} {line : String} : IsLine (textBytes line) → Regular depth (.simple line)
  | error {depth : Nat} {line : String} : IsLine (textBytes line) → Regular depth (.error line)
  | integer {depth : Nat} {n : Int} : -2 ^ 63 ≤ n → n < 2 ^ 63 → Regular depth (.integer n)
  | bulk {depth : Nat} (body : Option Bytes) : Regular depth (.bulk body)
  | absent {depth : Nat} : Regular (depth + 1) (.array none)
  | array {depth : Nat} {items : List Reply} : (∀ item ∈ items, Regular depth item) →
      Regular (depth + 1) (.array (some items))

/-- A value has an error line in it, or is one. -/
inductive HasError : Reply → Prop
  | line (line : String) : HasError (.error line)
  | item {items : List Reply} {item : Reply} : item ∈ items → HasError item →
      HasError (.array (some items))

theorem hasError_array_iff {items : List Reply} :
    HasError (.array (some items)) ↔ ∃ item ∈ items, item.HasError := by
  refine ⟨fun h => ?_, fun ⟨item, hitem, h⟩ => .item hitem h⟩
  cases h with
  | item hitem h => exact ⟨_, hitem, h⟩

mutual

/-- The first error line is found if there is one. -/
theorem isSome_firstError?_iff : ∀ v : Reply, v.firstError?.isSome = true ↔ v.HasError
  | .error line => ⟨fun _ => .line line, fun _ => rfl⟩
  | .array (some items) => by
    rw [firstError?, isSome_firstErrorIn_iff items, hasError_array_iff]
  | .array none | .simple _ | .integer _ | .bulk _ => ⟨nofun, nofun⟩

theorem isSome_firstErrorIn_iff :
    ∀ items : List Reply, (firstErrorIn items).isSome = true ↔ ∃ item ∈ items, item.HasError
  | [] => by simp [firstErrorIn]
  | v :: items => by
    have hv := isSome_firstError?_iff v
    have hitems := isSome_firstErrorIn_iff items
    rw [firstErrorIn, List.exists_mem_cons_iff, ← hv, ← hitems]
    cases v.firstError? <;> simp

end
/-! ## Lengths -/

theorem length_serialise_pos (v : Reply) : 0 < v.serialise.length := by
  cases v with
  | bulk body => cases body <;> simp [serialise, Wire.bulk]
  | array items => cases items <;> simp [serialise]
  | _ => simp [serialise]

theorem length_le_serialiseAll (items : List Reply) :
    items.length ≤ (serialiseAll items).length := by
  induction items with
  | nil => exact Nat.le_refl _
  | cons item items ih =>
    have := length_serialise_pos item
    simp only [serialiseAll, List.length_append, List.length_cons]
    omega

theorem length_serialise_le {items : List Reply} {item : Reply} (h : item ∈ items) :
    item.serialise.length ≤ (serialiseAll items).length := by
  induction items with
  | nil => cases h
  | cons item' items ih =>
    simp only [serialiseAll, List.length_append]
    rcases List.mem_cons.1 h with rfl | h
    · omega
    · have := ih h
      omega

/-! ## Reading back -/

/-- Values in a row are read back if each of them is. -/
theorem readMany_serialiseAll {readOne : Bytes → Scan Reply} {items : List Reply}
    (h : ∀ item ∈ items, ∀ rest, readOne (item.serialise ++ rest) = .complete item rest)
    (rest : Bytes) (done : List Reply) :
    readMany readOne items.length (serialiseAll items ++ rest) done =
      .complete (done.reverse ++ items) rest := by
  induction items generalizing done with
  | nil => simp [readMany, serialiseAll]
  | cons item items ih =>
    obtain ⟨hitem, hitems⟩ := List.forall_mem_cons.1 h
    rw [serialiseAll, List.append_assoc, List.length_cons, readMany, hitem]
    dsimp only
    rw [ih hitems, List.reverse_cons, List.append_assoc]
    rfl

/-- A value is read back from its bytes, whatever comes after them. -/
theorem Regular.readNested_serialise {depth : Nat} {v : Reply} (h : v.Regular depth)
    (hlength : v.serialise.length < 2 ^ 63) (rest : Bytes) :
    readNested depth (v.serialise ++ rest) = .complete v rest := by
  induction h generalizing rest with
  | simple hline =>
    rw [serialise, List.cons_append, List.cons_append, readNested_simple, readLine_textBytes hline]
    rfl
  | error hline =>
    rw [serialise, List.cons_append, List.cons_append, readNested_error, readLine_textBytes hline]
    rfl
  | integer hlow hhigh =>
    rw [serialise, List.cons_append, List.cons_append, readNested_integer,
      readInteger_integerLine (integerLine_integerBytes hlow hhigh)]
    rfl
  | bulk body =>
    cases body with
    | none =>
      rw [serialise, List.cons_append, List.cons_append, readNested_bulk,
        readInteger_integerLine (integerLine_integerBytes (by decide) (by decide))]
      rfl
    | some body =>
      have hbody : body.length < 2 ^ 63 := by
        simp only [serialise, Wire.bulk, List.length_append, List.length_cons] at hlength
        omega
      have happend : serialise (.bulk (some body)) ++ rest =
          0x24 :: ((numberBytes body.length ++ lineEnd) ++ (body ++ lineEnd ++ rest)) := by
        simp [serialise, Wire.bulk]
      rw [happend, readNested_bulk, readInteger_integerLine (integerLine_numberBytes hbody),
        Scan.bind, readBulk_nat, readBody_append]
      rfl
  | absent =>
    rw [serialise, List.cons_append, List.cons_append, readNested_array,
      readInteger_integerLine (integerLine_integerBytes (by decide) (by decide))]
    rfl
  | @array depth items hitems ih =>
    simp only [serialise, List.length_append, List.length_cons] at hlength
    have hcount : items.length < 2 ^ 63 := by
      have := length_le_serialiseAll items
      omega
    have happend : serialise (.array (some items)) ++ rest =
        0x2a :: ((numberBytes items.length ++ lineEnd) ++ (serialiseAll items ++ rest)) := by
      simp [serialise]
    rw [happend, readNested_array, readInteger_integerLine (integerLine_numberBytes hcount),
      Scan.bind, readArray_nat, readMany_serialiseAll fun item hitem rest => ?_]
    · rfl
    · have := length_serialise_le hitem
      exact ih item hitem (by omega) rest

theorem Regular.read_serialise {v : Reply} (h : v.Regular maxNesting)
    (hlength : v.serialise.length < 2 ^ 63) (rest : Bytes) :
    read (v.serialise ++ rest) = .complete v rest :=
  h.readNested_serialise hlength rest

/-- Less than the whole of a value is incomplete. -/
theorem Regular.decode_of_part {v : Reply} (h : v.Regular maxNesting)
    (hlength : v.serialise.length < 2 ^ 63) {front back : Bytes}
    (hparts : v.serialise = front ++ back) (hback : back ≠ []) : decode front = .ok none := by
  have hwhole : read (front ++ back) = .complete v [] := by
    rw [← hparts, ← List.append_nil v.serialise]
    exact h.read_serialise hlength []
  by_cases hincomplete : read front = .incomplete
  · rw [decode, hincomplete]
  rw [stable_read front back hincomplete] at hwhole
  cases hread : read front with
  | incomplete => exact absurd hread hincomplete
  | malformed =>
    rw [hread] at hwhole
    cases hwhole
  | complete value rest =>
    -- all of the bytes are the value, so nothing can be left for the rest
    rw [hread] at hwhole
    simp only [Scan.extend, Scan.complete.injEq, List.append_eq_nil_iff] at hwhole
    exact absurd hwhole.2.2 hback

end Reply

/-! ## Reasons -/

theorem isSome_lookup_iff {α : Type} (code : String) (codes : List (String × α)) :
    (codes.lookup code).isSome = true ↔ code ∈ codes.map Prod.fst := by
  induction codes with
  | nil => simp
  | cons c codes ih =>
    rw [List.lookup_cons, List.map_cons, List.mem_cons, ← ih]
    by_cases h : code = c.1
    · simp [h]
    · have hne : (code == c.1) = false := by simpa using h
      simp only [hne, h, false_or]

/-- A line without a space is a code without a detail. -/
theorem splitError_of_not_mem {line : String} (h : ' ' ∉ line.toList) :
    splitError line = (line, none) := by
  have hall : ∀ c ∈ line.toList, (c != ' ') = true := by
    intro c hc
    simp only [bne_iff_ne, ne_eq]
    rintro rfl
    exact h hc
  rw [splitError, List.dropWhile_eq_nil_iff.2 hall, List.takeWhile_eq_self_iff.2 hall,
    String.ofList_toList]

/-- A line with a space is cut at the first one. -/
theorem exists_splitError_eq {line : String} (h : ' ' ∈ line.toList) :
    ∃ code detail, splitError line = (code, some detail) ∧ code ++ " " ++ detail = line := by
  have hne : line.toList.dropWhile (· != ' ') ≠ [] := by
    rw [Ne, List.dropWhile_eq_nil_iff]
    exact fun hall => by simpa using hall ' ' h
  have hhead := List.head_dropWhile_not _ hne
  have hparts : line.toList.takeWhile (· != ' ') ++ line.toList.dropWhile (· != ' ') =
      line.toList := List.takeWhile_append_dropWhile
  rw [splitError]
  generalize line.toList.dropWhile (· != ' ') = rest at hne hhead hparts
  cases rest with
  | nil => exact absurd rfl hne
  | cons c detail =>
    obtain rfl : c = ' ' := by simpa using hhead
    refine ⟨_, _, rfl, ?_⟩
    have hspace : " " = String.ofList [' '] := rfl
    rw [hspace, ← String.ofList_append, ← String.ofList_append, List.append_assoc,
      List.singleton_append, hparts, String.ofList_toList]

/-- An error line is its own reason if it has a detail or is a known code. -/
theorem rejectionReason_eq (line : String) :
    rejectionReason line =
      if ' ' ∈ line.toList ∨ line ∈ knownCodes.map Prod.fst then line
      else line ++ " " ++ standardDetail := by
  by_cases h : ' ' ∈ line.toList
  · obtain ⟨code, detail, hsplit, hline⟩ := exists_splitError_eq h
    rw [rejectionReason, hsplit, if_pos (.inl h)]
    exact hline
  · rw [rejectionReason, splitError_of_not_mem h]
    simp only [isSome_lookup_iff, h, false_or]

/-! ## Answers -/

/-- What a value comes to when it is read from the front of a buffer. -/
theorem decode_of_read {s rest : Bytes} {v : Reply} (h : Reply.read s = .complete v rest) :
    (¬ v.HasError → ∃ n, decode s = .ok (some (.success, n))) ∧
      (∀ line, v = .error line → ∃ n, decode s = .ok (some (.rejected (rejectionReason line), n))) ∧
      (∀ items, v = .array (some items) → v.HasError → ∃ fault, decode s = .error fault) := by
  refine ⟨fun hv => ?_, ?_, ?_⟩
  · have hnone : v.firstError? = none := by
      rw [← Option.not_isSome_iff_eq_none, Reply.isSome_firstError?_iff]
      exact hv
    rw [decode, h]
    cases v with
    | error line => exact absurd (.line line) hv
    | _ => exact ⟨_, by simp only [hnone]; rfl⟩
  · rintro line rfl
    exact ⟨_, by rw [decode, h]⟩
  · rintro items rfl hv
    obtain ⟨line, hline⟩ := Option.isSome_iff_exists.1 ((Reply.isSome_firstError?_iff _).2 hv)
    exact ⟨⟨errorDescription line⟩, by simp only [decode, h, hline]⟩

/-- **Replies are classified by their values.** Whatever follows a value in the buffer, it is a
success if there is no error line in it, a rejection if it is an error line, and not understood if
it is an array with an error line somewhere inside. The reason of a rejection is the line itself if
that has a detail or is a known code. Less than the whole of a value is incomplete. (A buffer is
shorter than `2 ^ 63` bytes, and so are the lengths announced in it.) -/
theorem replies_classified {v : Reply} (hv : v.Regular maxNesting)
    (hlength : v.serialise.length < 2 ^ 63) :
    (¬ v.HasError → ∀ t, ∃ n, decode (v.serialise ++ t) = .ok (some (.success, n))) ∧
    (∀ line, v = .error line → ∀ t, ∃ n,
      decode (v.serialise ++ t) = .ok (some (.rejected
        (if ' ' ∈ line.toList ∨ line ∈ knownCodes.map Prod.fst then line
          else line ++ " Unknown extension error encountered"), n))) ∧
    (∀ items, v = .array (some items) → v.HasError → ∀ t, ∃ fault,
      decode (v.serialise ++ t) = .error fault) ∧
    ∀ front back, v.serialise = front ++ back → back ≠ [] → decode front = .ok none := by
  have hread (t : Bytes) := decode_of_read (hv.read_serialise hlength t)
  refine ⟨fun h t => (hread t).1 h, fun line h t => ?_,
    fun items h hv t => (hread t).2.2 items h hv,
    fun front back hparts hback => hv.decode_of_part hlength hparts hback⟩
  obtain ⟨n, hn⟩ := (hread t).2.1 line h
  have hdetail : line ++ " " ++ standardDetail = line ++ " Unknown extension error encountered" :=
    String.append_assoc ..
  rw [rejectionReason_eq, hdetail] at hn
  exact ⟨n, hn⟩

/-- An array that has an error line deep inside, next to a body that looks like one. -/
def Reply.nested : Reply :=
  .array (some [.bulk (some [0x0d, 0x0a, 0x2d, 0x78, 0x0d, 0x0a]), .array none,
    .array (some [.integer (-7), .error "ERR no such key"])])

theorem Reply.regular_nested : Reply.nested.Regular maxNesting := by
  have hline : IsLine (textBytes "ERR no such key") := by decide +kernel
  have hinner : Regular 98 (.error "ERR no such key") := .error hline
  have hlast : Regular 99 (.array (some [.integer (-7), .error "ERR no such key"])) :=
    .array (List.forall_mem_cons.2 ⟨.integer (by decide) (by decide),
      List.forall_mem_singleton.2 hinner⟩)
  show Regular (99 + 1) Reply.nested
  exact .array (List.forall_mem_cons.2 ⟨.bulk _, List.forall_mem_cons.2 ⟨.absent,
    List.forall_mem_singleton.2 hlast⟩⟩)

theorem replies_classified_nested :
    Reply.nested.Regular maxNesting ∧ Reply.nested.serialise.length < 2 ^ 63 ∧
      ∀ t, ∃ fault, decode (Reply.nested.serialise ++ t) = .error fault := by
  have hlength : Reply.nested.serialise.length < 2 ^ 63 := by decide +kernel
  have herror : Reply.nested.HasError :=
    .item (List.mem_cons_of_mem _ (List.mem_cons_of_mem _ List.mem_cons_self))
      (.item (List.mem_cons_of_mem _ List.mem_cons_self) (.line _))
  obtain ⟨-, -, hrefused, -⟩ := replies_classified Reply.regular_nested hlength
  exact ⟨Reply.regular_nested, hlength, hrefused _ rfl herror⟩

end LoadGen.Wire
