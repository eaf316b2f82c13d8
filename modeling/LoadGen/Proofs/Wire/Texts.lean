import LoadGen.Proofs.Wire.Readers
import Mathlib

/-!
# Texts and numbers on the wire

A text is read back from its bytes (`fromUTF8?_textBytes`), and a whole number of 64 bits from its
decimal digits (`integerLine_integerBytes`). Digits are single bytes, so that the bytes of a number
are those of its decimal text (`numberBytes_eq`, `integerBytes_eq`).
-/

namespace LoadGen.Wire

/-! ## Texts -/

theorem toList_loop (b : ByteArray) (i : Nat) (done : Bytes) :
    ByteArray.toList.loop b i done = done.reverse ++ b.data.toList.drop i := by
  rw [ByteArray.toList.loop]
  split
  · next h =>
    have hi : i < b.data.toList.length := h
    have hget : b.get! i = b.data.toList[i] := getElem!_pos b.data i h
    rw [toList_loop, List.drop_eq_getElem_cons hi, hget, List.reverse_cons, List.append_assoc]
    rfl
  · next h =>
    have hi : b.data.toList.length ≤ i := Nat.le_of_not_lt h
    rw [List.drop_eq_nil_of_le hi, List.append_nil]
termination_by b.size - i

theorem textBytes_eq (s : String) : textBytes s = s.toByteArray.data.toList := by
  rw [textBytes, ByteArray.toList, toList_loop]
  rfl

/-- A text is read back from its bytes. -/
theorem fromUTF8?_textBytes (s : String) :
    String.fromUTF8? ⟨(textBytes s).toArray⟩ = some s := by
  have hbytes : (⟨(textBytes s).toArray⟩ : ByteArray) = s.toByteArray := by rw [textBytes_eq]
  rw [hbytes, String.fromUTF8?, dif_pos s.isValidUTF8]
  rfl

theorem textBytes_ofList (cs : List Char) :
    textBytes (String.ofList cs) = cs.flatMap String.utf8EncodeChar := by
  rw [textBytes_eq, String.toByteArray_ofList, List.utf8Encode, List.toList_data_toByteArray]

theorem textBytes_append (s t : String) : textBytes (s ++ t) = textBytes s ++ textBytes t := by
  rw [textBytes_eq, textBytes_eq, textBytes_eq, String.toByteArray_append,
    ByteArray.toList_data_append]

theorem readLine_textBytes {line : String} (h : IsLine (textBytes line)) (rest : Bytes) :
    readLine (textBytes line ++ lineEnd ++ rest) = .complete line rest := by
  simp only [readLine, lineBytes_line h, Scan.bind, List.reverse_nil, List.nil_append,
    fromUTF8?_textBytes]

/-! ## Digits -/

theorem toNat_of_isDigit {c : Char} (h : c.isDigit = true) : 48 ≤ c.toNat ∧ c.toNat ≤ 57 := by
  simpa [Char.isDigit, UInt32.le_iff_toNat_le] using h

theorem isDigit_of_mem_digits {c : Char} {n : Nat} (h : c ∈ Nat.toDigits 10 n) :
    c.isDigit = true :=
  Nat.isDigit_of_mem_toDigits (by decide) (by decide) h

theorem utf8EncodeChar_digit {c : Char} (h : c.isDigit = true) :
    String.utf8EncodeChar c = [UInt8.ofNat c.toNat] := by
  obtain ⟨-, hle⟩ := toNat_of_isDigit h
  rw [String.utf8EncodeChar_eq_singleton]
  · rfl
  · rw [Char.utf8Size, if_pos]
    exact UInt32.le_iff_toNat_le.2 (Nat.le_trans hle (by decide))

/-- The bytes of a number are those of its decimal text. -/
theorem numberBytes_eq (n : Nat) : numberBytes n = textBytes (toString n) := by
  have hdigits : ∀ cs : List Char, (∀ c ∈ cs, c.isDigit = true) →
      cs.map (fun c => UInt8.ofNat c.toNat) = cs.flatMap String.utf8EncodeChar := by
    intro cs hcs
    induction cs with
    | nil => rfl
    | cons c cs ih =>
      obtain ⟨hc, hcs⟩ := List.forall_mem_cons.1 hcs
      rw [List.map_cons, List.flatMap_cons, utf8EncodeChar_digit hc, ih hcs]
      rfl
  calc numberBytes n
      = (Nat.toDigits 10 n).flatMap String.utf8EncodeChar :=
        hdigits _ fun c hc => isDigit_of_mem_digits hc
    _ = textBytes (toString n) := (textBytes_ofList _).symm

theorem integerBytes_eq (n : Int) : integerBytes n = textBytes (toString n) := by
  cases n with
  | ofNat n => exact numberBytes_eq n
  | negSucc n =>
    have hminus : textBytes "-" = [0x2d] := by decide +kernel
    have htext : toString (Int.negSucc n) = "-" ++ toString (n + 1) := rfl
    rw [htext, textBytes_append, ← numberBytes_eq, hminus]
    rfl

/-! ## Whole numbers -/

theorem digit?_of_isDigit {c : Char} (h : c.isDigit = true) :
    Text.digit? c = some (c.toNat - '0'.toNat) := by
  rw [Text.digit?, if_pos]
  simpa [Char.isDigit, Char.le_def] using h

theorem foldlM_digits {cs : List Char} (hcs : ∀ c ∈ cs, c.isDigit = true) (n : Nat) :
    cs.foldlM (fun n c => (Text.digit? c).map (10 * n + ·)) n =
      some (Nat.ofDigitChars 10 cs n) := by
  induction cs generalizing n with
  | nil => rfl
  | cons c cs ih =>
    obtain ⟨hc, hcs⟩ := List.forall_mem_cons.1 hcs
    rw [List.foldlM_cons, digit?_of_isDigit hc, Nat.ofDigitChars_cons]
    exact ih hcs _

theorem digits?_toDigits (n : Nat) : Text.digits? (Nat.toDigits 10 n) = some n := by
  have hne : (Nat.toDigits 10 n).isEmpty = false := by simp
  rw [Text.digits?, hne, if_neg (by decide), foldlM_digits fun c hc => isDigit_of_mem_digits hc,
    Nat.ofDigitChars_ten_toDigits]

/-- No sign is a digit. -/
theorem toDigits_ne_cons {c : Char} (hc : c.isDigit = false) (n : Nat) (rest : List Char) :
    Nat.toDigits 10 n ≠ c :: rest := by
  intro h
  have hmem : c ∈ Nat.toDigits 10 n := by rw [h]; exact List.mem_cons_self
  rw [isDigit_of_mem_digits hmem] at hc
  cases hc

theorem toList_toString_ofNat (n : Nat) :
    (toString (Int.ofNat n)).toList = Nat.toDigits 10 n :=
  Nat.toList_repr

theorem toList_toString_negSucc (n : Nat) :
    (toString (Int.negSucc n)).toList = '-' :: Nat.toDigits 10 (n + 1) := by
  simp [toString, Int.repr]

/-- A whole number of 64 bits is read back from its decimal text. -/
theorem integer?_toString {n : Int} (hlow : -2 ^ 63 ≤ n) (hhigh : n < 2 ^ 63) :
    Text.integer? 64 (toString n).toList = some n := by
  cases n with
  | ofNat n =>
    have hlt : n < Nat.pow 2 63 := Int.ofNat_lt.1 hhigh
    rw [toList_toString_ofNat, Text.integer?]
    · simp [digits?_toDigits, Option.filter, hlt]
    · exact toDigits_ne_cons (by decide) n
    · exact toDigits_ne_cons (by decide) n
  | negSucc n =>
    have hle : n + 1 ≤ Nat.pow 2 63 := by
      have : -((2 ^ 63 : Nat) : Int) ≤ Int.negSucc n := hlow
      have : ((n + 1 : Nat) : Int) ≤ ((2 ^ 63 : Nat) : Int) := by omega
      exact Int.ofNat_le.1 this
    rw [toList_toString_negSucc, Text.integer?, digits?_toDigits]
    simp only [Option.filter, hle]
    rfl

theorem trimChars_eq_self {s : List Char} (h : ∀ c ∈ s, Text.isBlank c = false) :
    Text.trimChars s = s := by
  have hdrop (l : List Char) (hl : ∀ c ∈ l, Text.isBlank c = false) :
      l.dropWhile Text.isBlank = l := by
    cases l with
    | nil => rfl
    | cons c l => exact List.dropWhile_cons_of_neg (by simp [hl c List.mem_cons_self])
  rw [Text.trimChars, hdrop s h, hdrop s.reverse fun c hc => h c (List.mem_reverse.1 hc),
    List.reverse_reverse]

theorem isBlank_of_isDigit {c : Char} (h : c.isDigit = true) : Text.isBlank c = false := by
  obtain ⟨hlow, hhigh⟩ := toNat_of_isDigit h
  simp [Text.isBlank, Text.blankRanges]
  omega

theorem isBlank_of_mem_toString {n : Int} {c : Char} (h : c ∈ (toString n).toList) :
    Text.isBlank c = false := by
  cases n with
  | ofNat n =>
    rw [toList_toString_ofNat] at h
    exact isBlank_of_isDigit (isDigit_of_mem_digits h)
  | negSucc n =>
    rw [toList_toString_negSucc] at h
    rcases List.mem_cons.1 h with rfl | h
    · decide
    · exact isBlank_of_isDigit (isDigit_of_mem_digits h)

theorem isLine_of_not_mem {line : Bytes} (h : 0x0d ∉ line) : IsLine line :=
  fun hend => h (hend.subset List.mem_cons_self)

theorem not_mem_numberBytes (n : Nat) : 0x0d ∉ numberBytes n := by
  intro h
  obtain ⟨c, hc, hbyte⟩ := List.mem_map.1 h
  obtain ⟨hlow, hhigh⟩ := toNat_of_isDigit (isDigit_of_mem_digits hc)
  have : c.toNat % 256 = 13 := congrArg UInt8.toNat hbyte
  omega

theorem isLine_integerBytes (n : Int) : IsLine (integerBytes n) := by
  refine isLine_of_not_mem ?_
  cases n with
  | ofNat n => exact not_mem_numberBytes n
  | negSucc n => exact List.not_mem_cons_of_ne_of_not_mem (by decide) (not_mem_numberBytes _)

/-- The bytes of a whole number of 64 bits are a line that says this number. -/
theorem integerLine_integerBytes {n : Int} (hlow : -2 ^ 63 ≤ n) (hhigh : n < 2 ^ 63) :
    IntegerLine n (integerBytes n ++ lineEnd) := by
  refine ⟨integerBytes n, toString n, isLine_integerBytes n, ?_, ?_, rfl⟩
  · rw [integerBytes_eq, fromUTF8?_textBytes]
  · rw [trimChars_eq_self fun c hc => isBlank_of_mem_toString hc, integer?_toString hlow hhigh]

/-- So are those of a length. -/
theorem integerLine_numberBytes {n : Nat} (h : n < 2 ^ 63) :
    IntegerLine n (numberBytes n ++ lineEnd) := by
  have hhigh : (n : Int) < ((2 ^ 63 : Nat) : Int) := Int.ofNat_lt.2 h
  exact integerLine_integerBytes (n := n) (by omega) hhigh

end LoadGen.Wire
