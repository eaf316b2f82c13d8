import LoadGen.Wire.Request

/-!
# Reading requests

What a server makes of the bytes of a request: an array of bulk strings is read back into its parts
(`readParts_encode`), so that nothing is lost between a request and the server that carries it out.
-/

namespace LoadGen.Wire

/-- The number in decimal digits up to the line end, with `n` for the digits in front of them. -/
def readNumber : Nat → Bytes → Option (Nat × Bytes)
  | _, [] => none
  | n, 0x0d :: 0x0a :: rest => some (n, rest)
  | n, b :: rest =>
    if 0x30 ≤ b ∧ b ≤ 0x39 then readNumber (10 * n + (b.toNat - 0x30)) rest else none

/-- The bulk string at the front. -/
def readBulk : Bytes → Option (Bytes × Bytes)
  | 0x24 :: s => do
    let (length, s) ← readNumber 0 s
    if (s.drop length).take 2 = lineEnd then some (s.take length, s.drop (length + 2)) else none
  | _ => none

/-- The `n` bulk strings at the front. -/
def readBulks : Nat → Bytes → Option (List Bytes × Bytes)
  | 0, s => some ([], s)
  | n + 1, s => do
    let (body, s) ← readBulk s
    let (bodies, s) ← readBulks n s
    return (body :: bodies, s)

/-- The parts of a request. -/
def readParts : Bytes → Option (List Bytes)
  | 0x2a :: s => do
    let (n, s) ← readNumber 0 s
    match ← readBulks n s with
    | (parts, []) => some parts
    | _ => none
  | _ => none

theorem readNumber_digits (cs : List Char) (hcs : ∀ c ∈ cs, c.isDigit = true) (n : Nat)
    (rest : Bytes) :
    readNumber n (cs.map (fun c => UInt8.ofNat c.toNat) ++ (lineEnd ++ rest)) =
      some (Nat.ofDigitChars 10 cs n, rest) := by
  induction cs generalizing n with
  | nil => rfl
  | cons c cs ih =>
    have hdigit : 48 ≤ c.toNat ∧ c.toNat ≤ 57 := by
      have := hcs c List.mem_cons_self
      simpa [Char.isDigit, UInt32.le_iff_toNat_le] using this
    have hbyte : (UInt8.ofNat c.toNat).toNat = c.toNat :=
      Nat.mod_eq_of_lt (by omega)
    have hlow : (0x30 : UInt8) ≤ UInt8.ofNat c.toNat := by
      rw [UInt8.le_iff_toNat_le, hbyte]
      exact hdigit.1
    have hhigh : UInt8.ofNat c.toNat ≤ 0x39 := by
      rw [UInt8.le_iff_toNat_le, hbyte]
      exact hdigit.2
    rw [List.map_cons, List.cons_append, readNumber, if_pos ⟨hlow, hhigh⟩, hbyte,
      ih fun c hc => hcs c (List.mem_cons_of_mem _ hc), Nat.ofDigitChars_cons]
    · rfl
    · intro rest' hcr
      have : (UInt8.ofNat c.toNat).toNat = 13 := by rw [hcr]; rfl
      omega

theorem readNumber_numberBytes (n : Nat) (rest : Bytes) :
    readNumber 0 (numberBytes n ++ (lineEnd ++ rest)) = some (n, rest) := by
  rw [numberBytes, readNumber_digits _ (fun c hc => Nat.isDigit_of_mem_toDigits (by decide)
    (by decide) hc), Nat.ofDigitChars_ten_toDigits]

theorem readBulk_bulk (body rest : Bytes) : readBulk (bulk body ++ rest) = some (body, rest) := by
  have hbytes : bulk body ++ rest =
      0x24 :: (numberBytes body.length ++ (lineEnd ++ (body ++ (lineEnd ++ rest)))) := by
    simp [bulk]
  rw [hbytes, readBulk, readNumber_numberBytes]
  simp only [Option.bind_eq_bind, Option.bind_some]
  have hend : (body ++ (lineEnd ++ rest)).drop body.length = lineEnd ++ rest := List.drop_left
  rw [hend, if_pos (by rfl), List.take_left, ← List.drop_drop, hend]
  rfl

theorem readBulks_flatMap (bodies : List Bytes) (rest : Bytes) :
    readBulks bodies.length (bodies.flatMap bulk ++ rest) = some (bodies, rest) := by
  induction bodies with
  | nil => rfl
  | cons body bodies ih =>
    rw [List.flatMap_cons, List.append_assoc, List.length_cons, readBulks, readBulk_bulk]
    simp only [Option.bind_eq_bind, Option.bind_some, ih]
    rfl

/-- **The parts of a request are read back from its bytes.** -/
theorem readParts_encode (r : Request) : readParts r.encode = some r.parts := by
  have hbytes : r.encode =
      0x2a :: (numberBytes r.parts.length ++ (lineEnd ++ (r.parts.flatMap bulk ++ []))) := by
    simp [Request.encode]
  rw [hbytes, readParts, readNumber_numberBytes]
  simp only [Option.bind_eq_bind, Option.bind_some, readBulks_flatMap]

end LoadGen.Wire
