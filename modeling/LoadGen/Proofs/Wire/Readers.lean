import LoadGen.Wire.Response

/-!
# Readers

Replies are read from the front of bytes that still grow. What a reader says of some bytes, other
than that they are incomplete, stays so when more bytes follow (`Stable`). For each reader there is
also a description of the bytes it takes, without a word about reading: lines (`IsLine`), lines with
a whole number (`IntegerLine`), bodies, and values in a row. On such bytes the reader ends where
they end, and whenever it is successful it has taken such bytes.
-/

namespace LoadGen.Wire

variable {α β : Type}

/-! ## Readers -/

namespace Scan

/-- What was read when more bytes follow. -/
def extend (t : Bytes) : Scan α → Scan α
  | complete value rest => complete value (rest ++ t)
  | incomplete => incomplete
  | malformed => malformed

/-- All but `rest` was read, successfully or not. -/
def EndsAt (scan : Scan α) (rest : Bytes) : Prop :=
  scan = malformed ∨ ∃ value, scan = complete value rest

theorem EndsAt.bind {scan : Scan α} {rest rest' : Bytes} (h : scan.EndsAt rest)
    {f : α → Bytes → Scan β} (hf : ∀ value, (f value rest).EndsAt rest') :
    (scan.bind f).EndsAt rest' := by
  rcases h with rfl | ⟨value, rfl⟩
  · exact .inl rfl
  · exact hf value

theorem EndsAt.map {scan : Scan α} {rest : Bytes} (h : scan.EndsAt rest) (f : α → β) :
    (scan.map f).EndsAt rest :=
  h.bind fun _ => .inr ⟨_, rfl⟩

theorem bind_eq_complete {scan : Scan α} {f : α → Bytes → Scan β} {b : β} {rest : Bytes}
    (h : scan.bind f = complete b rest) :
    ∃ value rest', scan = complete value rest' ∧ f value rest' = complete b rest := by
  cases scan with
  | complete value rest' => exact ⟨value, rest', rfl, h⟩
  | incomplete => cases h
  | malformed => cases h

theorem map_eq_complete {scan : Scan α} {f : α → β} {b : β} {rest : Bytes}
    (h : scan.map f = complete b rest) : ∃ value, scan = complete value rest ∧ f value = b := by
  obtain ⟨value, rest', hscan, h⟩ := bind_eq_complete h
  cases h
  exact ⟨value, hscan, rfl⟩

end Scan

/-- What the reader says of some bytes stays so when more bytes follow, except that the bytes are
incomplete. -/
def Stable (read : Bytes → Scan α) : Prop :=
  ∀ s t, read s ≠ .incomplete → read (s ++ t) = (read s).extend t

namespace Stable

theorem bind {read : Bytes → Scan α} {f : α → Bytes → Scan β} (hread : Stable read)
    (hf : ∀ value, Stable (f value)) : Stable fun s => (read s).bind f := by
  intro s t h
  dsimp only at h ⊢
  cases hs : read s with
  | complete value rest =>
    rw [hs] at h
    rw [hread s t (by rw [hs]; nofun), hs]
    exact hf value rest t h
  | incomplete =>
    rw [hs] at h
    exact absurd rfl h
  | malformed =>
    rw [hread s t (by rw [hs]; nofun), hs]
    rfl

theorem map {read : Bytes → Scan α} (hread : Stable read) (f : α → β) :
    Stable fun s => (read s).map f :=
  hread.bind fun _ _ _ _ => rfl

end Stable

/-! ## Lines -/

theorem lineBytes_cons_cons (b c : UInt8) (s done : Bytes) :
    lineBytes (b :: c :: s) done =
      if b = 0x0d ∧ c = 0x0a then .complete done.reverse s else lineBytes (c :: s) (b :: done) := by
  split
  · next h => rw [h.1, h.2, lineBytes]
  · next h =>
    rw [lineBytes]
    rintro rest rfl hcons
    exact h ⟨rfl, (List.cons.inj hcons).1⟩

theorem stable_lineBytes (done : Bytes) : Stable (lineBytes · done) := by
  intro s t h
  induction s generalizing done with
  | nil => exact absurd rfl h
  | cons b s ih =>
    cases s with
    | nil =>
      refine absurd ?_ h
      simp [lineBytes]
    | cons c s =>
      simp only [List.cons_append, lineBytes_cons_cons] at h ih ⊢
      split
      · rfl
      · next hne =>
        rw [if_neg hne] at h
        exact ih (b :: done) h

theorem lineBytes_ne_malformed (s done : Bytes) : lineBytes s done ≠ .malformed := by
  induction s generalizing done with
  | nil => nofun
  | cons b s ih =>
    cases s with
    | nil => simp [lineBytes]
    | cons c s =>
      rw [lineBytes_cons_cons]
      split
      · nofun
      · exact ih (b :: done)

theorem lineBytes_eq_map (s done : Bytes) :
    lineBytes s done = (lineBytes s []).map (done.reverse ++ ·) := by
  induction s generalizing done with
  | nil => rfl
  | cons b s ih =>
    cases s with
    | nil => simp [lineBytes, Scan.map, Scan.bind]
    | cons c s =>
      rw [lineBytes_cons_cons, lineBytes_cons_cons]
      split
      · simp [Scan.map, Scan.bind]
      · rw [ih (b :: done), ih [b]]
        cases lineBytes (c :: s) [] <;> simp [Scan.map, Scan.bind]

/-- A first byte that does not begin the end of the line is the first one of the line. -/
theorem lineBytes_cons_of_ne {b : UInt8} (hb : b ≠ 0x0d) (s : Bytes) :
    lineBytes (b :: s) [] = (lineBytes s []).map (b :: ·) := by
  cases s with
  | nil => simp [lineBytes, Scan.map, Scan.bind]
  | cons c s =>
    rw [lineBytes_cons_cons, if_neg fun h => hb h.1, lineBytes_eq_map]
    rfl

/-- The bytes of a line, without its end. -/
def IsLine (line : Bytes) : Prop := ¬ lineEnd <:+: line

instance : DecidablePred IsLine := fun line => inferInstanceAs (Decidable (¬ lineEnd <:+: line))

theorem isLine_nil : IsLine [] := by
  intro h
  simpa [lineEnd] using h.length_le

theorem isLine_cons {b : UInt8} {line : Bytes} :
    IsLine (b :: line) ↔ ¬ lineEnd <+: b :: line ∧ IsLine line := by
  rw [IsLine, IsLine, List.infix_cons_iff, not_or]

theorem lineBytes_line {line : Bytes} (h : IsLine line) (done rest : Bytes) :
    lineBytes (line ++ lineEnd ++ rest) done = .complete (done.reverse ++ line) rest := by
  induction line generalizing done with
  | nil => simp [lineEnd, lineBytes]
  | cons b line ih =>
    obtain ⟨hb, hline⟩ := isLine_cons.1 h
    obtain ⟨c, s, hc⟩ : ∃ c s, line ++ lineEnd ++ rest = c :: s := by
      cases line with
      | nil => exact ⟨_, _, rfl⟩
      | cons c line => exact ⟨_, _, rfl⟩
    have hne : ¬ (b = 0x0d ∧ c = 0x0a) := by
      rintro ⟨rfl, rfl⟩
      cases line with
      | nil => cases hc
      | cons c line =>
        obtain rfl := (List.cons.inj hc).1
        exact hb ⟨line, rfl⟩
    rw [List.cons_append, List.cons_append, hc, lineBytes_cons_cons, if_neg hne, ← hc,
      ih hline, List.reverse_cons, List.append_assoc]
    rfl

theorem exists_line_of_lineBytes {s done l rest : Bytes}
    (h : lineBytes s done = .complete l rest) :
    ∃ line, l = done.reverse ++ line ∧ IsLine line ∧ s = line ++ lineEnd ++ rest := by
  induction s generalizing done with
  | nil => cases h
  | cons b s ih =>
    cases s with
    | nil => simp [lineBytes] at h
    | cons c s =>
      rw [lineBytes_cons_cons] at h
      split at h
      · next hbc =>
        cases h
        obtain ⟨rfl, rfl⟩ := hbc
        exact ⟨[], (List.append_nil _).symm, isLine_nil, rfl⟩
      · next hbc =>
        obtain ⟨line, rfl, hline, hs⟩ := ih h
        refine ⟨b :: line, by simp, isLine_cons.2 ⟨?_, hline⟩, by rw [hs]; rfl⟩
        rintro ⟨l, hl⟩
        simp only [lineEnd, List.cons_append, List.nil_append, List.cons.injEq] at hl
        obtain ⟨rfl, rfl⟩ := hl
        exact hbc ⟨rfl, (List.cons.inj hs).1⟩

/-! ## Text and numbers -/

theorem stable_readLine : Stable readLine := by
  refine (stable_lineBytes []).bind fun line s t h => ?_
  split <;> rfl

theorem endsAt_readLine {line : Bytes} (h : IsLine line) (rest : Bytes) :
    (readLine (line ++ lineEnd ++ rest)).EndsAt rest := by
  rw [readLine, lineBytes_line h]
  simp only [Scan.bind, Scan.EndsAt]
  split
  · exact .inr ⟨_, rfl⟩
  · exact .inl rfl

theorem exists_line_of_readLine {s rest : Bytes} {text : String}
    (h : readLine s = .complete text rest) :
    ∃ line, IsLine line ∧ String.fromUTF8? ⟨line.toArray⟩ = some text ∧
      s = line ++ lineEnd ++ rest := by
  obtain ⟨l, rest', hbytes, hrest⟩ := Scan.bind_eq_complete h
  obtain ⟨line, hl, hline, hs⟩ := exists_line_of_lineBytes hbytes
  obtain rfl : l = line := hl
  split at hrest
  · next text htext =>
    cases hrest
    exact ⟨l, hline, htext, hs⟩
  · cases hrest

/-- The bytes of a line with a whole number, and of its end. -/
def IntegerLine (n : Int) (s : Bytes) : Prop :=
  ∃ line text, IsLine line ∧ String.fromUTF8? ⟨line.toArray⟩ = some text ∧
    Text.integer? 64 (Text.trimChars text.toList) = some n ∧ s = line ++ lineEnd

theorem IntegerLine.ne_nil {n : Int} {s : Bytes} (h : IntegerLine n s) : s ≠ [] := by
  obtain ⟨line, text, -, -, -, rfl⟩ := h
  simp [lineEnd]

theorem stable_readInteger : Stable readInteger := by
  refine stable_readLine.bind fun line s t h => ?_
  split <;> rfl

theorem readInteger_integerLine {n : Int} {s : Bytes} (h : IntegerLine n s) (rest : Bytes) :
    readInteger (s ++ rest) = .complete n rest := by
  obtain ⟨line, text, hline, htext, hn, rfl⟩ := h
  have hread : readLine (line ++ lineEnd ++ rest) = .complete text rest := by
    simp only [readLine, lineBytes_line hline, Scan.bind, List.reverse_nil, List.nil_append, htext]
  simp only [readInteger, hread, Scan.bind, hn]

theorem exists_integerLine_of_readInteger {s rest : Bytes} {n : Int}
    (h : readInteger s = .complete n rest) : ∃ front, IntegerLine n front ∧ s = front ++ rest := by
  obtain ⟨text, rest', hread, hrest⟩ := Scan.bind_eq_complete h
  obtain ⟨line, hline, htext, hs⟩ := exists_line_of_readLine hread
  split at hrest
  · next n hn =>
    cases hrest
    exact ⟨line ++ lineEnd, ⟨line, text, hline, htext, hn, rfl⟩, hs⟩
  · cases hrest

/-! ## Bodies -/

theorem stable_expect (bytes : Bytes) : Stable (expect bytes) := by
  intro s t h
  induction bytes generalizing s with
  | nil => rfl
  | cons b bytes ih =>
    cases s with
    | nil => exact absurd rfl h
    | cons c s =>
      simp only [List.cons_append, expect] at h ⊢
      split
      · next hbc =>
        rw [if_pos hbc] at h
        exact ih s h
      · rfl

theorem expect_append (bytes rest : Bytes) : expect bytes (bytes ++ rest) = .complete () rest := by
  induction bytes with
  | nil => rfl
  | cons b bytes ih => rw [List.cons_append, expect, if_pos rfl, ih]

theorem eq_append_of_expect {bytes s rest : Bytes} {u : Unit}
    (h : expect bytes s = .complete u rest) :
    s = bytes ++ rest := by
  induction bytes generalizing s with
  | nil =>
    cases h
    rfl
  | cons b bytes ih =>
    cases s with
    | nil => cases h
    | cons c s =>
      rw [expect] at h
      split at h
      · next hbc => rw [hbc, ih h, List.cons_append]
      · cases h

theorem readBody_of_le {length : Nat} {s : Bytes} (h : length ≤ s.length) :
    readBody length s = (expect lineEnd (s.drop length)).map fun _ => s.take length := by
  rw [readBody, if_neg (by rw [List.length_take]; omega)]

theorem le_of_readBody {length : Nat} {s : Bytes} (h : readBody length s ≠ .incomplete) :
    length ≤ s.length := by
  rw [readBody] at h
  split at h
  · exact absurd rfl h
  · next hlength =>
    rw [List.length_take] at hlength
    omega

theorem stable_readBody (length : Nat) : Stable (readBody length) := by
  intro s t h
  have hle := le_of_readBody h
  have hle' : length ≤ (s ++ t).length := by
    rw [List.length_append]
    omega
  rw [readBody_of_le hle] at h ⊢
  rw [readBody_of_le hle', List.take_append_of_le_length hle, List.drop_append_of_le_length hle]
  exact (stable_expect lineEnd).map (fun _ => s.take length) (s.drop length) t h

theorem readBody_append (body rest : Bytes) :
    readBody body.length (body ++ lineEnd ++ rest) = .complete body rest := by
  have hle : body.length ≤ (body ++ lineEnd ++ rest).length := by
    simp only [List.length_append]
    omega
  rw [readBody_of_le hle, List.append_assoc, List.drop_left, List.take_left, expect_append]
  rfl

theorem exists_body_of_readBody {length : Nat} {s body rest : Bytes}
    (h : readBody length s = .complete body rest) :
    body.length = length ∧ s = body ++ lineEnd ++ rest := by
  have hle := le_of_readBody (by rw [h]; nofun)
  rw [readBody_of_le hle] at h
  obtain ⟨u, hexpect, rfl⟩ := Scan.map_eq_complete h
  refine ⟨List.length_take_of_le hle, ?_⟩
  rw [List.append_assoc, ← eq_append_of_expect hexpect, List.take_append_drop]

/-! ## Values in a row -/

variable {readOne : Bytes → Scan Reply}

theorem stable_readMany (hread : Stable readOne) (n : Nat) (done : List Reply) :
    Stable (readMany readOne n · done) := by
  intro s t h
  induction n generalizing s done with
  | zero => rfl
  | succ n ih =>
    simp only [readMany] at h ⊢
    cases hs : readOne s with
    | complete value rest =>
      rw [hs] at h
      rw [hread s t (by rw [hs]; nofun), hs]
      exact ih (value :: done) rest h
    | incomplete =>
      rw [hs] at h
      exact absurd rfl h
    | malformed =>
      rw [hread s t (by rw [hs]; nofun), hs]
      rfl

theorem endsAt_readMany {items : List Bytes}
    (h : ∀ item ∈ items, ∀ rest, (readOne (item ++ rest)).EndsAt rest) (rest : Bytes)
    (done : List Reply) :
    (readMany readOne items.length (items.flatten ++ rest) done).EndsAt rest := by
  induction items generalizing done with
  | nil => exact .inr ⟨_, rfl⟩
  | cons item items ih =>
    obtain ⟨hitem, hitems⟩ := List.forall_mem_cons.1 h
    rw [List.flatten_cons, List.append_assoc, List.length_cons, readMany]
    rcases hitem (items.flatten ++ rest) with hone | ⟨value, hone⟩
    · rw [hone]
      exact .inl rfl
    · rw [hone]
      exact ih hitems (value :: done)

theorem exists_items_of_readMany {P : Bytes → Prop} {n : Nat} {s rest : Bytes}
    {done values : List Reply}
    (hread : ∀ {s value rest}, readOne s = .complete value rest →
      ∃ front, P front ∧ s = front ++ rest)
    (h : readMany readOne n s done = .complete values rest) :
    ∃ items : List Bytes, items.length = n ∧ (∀ item ∈ items, P item) ∧
      s = items.flatten ++ rest := by
  induction n generalizing s done with
  | zero =>
    cases h
    exact ⟨[], rfl, nofun, rfl⟩
  | succ n ih =>
    rw [readMany] at h
    split at h
    · next value rest' hone =>
      obtain ⟨item, hitem, rfl⟩ := hread hone
      obtain ⟨items, rfl, hitems, rfl⟩ := ih h
      refine ⟨item :: items, rfl, List.forall_mem_cons.2 ⟨hitem, hitems⟩, ?_⟩
      rw [List.flatten_cons, List.append_assoc]
    · cases h
    · cases h

/-! ## Other bytes -/

theorem stable_refuse : Stable refuse := by
  intro s t h
  cases s with
  | nil => exact absurd rfl h
  | cons b s => rfl

theorem refuse_eq_malformed {s : Bytes} (h : s ≠ []) : refuse s = .malformed := by
  cases s with
  | nil => exact absurd rfl h
  | cons b s => rfl

end LoadGen.Wire
