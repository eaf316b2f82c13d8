import LoadGen.Proofs.Wire.Framing

/-!
# Responses in a stream

Responses are decoded from a buffer that grows until it holds one. Apart from the number of bytes
taken, what is said of a buffer stays so when more bytes arrive (`verdict_append`). What is answered
begins with one reply, and all of that reply is taken with it, but no more than there is
(`exists_isReply_of_decode`). One reply alone is answered or refused, and taken exactly
(`decode_of_isReply`); before its last byte it is not answered (`decode_of_part`).
-/

namespace LoadGen.Wire

/-! ## Bytes taken -/

theorem consumedBytes_le (length used : Nat) : consumedBytes length used ≤ length :=
  Nat.min_le_left _ _

theorem le_consumedBytes {length used : Nat} (h : used ≤ length) :
    used ≤ consumedBytes length used := by
  refine Nat.le_min.2 ⟨h, ?_⟩
  have hround := Nat.div_add_mod (used + blockSize - 1) blockSize
  have hmod : (used + blockSize - 1) % blockSize < blockSize := Nat.mod_lt _ (by decide)
  rw [Nat.mul_comm] at hround
  omega

theorem consumedBytes_self (length : Nat) : consumedBytes length length = length :=
  Nat.le_antisymm (consumedBytes_le _ _) (le_consumedBytes (Nat.le_refl _))

/-! ## Ends of replies -/

/-- Finds the end of the reply at the front. An error line ends as any other line does, whether or
not it is text. -/
def replyEnd (s : Bytes) : Scan Unit :=
  if s.head? = some 0x2d then (lineBytes s []).map fun _ => () else (Reply.read s).map fun _ => ()

theorem replyEnd_error (s : Bytes) :
    replyEnd (0x2d :: s) = (lineBytes (0x2d :: s) []).map fun _ => () :=
  if_pos rfl

theorem replyEnd_of_ne {b : UInt8} (hb : b ≠ 0x2d) (s : Bytes) :
    replyEnd (b :: s) = (Reply.read (b :: s)).map fun _ => () :=
  if_neg fun h => hb (Option.some.inj h)

theorem stable_replyEnd : Stable replyEnd := by
  intro s t h
  cases s with
  | nil => exact absurd rfl h
  | cons b s =>
    by_cases hb : b = 0x2d
    · subst hb
      rw [replyEnd_error] at h ⊢
      rw [List.cons_append, replyEnd_error]
      exact (stable_lineBytes []).map _ (0x2d :: s) t h
    · rw [replyEnd_of_ne hb] at h ⊢
      rw [List.cons_append, replyEnd_of_ne hb]
      exact Reply.stable_read.map _ (b :: s) t h

theorem isLine_error {line : Bytes} (h : IsLine line) : IsLine (0x2d :: line) := by
  refine isLine_cons.2 ⟨?_, h⟩
  rintro ⟨t, ht⟩
  simp [lineEnd] at ht

/-- The end that is found is the end of the reply. -/
theorem endsAt_replyEnd {r : Bytes} (h : IsReply r) (rest : Bytes) :
    (replyEnd (r ++ rest)).EndsAt rest := by
  have hread : ((Reply.read (r ++ rest)).map fun _ => ()).EndsAt rest :=
    (Reply.endsAt_readNested h maxNesting rest).map _
  cases h with
  | @line b line hb hline =>
    rcases hb with rfl | rfl
    · rwa [List.cons_append, List.cons_append, replyEnd_of_ne (by decide)]
    · rw [List.cons_append, List.cons_append, replyEnd_error]
      have hbytes := lineBytes_line (isLine_error hline) [] rest
      rw [List.cons_append, List.cons_append] at hbytes
      rw [hbytes]
      exact .inr ⟨(), rfl⟩
  | integer hline => rwa [List.cons_append, replyEnd_of_ne (by decide)]
  | absent hb hline hn =>
    rcases hb with rfl | rfl
    · rwa [List.cons_append, replyEnd_of_ne (by decide)]
    · rwa [List.cons_append, replyEnd_of_ne (by decide)]
  | bulk hline =>
    rwa [List.cons_append, List.cons_append, List.cons_append, replyEnd_of_ne (by decide)]
  | array hline hitems => rwa [List.cons_append, List.cons_append, replyEnd_of_ne (by decide)]

/-- What ends there is one reply. -/
theorem exists_isReply_of_replyEnd {s rest : Bytes} {u : Unit} (h : replyEnd s = .complete u rest) :
    ∃ front, IsReply front ∧ s = front ++ rest := by
  cases s with
  | nil => cases h
  | cons b s =>
    by_cases hb : b = 0x2d
    · subst hb
      rw [replyEnd_error] at h
      obtain ⟨l, hbytes, -⟩ := Scan.map_eq_complete h
      obtain ⟨line, -, hline, hs⟩ := exists_line_of_lineBytes hbytes
      cases line with
      | nil =>
        simp [lineEnd] at hs
      | cons c line =>
        obtain ⟨rfl, rfl⟩ := List.cons.inj hs
        exact ⟨0x2d :: line ++ lineEnd, .line (.inr rfl) (isLine_cons.1 hline).2, hs⟩
    · rw [replyEnd_of_ne hb] at h
      obtain ⟨value, hread, -⟩ := Scan.map_eq_complete h
      exact Reply.exists_isReply_of_readNested hread

/-! ## Decoding -/

/-- What decoding comes to, by the end of the reply. -/
def DecodesBy (s : Bytes) : Scan Unit → Prop
  | .incomplete => decode s = .ok none
  | .malformed => ∃ fault, decode s = .error fault
  | .complete _ rest => (∃ fault, decode s = .error fault) ∨
    ∃ response, decode s =
      .ok (some (response, consumedBytes s.length (s.length - rest.length)))

theorem decodesBy_of_ne {b : UInt8} (hb : b ≠ 0x2d) (s : Bytes) :
    DecodesBy (b :: s) ((Reply.read (b :: s)).map fun _ => ()) := by
  have hhead : (b :: s).head? ≠ some 0x2d := fun h => hb (Option.some.inj h)
  cases hread : Reply.read (b :: s) with
  | incomplete => simp [DecodesBy, Scan.map, Scan.bind, decode, hread]
  | malformed => simp [DecodesBy, Scan.map, Scan.bind, decode, hread, hb]
  | complete reply rest =>
    cases reply with
    | error line => exact .inr ⟨_, by rw [decode, hread]⟩
    | _ =>
      simp only [Scan.map, Scan.bind, DecodesBy, decode, hread]
      split
      · exact .inl ⟨_, rfl⟩
      · exact .inr ⟨_, rfl⟩

/-- An error line is a rejection, whether or not it is text. -/
theorem decodesBy_error (s : Bytes) :
    DecodesBy (0x2d :: s) ((lineBytes (0x2d :: s) []).map fun _ => ()) := by
  have hbytes : lineBytes (0x2d :: s) [] = (lineBytes s []).map (0x2d :: ·) :=
    lineBytes_cons_of_ne (by decide) s
  have hread : Reply.read (0x2d :: s) = (readLine s).map .error := Reply.readNested_error _ s
  cases hs : lineBytes s [] with
  | malformed => exact absurd hs (lineBytes_ne_malformed s [])
  | incomplete =>
    rw [hs] at hbytes
    simp [DecodesBy, Scan.map, Scan.bind, decode, hread, hbytes, readLine, hs]
  | complete line rest =>
    rw [hs] at hbytes
    rw [hbytes]
    refine .inr ?_
    cases htext : String.fromUTF8? ⟨line.toArray⟩ with
    | some text =>
      exact ⟨.rejected (rejectionReason text),
        by simp [decode, hread, readLine, hs, Scan.map, Scan.bind, htext]⟩
    | none =>
      exact ⟨.rejected parseFailure,
        by simp [decode, hread, readLine, hs, Scan.map, Scan.bind, htext, hbytes]⟩

theorem decodesBy_replyEnd (s : Bytes) : DecodesBy s (replyEnd s) := by
  cases s with
  | nil => rfl
  | cons b s =>
    by_cases hb : b = 0x2d
    · subst hb
      rw [replyEnd_error]
      exact decodesBy_error s
    · rw [replyEnd_of_ne hb]
      exact decodesBy_of_ne hb s

theorem decode_of_incomplete {s : Bytes} (h : replyEnd s = .incomplete) : decode s = .ok none := by
  have := decodesBy_replyEnd s
  rwa [h] at this

/-- A response comes with the end of its reply. -/
theorem replyEnd_of_decode {s : Bytes} {response : Response} {n : Nat}
    (h : decode s = .ok (some (response, n))) :
    ∃ rest, replyEnd s = .complete () rest ∧
      n = consumedBytes s.length (s.length - rest.length) := by
  have hs := decodesBy_replyEnd s
  cases hend : replyEnd s with
  | incomplete =>
    rw [hend, DecodesBy, h] at hs
    cases hs
  | malformed =>
    rw [hend, DecodesBy, h] at hs
    obtain ⟨fault, hs⟩ := hs
    cases hs
  | complete u rest =>
    rw [hend, DecodesBy, h] at hs
    rcases hs with ⟨fault, hs⟩ | ⟨response, hs⟩
    · cases hs
    · cases hs
      exact ⟨rest, rfl, rfl⟩

/-! ## Responses and replies -/

/-- What decoding says of a buffer, apart from the number of bytes taken. -/
def verdict (s : Bytes) : Except DecodeFault (Option Response) := (decode s).map (·.map Prod.fst)

/-- **What is said of a buffer stays so when more bytes arrive**, once it is not incomplete. -/
theorem verdict_append {s : Bytes} (h : decode s ≠ .ok none) (t : Bytes) :
    verdict (s ++ t) = verdict s := by
  have hincomplete : Reply.read s ≠ .incomplete := by
    intro hread
    rw [decode, hread] at h
    exact h rfl
  have happend := Reply.stable_read s t hincomplete
  cases hread : Reply.read s with
  | incomplete => exact absurd hread hincomplete
  | malformed =>
    have hhead : (s ++ t).head? = s.head? := by
      cases s with
      | nil => exact absurd (Reply.readNested_nil maxNesting) hincomplete
      | cons b s => rfl
    rw [hread] at happend
    simp only [verdict, decode, happend, hread, hhead, Scan.extend]
    split <;> simp only [Except.map, Option.map_some]
  | complete reply rest =>
    rw [hread] at happend
    simp only [verdict, decode, happend, hread, Scan.extend]
    cases reply with
    | error line => simp only [Except.map, Option.map_some]
    | _ =>
      dsimp only
      split <;> simp only [Except.map, Option.map_some]

/-- **One reply is answered or refused**, and taken exactly when it is answered. -/
theorem decode_of_isReply {r : Bytes} (h : IsReply r) :
    (∃ response, decode r = .ok (some (response, r.length))) ∨
      ∃ fault, decode r = .error fault := by
  have hend := endsAt_replyEnd h []
  have hr := decodesBy_replyEnd r
  rw [List.append_nil] at hend
  rcases hend with hend | ⟨u, hend⟩
  · rw [hend] at hr
    exact .inr hr
  · rw [hend, DecodesBy, List.length_nil, Nat.sub_zero, consumedBytes_self] at hr
    exact hr.symm

theorem decode_of_answered {r : Bytes} (h : IsReply r) {response : Response} {n : Nat}
    (hr : decode r = .ok (some (response, n))) : decode r = .ok (some (response, r.length)) := by
  rcases decode_of_isReply h with ⟨response', h⟩ | ⟨fault, h⟩
  · rw [h] at hr ⊢
    cases hr
    rfl
  · rw [h] at hr
    cases hr

/-- **Less than a reply is not answered.** -/
theorem decode_of_part {s t : Bytes} (h : IsReply (s ++ t)) (ht : t ≠ [])
    (response : Response) (n : Nat) : decode s ≠ .ok (some (response, n)) := by
  intro hdecode
  obtain ⟨rest, hs, -⟩ := replyEnd_of_decode hdecode
  have happend := stable_replyEnd s t (by rw [hs]; nofun)
  have hend := endsAt_replyEnd h []
  rw [hs] at happend
  rw [List.append_nil, happend] at hend
  rcases hend with hend | ⟨u, hend⟩
  · cases hend
  · simp only [Scan.extend, Scan.complete.injEq, List.append_eq_nil_iff] at hend
    exact ht hend.2.2

/-- What is said of a part of a reply is said of the reply: the part is all of it, or both are
refused. -/
theorem eq_nil_or_refused {s t : Bytes} (h : IsReply (s ++ t)) (hs : decode s ≠ .ok none) :
    t = [] ∨ ∃ fault, decode s = .error fault ∧ decode (s ++ t) = .error fault := by
  have hverdict := verdict_append hs t
  cases hdecode : decode s with
  | error fault =>
    refine .inr ⟨fault, rfl, ?_⟩
    rw [verdict, verdict, hdecode] at hverdict
    cases happend : decode (s ++ t) with
    | error fault' =>
      rw [happend] at hverdict
      cases hverdict
      rfl
    | ok answer =>
      rw [happend] at hverdict
      cases hverdict
  | ok answer =>
    cases answer with
    | none => exact absurd hdecode hs
    | some answer =>
      by_cases ht : t = []
      · exact .inl ht
      · exact absurd hdecode (decode_of_part h ht answer.1 answer.2)

/-- **A response is that to one reply at the front of the buffer**, and that reply is taken with it,
with nothing past the end of the buffer. -/
theorem exists_isReply_of_decode {s : Bytes} {response : Response} {n : Nat}
    (h : decode s = .ok (some (response, n))) :
    ∃ front rest, s = front ++ rest ∧ IsReply front ∧ front.length ≤ n ∧ n ≤ s.length ∧
      decode front = .ok (some (response, front.length)) := by
  obtain ⟨rest, hend, rfl⟩ := replyEnd_of_decode h
  obtain ⟨front, hfront, rfl⟩ := exists_isReply_of_replyEnd hend
  have hlength : (front ++ rest).length - rest.length = front.length := by
    rw [List.length_append]
    omega
  have hle : front.length ≤ (front ++ rest).length := by
    rw [List.length_append]
    omega
  refine ⟨front, rest, rfl, hfront, ?_, consumedBytes_le _ _, ?_⟩
  · rw [hlength]
    exact le_consumedBytes hle
  · -- the reply alone gets the same verdict
    rcases decode_of_isReply hfront with ⟨response', hdecode⟩ | ⟨fault, hdecode⟩
    · have hverdict := verdict_append (by rw [hdecode]; nofun) rest
      rw [verdict, verdict, h, hdecode] at hverdict
      cases hverdict
      exact hdecode
    · have hverdict := verdict_append (by rw [hdecode]; nofun) rest
      rw [verdict, verdict, h, hdecode] at hverdict
      cases hverdict

end LoadGen.Wire
