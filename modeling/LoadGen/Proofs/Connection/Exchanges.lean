import LoadGen.Connection.Basic
import LoadGen.Proofs.Wire.Decoding

/-!
# Exchanges on a connection

A request is answered by a stream that arrives in pieces. How the exchange ends depends on the
stream alone, not on the pieces (`run_ended`). A peer that answers each request with one reply
leaves nothing in the buffer as long as its replies are understood, so that each request gets the
reply that was meant for it (`take_turn`). A reply with an error inside is not understood and stays
in the buffer, where the next request on the same connection would find it
(`mispaired_of_nested_error`); such a connection must not be used again.
-/

namespace LoadGen

open Wire (Bytes Response decode verdict IsReply)

namespace Exchange

/-- How a request of `sent` bytes ends when a stream is all that comes in return. -/
def result (sent : Nat) (stream : Bytes) : Except RequestFault Exchange :=
  match decode stream with
  | .ok none => .error .closedByPeer
  | .ok (some (response, received)) => .ok ⟨response, sent, received⟩
  | .error fault => .error (.malformed fault)

/-- How it ends, apart from the bytes sent and received. -/
def outcome (stream : Bytes) : Except RequestFault Response :=
  match verdict stream with
  | .ok none => .error .closedByPeer
  | .ok (some response) => .ok response
  | .error fault => .error (.malformed fault)

theorem map_result (sent : Nat) (stream : Bytes) :
    (result sent stream).map (·.response) = outcome stream := by
  rw [result, outcome, verdict]
  cases decode stream with
  | error fault => rfl
  | ok answer => cases answer <;> rfl

/-- The signals of a request that is answered in pieces. -/
def arrivals (pieces : List Bytes) : List Signal := .written :: pieces.map .received

end Exchange

open Exchange (arrivals)

namespace Connection

/-- Follows a request through signals until it is finished. -/
def run (c : Connection) (sent : Nat) : List Exchange.Signal → Connection × Exchange.Progress
  | [] => (c, .reading)
  | signal :: signals =>
    match c.exchange sent signal with
    | (c, .reading) => c.run sent signals
    | (c, .finished result) => (c, .finished result)

variable {c : Connection} (sent : Nat)

/-! ## Single signals -/

variable {sent} in
theorem run_of_reading {c' : Connection} {signal : Exchange.Signal} {signals : List Exchange.Signal}
    (h : c.exchange sent signal = (c', .reading)) :
    c.run sent (signal :: signals) = c'.run sent signals := by
  rw [run, h]

variable {sent} in
theorem run_of_finished {signal : Exchange.Signal} {signals : List Exchange.Signal}
    {result : Except RequestFault Exchange} (h : (c.exchange sent signal).2 = .finished result) :
    c.run sent (signal :: signals) = c.exchange sent signal := by
  obtain ⟨c', hc'⟩ : ∃ c', c.exchange sent signal = (c', .finished result) := ⟨_, Prod.ext rfl h⟩
  rw [run, hc']

theorem takeResponse_of_incomplete (h : decode c.unread = .ok none) :
    c.takeResponse sent = (c, .reading) := by
  rw [takeResponse, h]

theorem takeResponse_of_ne (h : decode c.unread ≠ .ok none) :
    (c.takeResponse sent).2 = .finished (Exchange.result sent c.unread) := by
  rw [takeResponse, Exchange.result]
  cases hdecode : decode c.unread with
  | error fault => rfl
  | ok answer =>
    cases answer with
    | none => exact absurd hdecode h
    | some answer => rfl

theorem takeResponse_of_response {response : Response}
    (h : decode c.unread = .ok (some (response, c.unread.length))) :
    (c.takeResponse sent).1 = { c with unread := [] } := by
  rw [takeResponse, h]
  dsimp only
  rw [List.drop_length]

theorem exchange_received {piece : Bytes} (h : piece ≠ []) :
    c.exchange sent (.received piece) =
      { c with unread := c.unread ++ piece }.takeResponse sent := by
  cases piece with
  | nil => exact absurd rfl h
  | cons b piece => rfl

theorem decode_of_unread (hc : c.unread = []) : decode c.unread = .ok none := by
  rw [hc]
  exact Wire.decode_of_incomplete rfl

/-- An empty buffer has no response in it when the request is written. -/
theorem run_arrivals (hc : c.unread = []) (pieces : List Bytes) (signals : List Exchange.Signal) :
    c.run sent (arrivals pieces ++ signals) = c.run sent (pieces.map .received ++ signals) :=
  run_of_reading (takeResponse_of_incomplete sent (decode_of_unread hc))

/-! ## Streams in pieces -/

/-- The pieces of a stream go on to the end of the stream or to the end of the exchange. -/
theorem run_received {pieces : List Bytes} (hpieces : ∀ piece ∈ pieces, piece ≠ [])
    (hc : decode c.unread = .ok none) :
    ∃ result, (c.run sent (pieces.map .received ++ [.ended])).2 = .finished result ∧
      result.map (·.response) = Exchange.outcome (c.unread ++ pieces.flatten) := by
  induction pieces generalizing c with
  | nil =>
    refine ⟨.error .closedByPeer, rfl, ?_⟩
    rw [List.flatten_nil, List.append_nil, ← Exchange.map_result sent, Exchange.result, hc]
  | cons piece pieces ih =>
    obtain ⟨hpiece, hpieces⟩ := List.forall_mem_cons.1 hpieces
    have hexchange := exchange_received (c := c) sent hpiece
    rw [List.map_cons, List.cons_append, List.flatten_cons, ← List.append_assoc]
    by_cases hdecode : decode (c.unread ++ piece) = .ok none
    · rw [run_of_reading (hexchange.trans (takeResponse_of_incomplete sent hdecode))]
      exact ih hpieces hdecode
    · have hfinished := takeResponse_of_ne (c := { c with unread := c.unread ++ piece })
        sent hdecode
      rw [← hexchange] at hfinished
      refine ⟨_, by rw [run_of_finished hfinished, hfinished], ?_⟩
      rw [Exchange.map_result, Exchange.outcome, Exchange.outcome, Wire.verdict_append hdecode]

/-- **How an exchange ends depends on the stream alone.** -/
theorem run_ended {pieces : List Bytes} (hpieces : ∀ piece ∈ pieces, piece ≠ [])
    (hc : c.unread = []) :
    ∃ result, (c.run sent (arrivals pieces ++ [.ended])).2 = .finished result ∧
      result.map (·.response) = Exchange.outcome pieces.flatten := by
  obtain ⟨result, hresult, houtcome⟩ := run_received sent hpieces (decode_of_unread hc)
  rw [hc, List.nil_append] at houtcome
  exact ⟨result, by rw [run_arrivals sent hc, hresult], houtcome⟩

/-! ## One reply for each request -/

/-- A request of some bytes and the one reply to it, in pieces. -/
structure Turn where
  sent : Nat
  pieces : List Bytes
  pieces_ne_nil : ∀ piece ∈ pieces, piece ≠ []
  isReply : IsReply pieces.flatten

namespace Turn

def reply (t : Turn) : Bytes := t.pieces.flatten

/-- Whether the reply is understood. -/
def IsAnswered (t : Turn) : Prop := ∃ response n, decode t.reply = .ok (some (response, n))

end Turn

/-- The exchange of a turn. -/
def take (c : Connection) (t : Turn) : Connection × Exchange.Progress :=
  c.run t.sent (arrivals t.pieces)

/-- The connection after some turns. -/
def takeAll (c : Connection) (turns : List Turn) : Connection :=
  turns.foldl (fun c t => (c.take t).1) c

/-- Pieces that complete a reply end the exchange with it. -/
theorem run_reply {pieces : List Bytes} (hpieces : ∀ piece ∈ pieces, piece ≠ [])
    (hreply : IsReply (c.unread ++ pieces.flatten)) (hc : decode c.unread = .ok none) :
    (c.run sent (pieces.map .received)).2 =
        .finished (Exchange.result sent (c.unread ++ pieces.flatten)) ∧
      ((∃ response n, decode (c.unread ++ pieces.flatten) = .ok (some (response, n))) →
        (c.run sent (pieces.map .received)).1.unread = []) := by
  induction pieces generalizing c with
  | nil =>
    rw [List.flatten_nil, List.append_nil] at hreply
    rcases Wire.decode_of_isReply hreply with ⟨response, h⟩ | ⟨fault, h⟩
    · rw [h] at hc
      cases hc
    · rw [h] at hc
      cases hc
  | cons piece pieces ih =>
    obtain ⟨hpiece, hpieces⟩ := List.forall_mem_cons.1 hpieces
    have hexchange := exchange_received (c := c) sent hpiece
    rw [List.flatten_cons, ← List.append_assoc] at hreply ⊢
    rw [List.map_cons]
    by_cases hdecode : decode (c.unread ++ piece) = .ok none
    · rw [run_of_reading (hexchange.trans (takeResponse_of_incomplete sent hdecode))]
      exact ih hpieces hreply hdecode
    · have hfinished := takeResponse_of_ne (c := { c with unread := c.unread ++ piece })
        sent hdecode
      rw [run_of_finished (by rw [hexchange, hfinished]), hexchange, hfinished]
      rcases Wire.eq_nil_or_refused hreply hdecode with hnil | ⟨fault, hpart, hwhole⟩
      · -- this was the last piece
        rw [hnil, List.append_nil] at hreply ⊢
        refine ⟨rfl, ?_⟩
        rintro ⟨response, n, hresponse⟩
        rw [takeResponse_of_response _ (Wire.decode_of_answered hreply hresponse)]
      · rw [Exchange.result, Exchange.result, hpart, hwhole]
        refine ⟨rfl, ?_⟩
        rintro ⟨response, n, hresponse⟩
        cases hresponse

/-- **A turn ends with the decoding of its reply** and leaves nothing behind if that is answered. -/
theorem take_turn (hc : c.unread = []) (t : Turn) :
    (c.take t).2 = .finished (Exchange.result t.sent t.reply) ∧
      (t.IsAnswered → (c.take t).1.unread = []) := by
  have hreply : IsReply (c.unread ++ t.pieces.flatten) := by
    rw [hc]
    exact t.isReply
  have hrun := run_reply t.sent t.pieces_ne_nil hreply (decode_of_unread hc)
  have htake := run_arrivals t.sent hc t.pieces []
  rw [List.append_nil, List.append_nil] at htake
  rw [hc, List.nil_append, ← htake] at hrun
  exact hrun

theorem takeAll_unread {turns : List Turn} (hturns : ∀ t ∈ turns, t.IsAnswered)
    (hc : c.unread = []) : (c.takeAll turns).unread = [] := by
  induction turns generalizing c with
  | nil => exact hc
  | cons t turns ih =>
    obtain ⟨ht, hturns⟩ := List.forall_mem_cons.1 hturns
    exact ih hturns ((take_turn hc t).2 ht)

/-- **Replies do not depend on the pieces they arrive in, and stay with their requests.**

What is said of a buffer is also said of it with more bytes, so that two ways to cut a stream end an
exchange alike. A response is that to one reply at the front of the buffer, and is taken with all
bytes of that reply and no more than there are. As long as every reply was answered, the buffer is
empty before the next request, and that request ends with the decoding of its own reply; if this is
a response, all bytes of the reply and no others were received, and the buffer is empty again. -/
theorem replies_paired :
    (∀ s t, decode s ≠ .ok none → verdict (s ++ t) = verdict s) ∧
    (∀ (c : Connection) (sent : Nat) (pieces : List Bytes), c.unread = [] →
      (∀ piece ∈ pieces, piece ≠ []) →
      ∃ result, (c.run sent (arrivals pieces ++ [.ended])).2 = .finished result ∧
        result.map (·.response) = Exchange.outcome pieces.flatten) ∧
    (∀ s response n, decode s = .ok (some (response, n)) →
      ∃ front rest, s = front ++ rest ∧ IsReply front ∧ front.length ≤ n ∧ n ≤ s.length ∧
        decode front = .ok (some (response, front.length))) ∧
    ∀ (c : Connection) (before : List Turn) (t : Turn), c.unread = [] →
      (∀ u ∈ before, u.IsAnswered) →
      (c.takeAll before).unread = [] ∧
      ((c.takeAll before).take t).2 = .finished (Exchange.result t.sent t.reply) ∧
      ∀ response n, decode t.reply = .ok (some (response, n)) →
        n = t.reply.length ∧ ((c.takeAll before).take t).1.unread = [] := by
  refine ⟨fun s t h => Wire.verdict_append h t, fun c sent pieces hc hpieces =>
    run_ended sent hpieces hc,
    fun s response n h => Wire.exists_isReply_of_decode h, fun c before t hc hbefore => ?_⟩
  have hunread := takeAll_unread hbefore hc
  obtain ⟨hfinished, hleft⟩ := take_turn hunread t
  refine ⟨hunread, hfinished, fun response n h => ⟨?_, hleft ⟨response, n, h⟩⟩⟩
  have hlength := Wire.decode_of_answered t.isReply h
  rw [Turn.reply] at h ⊢
  rw [h] at hlength
  cases hlength
  rfl

/-! ### Two requests -/

/-- An accepting line, cut in two. -/
def accepted : Turn where
  sent := 30
  pieces := [[0x2b, 0x4f], [0x4b, 0x0d, 0x0a]]
  pieces_ne_nil := by decide
  isReply := @IsReply.line 0x2b [0x4f, 0x4b] (.inl rfl) (by decide)

/-- An array with an error line in it. -/
def nestedError : Turn where
  sent := 30
  pieces := [[0x2a, 0x31, 0x0d, 0x0a, 0x2d, 0x45, 0x52, 0x52, 0x20, 0x78, 0x0d, 0x0a]]
  pieces_ne_nil := by decide
  isReply := by
    have herror : IsReply [0x2d, 0x45, 0x52, 0x52, 0x20, 0x78, 0x0d, 0x0a] :=
      @IsReply.line 0x2d [0x45, 0x52, 0x52, 0x20, 0x78] (.inr rfl) (by decide)
    have hone : Wire.IntegerLine 1 [0x31, 0x0d, 0x0a] :=
      ⟨[0x31], "1", by decide, by decide +kernel, by decide, rfl⟩
    exact @IsReply.array _ [_] hone (List.forall_mem_singleton.2 herror)

/-- Two requests are accepted one after the other. -/
theorem replies_paired_accepted :
    ((new 0 0).takeAll [accepted]).unread = [] ∧
      (((new 0 0).takeAll [accepted]).take accepted).2 = .finished (.ok ⟨.success, 30, 5⟩) := by
  have hdecode : decode accepted.reply = .ok (some (.success, 5)) := rfl
  obtain ⟨-, -, -, hturns⟩ := replies_paired
  obtain ⟨hunread, hfinished, -⟩ := hturns (new 0 0) [accepted] accepted rfl
    (List.forall_mem_singleton.2 ⟨_, _, hdecode⟩)
  refine ⟨hunread, hfinished.trans ?_⟩
  rw [Exchange.result, hdecode]
  rfl

/-- A reply with an error inside is left in the buffer, and the next request, although it is
accepted, ends with it. -/
theorem mispaired_of_nested_error :
    ((new 0 0).takeAll [nestedError]).unread = nestedError.reply ∧
      decode accepted.reply = .ok (some (.success, 5)) ∧
      (((new 0 0).takeAll [nestedError]).take accepted).2 =
        .finished (.error (.malformed ⟨Wire.errorDescription "ERR x"⟩)) :=
  ⟨rfl, rfl, rfl⟩

end Connection

end LoadGen
