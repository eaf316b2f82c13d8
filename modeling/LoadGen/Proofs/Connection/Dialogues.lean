import LoadGen.Proofs.Connection.Exchanges

/-!
# Dialogues

What passes over a connection is a number of requests one way and a stream of bytes the other way
(`Dialogue`). A peer that sends one reply for each request, and none before, may cut its replies
into any pieces, leave one unfinished or send something else instead (`Dialogue.Answered`). With
such a peer the buffer holds nothing between two requests, and while a response is awaited it holds
what has come of its reply (`Dialogue.Leaves`). Whatever happens to a request keeps it so, unless
the request fails (`Dialogue.Leaves.exchange`).
-/

namespace LoadGen

open Wire (Bytes Response decode IsReply)

namespace Wire

/-- What a peer may send for one request: a reply, understood or not, or bytes that do not begin
with a reply, as they are cut off or malformed. -/
def OneReply (r : Bytes) : Prop := IsReply r ∨ ∀ front, front <+: r → ¬ IsReply front

/-- No response comes before the end of a reply, and all of the reply is taken with it. -/
theorem OneReply.decode_eq {r s : Bytes} (hr : OneReply r) (hs : s <+: r) {response : Response}
    {n : Nat} (h : decode s = .ok (some (response, n))) :
    s = r ∧ decode s = .ok (some (response, s.length)) := by
  obtain ⟨t, rfl⟩ := hs
  rcases hr with hreply | hnone
  · by_cases ht : t = []
    · subst ht
      rw [List.append_nil] at hreply ⊢
      exact ⟨rfl, decode_of_answered hreply h⟩
    · exact absurd h (decode_of_part hreply ht response n)
  · obtain ⟨front, rest, rfl, hfront, -⟩ := exists_isReply_of_decode h
    have hprefix : front <+: front ++ rest ++ t :=
      (List.prefix_append front rest).trans (List.prefix_append _ t)
    exact absurd hfront (hnone front hprefix)

end Wire

open Wire (OneReply)

/-! ## What passes over a connection -/

/-- A request that was written, or some bytes that were read. -/
inductive Parcel
  | request
  | bytes (bytes : Bytes)

/-- What passes as a signal comes; `written` says whether the request was written before. -/
def Exchange.Signal.parcels (written : Bool) : Exchange.Signal → List Parcel
  | .written => if written then [] else [.request]
  | .received bytes => [.bytes bytes]
  | _ => []

/-- All that has passed over a connection. -/
structure Dialogue where
  /-- The number of requests that were written. -/
  requests : Nat
  received : Bytes

namespace Dialogue

def empty : Dialogue := ⟨0, []⟩

def add (d : Dialogue) : Parcel → Dialogue
  | .request => { d with requests := d.requests + 1 }
  | .bytes bytes => { d with received := d.received ++ bytes }

def addAll (d : Dialogue) (parcels : List Parcel) : Dialogue := parcels.foldl add d

theorem addAll_append (d : Dialogue) (ps qs : List Parcel) :
    d.addAll (ps ++ qs) = (d.addAll ps).addAll qs :=
  List.foldl_append

/-- The replies to the first requests, one after the other. -/
def due (reply : Nat → Bytes) (n : Nat) : Bytes := (List.range n).flatMap reply

theorem due_succ (reply : Nat → Bytes) (n : Nat) : due reply (n + 1) = due reply n ++ reply n := by
  rw [due, List.range_succ, List.flatMap_append, List.flatMap_singleton]
  rfl

/-- No more has come than one reply for each request. -/
def Answered (reply : Nat → Bytes) (d : Dialogue) : Prop := d.received <+: due reply d.requests

instance (reply : Nat → Bytes) (d : Dialogue) : Decidable (d.Answered reply) :=
  inferInstanceAs (Decidable (_ <+: _))

/-! ## What is left in the buffer -/

/-- What a dialogue leaves in the buffer: nothing between two requests, and what has come of a reply
while its response is awaited. -/
inductive Leaves (reply : Nat → Bytes) : Dialogue → (written : Bool) → Bytes → Prop
  | nothing (n : Nat) : Leaves reply ⟨n, due reply n⟩ false []
  | part (n : Nat) {unread : Bytes} (hunread : decode unread = .ok none) :
      Leaves reply ⟨n + 1, due reply n ++ unread⟩ true unread

variable {reply : Nat → Bytes} {d : Dialogue}

theorem Leaves.eq_nil {unread : Bytes} (h : Leaves reply d false unread) : unread = [] := by
  cases h
  rfl

theorem leaves_empty (reply : Nat → Bytes) : Leaves reply .empty false [] := .nothing 0

end Dialogue

namespace Connection

variable {c : Connection} {sent : Nat}

theorem takeResponse_reading (h : (c.takeResponse sent).2 = .reading) :
    decode c.unread = .ok none ∧ (c.takeResponse sent).1 = c := by
  by_cases hdecode : decode c.unread = .ok none
  · rw [takeResponse_of_incomplete sent hdecode]
    exact ⟨hdecode, rfl⟩
  · rw [takeResponse_of_ne sent hdecode] at h
    cases h

/-- Nothing is left of one reply when it is answered. -/
theorem takeResponse_answered {r : Bytes} (hr : OneReply r) (hc : c.unread <+: r)
    {exchange : Exchange} (h : (c.takeResponse sent).2 = .finished (.ok exchange)) :
    c.unread = r ∧ (c.takeResponse sent).1.unread = [] := by
  cases hdecode : decode c.unread with
  | error fault =>
    rw [takeResponse, hdecode] at h
    cases h
  | ok answer =>
    cases answer with
    | none =>
      rw [takeResponse, hdecode] at h
      cases h
    | some answer =>
      obtain ⟨hwhole, htaken⟩ := hr.decode_eq hc hdecode
      exact ⟨hwhole, by rw [takeResponse_of_response sent htaken]⟩

end Connection

namespace Dialogue

variable {reply : Nat → Bytes} {d : Dialogue} {written : Bool} {c : Connection}

/-- What is left in the buffer once a signal has come, unless the request fails. -/
structure Goes (reply : Nat → Bytes) (d : Dialogue) (c : Connection)
    (progress : Exchange.Progress) : Prop where
  reading : progress = .reading → Leaves reply d true c.unread
  answered : ∀ exchange, progress = .finished (.ok exchange) → Leaves reply d false c.unread

theorem goes_of_error (reply : Nat → Bytes) (d : Dialogue) (c : Connection) (fault : RequestFault) :
    Goes reply d c (.finished (.error fault)) :=
  ⟨nofun, nofun⟩

/-- The last request has its reply, or a part of it. -/
theorem goes_takeResponse (hreply : ∀ n, OneReply (reply n)) {n : Nat} (sent : Nat)
    (hc : c.unread <+: reply n) :
    Goes reply ⟨n + 1, due reply n ++ c.unread⟩ (c.takeResponse sent).1
      (c.takeResponse sent).2 where
  reading hreading := by
    obtain ⟨hunread, hsame⟩ := Connection.takeResponse_reading hreading
    rw [hsame]
    exact .part n hunread
  answered exchange hanswered := by
    obtain ⟨hwhole, hleft⟩ := Connection.takeResponse_answered (hreply n) hc hanswered
    rw [hwhole, hleft, ← due_succ]
    exact .nothing (n + 1)

/-- **Whatever happens to a request leaves the buffer as it should be**, unless the request
fails. -/
theorem Leaves.exchange (h : Leaves reply d written c.unread) (hreply : ∀ n, OneReply (reply n))
    (sent : Nat) (s : Exchange.Signal) (hanswered : (d.addAll (s.parcels written)).Answered reply) :
    Goes reply (d.addAll (s.parcels written)) (c.exchange sent s).1 (c.exchange sent s).2 := by
  generalize hunread : c.unread = unread at h
  cases s with
  | written =>
    cases h with
    | nothing n =>
      have hgoes := goes_takeResponse (n := n) hreply sent (hunread ▸ List.nil_prefix)
      rwa [hunread, List.append_nil] at hgoes
    | part n hpart =>
      rw [Connection.exchange, Connection.takeResponse_of_incomplete sent (hunread ▸ hpart)]
      refine ⟨fun _ => ?_, nofun⟩
      rw [hunread]
      exact .part n hpart
  | received piece =>
    by_cases hpiece : piece = []
    · subst hpiece
      exact goes_of_error ..
    · rw [Connection.exchange_received sent hpiece]
      cases h with
      | nothing n =>
        -- nothing comes while no request was written
        have hnone : due reply n ++ piece <+: due reply n := hanswered
        exact absurd (List.append_right_eq_self.1 (hnone.eq_of_length_le (by simp))) hpiece
      | part n hpart =>
        have hmore : due reply n ++ unread ++ piece <+: due reply (n + 1) := hanswered
        rw [due_succ, List.append_assoc, List.prefix_append_right_inj] at hmore
        rw [← hunread] at hmore ⊢
        have hgoes := goes_takeResponse (c := { c with unread := c.unread ++ piece }) hreply sent
          hmore
        rwa [← List.append_assoc] at hgoes
  | writeFailed | ended | readFailed | timeUp => exact goes_of_error ..

end Dialogue

end LoadGen
