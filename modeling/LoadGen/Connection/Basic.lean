import LoadGen.Connection.Fault

/-!
# Connections

A connection carries one request at a time. Its bytes arrive in pieces of any size; they gather in
`unread` until they are a response. What is left in the buffer from an earlier exchange is looked
at first, so a late response answers the next request on the same connection.
-/

namespace LoadGen

/-- An established connection. -/
structure Connection where
  /-- The number of the connection in its pool. -/
  id : Nat
  /-- The number of its stream in the network. -/
  stream : Nat
  /-- Bytes that have arrived and were not taken yet. -/
  unread : Wire.Bytes
  deriving Repr, DecidableEq

/-- A request that was answered. -/
structure Exchange where
  response : Wire.Response
  /-- Bytes of the request. -/
  sent : Nat
  /-- Bytes taken with the response. -/
  received : Nat
  deriving Repr, DecidableEq

namespace Exchange

/-- What can happen to a request on its way. -/
inductive Signal
  /-- All bytes of the request are written. -/
  | written
  | writeFailed (fault : TransportFault)
  /-- Some bytes have arrived. -/
  | received (bytes : Wire.Bytes)
  /-- The peer sends nothing any more. -/
  | ended
  | readFailed (fault : TransportFault)
  | timeUp
  deriving Repr

/-- Where a request stands. -/
inductive Progress
  /-- More bytes are needed. -/
  | reading
  | finished (result : Except RequestFault Exchange)

end Exchange

namespace Connection

/-- A fresh connection. -/
def new (id stream : Nat) : Connection := ⟨id, stream, []⟩

/-- Takes the response to a request of `sent` bytes from the buffer if it is complete. -/
def takeResponse (c : Connection) (sent : Nat) : Connection × Exchange.Progress :=
  match Wire.decode c.unread with
  | .ok none => (c, .reading)
  | .ok (some (response, received)) =>
    ({ c with unread := c.unread.drop received }, .finished (.ok ⟨response, sent, received⟩))
  | .error fault => (c, .finished (.error (.malformed fault)))

/-- What a signal does to a request of `sent` bytes. No bytes at all mean that the peer has
closed. -/
def exchange (c : Connection) (sent : Nat) : Exchange.Signal → Connection × Exchange.Progress
  | .written => c.takeResponse sent
  | .writeFailed fault => (c, .finished (.error (.transport fault)))
  | .received [] => (c, .finished (.error .closedByPeer))
  | .received bytes => { c with unread := c.unread ++ bytes }.takeResponse sent
  | .ended => (c, .finished (.error .closedByPeer))
  | .readFailed fault => (c, .finished (.error (.transport fault)))
  | .timeUp => (c, .finished (.error .timedOut))

end Connection

end LoadGen
