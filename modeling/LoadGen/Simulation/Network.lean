import LoadGen.Transport.Signal

/-!
# A scripted network

A network whose every move is laid down in advance: how attempts to connect end, and what comes
back for each request and when. Time is counted in milliseconds from the start.

Attempts and requests are numbered over all endpoints and streams. The pieces sent back queue up on
their stream, each due some time after the one before it, or after its request if that is later;
reading yields one piece at a time.
-/

namespace LoadGen.Simulation

/-- How an attempt to connect ends. -/
inductive DialEnd
  | accept
  /-- It never ends. -/
  | hang
  | fail (fault : TransportFault)
  deriving Repr

/-- An attempt to connect that ends some time after its start. -/
structure Dial where
  finish : DialEnd
  after : Nat
  deriving Repr

/-- What is sent back at once. -/
inductive Piece
  | bytes (bytes : Wire.Bytes)
  /-- The end of the stream, from then on. -/
  | close
  /-- A failure of one read. -/
  | fail (fault : TransportFault)
  deriving Repr

/-- The answer to a request: its pieces, each with the time after which it is due. -/
inductive Answer
  | pieces (pieces : List (Nat × Piece))
  /-- The request cannot be written. -/
  | refuse
  deriving Repr

/-- What the network will do. -/
structure Script where
  /-- The attempts in order, the last one over and over. Without any, all succeed at once. -/
  dials : List Dial
  /-- Endpoints at which every attempt fails. -/
  dead : List (String × TransportFault)
  /-- The answers in order, over and over. Without any, nothing is sent back. -/
  answers : Array Answer
  /-- Stop once so many requests were written. -/
  stopAfterRequests : Option Nat
  /-- Stop once so many attempts were started. -/
  stopAfterDials : Option Nat
  /-- How many records are kept. -/
  recorded : Nat

namespace Script

/-- A network without a route to anywhere. -/
def offline : Script where
  dials := [⟨.fail .networkUnreachable, 0⟩]
  dead := []
  answers := #[]
  stopAfterRequests := none
  stopAfterDials := none
  recorded := 0

/-- The attempt with a number, to an endpoint. -/
def dial (s : Script) (number : Nat) (endpoint : String) : Dial :=
  let d := match s.dials[number]? with
    | some d => d
    | none => s.dials.getLast?.getD ⟨.accept, 0⟩
  match s.dead.lookup endpoint with
  | some fault => { d with finish := .fail fault }
  | none => d

/-- The answer to the request with a number. -/
def answer (s : Script) (number : Nat) : Answer :=
  s.answers.getD (number % s.answers.size) (.pieces [])

end Script

/-- What the network has seen. -/
inductive Record
  | dial (time : Nat) (endpoint : String)
  | request (time stream : Nat) (bytes : Wire.Bytes)
  /-- A request that could not be written. -/
  | refused (time stream : Nat)
  deriving Repr

/-- One direction of a connection: pieces under way with the times at which they are due. -/
structure Inbound where
  pieces : List (Nat × Piece)
  /-- When the last piece so far is due. -/
  last : Nat
  deriving Repr, Inhabited

/-- Lets pieces follow those that are under way already. -/
def Inbound.push (now : Nat) : List (Nat × Piece) → Inbound → Inbound
  | [], i => i
  | (after, piece) :: rest, i =>
    let due := max i.last now + after
    push now rest ⟨i.pieces ++ [(due, piece)], due⟩

/-- The state of a scripted network. -/
structure Network where
  script : Script
  /-- Attempts that were started. -/
  dials : Nat
  /-- Requests that were written. -/
  requests : Nat
  /-- Accepted streams by number. -/
  streams : Array Inbound
  /-- The latest record in front. -/
  records : List Record

/-- What the network does once it is due. -/
inductive Happening
  | dialEnds (finish : DialEnd)
  | pauseEnds
  | permitFree
  | written
  | writeFails (fault : TransportFault)
  /-- The next piece of a stream arrives. -/
  | piece (stream : Nat)
  deriving Repr

namespace Network

def new (script : Script) : Network := ⟨script, 0, 0, #[], []⟩

/-- Keeps a record while there is room for it. -/
def keep (n : Network) (r : Record) : Network :=
  if n.records.length < n.script.recorded then { n with records := r :: n.records } else n

/-- Whether the script wants the run to stop. -/
def wantsStop (n : Network) : Bool :=
  n.script.stopAfterRequests.any (· ≤ n.requests) || n.script.stopAfterDials.any (· ≤ n.dials)

/-- Starts an attempt to connect; nothing is due if it never ends. -/
def dial (n : Network) (now : Nat) (endpoint : String) : Network × Option (Nat × Happening) :=
  let d := n.script.dial n.dials endpoint
  let n := { n with dials := n.dials + 1 }.keep (.dial now endpoint)
  match d.finish with
  | .hang => (n, none)
  | finish => (n, some (now + d.after, .dialEnds finish))

/-- Writes a request. -/
def write (n : Network) (now stream : Nat) (bytes : Wire.Bytes) : Network × Happening :=
  let answer := n.script.answer n.requests
  let n := { n with requests := n.requests + 1 }
  match answer with
  | .refuse => (n.keep (.refused now stream), .writeFails .brokenPipe)
  | .pieces pieces =>
    ({ n with streams := n.streams.modify stream (Inbound.push now pieces) }.keep
      (.request now stream bytes), .written)

/-- The next piece of a stream, if any is under way. -/
def read (n : Network) (stream : Nat) : Option (Nat × Happening) :=
  (n.streams[stream]?.bind (·.pieces.head?)).map fun (due, _) => (due, .piece stream)

/-- Takes the next piece of a stream. The end of a stream stays. -/
def takePiece (n : Network) (stream : Nat) : Network × Exchange.Signal :=
  match n.streams[stream]? with
  | none => (n, .ended)
  | some i => match i.pieces with
    | [] => (n, .ended)
    | (_, .close) :: _ => (n, .ended)
    | (_, piece) :: pieces =>
      let n := { n with streams := n.streams.setIfInBounds stream { i with pieces } }
      match piece with
      | .bytes bytes => (n, .received bytes)
      | .fail fault => (n, .readFailed fault)
      | .close => (n, .ended)

/-- Takes up what is wanted: the network after that, and what will happen when. -/
def takeUp (n : Network) (now : Nat) : Want → Network × Option (Nat × Happening)
  | .connect endpoint _ => n.dial now endpoint
  | .moment time => (n, some (time.millisUp, .pauseEnds))
  | .write stream bytes _ =>
    let (n, happening) := n.write now stream bytes
    (n, some (now, happening))
  | .read stream _ => (n, n.read stream)
  | _ => (n, none)

/-- Lets something happen: the signal for it. -/
def occur (n : Network) : Happening → Network × Signal
  | .dialEnds .accept =>
    ({ n with streams := n.streams.push ⟨[], 0⟩ }, .acquire (.connected n.streams.size))
  | .dialEnds (.fail fault) => (n, .acquire (.connectFailed fault))
  | .dialEnds .hang => (n, .acquire .timeUp)
  | .pauseEnds => (n, .acquire .pauseOver)
  | .permitFree => (n, .acquire .permitFree)
  | .written => (n, .exchange .written)
  | .writeFails fault => (n, .exchange (.writeFailed fault))
  | .piece stream =>
    let (n, s) := n.takePiece stream
    (n, .exchange s)

end Network

end LoadGen.Simulation
