import LoadGen.Stats.Window
import LoadGen.Wire.Response

/-!
# Faults of connections

What can go wrong between a worker and an endpoint: no connection becomes available in time, or a
request gets no response. A `TransportFault` is what the network has to say about it.
-/

namespace LoadGen

/-- A failure reported by the network. -/
structure TransportFault where
  reason : String
  deriving Repr, DecidableEq

namespace TransportFault

def refused : TransportFault := ⟨"connection refused"⟩

def reset : TransportFault := ⟨"connection reset"⟩

def brokenPipe : TransportFault := ⟨"broken pipe"⟩

def hostUnreachable : TransportFault := ⟨"host unreachable"⟩

/-- The failure of a host without a route to the endpoint. -/
def networkUnreachable : TransportFault := ⟨"Network is unreachable (os error 101)"⟩

end TransportFault

/-- Why no connection was handed out. -/
inductive AcquireFault
  /-- Nothing failed, but the time ran out. -/
  | timedOut (endpoint : String)
  /-- Every attempt to connect failed; `last` is the failure of the last one. -/
  | unreachable (endpoint : String) (attempts : Nat) (last : TransportFault)
  /-- The pool no longer hands out connections. -/
  | closed
  deriving Repr, DecidableEq

namespace AcquireFault

def message : AcquireFault → String
  | timedOut endpoint => s!"connect to {endpoint}: timed out"
  | unreachable endpoint attempts last =>
    s!"connect to {endpoint} ({attempts} attempts): {last.reason}"
  | closed => "connection pool closed"

/-- The failure behind the fault. -/
def cause? : AcquireFault → Option String
  | unreachable _ _ last => some last.reason
  | _ => none

end AcquireFault

/-- Why a request got no response. -/
inductive RequestFault
  | timedOut
  | malformed (fault : Wire.DecodeFault)
  | transport (fault : TransportFault)
  /-- The peer closed the connection before the response was complete. -/
  | closedByPeer
  deriving Repr, DecidableEq

namespace RequestFault

def message : RequestFault → String
  | timedOut => "request timed out"
  | malformed fault => fault.message
  | transport fault => s!"request io: {fault.reason}"
  | closedByPeer => "connection closed by peer"

/-- How the fault is counted. -/
def kind : RequestFault → Stats.FailureKind
  | timedOut => .timeout
  | malformed _ => .protocol
  | transport _ => .io
  | closedByPeer => .io

end RequestFault

end LoadGen
