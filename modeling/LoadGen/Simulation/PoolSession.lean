import LoadGen.Simulation.Network

/-!
# Sessions on a pool

One pool against a scripted network, used by hand: connections are acquired, used and given back
under names, one operation after the other. The clock goes on only while an operation waits.
-/

namespace LoadGen.Simulation

open Log (Event)
open Time (Span)

/-- A pool, its network, and the connections that are held, by name. -/
structure PoolSession where
  pool : Pool
  network : Network
  /-- Milliseconds since the start. -/
  now : Nat
  held : List (String × Connection)
  events : List Event

namespace PoolSession

def new (pool : Pool) (script : Script) : PoolSession := ⟨pool, .new script, 0, [], []⟩

def clock (s : PoolSession) : Span := .ofMillis s.now

/-- Gives a connection back. -/
def giveBack (s : PoolSession) (c : Connection) (healthy : Bool) : PoolSession :=
  let (pool, events) := s.pool.release c healthy
  { s with pool, events := s.events ++ events }

/-- Gives back the connection held under a name; nothing if there is none. -/
def release? (s : PoolSession) (name : String) (healthy : Bool) : Option PoolSession :=
  (s.held.lookup name).map fun c =>
    { s with held := s.held.filter (·.1 != name) }.giveBack c healthy

/-- Loses the connection held under a name, if there is one. -/
def drop (s : PoolSession) (name : String) : PoolSession :=
  if (s.held.lookup name).isSome then
    { s with held := s.held.filter (·.1 != name), pool := s.pool.forget }
  else s

/-- Holds a connection under a name, instead of the one that was held under it. -/
def hold (s : PoolSession) (name : String) (c : Connection) : PoolSession :=
  let s := s.drop name
  { s with held := s.held ++ [(name, c)] }

/-- A connection that is given back at some time, healthy or not. -/
structure Return where
  time : Nat
  connection : Connection
  healthy : Bool

/-- How an acquire ended. -/
inductive Acquired
  | ready (connection : Connection)
  | failed (fault : AcquireFault)
  /-- It was cancelled. -/
  | abandoned

/-- An acquire under way: what the network has in store for it, a connection that is given back
meanwhile, and the time at which it is abandoned. -/
structure Acquiring where
  acquire : Acquire
  coming : Option (Nat × Happening)
  meanwhile : Option Return
  patience : Option Nat

/-- Takes up what the acquire wants. -/
def takeUp (s : PoolSession) (a : Acquiring) : PoolSession × Acquiring :=
  match a.acquire.want s.pool.endpoint with
  | .permit _ => (s, { a with coming := none })
  | want =>
    let (network, coming) := s.network.takeUp s.now want
    ({ s with network }, { a with coming })

/-- Follows an acquire to its end, over at most `fuel` events. At the same moment the acquire goes
on first, then the connection is given back, then the deadline passes, and the acquire is abandoned
last. -/
def follow : Nat → PoolSession → Acquiring → PoolSession × Acquired × Option Return
  | 0, s, a => ({ s with pool := s.pool.cancel a.acquire }, .abandoned, a.meanwhile)
  | fuel + 1, s, a =>
    let deadline := match a.acquire.stage with
      | .pausing _ => none
      | _ => some a.acquire.deadline.millisUp
    let coming : Option (Nat × Happening) := match a.acquire.stage with
      | .queued => if 0 < s.pool.permits then some (s.now, .permitFree) else none
      | _ => a.coming
    let moments := (coming.map (·.1)).toList ++ (a.meanwhile.map (·.time)).toList ++
      deadline.toList ++ a.patience.toList
    match moments.min? with
    | none => ({ s with pool := s.pool.cancel a.acquire }, .abandoned, a.meanwhile)
    | some moment =>
      let s := { s with now := max s.now moment }
      let isDue (time : Nat) : Bool := time ≤ s.now
      let advance (s : PoolSession) (signal : Acquire.Signal) :
          PoolSession × Acquired × Option Return :=
        let (pool, progress, events) := s.pool.advance a.acquire s.clock signal
        let s := { s with pool, events := s.events ++ events }
        match progress with
        | .ready c => (s, .ready c, a.meanwhile)
        | .failed fault => (s, .failed fault, a.meanwhile)
        | .pending acquire =>
          let (s, a) := s.takeUp { a with acquire }
          follow fuel s a
      match coming.filter (isDue ·.1), a.meanwhile.filter (isDue ·.time) with
      | some (_, happening), _ => match s.network.occur happening with
        | (network, .acquire signal) => advance { s with network } signal
        | (network, _) => advance { s with network } .timeUp
      | none, some r => follow fuel (s.giveBack r.connection r.healthy) { a with meanwhile := none }
      | none, none =>
        if deadline.any isDue then advance s .timeUp
        else ({ s with pool := s.pool.cancel a.acquire }, .abandoned, a.meanwhile)

/-- Acquires a connection. Once that has ended, the connection that is given back meanwhile is
waited for. -/
def acquire (s : PoolSession) (meanwhile : Option Return) (patience : Option Nat) :
    PoolSession × Acquired :=
  let (pool, progress) := s.pool.acquire s.clock
  let s := { s with pool }
  let (s, acquired, late) : PoolSession × Acquired × Option Return := match progress with
    | .ready c => (s, .ready c, meanwhile)
    | .failed fault => (s, .failed fault, meanwhile)
    | .pending acquire =>
      let (s, a) := s.takeUp { acquire, coming := none, meanwhile, patience }
      follow (pool.connectTimeout.millisUp + 8) s a
  match late with
  | none => (s, acquired)
  | some r =>
    ({ s with now := max s.now r.time }.giveBack r.connection r.healthy, acquired)

/-- Acquires a connection and holds it under a name. Meanwhile the connection of another name may
be given back some time after the start. -/
def acquireAs (s : PoolSession) (name : String) (meanwhile : Option (Nat × String × Bool)) :
    PoolSession × Acquired :=
  let given := meanwhile.bind fun (after, other, healthy) =>
    (s.held.lookup other).map fun connection =>
      (other, ({ time := s.now + after, connection, healthy } : Return))
  let s := match given with
    | some (other, _) => { s with held := s.held.filter (·.1 != other) }
    | none => s
  let (s, acquired) := s.acquire (given.map (·.2)) none
  match acquired with
  | .ready c => (s.hold name c, acquired)
  | _ => (s, acquired)

/-- Acquires a connection, but only for some time; one that is made in time is given back at
once. -/
def abandon (s : PoolSession) (after : Nat) : PoolSession × Acquired :=
  let (s, acquired) := s.acquire none (some (s.now + after))
  match acquired with
  | .ready c => (s.giveBack c true, acquired)
  | _ => (s, acquired)

/-- Follows a request to its end, over at most `fuel` pieces. -/
def await (limit sent : Nat) : Nat → PoolSession → Connection → Exchange.Progress →
    PoolSession × Connection × Except RequestFault Exchange
  | _, s, c, .finished result => (s, c, result)
  | 0, s, c, .reading => (s, c, .error .timedOut)
  | fuel + 1, s, c, .reading =>
    match (s.network.read c.stream).filter (·.1 ≤ limit) with
    | none => ({ s with now := max s.now limit }, c, .error .timedOut)
    | some (due, _) =>
      let (network, signal) := s.network.takePiece c.stream
      let (c, progress) := c.exchange sent signal
      await limit sent fuel { s with network, now := max s.now due } c progress

/-- Sends a request on the connection held under a name and waits for the response; nothing if
there is no such connection. -/
def execute? (s : PoolSession) (name : String) (timeout : Span) (request : Wire.Request) :
    Option (PoolSession × Except RequestFault Exchange) :=
  (s.held.lookup name).map fun c =>
    let bytes := request.encode
    let (network, happening) := s.network.write s.now c.stream bytes
    let s := { s with network }
    let signal : Exchange.Signal := match happening with
      | .writeFails fault => .writeFailed fault
      | _ => .written
    let (c, progress) := c.exchange bytes.length signal
    let pieces := (s.network.streams[c.stream]?.map (·.pieces.length)).getD 0
    let (s, c, result) :=
      await (s.clock + timeout).millisUp bytes.length (pieces + 1) s c progress
    let held := s.held.map fun entry => if entry.1 == name then (name, c) else entry
    ({ s with held }, result)

/-- Lets time pass. -/
def wait (s : PoolSession) (millis : Nat) : PoolSession := { s with now := s.now + millis }

end PoolSession

end LoadGen.Simulation
