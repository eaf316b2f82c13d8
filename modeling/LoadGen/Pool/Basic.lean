import LoadGen.Connection.Basic
import LoadGen.Log.Event
import LoadGen.Text.Quoted
import LoadGen.Time.Span

/-!
# Connection pools

A pool owns the connections to one endpoint. Whoever wants one needs a permit first, and there are
as many permits as the pool has room for connections. New connections are made until the pool is
full, and after that the idle one that was given back longest ago is handed out. A connection that
failed is dropped when it is given back, which makes room for a new one.

`live` counts the connections that are idle, on loan or being made.
-/

namespace LoadGen

open Log (Event)
open Time (Span)

/-- The connections to one endpoint. -/
structure Pool where
  endpoint : String
  /-- How many connections there may be. -/
  capacity : Nat
  capacity_pos : 0 < capacity
  /-- How long an acquire may take. -/
  connectTimeout : Span
  /-- Permits that nobody holds. -/
  permits : Nat
  /-- Idle connections, the one given back first in front. -/
  idle : List Connection
  live : Nat
  /-- The number of the next connection. -/
  nextId : Nat

namespace Pool

/-- An empty pool. There is room for one connection at least. -/
def new (endpoint : String) (capacity : Nat) (connectTimeout : Span) : Pool where
  endpoint
  capacity := max capacity 1
  capacity_pos := by omega
  connectTimeout
  permits := max capacity 1
  idle := []
  live := 0
  nextId := 0

/-- What the holder of a permit gets. -/
inductive Claim
  | idle (connection : Connection)
  /-- Room for a connection that is to be made. -/
  | room
  deriving Repr

/-- Takes a permit, if there is one. -/
def takePermit? (p : Pool) : Option Pool :=
  if 0 < p.permits then some { p with permits := p.permits - 1 } else none

def returnPermit (p : Pool) : Pool := { p with permits := p.permits + 1 }

/-- Claims an idle connection once the pool is full, and room for a new one before. -/
def claim (p : Pool) : Pool × Claim :=
  if p.capacity ≤ p.live then
    match p.idle with
    | c :: idle => ({ p with idle }, .idle c)
    | [] => ({ p with live := p.live + 1 }, .room)
  else ({ p with live := p.live + 1 }, .room)

/-- Gives up the room that was claimed, and the permit. -/
def giveUp (p : Pool) : Pool := { p with live := p.live - 1 }.returnPermit

/-- Numbers the connection made on a stream. -/
def establish (p : Pool) (stream : Nat) : Pool × Connection × Event :=
  ({ p with nextId := p.nextId + 1 }, .new p.nextId stream,
    { level := .debug, component := .pool, message := "connection established",
      fields := [("endpoint", .text p.endpoint), ("connection", .number p.nextId)] })

/-- Takes back a connection with its permit. A healthy one becomes idle, any other is dropped. -/
def release (p : Pool) (c : Connection) (healthy : Bool) : Pool × List Event :=
  if healthy then ({ p with idle := p.idle ++ [c] }.returnPermit, [])
  else ({ p with live := p.live - 1 }.returnPermit,
    [{ level := .debug, component := .pool, message := "drop unhealthy connection",
       fields := [("endpoint", .text p.endpoint), ("connection", .number c.id)] }])

/-- Takes back the permit of a connection that is lost to the pool; its room stays taken. -/
def forget (p : Pool) : Pool := p.returnPermit

/-- The pool in one line. -/
def summary (p : Pool) : String :=
  s!"ConnectionPool \x7b endpoint: {Text.quoted p.endpoint}, capacity: {p.capacity}, " ++
    s!"live: {p.live} \x7d"

end Pool

end LoadGen
