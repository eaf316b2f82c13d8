import LoadGen.Random.Source
import LoadGen.Stats.Window
import LoadGen.Transport.Signal
import LoadGen.Worker.Health
import LoadGen.Workload.Selection
import LoadGen.Workload.Values

/-!
# Workers

A worker is one client of the run. It draws an operation, takes a connection to the next endpoint
in turn, sends the request and waits for the response, and so on until it is told to stop. It does
one thing at a time, so its state between two signals is a `Phase`.
-/

namespace LoadGen

open Log (Event)
open Time (Span)

/-- A drawn operation and the request that carries it out. -/
structure Job (R : Type) where
  operation : Operation R
  request : Wire.Request

/-- What a worker is doing. -/
inductive Worker.Phase (R : Type)
  /-- Nothing yet. -/
  | fresh
  /-- It may draw the next operation. -/
  | ready
  /-- As `ready`, after an operation that was not sent; others may go first. -/
  | resting
  /-- It waits for a connection from the pool at a position. -/
  | acquiring (job : Job R) (pool : Nat) (since : Span) (acquire : Acquire)
  /-- It sends a request, and once that is written waits for the response. -/
  | exchanging (job : Job R) (pool : Nat) (since : Span) (connection : Connection)
    (written : Bool)
  /-- It was told to stop. -/
  | stopped
  /-- Its bookkeeping contradicts itself. -/
  | aborted (violation : Workload.Violation)

/-- One client of a run. -/
structure Worker (R : Type) where
  id : Nat
  source : Random.Source
  /-- One pool for each endpoint. -/
  pools : Array Pool
  /-- The position of the pool that the next request uses. -/
  nextPool : Nat
  standing : Standing
  /-- How long a request may take. -/
  requestTimeout : Span
  /-- The number of requests that were sent. -/
  operations : Nat
  phase : Worker.Phase R

/-- What all workers of a run share. -/
structure Shared (R : Type) where
  workload : Workload R
  health : Health
  /-- The run is over. -/
  stopping : Bool

namespace Worker

variable {R : Type}

/-- A worker for a configuration. -/
def new (config : Config R) (id : Nat) (source : Random.Source) : Worker R where
  id
  source
  pools := (config.endpoints.map fun endpoint =>
    Pool.new endpoint config.general.poolsize config.general.connectTimeout).toArray
  nextPool := 0
  standing := .new
  requestTimeout := config.general.requestTimeout
  operations := 0
  phase := .fresh

/-- What the worker waits for. -/
def want (w : Worker R) : Want :=
  match w.phase with
  | .fresh | .ready => .turn
  | .resting => .giveWay
  | .acquiring _ pool _ acquire =>
    match w.pools[pool]? with
    | some p => acquire.want p.endpoint
    | none => .nothing
  | .exchanging job _ since connection written =>
    let limit := since + w.requestTimeout
    if written then .read connection.stream limit
    else .write connection.stream job.request.encode limit
  | .stopped | .aborted _ => .nothing

/-- Whether the worker would drop what it waits for when it is told to stop. -/
def heedsStop (w : Worker R) : Bool :=
  match w.phase with
  | .acquiring .. => true
  | _ => false

/-- Whether the worker has ended. -/
def isOver (w : Worker R) : Bool :=
  match w.phase with
  | .stopped | .aborted _ => true
  | _ => false

/-- The worker in one line. -/
def summary (w : Worker R) : String :=
  let pools := ", ".intercalate (w.pools.toList.map Pool.summary)
  s!"Worker \x7b id: {w.id}, pools: [{pools}], degraded: {w.standing.degraded} \x7d"

end Worker

end LoadGen
