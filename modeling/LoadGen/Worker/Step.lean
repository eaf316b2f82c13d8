import LoadGen.Worker.Basic

/-!
# Steps of a worker

`Worker.step` is all that a worker does in answer to a signal: the worker and the shared state
after it, the operations to be counted and the events to be logged. Between two steps other workers
may have theirs. A worker that waited until then takes the step by `Worker.poll`: it first looks
whether it is to stop.

Random words are drawn for the operation first and for its values after that, before anything
depends on the network.
-/

namespace LoadGen

open Log (Event)
open Stats (Entry)
open Time (Span)

/-- What a step of a worker leaves behind. -/
structure Worker.Turn (R : Type) where
  worker : Worker R
  shared : Shared R
  entries : List Entry
  events : List Event

namespace Worker

variable {R : Type}

/-- The request for an operation, with values drawn from a source. A find looks for one value. -/
def request (o : Operation R) (s : Random.Source) : Wire.Request × Random.Source :=
  let (values, valueLength, s) := match o.value with
    | none => ([], 0, s)
    | some spec =>
      let count := if o.action = .find then 1 else o.command.items
      let (values, s) := Workload.drawValues spec count s
      (values, spec.length, s)
  ({ action := o.action
     key := o.keyspace.key o.keyIndex
     values
     valueLength
     items := o.command.items
     elementSize := o.keyspace.elementSize
     watermarks := o.command.watermarks }, s)

/-- How a response to an operation counts. -/
def outcomeOf (o : Operation R) : Wire.Response → Stats.Outcome × List Event
  | .success => (.success, [])
  | .rejected reason =>
    if o.expectsMiss then (.expectedMiss, [])
    else (.failure .protocol,
      [{ level := .trace, component := .worker, message := s!"request rejected: {reason}",
         fields := [("action", .text o.action.name)] }])

/-- Ends the worker. -/
def stop (w : Worker R) (shared : Shared R) : Turn R where
  worker := { w with phase := .stopped }
  shared
  entries := []
  events :=
    [{ level := .debug, component := .worker, message := "worker stopped",
       fields := [("worker", .number w.id), ("operations", .number w.operations)] }]

/-- Ends the worker for a violation. -/
def abort (w : Worker R) (shared : Shared R) (v : Workload.Violation) : Turn R where
  worker := { w with phase := .aborted v }
  shared
  entries := []
  events :=
    [{ level := .error, component := .worker, message := s!"abort worker: {v.message}",
       fields := [("worker", .number w.id)] }]

/-- Goes on with an acquire that stands at `progress`. -/
def afterAcquire (w : Worker R) (shared : Shared R) (now : Span) (job : Job R) (pool : Nat)
    (since : Span) : Acquire.Progress → Turn R
  | .pending acquire =>
    { worker := { w with phase := .acquiring job pool since acquire }
      shared
      entries := []
      events := [] }
  | .ready connection =>
    let (standing, health, events) := w.standing.onConnected shared.health w.id
    { worker := { w with standing, phase := .exchanging job pool now connection false }
      shared := { shared with health }
      entries := []
      events }
  | .failed fault =>
    let (standing, health, events) := w.standing.onFault shared.health w.id fault
    { worker := { w with standing, phase := .resting }
      shared := { shared with health }
      entries :=
        [{ action := job.operation.action
           outcome := .failure .connection
           latency := now.since since }]
      events :=
        { level := .debug, component := .worker,
          message := s!"acquire connection: {fault.message}",
          fields := [("worker", .number w.id)] } :: events }

/-- Draws the next operation and starts on it. -/
def draw [Weights.Weight R] (w : Worker R) (shared : Shared R) (now : Span) : Turn R :=
  match shared.workload.select w.source with
  | .error v => w.abort shared v
  | .ok (.skipped _ action, workload, source) =>
    { worker := { w with source, phase := .resting }
      shared := { shared with workload }
      entries := [{ action, outcome := .skipped, latency := .zero }]
      events := [] }
  | .ok (.dispatched operation, workload, source) =>
    let (request, source) := request operation source
    let shared := { shared with workload }
    let w := { w with source }
    let turn := w.nextPool
    match w.pools[turn]? with
    | none => w.abort shared (.noEndpoint w.id)
    | some pool =>
      let (pool, progress) := pool.acquire now
      let w := { w with
        pools := w.pools.setIfInBounds turn pool
        nextPool := (turn + 1) % w.pools.size }
      w.afterAcquire shared now ⟨operation, request⟩ turn now progress

/-- Goes on with a request whose connection stands at `progress`. -/
def afterExchange (w : Worker R) (shared : Shared R) (now : Span) (job : Job R) (pool : Nat)
    (since : Span) (connection : Connection) : Exchange.Progress → Turn R
  | .reading =>
    { worker := { w with phase := .exchanging job pool since connection true }
      shared
      entries := []
      events := [] }
  | .finished result =>
    match w.pools[pool]? with
    | none => w.abort shared (.noEndpoint w.id)
    | some p =>
      let latency := now.since since
      let action := job.operation.action
      let (shared, entry, healthy, noted) := match result with
        | .ok ⟨response, sent, received⟩ =>
          let workload := shared.workload.complete job.operation response
          let (outcome, events) := outcomeOf job.operation response
          ({ shared with workload }, ⟨action, outcome, latency, sent, received⟩, true, events)
        | .error fault =>
          let event : Event :=
            { level := .debug, component := .worker,
              message := s!"request failed: {fault.message}",
              fields := [("worker", .number w.id), ("endpoint", .text p.endpoint),
                ("connection", .number connection.id), ("action", .text action.name)] }
          (shared, { action, outcome := .failure fault.kind, latency : Entry }, false, [event])
      let (p, dropped) := p.release connection healthy
      { worker := { w with
          pools := w.pools.setIfInBounds pool p
          operations := w.operations + 1
          phase := .ready }
        shared
        entries := [entry]
        events := noted ++ dropped }

/-- What a signal does to a worker; signals that do not fit what it is doing do nothing. -/
def step [Weights.Weight R] (w : Worker R) (shared : Shared R) (now : Span) (s : Signal) :
    Turn R :=
  let unchanged : Turn R := ⟨w, shared, [], []⟩
  match w.phase, s with
  | .fresh, .resume =>
    { worker := { w with phase := .ready }
      shared
      entries := []
      events :=
        [{ level := .debug, component := .worker, message := "worker started",
           fields := [("worker", .number w.id), ("endpoints", .number w.pools.size)] }] }
  | .ready, .resume | .resting, .resume =>
    if shared.stopping then w.stop shared else w.draw shared now
  | .acquiring job pool since acquire, .acquire s =>
    match w.pools[pool]? with
    | none => unchanged
    | some p =>
      let (p, progress, noted) := p.advance acquire now s
      let turn := { w with pools := w.pools.setIfInBounds pool p }.afterAcquire shared now job pool
        since progress
      { turn with events := noted ++ turn.events }
  | .acquiring _ pool _ acquire, .stop =>
    match w.pools[pool]? with
    | none => unchanged
    | some p =>
      { unchanged with
        worker := { w with
          pools := w.pools.setIfInBounds pool (p.cancel acquire)
          phase := .ready } }
  | .exchanging job pool since connection _, .exchange s =>
    let (connection, progress) := connection.exchange job.request.encode.length s
    w.afterExchange shared now job pool since connection progress
  | _, _ => unchanged

/-- Whether the worker drops what it waits for, as it is told to stop. -/
def isToStop (w : Worker R) (shared : Shared R) : Bool := shared.stopping && w.heedsStop

/-- What a worker that waited goes on with: that it is to stop comes before anything else. -/
def heed (w : Worker R) (shared : Shared R) (s : Signal) : Signal :=
  if w.isToStop shared then .stop else s

/-- What a signal does to a worker that waited until then. -/
def poll [Weights.Weight R] (w : Worker R) (shared : Shared R) (now : Span) (s : Signal) :
    Turn R :=
  w.step shared now (w.heed shared s)

end Worker

end LoadGen
