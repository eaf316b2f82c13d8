import LoadGen.Run.Basic
import LoadGen.Simulation.Network

/-!
# Simulated runs

A run against a scripted network on a clock of its own: while anybody can do something no time
passes, and then the clock jumps to the next moment at which something happens.

Workers take turns. A worker keeps its turn until it has to wait; those whose waiting ends at the
same moment get their turns in the order in which they began to wait, the run loop before all of
them. Workers that give way go on when nobody else has a turn left, the last one first.

`step` picks the next event and lets the run do it; what the event does is settled in `Run`.
-/

namespace LoadGen

open Log (Event)
open Report (WindowReport)
open Time (Span)

namespace Simulation

/-- What a worker waits for: something that will happen, and the limit of its patience, each with
the place in the order in which waits began. -/
structure Wait where
  asleep : Bool
  coming : Option (Nat × Nat × Happening)
  limit : Option (Nat × Nat)
  deriving Inhabited

namespace Wait

def none : Wait := ⟨false, .none, .none⟩

/-- The moment at which the wait ends, and its place. -/
def finish? (w : Wait) : Option (Nat × Nat) :=
  if w.asleep then
    match w.coming, w.limit with
    | some (due, place, _), some (limit, place') =>
      some (if due < limit then (due, place) else if limit < due then (limit, place')
        else (due, min place place'))
    | some (due, place, _), .none => some (due, place)
    | .none, limit => limit
  else .none

end Wait

/-- A turn of a worker. -/
structure Cue where
  position : Nat
  /-- Whether the worker waited until then. -/
  woken : Bool
  signal : Signal

/-- What happens from outside. -/
structure Plan where
  /-- Whether the run loop is there to seal windows and to watch over the health. -/
  attended : Bool
  /-- When the run is asked to end. -/
  shutdownAt : Option Nat
  /-- What is logged at that moment, before the run notices. -/
  shutdownEvents : List Event := []
  /-- When the workers are told to stop without the run loop. -/
  stopAt : Option Nat
  /-- Whether anybody takes the reports. -/
  listening : Bool

end Simulation

open Simulation in
/-- A run together with its surroundings. -/
structure Simulation (R : Type) where
  plan : Plan
  run : Run R
  network : Network
  /-- Milliseconds since the start. -/
  now : Nat
  /-- The worker that has its turn, and the signal it gets. -/
  active : Option Cue
  /-- The workers whose turns come next. -/
  queue : List Nat
  /-- The workers that gave way, the last one in front. -/
  rested : List Nat
  waits : Array Wait
  /-- The place of the next wait. -/
  place : Nat
  /-- The reports of the sealed windows. -/
  reports : Array WindowReport
  events : Array Event

namespace Simulation

variable {R : Type}

/-- A run before its start; all workers have a turn coming. -/
def new (plan : Plan) (run : Run R) (script : Script) (events : List Event) : Simulation R where
  plan
  run
  network := .new script
  now := 0
  active := none
  queue := List.range run.workers.size
  rested := []
  waits := Array.replicate run.workers.size .none
  place := 0
  reports := #[]
  events := events.toArray

/-- The time as an offset from the start. -/
def clock (s : Simulation R) : Span := .ofMillis s.now

/-- Goes on with a run and what it has logged. -/
def goOn (s : Simulation R) (run : Run R) (events : List Event) : Simulation R :=
  { s with run, events := s.events ++ events.toArray }

/-- Ends the wait of a worker and queues it. -/
def wake (s : Simulation R) (position : Nat) : Simulation R :=
  { s with
    queue := s.queue ++ [position]
    waits := s.waits.modify position fun w => { w with asleep := false } }

/-- Queues all sleeping workers that heed a stop. -/
def wakeToStop (s : Simulation R) : Simulation R :=
  (List.range s.run.workers.size).foldl (fun s position =>
    let asleep := (s.waits.getD position .none).asleep
    if asleep && s.run.workers[position]?.any (·.heedsStop) then s.wake position else s) s

/-- Tells the workers to stop. -/
def stopWorkers (s : Simulation R) : Simulation R :=
  { s with run := { s.run with shared := { s.run.shared with stopping := true } } }

/-- Lets a worker wait, unless its patience is at its end already or it is to stop. -/
def sleep (s : Simulation R) (position : Nat) (w : Worker R) (want : Want)
    (coming : Option (Nat × Happening)) : Simulation R :=
  let limit := want.limit?.map (·.millisUp)
  if limit.any (· ≤ s.now) then { s with active := some ⟨position, false, want.timeUp⟩ }
  else if w.isToStop s.run.shared then { s with active := some ⟨position, true, .stop⟩ }
  else
    -- an exchange has one limit for all its reads
    let earlier := match want with
      | .read .. => (s.waits.getD position .none).limit
      | _ => none
    let limit := limit.map fun limit => match earlier with
      | some (l, place) => (limit, if l = limit then place else s.place + 1)
      | none => (limit, s.place + 1)
    let coming := coming.map fun (due, happening) => (due, s.place, happening)
    { s with
      place := s.place + 2
      waits := s.waits.setIfInBounds position { asleep := true, coming, limit } }

/-- Takes up with the network what is wanted. The script may want the run to stop at this. -/
def takeUp (s : Simulation R) (want : Want) : Simulation R × Option (Nat × Happening) :=
  let (network, coming) := s.network.takeUp s.now want
  let s := { s with network }
  (if network.wantsStop then s.stopWorkers else s, coming)

/-- Takes up what the worker at a position wants: it keeps its turn if nothing has to be waited
for. -/
def settle (s : Simulation R) (position : Nat) : Simulation R :=
  let s := { s with active := none }
  match s.run.workers[position]? with
  | none => s
  | some w => match w.want with
    | .turn => { s with active := some ⟨position, false, .resume⟩ }
    | .giveWay => { s with rested := position :: s.rested }
    | .nothing => s
    | want =>
      let (s, coming) := s.takeUp want
      match coming with
      | some (due, happening) =>
        if due ≤ s.now then
          let (network, signal) := s.network.occur happening
          { s with network, active := some ⟨position, false, signal⟩ }
        else s.sleep position w want coming
      | none => s.sleep position w want none

/-- Gives the next worker in the queue its turn. One that is to stop does not see what it waited
for. -/
def takeTurn (s : Simulation R) (position : Nat) : Simulation R :=
  match s.run.workers[position]? with
  | none => s
  | some w =>
    if w.isToStop s.run.shared then { s with active := some ⟨position, true, .stop⟩ }
    else match (s.waits.getD position .none).coming, w.want with
      | _, .turn | _, .giveWay => { s with active := some ⟨position, true, .resume⟩ }
      | some (due, _, happening), want =>
        if due ≤ s.now then
          let (network, signal) := s.network.occur happening
          { s with network, active := some ⟨position, true, signal⟩ }
        else { s with active := some ⟨position, true, want.timeUp⟩ }
      | none, want => { s with active := some ⟨position, true, want.timeUp⟩ }

/-- When the next window ends, while the run goes on. -/
def nextTick? (s : Simulation R) : Option Nat :=
  if s.plan.attended && s.run.verdict.isNone then
    some (s.run.general.interval.nanos * (s.run.sealed + 1) / 1000000)
  else none

/-- When the run is to be shut down, while it goes on. -/
def nextShutdown? (s : Simulation R) : Option Nat :=
  if s.plan.attended && s.run.verdict.isNone then s.plan.shutdownAt else none

/-- When the workers are to be stopped, while they are not. -/
def nextStop? (s : Simulation R) : Option Nat :=
  if s.run.shared.stopping then none else s.plan.stopAt

/-- Looks for a notice that no worker is healthy. -/
def checkHealth (s : Simulation R) : Simulation R :=
  if s.plan.attended && s.run.verdict.isNone then
    let (run, events) := s.run.checkHealth s.clock
    s.goOn run events
  else s

/-- Seals the window if it has ended. -/
def tick (s : Simulation R) : Simulation R :=
  if s.nextTick?.any (· ≤ s.now) then
    let (run, report, events) := s.run.tick s.clock
    if s.plan.listening then { s.goOn run events with reports := s.reports.push report }
    else s.goOn run (events ++
      [{ level := .debug, component := .run, message := "report receiver dropped",
         fields := [] }])
  else s

/-- Shuts the run down if it is time to. -/
def shutDown (s : Simulation R) : Simulation R :=
  if s.nextShutdown?.any (· ≤ s.now) then
    let (run, events) := s.run.shutDown s.clock
    s.goOn run (s.plan.shutdownEvents ++ events)
  else s

/-- What the run loop does at this moment. -/
def attend (s : Simulation R) : Simulation R :=
  let s := s.checkHealth.tick.shutDown
  let s := if s.nextStop?.any (· ≤ s.now) then s.stopWorkers else s
  if s.run.shared.stopping then s.wakeToStop else s

/-- The next moment at which something happens. -/
def nextMoment? (s : Simulation R) : Option Nat :=
  let waits := s.waits.toList.filterMap fun w => w.finish?.map (·.1)
  (waits ++ s.nextTick?.toList ++ s.nextShutdown?.toList ++ s.nextStop?.toList).min?

/-- Queues the workers whose waits end by a moment, in the order in which they began. -/
def wakeDue (s : Simulation R) (moment : Nat) : Simulation R :=
  let due := s.waits.toList.zipIdx.filterMap fun (w, position) =>
    w.finish?.bind fun (finish, place) =>
      if finish ≤ moment then some (place, position) else none
  (due.mergeSort fun a b => a.1 ≤ b.1).foldl (fun s (_, position) => s.wake position) s

/-- Gives a worker its turn. -/
def play [Weights.Weight R] (s : Simulation R) (cue : Cue) : Run R × List Event :=
  if cue.woken then s.run.poll cue.position s.clock cue.signal
  else s.run.signal cue.position s.clock cue.signal

/-- The next event; nothing if all workers have ended or nothing can happen any more. -/
def step [Weights.Weight R] (s : Simulation R) : Option (Simulation R) :=
  match s.active with
  | some cue =>
    let (run, events) := s.play cue
    some ((s.goOn run events).settle cue.position)
  | none => match s.queue with
    | position :: queue => some (({ s with queue }).takeTurn position)
    | [] =>
      if s.run.isOver then none
      else
        let s := s.attend
        match s.queue ++ s.rested with
        | [] => s.nextMoment?.map fun moment =>
          let s : Simulation R := { s with now := max s.now moment }
          (s.wakeDue s.now).attend
        | queue => some { s with queue, rested := [] }

/-- A run with its plan and its network at the moment of its start. -/
def start (plan : Plan) (run : Run R) (script : Script) (events : List Event) : Simulation R :=
  (new plan run script events).attend

/-- At most `n` events, as long as there are any. -/
def steps [Weights.Weight R] : Nat → Simulation R → Simulation R
  | 0, s => s
  | n + 1, s => match s.step with
    | some s => steps n s
    | none => s

end Simulation

end LoadGen
