import LoadGen.Proofs.Config.Accepted
import LoadGen.Proofs.Trial.Basic

/-!
# Chronicles

A chronicle is a run with what it has shown of itself: what its workers selected, the reports it
sent, and which operations were recorded in which window. Nothing is assumed of the network, so that
workers get any signals at any time. The run loop wakes up for one thing at a time, in any order,
and for nothing any more once it is decided how the run ends; the workers go on until they have
ended.

`Run.signal` is a turn of a worker of which the run loop learns at once (`Run.signal_eq`). In a
chronicle other things may come in between.
-/

namespace LoadGen

open Report (WindowReport)
open Stats (Entry WindowStats)
open Time (Span)

variable {R : Type}

/-! ## Selections -/

/-- What a worker selects: an operation that is held back, or a request and where it goes. -/
inductive Selected
  | skipped (action : Config.Action)
  | dispatched (request : Wire.Request) (endpoint : Option String)
  deriving Repr

namespace Worker

/-- Where the operation goes that the worker has under way. -/
def endpoint? (w : Worker R) : Option String :=
  match w.phase with
  | .acquiring _ pool _ _ => (w.pools[pool]?).map (·.endpoint)
  | .exchanging _ pool _ _ _ => (w.pools[pool]?).map (·.endpoint)
  | _ => none

/-- What a worker selected in a turn: the operation it has now and had not before, and those that
were recorded as skipped. -/
def Turn.selected (w : Worker R) (turn : Turn R) : List Selected :=
  match w.phase.job?, turn.worker.phase.job? with
  | none, some job => [.dispatched job.request turn.worker.endpoint?]
  | _, _ => (turn.entries.filter (·.outcome = .skipped)).map (.skipped ·.action)

end Worker

/-! ## Turns and their discovery -/

namespace Run

/-- A worker has a turn. -/
def work [Weights.Weight R] (r : Run R) (client : Nat) (now : Span) (s : Signal) : Run R :=
  match r.workers[client]? with
  | none => r
  | some w =>
    let turn := w.step r.shared now s
    { r with
      shared := turn.shared
      workers := r.workers.setIfInBounds client turn.worker
      collector := r.collector.update client fun b => turn.entries.foldl WindowStats.count b }

theorem work_eq [Weights.Weight R] {r : Run R} {client : Nat} {w : Worker R}
    (h : r.workers[client]? = some w) (now : Span) (s : Signal) :
    r.work client now s = { r with
      shared := (w.step r.shared now s).shared
      workers := r.workers.setIfInBounds client (w.step r.shared now s).worker
      collector := r.collector.update client fun b =>
        (w.step r.shared now s).entries.foldl WindowStats.count b } := by
  rw [work, h]

/-- The run loop learns that a worker has ended. -/
def join (r : Run R) (client : Nat) (now : Span) : Run R :=
  match r.verdict, (r.workers[client]?).map Worker.phase with
  | none, some (.aborted v) => r.decide (.failed (.violation v)) now
  | _, _ => r

theorem signal_eq [Weights.Weight R] (r : Run R) (client : Nat) (now : Span) (s : Signal) :
    (r.signal client now s).1 = (r.work client now s).join client now := by
  rw [signal, work]
  cases hw : r.workers[client]? with
  | none =>
    rw [join, hw]
    cases r.verdict <;> rfl
  | some w =>
    obtain ⟨hlt, -⟩ := Array.getElem?_eq_some_iff.1 hw
    dsimp only
    rw [join]
    dsimp only
    rw [Array.getElem?_setIfInBounds_self_of_lt hlt, Option.map_some]
    cases r.verdict with
    | some verdict => rfl
    | none => cases (w.step r.shared now s).worker.phase <;> rfl

end Run

/-! ## Events -/

/-- A run with what it has shown of itself, all in order. -/
structure Chronicle (R : Type) where
  run : Run R
  /-- What the workers selected. -/
  selected : List Selected
  /-- The reports that were sent. -/
  reports : List WindowReport
  /-- What was recorded in each window that was reported. -/
  windows : List (List Entry)
  /-- What was recorded since. -/
  current : List Entry

namespace Chronicle

/-- What the run loop wakes up for. -/
inductive Wakeup
  | tick
  /-- A worker has ended. -/
  | ended (client : Nat)
  /-- A worker was lost in a way of its own. -/
  | lost (reason : String)
  | health
  | shutDown
  deriving Repr

/-- What can happen in a run. -/
inductive Event
  /-- A worker gets a signal. -/
  | signal (client : Nat) (now : Span) (s : Signal)
  | wakeup (now : Span) (cause : Wakeup)
  deriving Repr

/-- The chronicle of a run that begins. -/
def start (r : Run R) : Chronicle R := ⟨r, [], [], [], []⟩

/-- A worker has a turn. -/
def work [Weights.Weight R] (c : Chronicle R) (client : Nat) (now : Span) (s : Signal) :
    Chronicle R :=
  match c.run.workers[client]? with
  | none => c
  | some w =>
    let turn := w.step c.run.shared now s
    { c with
      run := c.run.work client now s
      selected := c.selected ++ turn.selected w
      current := c.current ++ turn.entries }

/-- What the run loop does. -/
def attend (c : Chronicle R) (now : Span) : Wakeup → Chronicle R
  | .tick =>
    let (run, report, _) := c.run.tick now
    { c with
      run
      reports := c.reports ++ [report]
      windows := c.windows ++ [c.current]
      current := [] }
  | .ended client => { c with run := c.run.join client now }
  | .lost reason => { c with run := c.run.decide (.failed (.worker reason)) now }
  | .health => { c with run := (c.run.checkHealth now).1 }
  | .shutDown => { c with run := (c.run.shutDown now).1 }

/-- What an event does. Once it is decided how the run ends, its loop does not wake up again. -/
def step [Weights.Weight R] (c : Chronicle R) : Event → Chronicle R
  | .signal client now s => c.work client now s
  | .wakeup now cause => if c.run.verdict.isNone then c.attend now cause else c

/-- What events in order do. -/
def steps [Weights.Weight R] (c : Chronicle R) (events : List Event) : Chronicle R :=
  events.foldl step c

/-- The chronicle that events lead to, from the start of a run. -/
def run? [Weights.Weight R] (config : Config R) (entropy : UInt64) (events : List Event) :
    Option (Chronicle R) := do
  let (r, _) ← (Run.start config entropy).toOption
  return (start r).steps events

/-- A client gets signals one after the other, all at one moment. -/
def told (client : Nat) (now : Span) (signals : List Signal) : List Event :=
  signals.map (.signal client now)

/-- **What holds at the start and is kept by every event holds of every chronicle.** -/
theorem of_run? [Weights.Weight R] {config : Config R} {entropy : UInt64} {events : List Event}
    {c : Chronicle R} {P : Chronicle R → Prop}
    (hstart : ∀ r log, Run.start config entropy = .ok (r, log) → P (start r))
    (hstep : ∀ c e, P c → P (c.step e)) (h : run? config entropy events = some c) : P c := by
  obtain ⟨⟨r, log⟩, hr, hc⟩ := Option.bind_eq_some_iff.1 h
  cases hc
  have hbegin : P (start r) := hstart r log (Config.eq_ok_of_toOption hr)
  clear hr hstart h
  generalize start r = c at hbegin
  induction events generalizing c with
  | nil => exact hbegin
  | cons e events ih => exact ih _ (hstep _ e hbegin)

end Chronicle

end LoadGen
