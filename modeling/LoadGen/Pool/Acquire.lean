import LoadGen.Pool.Basic

/-!
# Acquiring connections

An acquire waits for a permit, claims a connection, and makes one if none is idle. A failed attempt
to connect is repeated after a pause, as long as that pause ends before the deadline; the deadline
holds for all of it. The acquire is a value that is advanced by what happens to it, so that the
acquires on a pool can be interleaved in any order.
-/

namespace LoadGen

open Log (Event)
open Time (Span)

/-- What an acquire waits for. -/
inductive Acquire.Stage
  /-- A permit. -/
  | queued
  /-- The end of an attempt to connect. -/
  | connecting
  /-- The time of the next attempt. -/
  | pausing (resume : Span)
  deriving Repr, DecidableEq

/-- An acquire under way. -/
structure Acquire where
  deadline : Span
  /-- Attempts that failed, and the last failure. -/
  failures : Nat
  last : Option TransportFault
  stage : Acquire.Stage
  deriving Repr, DecidableEq

namespace Acquire

/-- The pause after a failed attempt. -/
def pause : Span := .ofMillis 10

/-- What can happen to an acquire. -/
inductive Signal
  /-- A permit is free. -/
  | permitFree
  /-- The attempt made a connection. -/
  | connected (stream : Nat)
  | connectFailed (fault : TransportFault)
  | pauseOver
  | timeUp
  deriving Repr

/-- Where an acquire stands. -/
inductive Progress
  | pending (acquire : Acquire)
  | ready (connection : Connection)
  | failed (fault : AcquireFault)
  deriving Repr

/-- The fault of an acquire that gives up. -/
def fault (a : Acquire) (endpoint : String) : AcquireFault :=
  match a.last with
  | some last => .unreachable endpoint a.failures last
  | none => .timedOut endpoint

end Acquire

namespace Pool

/-- Tries for a permit, and claims a connection with it. -/
def enter (p : Pool) (a : Acquire) : Pool × Acquire.Progress :=
  match p.takePermit? with
  | none => (p, .pending { a with stage := .queued })
  | some p => match p.claim with
    | (p, .idle c) => (p, .ready c)
    | (p, .room) => (p, .pending { a with stage := .connecting })

/-- Starts an acquire. -/
def acquire (p : Pool) (now : Span) : Pool × Acquire.Progress :=
  p.enter { deadline := now + p.connectTimeout, failures := 0, last := none, stage := .queued }

/-- What a signal does to an acquire; signals that do not fit its stage do nothing. -/
def advance (p : Pool) (a : Acquire) (now : Span) (s : Acquire.Signal) :
    Pool × Acquire.Progress × List Event :=
  match a.stage, s with
  | .queued, .permitFree => let (p, progress) := p.enter a; (p, progress, [])
  | .queued, .timeUp => (p, .failed (.timedOut p.endpoint), [])
  | .connecting, .connected stream =>
    let (p, c, event) := p.establish stream
    (p, .ready c, [event])
  | .connecting, .connectFailed fault =>
    let a := { a with failures := a.failures + 1, last := some fault }
    let event : Event :=
      { level := .debug, component := .pool, message := s!"connect failed: {fault.reason}",
        fields := [("endpoint", .text p.endpoint), ("attempts", .number a.failures)] }
    let resume := now + Acquire.pause
    if a.deadline.nanos ≤ resume.nanos then (p.giveUp, .failed (a.fault p.endpoint), [event])
    else (p, .pending { a with stage := .pausing resume }, [event])
  | .connecting, .timeUp => (p.giveUp, .failed (a.fault p.endpoint), [])
  | .pausing _, .pauseOver => (p, .pending { a with stage := .connecting }, [])
  | _, _ => (p, .pending a, [])

/-- Cancels an acquire; what it had claimed goes back. -/
def cancel (p : Pool) (a : Acquire) : Pool :=
  match a.stage with
  | .queued => p
  | .connecting | .pausing _ => p.giveUp

end Pool

end LoadGen
