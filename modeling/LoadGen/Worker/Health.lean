import LoadGen.Connection.Fault
import LoadGen.Log.Event

/-!
# Health of the workers

A worker whose acquires failed too often in a row is degraded until one succeeds again. `Health`
counts the workers that are not degraded; when the last one is lost it leaves a notice for the run
loop, which ends the run only if nobody has recovered by the time it looks.
-/

namespace LoadGen

open Log (Event)

/-- How many workers can reach an endpoint. -/
structure Health where
  healthy : UInt64
  /-- A notice that the last healthy worker was lost. -/
  notice : Bool
  deriving Repr, DecidableEq

namespace Health

/-- All workers are healthy. -/
def new (workers : Nat) : Health := ⟨UInt64.ofNat workers, false⟩

/-- Lowers the number of workers; whether it was the last one. -/
def lose (h : Health) : Health × Bool := ({ h with healthy := h.healthy - 1 }, h.healthy == 1)

def leaveNotice (h : Health) : Health := { h with notice := true }

def dropNotice (h : Health) : Health := { h with notice := false }

/-- One worker less. The last one leaves a notice. -/
def degrade (h : Health) : Health :=
  match h.lose with
  | (h, true) => h.leaveNotice
  | (h, false) => h

/-- One worker more. -/
def recover (h : Health) : Health := { h with healthy := h.healthy + 1 }

/-- Takes the notice, if there is one, and tells whether nobody is healthy. -/
def takeNotice (h : Health) : Health × Bool :=
  if h.notice then (h.dropNotice, h.healthy == 0) else (h, false)

end Health

/-- The record of a worker's acquires. -/
structure Standing where
  /-- Acquires that failed since the last one that succeeded. -/
  failures : Nat
  degraded : Bool
  deriving Repr, DecidableEq

namespace Standing

/-- So many failures in a row degrade a worker. -/
def tolerance : Nat := 16

/-- The largest count of failures that is kept. -/
def maxFailures : Nat := UInt32.size - 1

def new : Standing := ⟨0, false⟩

/-- Notes that an acquire succeeded. -/
def onConnected (s : Standing) (h : Health) (worker : Nat) : Standing × Health × List Event :=
  if s.degraded then
    (⟨0, false⟩, h.recover,
      [{ level := .info, component := .worker, message := "worker recovered",
         fields := [("worker", .number worker)] }])
  else (⟨0, false⟩, h, [])

/-- Notes that an acquire failed. -/
def onFault (s : Standing) (h : Health) (worker : Nat) (fault : AcquireFault) :
    Standing × Health × List Event :=
  let failures := min (s.failures + 1) maxFailures
  if !s.degraded && tolerance ≤ failures then
    let h := h.degrade
    (⟨failures, true⟩, h,
      [{ level := .warn, component := .worker, message := s!"worker degraded: {fault.message}",
         fields := [("worker", .number worker), ("consecutive_errors", .number failures),
           ("healthy_workers", .number h.healthy.toNat)] }])
  else (⟨failures, s.degraded⟩, h, [])

end Standing

end LoadGen
