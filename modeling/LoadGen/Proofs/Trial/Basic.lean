import LoadGen.Proofs.Trial.Server
import LoadGen.Run.Basic

/-!
# Trials

A trial is a run together with a faithful server. Signals go to the workers in any order, and in
between the request of a worker may arrive at the server, which executes it at once. Acquires and
exchanges succeed: a worker keeps the operation it has drawn until it receives a response, and that
response is what the server said. All endpoints share one server.

A trial also notes what happened: the operations in the order in which they were drawn, the same in
the order in which their requests were served, and what was recorded for those that are completed.
-/

namespace LoadGen

open Config (Keyspace Action)
open Server (Answer)
open Stats (Entry)
open Time (Span)

variable {R : Type}

/-- The operation that a worker has under way, from its draw to its completion. -/
def Worker.Phase.job? : Worker.Phase R → Option (Job R)
  | .acquiring job .. => some job
  | .exchanging job .. => some job
  | _ => none

/-- The operation whose request is on its way. -/
def Worker.Phase.sending? : Worker.Phase R → Option (Job R)
  | .exchanging job .. => some job
  | _ => none

/-- Whether a request has its response, and the response agrees with an answer. -/
def Exchange.Progress.agrees (answer : Answer) : Exchange.Progress → Bool
  | .finished (.ok exchange) => answer.agrees exchange.response
  | _ => false

/-- Whether a signal brings a worker the response to its request, in agreement with an answer. -/
def Worker.receives (w : Worker R) (s : Signal) (answer : Answer) : Bool :=
  match w.phase, s with
  | .exchanging job _ _ connection _, .exchange s =>
    (connection.exchange job.request.encode.length s).2.agrees answer
  | _, _ => false

namespace Trial

/-- An operation of a client. -/
structure Note (R : Type) where
  client : Nat
  operation : Operation R

/-- An operation whose request was served. -/
structure Served (R : Type) extends Note R where
  answer : Answer

/-- An operation that is completed, with all that was recorded then. -/
structure Completed (R : Type) extends Served R where
  entries : List Entry

end Trial

/-- A run with its server. All notes have the last one first. -/
structure Trial (R : Type) where
  run : Run R
  store : Server.Store
  /-- What the server said to the request that a client has under way. -/
  answers : Nat → Option Answer
  drawn : List (Trial.Note R)
  served : List (Trial.Served R)
  completed : List (Trial.Completed R)
  /-- What was recorded besides. -/
  others : List Entry

namespace Trial

/-- The trial of a run that begins; the server stores nothing. -/
def start (r : Run R) : Trial R := ⟨r, ∅, fun _ => none, [], [], [], []⟩

/-- What can happen in a trial. -/
inductive Event
  /-- A worker gets a signal. -/
  | signal (client : Nat) (now : Span) (s : Signal)
  /-- The request of a client arrives at the server. -/
  | arrive (client : Nat)
  | tick (now : Span)
  | checkHealth (now : Span)
  | shutDown (now : Span)
  deriving Repr

/-- A worker gets a signal. Nothing makes it drop an operation before the response has come. -/
def signal? [Weights.Weight R] (t : Trial R) (client : Nat) (now : Span) (s : Signal) :
    Option (Trial R) := do
  let w ← t.run.workers[client]?
  let turn := w.step t.run.shared now s
  let t' := { t with run := (t.run.signal client now s).1 }
  match w.phase.job?, turn.worker.phase.job? with
  | none, none | some _, some _ => some { t' with others := turn.entries ++ t.others }
  | none, some job =>
    some { t' with
      drawn := ⟨client, job.operation⟩ :: t.drawn
      others := turn.entries ++ t.others }
  | some job, none =>
    let answer ← t.answers client
    if w.receives s answer then
      some { t' with
        answers := Function.update t.answers client none
        completed := ⟨⟨⟨client, job.operation⟩, answer⟩, turn.entries⟩ :: t.completed }
    else none

/-- The request of a client arrives. -/
def arrive? (t : Trial R) (client : Nat) : Option (Trial R) := do
  let w ← t.run.workers[client]?
  let job ← w.phase.sending?
  match t.answers client with
  | some _ => none
  | none =>
    let (answer, store) := Server.execute t.store job.request.encode
    some { t with
      store
      answers := Function.update t.answers client (some answer)
      served := ⟨⟨client, job.operation⟩, answer⟩ :: t.served }

/-- What an event does to a trial; nothing if it cannot happen. -/
def step? [Weights.Weight R] (t : Trial R) : Event → Option (Trial R)
  | .signal client now s => t.signal? client now s
  | .arrive client => t.arrive? client
  | .tick now => some { t with run := (t.run.tick now).1 }
  | .checkHealth now => some { t with run := (t.run.checkHealth now).1 }
  | .shutDown now => some { t with run := (t.run.shutDown now).1 }

/-- What events in order do to a trial. -/
def steps? [Weights.Weight R] (t : Trial R) : List Event → Option (Trial R)
  | [] => some t
  | e :: events => do
    let t ← t.step? e
    t.steps? events

/-- No operation is under way. -/
def Quiescent (t : Trial R) : Prop := ∀ w ∈ t.run.workers, w.phase.job? = none

instance (t : Trial R) : Decidable t.Quiescent :=
  inferInstanceAs (Decidable (∀ w ∈ t.run.workers, w.phase.job? = none))

/-- The trial that events lead to, from the start of a run. -/
def run? [Weights.Weight R] (config : Config R) (entropy : UInt64) (events : List Event) :
    Option (Trial R) := do
  let (r, _) ← (Run.start config entropy).toOption
  (start r).steps? events

end Trial

end LoadGen
