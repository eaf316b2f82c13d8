import LoadGen.Proofs.Run.Sights
import LoadGen.Proofs.Trial.Clients

/-!
# How a worker goes on

A worker is woken, goes on as far as it can, and waits again. When it is woken it looks whether it
is to stop before anything else (`Worker.poll`), but it does not look again before it waits. Once
the run is stopped it remains so, and a worker is told to stop only then (`Wake.Orderly`). Therefore
a worker that was woken after the run was stopped has no more under way than what it was sending
already (`Worker.underway_of_stopping`), and begins to write no request (`Worker.writes_eq_nil`).

In doing so a worker passes through the stages of an operation, and shows what it selects, records,
writes and receives (`Passes`). Whatever it finds, it does nothing else (`Worker.goes`).
-/

namespace LoadGen

open Config (Action)
open Stats (Entry)
open Time (Span)

variable {R : Type}

/-! ## Waking up -/

/-- What a worker finds when it is woken, or further on before it waits again. -/
structure Wake (R : Type) extends Sight R where
  /-- The worker was waiting until then. -/
  woken : Bool
  /-- The run is stopped after the worker has drawn an operation, and before it looks for a
  connection. -/
  overtaken : Bool

namespace Wake

/-- A worker is woken by what it finds. -/
def ofSight (x : Sight R) : Wake R := { x with woken := true, overtaken := false }

/-- Whether the run was already stopped when the worker was woken last. -/
def late (xs : List (Wake R)) : Bool :=
  xs.foldl (fun late x => if x.woken then x.shared.stopping else late) false

/-- Whether the run was stopped in the course of what a worker found. -/
def stopped (xs : List (Wake R)) : Bool := xs.any fun x => x.shared.stopping || x.overtaken

/-- What a worker can find in a run of a configuration, whatever the network and the other workers
do. Once the run is stopped it remains so, and the worker is only told to stop when it is. -/
inductive Orderly [Weights.Weight R] (config : Config R) : List (Wake R) → Prop
  | nil : Orderly config []
  | concat {xs : List (Wake R)} {x : Wake R} (h : Orderly config xs)
      (hworkload : x.shared.workload.Sound config)
      (hstopping : stopped xs = true → x.shared.stopping = true)
      (hstop : x.signal = .stop → x.shared.stopping = true) :
      Orderly config (xs ++ [x])

end Wake

namespace Worker

variable [Weights.Weight R]

/-- The turn of a worker that draws an operation and then finds the run stopped. -/
def overtaken (w : Worker R) (x : Sight R) : Turn R :=
  let turn := w.draw x.shared x.now
  if turn.worker.phase.job?.isSome then
    { worker := { w with
        source := turn.worker.source
        nextPool := (w.nextPool + 1) % w.pools.size
        phase := .ready }
      shared := { x.shared with workload := turn.shared.workload }
      entries := []
      events := [] }
  else turn

omit [Weights.Weight R] in
/-- Whether a worker finds when it is woken that it is to stop, and drops what it waited for. -/
def drops (w : Worker R) (x : Wake R) : Bool := x.woken && w.isToStop x.shared

/-- What a worker does when it is woken or goes on. -/
def wake (w : Worker R) (x : Wake R) : Turn R :=
  if x.overtaken && w.begins x.toSight then w.overtaken x.toSight
  else if x.woken then w.poll x.shared x.now x.signal
  else w.step x.shared x.now x.signal

/-- A worker that is overtaken is as if it had been told to stop while it waited for a connection,
except that it has not even asked a pool for one. -/
theorem overtaken_worker {w : Worker R} {x : Sight R} {job : Job R} {pool : Nat} {since : Span}
    {acquire : Acquire}
    (h : (w.draw x.shared x.now).worker.phase = .acquiring job pool since acquire) :
    (w.overtaken x).worker =
      { ((w.draw x.shared x.now).worker.step x.shared x.now .stop).worker with
        pools := w.pools } := by
  have hjob : (w.draw x.shared x.now).worker.phase.job?.isSome = true := by rw [h]; rfl
  rw [overtaken, if_pos hjob]
  unfold draw at h ⊢
  split at h
  · cases h
  · cases h
  · dsimp only at h ⊢
    split at h
    · cases h
    · next p hpool =>
      obtain ⟨hlt, -⟩ := Array.getElem?_eq_some_iff.1 hpool
      have hself (p : Pool) : (w.pools.setIfInBounds w.nextPool p)[w.nextPool]? = some p :=
        Array.getElem?_setIfInBounds_self_of_lt hlt
      generalize p.acquire x.now = acquired at h ⊢
      obtain ⟨p, progress⟩ := acquired
      cases progress with
      | pending acquire => simp only [afterAcquire, step, hself]
      | ready connection => cases h
      | failed fault => cases h

/-- The selection that a worker makes when it is woken or goes on. -/
def selects? (w : Worker R) (x : Wake R) : Option (Selection R) :=
  if w.begins x.toSight then (x.shared.workload.select w.source).toOption.map (·.1) else none

/-- The requests that a worker begins to write. -/
def writes (w : Worker R) (x : Wake R) : List Wire.Request :=
  match w.phase.sending?, (w.wake x).worker.phase.sending? with
  | none, some job => [job.request]
  | _, _ => []

omit [Weights.Weight R] in
/-- The exchanges that return a response, with their requests. -/
def answers (w : Worker R) (x : Wake R) : List (Wire.Request × Exchange) :=
  match w.phase, x.signal with
  | .exchanging job _ _ connection _, .exchange s =>
    match (connection.exchange job.request.encode.length s).2 with
    | .finished (.ok exchange) => [(job.request, exchange)]
    | _ => []
  | _, _ => []

end Worker

/-! ### What is orderly -/

namespace Wake

theorem late_concat (xs : List (Wake R)) (x : Wake R) :
    late (xs ++ [x]) = if x.woken then x.shared.stopping else late xs := by
  rw [late, List.foldl_concat, late]

theorem stopped_concat (xs : List (Wake R)) (x : Wake R) :
    stopped (xs ++ [x]) = (stopped xs || (x.shared.stopping || x.overtaken)) := by
  rw [stopped, List.any_append, List.any_cons, List.any_nil, Bool.or_false, stopped]

theorem stopped_of_late {xs : List (Wake R)} (h : late xs = true) : stopped xs = true := by
  induction xs using List.reverseRecOn with
  | nil => cases h
  | append_singleton xs x ih =>
    rw [late_concat] at h
    rw [stopped_concat]
    split at h
    · rw [h, Bool.true_or, Bool.or_true]
    · rw [ih h, Bool.true_or]

namespace Orderly

variable [Weights.Weight R] {config : Config R} {xs before after : List (Wake R)} {x : Wake R}

theorem of_pairwise {xs : List (Wake R)} (hworkload : ∀ x ∈ xs, x.shared.workload.Sound config)
    (hstopping : xs.Pairwise fun x y =>
      (x.shared.stopping || x.overtaken) = true → y.shared.stopping = true)
    (hstop : ∀ x ∈ xs, x.signal = .stop → x.shared.stopping = true) : Orderly config xs := by
  induction xs using List.reverseRecOn with
  | nil => exact .nil
  | append_singleton xs x ih =>
    obtain ⟨hbefore, -, hlast⟩ := List.pairwise_append.1 hstopping
    rw [List.forall_mem_append, List.forall_mem_singleton] at hworkload hstop
    refine .concat (ih hworkload.1 hbefore hstop.1) hworkload.2 (fun hstopped => ?_) hstop.2
    obtain ⟨y, hy, hstopped⟩ := List.any_eq_true.1 hstopped
    exact hlast y hy x (List.mem_singleton_self x) hstopped

theorem of_append (h : Orderly config (before ++ after)) : Orderly config before := by
  induction after using List.reverseRecOn with
  | nil => rwa [List.append_nil] at h
  | append_singleton after y ih =>
    rw [← List.append_assoc] at h
    generalize hxs : before ++ after ++ [y] = xs at h
    cases h with
    | nil => exact absurd hxs (by simp)
    | concat h =>
      obtain ⟨rfl, -⟩ := List.append_inj' hxs rfl
      exact ih h

/-- A worker that was woken after the run was stopped still finds it stopped, and if it is not woken
now it was so before. -/
theorem of_late (h : Orderly config (xs ++ [x])) (hlate : late (xs ++ [x]) = true) :
    x.shared.stopping = true ∧ (x.woken = true ∨ late xs = true) := by
  generalize hys : xs ++ [x] = ys at h
  cases h with
  | nil => exact absurd hys (by simp)
  | concat _ _ hstopping _ =>
    obtain ⟨rfl, hx⟩ := List.append_inj' hys rfl
    cases hx
    rw [late_concat] at hlate
    split at hlate
    · next hwoken => exact ⟨hlate, .inl hwoken⟩
    · exact ⟨hstopping (stopped_of_late hlate), .inr hlate⟩

end Orderly

end Wake

/-! ## What a worker shows -/

/-- How far a worker is with an operation. -/
inductive Stage (R : Type)
  | fresh
  | idle
  /-- It wants a connection. -/
  | seeking (job : Job R)
  /-- It writes the request or waits for the response. -/
  | sending (job : Job R)

/-- What a worker shows of itself when it is woken or goes on. -/
structure Shown (R : Type) where
  selection : Option (Selection R)
  entries : List Entry
  written : List Wire.Request
  answered : List (Wire.Request × Exchange)

def Shown.nothing : Shown R := ⟨none, [], [], []⟩

/-- An outcome of an operation whose request was written. -/
def Returned (outcome : Stats.Outcome) : Prop :=
  outcome ≠ .skipped ∧ outcome ≠ .failure .connection

instance (outcome : Stats.Outcome) : Decidable (Returned outcome) :=
  inferInstanceAs (Decidable (_ ∧ _))

/-- The stages a worker goes through, with what it shows, and the number of operations that it has
done with. It begins only while the run is not stopped, and gives an operation up without a trace
only if it is (`ended`). -/
inductive Passes (stopping ended : Bool) : Stage R → Shown R → Nat → Stage R → Prop
  | kept (stage : Stage R) : Passes stopping ended stage .nothing 0 stage
  | started : Passes stopping ended .fresh .nothing 0 .idle
  | skipped (keyspace : Nat) (action : Action) (h : stopping = false) :
      Passes stopping ended .idle
        ⟨some (.skipped keyspace action), [{ action, outcome := .skipped, latency := .zero }], [],
          []⟩ 0 .idle
  | drawn (job : Job R) (h : stopping = false) :
      Passes stopping ended .idle ⟨some (.dispatched job.operation), [], [], []⟩ 0 (.seeking job)
  | sent (job : Job R) (h : stopping = false) :
      Passes stopping ended .idle ⟨some (.dispatched job.operation), [], [job.request], []⟩ 0
        (.sending job)
  | overtaken (o : Operation R) (h : stopping = false) (hended : ended = true) :
      Passes stopping ended .idle ⟨some (.dispatched o), [], [], []⟩ 0 .idle
  | connected (job : Job R) :
      Passes stopping ended (.seeking job) ⟨none, [], [job.request], []⟩ 0 (.sending job)
  | failed (job : Job R) (latency : Span) :
      Passes stopping ended (.seeking job)
        ⟨none, [{ action := job.operation.action, outcome := .failure .connection, latency }], [],
          []⟩ 0 .idle
  | dropped (job : Job R) (hended : ended = true) :
      Passes stopping ended (.seeking job) .nothing 0 .idle
  | answered (job : Job R) (exchange : Exchange) (outcome : Stats.Outcome) (latency : Span)
      (hsent : exchange.sent = job.request.encode.length) (hreturned : Returned outcome) :
      Passes stopping ended (.sending job)
        ⟨none, [⟨job.operation.action, outcome, latency, exchange.sent, exchange.received⟩], [],
          [(job.request, exchange)]⟩ 1 .idle
  | refused (job : Job R) (outcome : Stats.Outcome) (latency : Span)
      (hreturned : Returned outcome) :
      Passes stopping ended (.sending job)
        ⟨none, [{ action := job.operation.action, outcome, latency }], [], []⟩ 1 .idle

/-- A request of so many bytes is counted with so many. -/
theorem Connection.sent_exchange {c : Connection} {sent : Nat} {s : Exchange.Signal}
    {exchange : Exchange} (h : (c.exchange sent s).2 = .finished (.ok exchange)) :
    exchange.sent = sent := by
  have htake (c : Connection) (h : (c.takeResponse sent).2 = .finished (.ok exchange)) :
      exchange.sent = sent := by
    rw [takeResponse] at h
    split at h
    · cases h
    · cases h
      rfl
    · cases h
  rw [Connection.exchange.eq_def] at h
  split at h
  · exact htake _ h
  · cases h
  · cases h
  · exact htake _ h
  all_goals cases h

theorem RequestFault.returned (fault : RequestFault) : Returned (.failure fault.kind) := by
  cases fault <;> exact ⟨nofun, nofun⟩

namespace Worker

theorem returned_outcomeOf (o : Operation R) (response : Wire.Response) :
    Returned (outcomeOf o response).1 := by
  cases response with
  | success => exact (by decide : Returned .success)
  | rejected reason =>
    rw [outcomeOf]
    split
    · exact (by decide : Returned .expectedMiss)
    · exact (by decide : Returned (.failure .protocol))

def Phase.stage : Phase R → Stage R
  | .fresh => .fresh
  | .acquiring job .. => .seeking job
  | .exchanging job .. => .sending job
  | .ready | .resting | .stopped | .aborted _ => .idle

variable [Weights.Weight R]

/-- What a worker shows when it is woken or goes on. -/
def shown (w : Worker R) (x : Wake R) : Shown R :=
  ⟨w.selects? x, (w.wake x).entries, w.writes x, w.answers x⟩

variable {config : Config R} {w : Worker R} {x : Wake R}

theorem writes_of_sending?_eq_none (h : w.phase.sending? = none) :
    w.writes x = ((w.wake x).worker.phase.sending?.map (·.request)).toList := by
  rw [writes, h]
  cases (w.wake x).worker.phase.sending? <;> rfl

theorem writes_of_sending?_eq_some {job : Job R} (h : w.phase.sending? = some job) :
    w.writes x = [] := by
  rw [writes, h]

omit [Weights.Weight R] in
theorem answers_of_quiet (h : ∀ s, x.signal = .exchange s → w.phase.sending? = none) :
    w.answers x = [] := by
  rw [answers.eq_def]
  split
  · next hphase hsignal =>
    have hnone := h _ hsignal
    rw [hphase] at hnone
    cases hnone
  · rfl

omit [Weights.Weight R] in
theorem answers_of_exchange {job : Job R} {pool : Nat} {since : Span} {connection : Connection}
    {written : Bool} {s : Exchange.Signal}
    (hphase : w.phase = .exchanging job pool since connection written)
    (hsignal : x.signal = .exchange s) :
    w.answers x = match (connection.exchange job.request.encode.length s).2 with
      | .finished (.ok exchange) => [(job.request, exchange)]
      | _ => [] := by
  rw [answers, hphase, hsignal]

/-! ### Looking whether to stop -/

omit [Weights.Weight R] in
theorem of_heedsStop (h : w.heedsStop = true) :
    ∃ job pool since acquire, w.phase = .acquiring job pool since acquire := by
  rw [heedsStop] at h
  split at h
  · next hphase => exact ⟨_, _, _, _, hphase⟩
  · cases h

omit [Weights.Weight R] in
/-- A worker that drops what it waited for was waiting for a connection. -/
theorem of_drops (h : w.drops x = true) :
    x.shared.stopping = true ∧
      ∃ job pool since acquire, w.phase = .acquiring job pool since acquire := by
  rw [drops, isToStop, Bool.and_eq_true, Bool.and_eq_true] at h
  exact ⟨h.2.1, of_heedsStop h.2.2⟩

omit [Weights.Weight R] in
theorem begins_of_drops (h : w.drops x = true) : w.begins x.toSight = false := by
  obtain ⟨-, _, _, _, _, hphase⟩ := of_drops h
  rw [begins, hphase]

/-- What a worker is woken by makes no difference if it drops what it waited for. -/
theorem wake_of_drops (hw : w.Sound config) (h : w.drops x = true) :
    ∃ (job : Job R) (pool : Nat) (since : Span) (acquire : Acquire) (p : Pool),
      w.phase = .acquiring job pool since acquire ∧
        w.wake x = ⟨{ w with
          pools := w.pools.setIfInBounds pool (p.cancel acquire)
          phase := .ready }, x.shared, [], []⟩ := by
  obtain ⟨-, job, pool, since, acquire, hphase⟩ := of_drops h
  obtain ⟨hwoken, htold⟩ := Bool.and_eq_true_iff.1 h
  have hpool : pool < w.pools.size := by
    have hsound := hw.phase
    rw [hphase] at hsound
    exact hsound.2
  refine ⟨job, pool, since, acquire, w.pools[pool], hphase, ?_⟩
  rw [wake, begins_of_drops h, Bool.and_false, if_neg Bool.false_ne_true, if_pos hwoken, poll, heed,
    if_pos htold, step.eq_def, hphase]
  dsimp only
  rw [Array.getElem?_eq_getElem hpool]

theorem wake_of_not_drops (h : w.drops x = false) :
    w.wake x = if x.overtaken && w.begins x.toSight then w.overtaken x.toSight
      else w.turnAt x.toSight := by
  have hsame : (if x.woken then w.poll x.shared x.now x.signal
      else w.step x.shared x.now x.signal) = w.turnAt x.toSight := by
    cases hwoken : x.woken with
    | false => rfl
    | true =>
      rw [drops, hwoken, Bool.true_and] at h
      rw [if_pos rfl, poll, heed, h]
      rfl
  rw [wake, hsame]

/-- A worker that is not overtaken takes a step, with the signal that it heeds. -/
theorem wake_of_not_overtaken (h : x.overtaken = false) :
    w.wake x = w.turnAt
      { x.toSight with signal := if x.woken then w.heed x.shared x.signal else x.signal } := by
  rw [wake, h, Bool.false_and, if_neg Bool.false_ne_true, turnAt]
  cases x.woken <;> rfl

/-! ### Steps -/

/-- What becomes of a worker, with what it shows. -/
def Goes (w : Worker R) (x : Wake R) : Prop :=
  ∃ n, Passes x.shared.stopping (x.shared.stopping || x.overtaken) w.phase.stage (w.shown x) n
      (w.wake x).worker.phase.stage ∧
    (w.wake x).worker.operations = w.operations + n

theorem goes_of_begins (hw : w.Sound config) (hx : x.shared.workload.Sound config)
    (hbegins : w.begins x.toSight = true) : w.Goes x := by
  obtain ⟨hphase, -, hgoing⟩ := of_begins hbegins
  have hidle : w.phase.stage = .idle := by rcases hphase with h | h <;> rw [h] <;> rfl
  have hsending : w.phase.sending? = none := by rcases hphase with h | h <;> rw [h] <;> rfl
  have hanswers : w.answers x = [] := answers_of_quiet fun _ _ => hsending
  obtain ⟨selection, workload, source, hselect, hs⟩ := hx.select_spec w.source
  have hselects : w.selects? x = some selection := by
    rw [selects?, if_pos hbegins, hselect]
    rfl
  have hstep : w.wake x =
      if x.overtaken then w.overtaken x.toSight else w.draw x.shared x.now := by
    have hdrops : w.drops x = false := by
      by_contra hdrops
      cases hbegins.symm.trans (begins_of_drops (Bool.eq_true_of_not_eq_false hdrops))
    rw [wake_of_not_drops hdrops, hbegins, Bool.and_true, turnAt_of_begins hbegins]
  rw [Goes, shown, hselects, hanswers, writes_of_sending?_eq_none hsending, hidle, hstep]
  cases hs with
  | skipped k action =>
    have hdraw : (w.draw x.shared x.now).worker.phase.job? = none := by rw [draw, hselect]; rfl
    have hsame : (if x.overtaken then w.overtaken x.toSight else w.draw x.shared x.now) =
        w.draw x.shared x.now := by
      rw [overtaken, hdraw]
      exact ite_self _
    rw [hsame, draw, hselect]
    exact ⟨0, .skipped _ _ hgoing, rfl⟩
  | @dispatched o _ hk hclaims =>
    have hpool := hw.nextPool_lt
    have hnever := w.pools[w.nextPool].acquire_ne_failed x.now
    cases hovertaken : x.overtaken with
    | false =>
      rw [Bool.or_false, if_neg Bool.false_ne_true]
      simp only [draw, hselect, Array.getElem?_eq_getElem hpool]
      generalize (Pool.acquire _ x.now).2 = progress at hnever ⊢
      cases progress with
      | pending acquire => exact ⟨0, .drawn ⟨o, _⟩ hgoing, rfl⟩
      | ready connection => exact ⟨0, .sent ⟨o, _⟩ hgoing, rfl⟩
      | failed fault => exact absurd rfl (hnever fault)
    | true =>
      have hjob : (w.draw x.shared x.now).worker.phase.job?.isSome = true := by
        simp only [draw, hselect, Array.getElem?_eq_getElem hpool]
        rw [(afterAcquire_started hnever).1]
        rfl
      rw [Bool.or_true, if_pos rfl, overtaken, if_pos hjob]
      exact ⟨0, .overtaken o hgoing rfl, rfl⟩

omit [Weights.Weight R] in
/-- A request is answered, or refused, or on its way still. -/
theorem passes_afterExchange {shared : Shared R} {now since : Span} {job : Job R} {pool : Nat}
    {connection : Connection} {progress : Exchange.Progress} {stopping ended : Bool}
    (hpool : pool < w.pools.size)
    (hsent : ∀ exchange, progress = .finished (.ok exchange) →
      exchange.sent = job.request.encode.length) :
    ∃ n, Passes stopping ended (.sending job)
        ⟨none, (w.afterExchange shared now job pool since connection progress).entries, [],
          match progress with
          | .finished (.ok exchange) => [(job.request, exchange)]
          | _ => []⟩
        n (w.afterExchange shared now job pool since connection progress).worker.phase.stage ∧
      (w.afterExchange shared now job pool since connection progress).worker.operations =
        w.operations + n := by
  cases progress with
  | reading => exact ⟨0, .kept _, rfl⟩
  | finished result =>
    simp only [afterExchange, Array.getElem?_eq_getElem hpool]
    cases result with
    | ok exchange =>
      exact ⟨1, .answered job exchange _ _ (hsent exchange rfl) (returned_outcomeOf _ _), rfl⟩
    | error fault => exact ⟨1, .refused job _ _ fault.returned, rfl⟩

/-- A worker that is to stop drops the operation it has under way. -/
theorem goes_of_drops (hw : w.Sound config) (hdrops : w.drops x = true) : w.Goes x := by
  obtain ⟨job, pool, since, acquire, p, hphase, hwake⟩ := wake_of_drops hw hdrops
  have hsending : w.phase.sending? = none := by rw [hphase]; rfl
  have hselects : w.selects? x = none := by rw [selects?, begins_of_drops hdrops]; rfl
  rw [Goes, shown, hselects, answers_of_quiet fun _ _ => hsending,
    writes_of_sending?_eq_none hsending, hphase, hwake, (of_drops hdrops).1]
  exact ⟨0, .dropped job rfl, rfl⟩

theorem goes_of_not_begins (hw : w.Sound config)
    (hstop : x.signal = .stop → x.shared.stopping = true) (hdrops : w.drops x = false)
    (hbegins : w.begins x.toSight = false) : w.Goes x := by
  have hwake : w.wake x = w.turnAt x.toSight := by
    rw [wake_of_not_drops hdrops, hbegins, Bool.and_false]
    rfl
  have hselects : w.selects? x = none := by rw [selects?, hbegins]; rfl
  have hshown : w.shown x = ⟨none, (w.turnAt x.toSight).entries, w.writes x, w.answers x⟩ := by
    rw [shown, hselects, hwake]
  have hwrites (hsending : w.phase.sending? = none) : w.writes x =
      ((w.turnAt x.toSight).worker.phase.sending?.map (·.request)).toList := by
    rw [writes_of_sending?_eq_none hsending, hwake]
  have hacts := w.acts x.toSight
  rw [Goes, hwake, hshown]
  generalize w.turnAt x.toSight = turn at hacts hwrites ⊢
  cases hacts with
  | unchanged _ hquiet =>
    have hnone : w.writes x = [] := by
      cases hsending : w.phase.sending? with
      | none => rw [hwrites hsending, hsending]; rfl
      | some job => exact writes_of_sending?_eq_some hsending
    rw [answers_of_quiet hquiet, hnone]
    exact ⟨0, .kept _, rfl⟩
  | started hphase =>
    have hsending : w.phase.sending? = none := by rw [hphase]; rfl
    rw [answers_of_quiet fun _ _ => hsending, hwrites hsending, hphase]
    exact ⟨0, .started, rfl⟩
  | stopped hphase =>
    have hsending : w.phase.sending? = none := by rcases hphase with h | h <;> rw [h] <;> rfl
    have hidle : w.phase.stage = .idle := by rcases hphase with h | h <;> rw [h] <;> rfl
    rw [answers_of_quiet fun _ _ => hsending, hwrites hsending, hidle]
    exact ⟨0, .kept _, rfl⟩
  | begun h => cases hbegins.symm.trans h
  | acquired hphase hsignal hpool =>
    have hsending : w.phase.sending? = none := by rw [hphase]; rfl
    rw [answers_of_quiet fun _ _ => hsending, hwrites hsending, hphase]
    dsimp only
    generalize (Pool.advance ..).2.1 = progress
    cases progress with
    | pending acquire => exact ⟨0, .kept _, rfl⟩
    | ready connection => exact ⟨0, .connected _, rfl⟩
    | failed fault => exact ⟨0, .failed _ _, rfl⟩
  | cancelled hphase hsignal =>
    have hsending : w.phase.sending? = none := by rw [hphase]; rfl
    rw [answers_of_quiet fun _ _ => hsending, hwrites hsending, hphase, hstop hsignal]
    exact ⟨0, .dropped _ rfl, rfl⟩
  | @exchanged job pool since connection written s hphase hsignal =>
    have hsending : w.phase.sending? = some job := by rw [hphase]; rfl
    rw [answers_of_exchange hphase hsignal, writes_of_sending?_eq_some hsending, hphase]
    have hsent (exchange : Exchange)
        (h : (connection.exchange job.request.encode.length s).2 = .finished (.ok exchange)) :
        exchange.sent = job.request.encode.length := Connection.sent_exchange h
    have hpool : pool < w.pools.size := by
      have hsound := hw.phase
      rw [hphase] at hsound
      exact hsound.2
    exact passes_afterExchange hpool hsent

/-- **A worker goes from stage to stage**, and shows what belongs to it. -/
theorem goes (hw : w.Sound config) (hx : x.shared.workload.Sound config)
    (hstop : x.signal = .stop → x.shared.stopping = true) : w.Goes x := by
  cases hdrops : w.drops x with
  | true => exact goes_of_drops hw hdrops
  | false =>
    cases hbegins : w.begins x.toSight with
    | true => exact goes_of_begins hw hx hbegins
    | false => exact goes_of_not_begins hw hstop hdrops hbegins

theorem Sound.wake (hw : w.Sound config) (hx : x.shared.workload.Sound config) :
    (w.wake x).worker.Sound config := by
  cases hdrops : w.drops x with
  | true =>
    obtain ⟨job, pool, since, acquire, p, -, hwake⟩ := wake_of_drops hw hdrops
    rw [hwake]
    exact ⟨by rw [Array.size_setIfInBounds]; exact hw.nextPool_lt, trivial⟩
  | false =>
    have hturn := hw.turnAt (x := x.toSight) hx
    rw [wake_of_not_drops hdrops]
    split
    · next h =>
      rw [turnAt_of_begins (Bool.and_eq_true_iff.1 h).2] at hturn
      rw [overtaken]
      dsimp only
      split
      · exact ⟨Nat.mod_lt _ (Nat.zero_lt_of_lt hw.nextPool_lt), trivial⟩
      · exact hturn
    · exact hturn

omit [Weights.Weight R] in
theorem heedsStop_afterExchange (w : Worker R) (shared : Shared R) (now : Span) (job : Job R)
    (pool : Nat) (since : Span) (connection : Connection) (progress : Exchange.Progress) :
    (w.afterExchange shared now job pool since connection progress).worker.heedsStop = false := by
  cases progress with
  | reading => rfl
  | finished result =>
    rw [afterExchange]
    dsimp only
    split <;> rfl

/-- **A worker that was woken after the run was stopped has no more under way** than what it was
sending already. -/
theorem underway_of_stopping (hw : w.Sound config) (hstopping : x.shared.stopping = true)
    (hlooks : x.woken = true ∨ w.heedsStop = false) :
    (w.wake x).worker.heedsStop = false ∧
      (w.phase.sending? = none → (w.wake x).worker.phase.sending? = none) := by
  cases hdrops : w.drops x with
  | true =>
    obtain ⟨job, pool, since, acquire, p, -, hwake⟩ := wake_of_drops hw hdrops
    rw [hwake]
    exact ⟨rfl, fun _ => rfl⟩
  | false =>
    have hheeds : w.heedsStop = false := hlooks.elim (fun hwoken => by
      simpa [drops, isToStop, hwoken, hstopping] using hdrops) fun h => h
    have hbegins : w.begins x.toSight = false := by
      by_contra hbegins
      have hgoing := (of_begins (Bool.eq_true_of_not_eq_false hbegins)).2.2
      cases hstopping.symm.trans hgoing
    have hacts := w.acts x.toSight
    rw [wake_of_not_drops hdrops, hbegins, Bool.and_false, if_neg Bool.false_ne_true]
    generalize w.turnAt x.toSight = turn at hacts ⊢
    cases hacts with
    | unchanged => exact ⟨hheeds, fun h => h⟩
    | started | stopped => exact ⟨rfl, fun _ => rfl⟩
    | begun h => cases hbegins.symm.trans h
    | acquired hphase | cancelled hphase =>
      rw [heedsStop, hphase] at hheeds
      cases hheeds
    | exchanged hphase =>
      refine ⟨heedsStop_afterExchange .., fun hsending => ?_⟩
      rw [hphase] at hsending
      cases hsending

/-- A worker that finds the run stopped when it is woken, or that did so before, begins to write no
request. -/
theorem writes_eq_nil (hw : w.Sound config) (hstopping : x.shared.stopping = true)
    (hlooks : x.woken = true ∨ w.heedsStop = false) : w.writes x = [] := by
  cases hsending : w.phase.sending? with
  | some job => exact writes_of_sending?_eq_some hsending
  | none =>
    rw [writes_of_sending?_eq_none hsending, (underway_of_stopping hw hstopping hlooks).2 hsending]
    rfl

end Worker

end LoadGen
