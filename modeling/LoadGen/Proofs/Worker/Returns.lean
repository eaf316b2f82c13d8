import LoadGen.Proofs.Run.Descriptors
import LoadGen.Proofs.Run.Wakes
import LoadGen.Proofs.Trial.OneClient
import LoadGen.Proofs.Worker.Buffers

/-!
# What a worker gives back

A worker that deals with none of its pools has given back all that it borrowed, however its requests
and its acquires have ended (`Worker.Borrows.settled`). So all permits of a pool are free whenever a
worker wants a connection from it: its acquires never wait for a permit (`Worker.Permitted`), and
they fail only as connecting failed or took too long (`Worker.Permitted.failsToConnect`).
`Worker.returns_borrowed` says this of a worker after anything that it may see, and that a
connection which it gives back to stay has nothing left in its buffer.
-/

namespace LoadGen

open Stats (Entry)
open Time (Span)
open Transfer (OneForOne)
open Wire (Bytes OneReply)

/-! ## Acquires that hold a permit -/

/-- What makes an acquire fail that has a permit: an attempt to connect failed and there is no time
for another one, or the time is up. -/
inductive Acquire.Fails (a : Acquire) (endpoint : String) (now : Span) :
    Acquire.Signal → AcquireFault → Prop
  | refused (fault : TransportFault) (hlate : a.deadline.nanos ≤ (now + pause).nanos) :
      Fails a endpoint now (.connectFailed fault) (.unreachable endpoint (a.failures + 1) fault)
  | late : Fails a endpoint now .timeUp (a.fault endpoint)

namespace Pool

variable {p : Pool} {a : Acquire} {now : Span} {s : Acquire.Signal}

/-- An acquire gets its permit at once if there is one. -/
theorem held_acquire (h : 0 < p.permits) : ∀ a ∈ (p.acquire now).2.acquires, a.held = 1 := by
  rw [acquire]
  rcases p.enter_cases _ with ⟨hnone, -⟩ | ⟨c, idle, -, -, heq⟩ | ⟨-, -, heq⟩
  · omega
  · rw [heq]
    exact List.forall_mem_nil _
  · rw [heq]
    exact List.forall_mem_singleton.2 rfl

/-- An acquire keeps its permit while it is under way. -/
theorem held_advance (ha : a.held = 1) :
    ∀ a' ∈ (p.advance a now s).2.1.acquires, a'.held = 1 := by
  obtain ⟨deadline, failures, last, stage⟩ := a
  cases stage with
  | queued => cases ha
  | connecting =>
    cases s with
    | connected | timeUp => exact List.forall_mem_nil _
    | connectFailed fault =>
      simp only [advance]
      split
      · exact List.forall_mem_nil _
      · exact List.forall_mem_singleton.2 rfl
    | permitFree | pauseOver => exact List.forall_mem_singleton.2 rfl
  | pausing resume => cases s <;> exact List.forall_mem_singleton.2 rfl

/-- An acquire that has a permit fails only while it connects. -/
theorem fails_of_advance (ha : a.held = 1) {fault : AcquireFault}
    (h : (p.advance a now s).2.1 = .failed fault) :
    a.stage = .connecting ∧ a.Fails p.endpoint now s fault := by
  obtain ⟨deadline, failures, last, stage⟩ := a
  cases stage with
  | queued => cases ha
  | connecting =>
    refine ⟨rfl, ?_⟩
    cases s with
    | connectFailed transport =>
      simp only [advance] at h
      split at h
      · next hlate =>
        cases h
        exact .refused transport hlate
      · cases h
    | timeUp =>
      cases h
      exact .late
    | permitFree | connected | pauseOver => cases h
  | pausing resume => cases s <;> cases h

end Pool

namespace Worker

variable {R : Type} {config : Config R} {w : Worker R}

/-! ## Permits -/

/-- A worker has given back all that it borrowed, and its pools have no more than so many
connections, all of them idle. -/
structure Settled (poolsize : Nat) (w : Worker R) : Prop where
  nothing_borrowed : ∀ i, w.phase.acquiresAt i = [] ∧ w.phase.loansAt i = []
  live_eq : ∀ p ∈ w.pools, p.live = p.idle.length
  live_le : ∀ p ∈ w.pools, p.live ≤ poolsize
  permits_eq : ∀ p ∈ w.pools, p.permits = poolsize

/-- A worker that deals with no pool has nothing of any of them. -/
theorem Phase.nothing_of_idle {phase : Phase R} (h : phase.position? = none) (i : Nat) :
    phase.acquiresAt i = [] ∧ phase.loansAt i = [] :=
  nothingAt (by rw [h]; exact nofun)

/-- **A worker that deals with none of its pools has given back all that it borrowed.** -/
theorem Borrows.settled (hw : w.Borrows config) (hidle : w.phase.position? = none) :
    w.Settled (max config.general.poolsize 1) := by
  have hnothing := Phase.nothing_of_idle hidle
  have hpool (p : Pool) (hp : p ∈ w.pools) : p.capacity = max config.general.poolsize 1 ∧
      ∃ dropped, p.Sound 0 [] dropped := by
    obtain ⟨i, hi⟩ := Array.mem_iff_getElem?.1 hp
    obtain ⟨dropped, hsound⟩ := hw.sound hi
    rw [(hnothing i).1, (hnothing i).2] at hsound
    exact ⟨hw.capacity_eq hi, dropped, hsound⟩
  refine ⟨hnothing, fun p hp => ?_, fun p hp => ?_, fun p hp => ?_⟩
  · obtain ⟨-, dropped, hsound⟩ := hpool p hp
    exact hsound.live_eq
  · obtain ⟨hcapacity, dropped, hsound⟩ := hpool p hp
    exact hcapacity ▸ hsound.live_le
  · obtain ⟨hcapacity, dropped, hsound⟩ := hpool p hp
    exact hcapacity ▸ hsound.permits_eq

/-- No acquire of a worker waits for a permit. -/
def Permitted (w : Worker R) : Prop := ∀ i, ∀ a ∈ w.phase.acquiresAt i, a.held = 1

theorem permitted_of_idle (h : w.phase.position? = none) : w.Permitted := by
  intro i a ha
  rw [(Phase.nothing_of_idle h i).1] at ha
  cases ha

theorem permitted_afterAcquire {progress : Acquire.Progress}
    (h : ∀ a ∈ progress.acquires, a.held = 1) (w : Worker R) (shared : Shared R) (now : Span)
    (job : Job R) (i : Nat) (since : Span) :
    (w.afterAcquire shared now job i since progress).worker.Permitted := by
  cases progress with
  | pending acquire =>
    intro j a ha
    rw [afterAcquire, Phase.acquiresAt] at ha
    split at ha
    · exact h a ha
    · cases ha
  | ready connection =>
    intro j a ha
    cases ha
  | failed fault => exact permitted_of_idle rfl

namespace Permitted

theorem of_acquiring (h : w.Permitted) {job : Job R} {i : Nat} {since : Span} {a : Acquire}
    (hphase : w.phase = .acquiring job i since a) : a.held = 1 := by
  refine h i a ?_
  rw [hphase, Phase.acquiresAt, if_pos rfl]
  exact List.mem_singleton_self a

variable [Weights.Weight R]

theorem draw (hw : w.Borrows config) (hidle : w.phase.position? = none) (shared : Shared R)
    (now : Span) : (w.draw shared now).worker.Permitted := by
  rw [Worker.draw]
  split
  · exact permitted_of_idle rfl
  · exact permitted_of_idle rfl
  · dsimp only
    split
    · exact permitted_of_idle rfl
    · next p hp =>
      have hpermits := (hw.settled hidle).permits_eq p (Array.mem_of_getElem? hp)
      have hfree : 0 < p.permits := by omega
      exact permitted_afterAcquire (Pool.held_acquire hfree) _ _ _ _ _ _

theorem turnAt (hw : w.Borrows config) (h : w.Permitted) (x : Sight R) :
    (w.turnAt x).worker.Permitted := by
  have hacts := w.acts x
  generalize w.turnAt x = turn at hacts ⊢
  cases hacts with
  | unchanged => exact h
  | started | stopped | cancelled => exact permitted_of_idle rfl
  | begun hbegins => exact draw hw (Phase.position?_of_idle (of_begins hbegins).1) _ _
  | acquired hphase =>
    exact permitted_afterAcquire (Pool.held_advance (h.of_acquiring hphase)) _ _ _ _ _ _
  | @exchanged job pool since connection written s =>
    generalize (connection.exchange job.request.encode.length s).1 = connection'
    cases (connection.exchange job.request.encode.length s).2 with
    | reading =>
      intro i a ha
      cases ha
    | finished result =>
      refine permitted_of_idle ?_
      rw [afterExchange]
      split <;> rfl

end Permitted

/-! ## Acquires that fail -/

/-- A worker gets no connection at a sight although it has a permit for one: connecting failed or
took too long. -/
def FailsToConnect (w : Worker R) (x : Sight R) : Prop :=
  ∃ job i since a s p fault, w.phase = .acquiring job i since a ∧ x.signal = .acquire s ∧
    w.pools[i]? = some p ∧ (p.advance a x.now s).2.1 = .failed fault ∧ a.stage = .connecting ∧
    a.Fails p.endpoint x.now s fault

theorem entries_afterAcquire (w : Worker R) (shared : Shared R) (now : Span) (job : Job R) (i : Nat)
    (since : Span) {progress : Acquire.Progress}
    (h : (w.afterAcquire shared now job i since progress).entries ≠ []) :
    ∃ fault, progress = .failed fault := by
  cases progress with
  | failed fault => exact ⟨fault, rfl⟩
  | pending | ready => exact absurd rfl h

/-- Nothing is recorded when an operation is drawn, unless it is skipped. -/
theorem outcome_draw [Weights.Weight R] (w : Worker R) (shared : Shared R) (now : Span) :
    ∀ e ∈ (w.draw shared now).entries, e.outcome = .skipped := by
  rw [draw]
  split
  · exact List.forall_mem_nil _
  · exact List.forall_mem_singleton.2 rfl
  · dsimp only
    split
    · exact List.forall_mem_nil _
    · next p hp =>
      intro e he
      obtain ⟨fault, hfault⟩ := entries_afterAcquire _ _ _ _ _ _ (List.ne_nil_of_mem he)
      exact absurd hfault (p.acquire_ne_failed now fault)

/-- A request that was sent is recorded as one. -/
theorem returned_afterExchange (w : Worker R) (shared : Shared R) (now : Span) (job : Job R)
    (i : Nat) (since : Span) (connection : Connection) (progress : Exchange.Progress) :
    ∀ e ∈ (w.afterExchange shared now job i since connection progress).entries,
      Returned e.outcome := by
  cases progress with
  | reading => exact List.forall_mem_nil _
  | finished result =>
    rw [afterExchange]
    split
    · exact List.forall_mem_nil _
    · cases result with
      | ok exchange => exact List.forall_mem_singleton.2 (returned_outcomeOf _ _)
      | error fault => exact List.forall_mem_singleton.2 fault.returned

/-- **No connection is recorded only as connecting failed or took too long.** -/
theorem Permitted.failsToConnect [Weights.Weight R] (h : w.Permitted) {x : Sight R} {e : Entry}
    (he : e ∈ (w.turnAt x).entries) (houtcome : e.outcome = .failure .connection) :
    w.FailsToConnect x := by
  have hacts := w.acts x
  generalize w.turnAt x = turn at hacts he
  cases hacts with
  | unchanged | started | stopped | cancelled => cases he
  | begun =>
    rw [outcome_draw w x.shared x.now e he] at houtcome
    cases houtcome
  | @acquired job i since a s p events hphase hsignal hpool =>
    obtain ⟨fault, hfault⟩ := entries_afterAcquire _ _ _ _ _ _ (List.ne_nil_of_mem he)
    obtain ⟨hstage, hfails⟩ := Pool.fails_of_advance (h.of_acquiring hphase) hfault
    exact ⟨job, i, since, a, s, p, fault, hphase, hsignal, hpool, hfault, hstage, hfails⟩
  | exchanged =>
    obtain ⟨-, hsent⟩ := returned_afterExchange _ _ _ _ _ _ _ _ e he
    exact absurd houtcome hsent

/-! ## Runs of a worker -/

variable [Weights.Weight R]

theorem Borrows.after (hw : w.Borrows config) (xs : List (Sight R)) :
    (w.after xs).Borrows config := by
  induction xs generalizing w with
  | nil => exact hw
  | cons x xs ih => exact ih (hw.turnAt x)

theorem Permitted.after (hw : w.Borrows config) (h : w.Permitted) (xs : List (Sight R)) :
    (w.after xs).Permitted := by
  induction xs generalizing w with
  | nil => exact h
  | cons x xs ih => exact ih (hw.turnAt x) (h.turnAt hw x)

/-- **A worker returns every connection it borrows.**

Whatever a worker of a configuration has seen, when it deals with none of its pools it has given
back all that it borrowed: all connections of a pool are idle, there are no more than the
configuration has, and all permits are free. With peers that send one reply for each request, the
buffer of every idle connection is empty. So no acquire ever waits for a permit, and if a worker
records that it got no connection, connecting failed or took too long. -/
theorem returns_borrowed (hconfig : config.Accepted) {id : Nat} {source : Random.Source}
    {xs : List (Sight R)} (hw : (new config id source).after xs = w) :
    (w.phase.position? = none → w.Settled config.general.poolsize) ∧
      (∀ reply : Nat → Nat → Nat → Bytes, (∀ i c n, OneReply (reply i c n)) →
        OneForOne reply ((new config id source).traffic xs) →
        ∀ p ∈ w.pools, ∀ c ∈ p.idle, c.unread = []) ∧
      w.Permitted ∧
      ∀ x, ∀ e ∈ (w.turnAt x).entries, e.outcome = .failure .connection → w.FailsToConnect x := by
  subst hw
  have hnew := borrows_new config id source
  have hsize : max config.general.poolsize 1 = config.general.poolsize :=
    Nat.max_eq_left hconfig.poolsize_pos
  have hpermitted := (permitted_of_idle rfl).after hnew xs
  refine ⟨fun hidle => hsize ▸ (hnew.after xs).settled hidle,
    fun reply hreply hpeers p hp c hc => ?_, hpermitted,
    fun x e he houtcome => hpermitted.failsToConnect he houtcome⟩
  have hstep := (inStep_new config id source reply).after hnew hreply hpeers
  obtain ⟨i, hi⟩ := Array.mem_iff_getElem?.1 hp
  exact (hstep.idle i p hi c hc).eq_nil

/-! ### A client of an unsteady peer -/

/-- What a client sees as it gets a signal while the run goes on. -/
def going (s : Signal) : Sight ℚ := ⟨⟨.new Trial.solo, .new 1, false⟩, .zero, s⟩

/-- No connection is made in time at first. Later a request is answered, the next one on the same
connection is given up halfway through its reply, and one on a new connection is answered in two
pieces. -/
def unsteady : List (Sight ℚ) :=
  ([.resume, .resume, .acquire (.connectFailed .refused), .acquire .pauseOver, .acquire .timeUp,
      .resume, .acquire (.connected 0), .exchange .written,
      .exchange (.received [0x2b, 0x4f, 0x4b, 0x0d, 0x0a]), .resume, .exchange .written,
      .exchange (.received [0x2b, 0x4f]), .exchange .timeUp, .resume, .acquire (.connected 1),
      .exchange .written, .exchange (.received [0x2b, 0x4f]),
      .exchange (.received [0x4b, 0x0d, 0x0a])] : List Signal).map going

/-- A client whose words are all of one bits. -/
def patient : Worker ℚ := .new Trial.solo 0 (.stream (fun _ => 0xFFFFFFFFFFFFFFFF) 0)

theorem oneForOne_unsteady :
    OneForOne (fun _ _ _ => Connection.accepted.reply) (patient.traffic unsteady) :=
  Transfer.oneForOne_of_transfers (by decide +kernel)

theorem returns_borrowed_unsteady :
    (∃ w, patient.after unsteady = w ∧ w.phase.position? = none ∧ w.Settled 1 ∧
      w.pools.map (·.idle.map (·.id)) = #[[1]] ∧ ∀ p ∈ w.pools, ∀ c ∈ p.idle, c.unread = []) ∧
    (patient.after (unsteady.take 4)).FailsToConnect (going (.acquire .timeUp)) := by
  have hidle : (patient.after unsteady).phase.position? = none := by decide +kernel
  have hone : Trial.solo.general.poolsize = 1 := by decide +kernel
  obtain ⟨hsettled, hempty, -⟩ :=
    returns_borrowed Trial.accepted_solo (rfl : patient.after unsteady = patient.after unsteady)
  have hunread := hempty _ (fun _ _ _ => .inl Connection.accepted.isReply) oneForOne_unsteady
  refine ⟨⟨_, rfl, hidle, hone ▸ hsettled hidle, by decide +kernel, hunread⟩, ?_⟩
  generalize hw : patient.after (unsteady.take 4) = w
  have hlate : (w.turnAt (going (.acquire .timeUp))).entries.map (·.outcome) =
      [.failure .connection] := by
    rw [← hw]
    decide +kernel
  obtain ⟨e, he, houtcome⟩ := List.mem_map.1 (hlate ▸ List.mem_singleton_self _)
  obtain ⟨-, -, -, hfails⟩ := returns_borrowed Trial.accepted_solo hw
  exact hfails _ e he houtcome

end Worker

end LoadGen
