import LoadGen.Proofs.Pool.Company

/-!
# Attempts to connect

An acquire that has to connect makes one attempt after the other until one succeeds or its time is
up (`Quest`). What becomes of the attempts, how late its task goes on when something has happened
for it, and what the others on the pool do meanwhile are its surroundings, of which nothing is
assumed. It comes to an end nevertheless: between two attempts there is a pause, and all pauses are
to end before the deadline, so that there are no more attempts than pauses can be begun in the time
it has (`Quest.Stands`). `Company.acquires_end_cleanly` says what an acquire comes to, and what it
leaves of the pool.
-/

namespace LoadGen

open Time (Span)

/-! ## Surroundings -/

/-- An attempt to connect: how it ends, and after what time. Without a time it never ends. -/
structure Attempt where
  outcome : Except TransportFault Nat
  after : Option Span

namespace Attempt

/-- What is heard of the attempt when it has ended. -/
def signal (x : Attempt) : Acquire.Signal :=
  match x.outcome with
  | .ok stream => .connected stream
  | .error fault => .connectFailed fault

/-- Whether an attempt that was started at a moment has ended at another one. -/
def endedBy (x : Attempt) (since now : Span) : Bool :=
  x.after.any fun after => (since + after).nanos ≤ now.nanos

/-- What a task waits for: the end of the attempt, or the deadline. -/
def awaited (x : Attempt) (since deadline : Span) : Span :=
  match x.after with
  | none => deadline
  | some after => ⟨min (since + after).nanos deadline.nanos⟩

end Attempt

/-- What surrounds an acquire. -/
structure Surroundings where
  /-- The attempts, in the order in which they are started. -/
  attempts : Nat → Attempt
  /-- How late the task goes on, each time that it waited for something. -/
  late : Nat → Span
  /-- What the others do before that, as far as it can happen. -/
  others : Nat → List Tasks.Event

namespace Tasks

/-- What tasks do, as far as it can happen. -/
def goOn (t : Tasks) (events : List Event) : Tasks :=
  events.foldl (fun t e => (t.step? e).getD t) t

/-- What every step keeps is so when tasks have gone on. -/
theorem of_goOn {P : Tasks → Prop} (hstep : ∀ t e t', P t → t.step? e = some t' → P t')
    {t : Tasks} (ht : P t) (events : List Event) : P (t.goOn events) := by
  induction events generalizing t with
  | nil => exact ht
  | cons e events ih =>
    have hnext : P ((t.step? e).getD t) := by
      cases h : t.step? e with
      | none => exact ht
      | some t' => exact hstep t e t' ht h
    exact ih hnext

end Tasks

namespace Acquire.Signal

/-- The attempts that are started with a signal. -/
def starts : Acquire.Signal → Nat
  | pauseOver => 1
  | _ => 0

/-- The failures that a signal is about. -/
def failures : Acquire.Signal → List TransportFault
  | connectFailed fault => [fault]
  | _ => []

end Acquire.Signal

/-- An acquire that has to connect, with what is noted of it. -/
structure Quest where
  company : Company
  /-- When the task went on last. -/
  now : Span
  /-- The number of attempts that were started. -/
  started : Nat
  /-- The failures that it heard of, in order. -/
  failed : List TransportFault

namespace Quest

/-- An acquire starts its first attempt. -/
def start (c : Company) (now : Span) : Quest := ⟨c, now, 1, []⟩

variable (env : Surroundings) (n : Nat)

/-- When the task goes on, and what it hears then. It never goes on before what it waits for has
happened, and the end of an attempt counts before the end of the time. -/
def next (q : Quest) (a : Acquire) : Span × Acquire.Signal :=
  let late (moment : Span) : Span := ⟨max q.now.nanos moment.nanos⟩ + env.late n
  match a.stage with
  | .queued => (late a.deadline, .timeUp)
  | .connecting =>
    let x := env.attempts (q.started - 1)
    let now := late (x.awaited q.now a.deadline)
    (now, if x.endedBy q.now now then x.signal else .timeUp)
  | .pausing resume => (late resume, .pauseOver)

/-- The others do something. -/
def meanwhile (q : Quest) (events : List Tasks.Event) : Quest :=
  { q with company := { q.company with others := q.company.others.goOn events } }

/-- The task goes on with what it hears. -/
def hear (q : Quest) (now : Span) (s : Acquire.Signal) : Quest where
  company := (q.company.step? (.signal now s)).getD q.company
  now
  started := q.started + s.starts
  failed := q.failed ++ s.failures

/-- The others do something and then the task goes on, unless the acquire has come to an end. -/
def wake (q : Quest) : Quest :=
  let q := q.meanwhile (env.others n)
  match q.company.own with
  | .underWay a => q.hear (q.next env n a).1 (q.next env n a).2
  | _ => q

/-- After the task has gone on some times. -/
def run (q : Quest) : Nat → Quest
  | 0 => q
  | n + 1 => (q.run n).wake env n

/-! ## What an acquire comes to -/

/-- The fault of an acquire that gives up after some failures. -/
def verdict (endpoint : String) (failed : List TransportFault) : AcquireFault :=
  match failed.getLast? with
  | some last => .unreachable endpoint failed.length last
  | none => .timedOut endpoint

variable {env n}

/-- An acquire has come to an end after at most `most` attempts, all of which failed but the last
one perhaps. It has made a connection in the end, or it gave up, told the truth about the failures
and left the pool as it was. -/
structure Settled (env : Surroundings) (endpoint : String) (most : Nat) (q : Quest) : Prop where
  started_pos : 1 ≤ q.started
  started_le : q.started ≤ most
  failed_le : q.failed.length ≤ q.started
  started_le_failed : q.started ≤ q.failed.length + 1
  failed_at : ∀ i fault, q.failed[i]? = some fault →
    ∃ after, env.attempts i = ⟨.error fault, some after⟩
  outcome :
    (∃ id stream after, env.attempts (q.started - 1) = ⟨.ok stream, some after⟩ ∧
      q.company.own = .connected (.new id stream) ∧ q.company.liveChange = 1) ∨
    q.company.own = .failed (verdict endpoint q.failed) ∧ q.company.AsFound

/-- An attempt is under way. Each one that failed before it had a pause after it, which was to end
before the deadline. -/
structure Connects (begun timeout : Span) (n : Nat) (q : Quest) : Prop where
  own_eq : q.company.own =
    .underWay ⟨begun + timeout, q.failed.length, q.failed.getLast?, .connecting⟩
  started_eq : q.started = q.failed.length + 1
  wakes_eq : n = 2 * q.failed.length
  pauses_le : begun.nanos + q.failed.length * Acquire.pause.nanos ≤ q.now.nanos
  pauses_lt : q.failed.length * Acquire.pause.nanos < timeout.nanos

/-- It is the pause after a failed attempt, which is to end before the deadline. -/
structure Pauses (begun timeout resume : Span) (n : Nat) (q : Quest) : Prop where
  own_eq : q.company.own =
    .underWay ⟨begun + timeout, q.failed.length, q.failed.getLast?, .pausing resume⟩
  started_eq : q.started = q.failed.length
  wakes_eq : n + 1 = 2 * q.failed.length
  pauses_le : begun.nanos + q.failed.length * Acquire.pause.nanos ≤ resume.nanos
  resume_lt : resume.nanos < begun.nanos + timeout.nanos

/-- How far an acquire is. -/
inductive Stands (env : Surroundings) (begun timeout : Span) (endpoint : String) (n : Nat)
    (q : Quest) : Prop
  | connecting (h : q.Connects begun timeout n)
  | pausing {resume : Span} (h : q.Pauses begun timeout resume n)
  | ended (h : q.Settled env endpoint (timeout.nanos ⌈/⌉ Acquire.pause.nanos))

/-- An acquire has its failures on record, and is on its way or has come to an end. -/
structure Goes (env : Surroundings) (begun timeout : Span) (endpoint : String) (n : Nat)
    (q : Quest) : Prop where
  kept : q.company.Kept
  endpoint_eq : q.company.others.pool.endpoint = endpoint
  failed_at : ∀ i fault, q.failed[i]? = some fault →
    ∃ after, env.attempts i = ⟨.error fault, some after⟩
  stands : q.Stands env begun timeout endpoint n

variable {begun timeout : Span} {endpoint : String} {q : Quest}

/-! ### The others go on -/

theorem Settled.meanwhile {most : Nat} (hq : q.Settled env endpoint most)
    (events : List Tasks.Event) : (q.meanwhile events).Settled env endpoint most :=
  { hq with
    outcome := hq.outcome.imp_right fun ⟨hown, hfound⟩ =>
      ⟨hown, hfound.live_eq, hfound.permits_eq, hfound.idle⟩ }

/-- Nothing that the others do makes a difference. -/
theorem Goes.meanwhile (hq : q.Goes env begun timeout endpoint n) (events : List Tasks.Event) :
    (q.meanwhile events).Goes env begun timeout endpoint n where
  kept := Tasks.of_goOn (P := fun t => Company.Kept { q.company with others := t })
    (fun t e t' ht h => ht.other h) hq.kept events
  endpoint_eq := Tasks.of_goOn (P := fun t => t.pool.endpoint = endpoint)
    (fun t e t' ht h => (Tasks.endpoint_step? h).trans ht) hq.endpoint_eq events
  failed_at := hq.failed_at
  stands := by
    cases hq.stands with
    | connecting h => exact .connecting { h with }
    | pausing h => exact .pausing { h with }
    | ended h => exact .ended (h.meanwhile events)

/-! ### The task goes on -/

theorem company_hear {a : Acquire} (hown : q.company.own = .underWay a) (now : Span)
    (s : Acquire.Signal) :
    (q.hear now s).company = q.company.act (q.company.others.pool.advance a now s).1
      (.of a.stage (q.company.others.pool.advance a now s).2.1) := by
  rw [hear, Company.step?, hown]
  rfl

/-- The accounts of the pool remain right, and its endpoint the same. -/
theorem Goes.frame_hear (hq : q.Goes env begun timeout endpoint n) {a : Acquire}
    (hown : q.company.own = .underWay a) (now : Span) (s : Acquire.Signal) :
    (q.hear now s).company.Kept ∧ (q.hear now s).company.others.pool.endpoint = endpoint := by
  rw [company_hear hown]
  exact ⟨hq.kept.signal hown now s, (Pool.endpoint_advance _ _ _ _).trans hq.endpoint_eq⟩

/-- There may be one attempt more than pauses that end in time. -/
theorem succ_le_of_pauses_lt {k : Nat} (h : k * Acquire.pause.nanos < timeout.nanos) :
    k + 1 ≤ timeout.nanos ⌈/⌉ Acquire.pause.nanos := by
  have hpause : 0 < Acquire.pause.nanos := by decide
  rw [Nat.add_one_le_iff, ← not_le, ceilDiv_le_iff_le_mul hpause, not_le, Nat.mul_comm]
  exact h

namespace Connects

variable (h : q.Connects begun timeout n) (hq : q.Goes env begun timeout endpoint n) {now : Span}

include h

/-- The attempt was the last one. It may have failed. -/
theorem last {q' : Quest} (hkept : q'.company.Kept)
    (hendpoint : q'.company.others.pool.endpoint = endpoint)
    (hstarted : q'.started = q.failed.length + 1) (hle : q.failed.length ≤ q'.failed.length)
    (hle_succ : q'.failed.length ≤ q.failed.length + 1)
    (hat : ∀ i fault, q'.failed[i]? = some fault →
      ∃ after, env.attempts i = ⟨.error fault, some after⟩)
    (houtcome :
      (∃ id stream after, env.attempts q.failed.length = ⟨.ok stream, some after⟩ ∧
        q'.company.own = .connected (.new id stream)) ∨
      q'.company.own = .failed (verdict endpoint q'.failed)) :
    q'.Goes env begun timeout endpoint (n + 1) := by
  refine ⟨hkept, hendpoint, hat, .ended ⟨by omega, ?_, by omega, by omega, hat, ?_⟩⟩
  · rw [hstarted]
    exact succ_le_of_pauses_lt h.pauses_lt
  · rcases houtcome with ⟨id, stream, after, hattempt, hown⟩ | hown
    · refine .inl ⟨id, stream, after, ?_, hown, ?_⟩
      · rw [hstarted]
        exact hattempt
      · rw [hkept.live_eq, hown]
        rfl
    · exact .inr ⟨hown, hkept.asFound_of_failed hown⟩

include hq

theorem connected {stream : Nat} {after : Span}
    (hattempt : env.attempts q.failed.length = ⟨.ok stream, some after⟩) :
    (q.hear now (.connected stream)).Goes env begun timeout endpoint (n + 1) := by
  obtain ⟨hkept, hendpoint⟩ := hq.frame_hear h.own_eq now (.connected stream)
  have hown : (q.hear now (.connected stream)).company.own =
      .connected (.new q.company.others.pool.nextId stream) := by
    rw [company_hear h.own_eq]
    rfl
  have hfailed : (q.hear now (.connected stream)).failed = q.failed := List.append_nil _
  refine h.last hkept hendpoint h.started_eq ?_ ?_ ?_ (.inl ⟨_, stream, after, hattempt, hown⟩)
  · rw [hfailed]
  · rw [hfailed]
    exact Nat.le_succ _
  · rw [hfailed]
    exact hq.failed_at

/-- The time is up before the attempt has ended, which is not counted as a failure. -/
theorem cutOff : (q.hear now .timeUp).Goes env begun timeout endpoint (n + 1) := by
  obtain ⟨hkept, hendpoint⟩ := hq.frame_hear h.own_eq now .timeUp
  have hfailed : (q.hear now .timeUp).failed = q.failed := List.append_nil _
  have hown : (q.hear now .timeUp).company.own =
      .failed (verdict endpoint (q.hear now .timeUp).failed) := by
    rw [company_hear h.own_eq, hfailed, ← hq.endpoint_eq]
    rfl
  refine h.last hkept hendpoint h.started_eq ?_ ?_ ?_ (.inr hown)
  · rw [hfailed]
  · rw [hfailed]
    exact Nat.le_succ _
  · rw [hfailed]
    exact hq.failed_at

/-- An attempt that failed is repeated after a pause, if that is to end before the deadline. -/
theorem failed {fault : TransportFault} {after : Span}
    (hattempt : env.attempts q.failed.length = ⟨.error fault, some after⟩)
    (hnow : q.now.nanos ≤ now.nanos) :
    (q.hear now (.connectFailed fault)).Goes env begun timeout endpoint (n + 1) := by
  obtain ⟨hkept, hendpoint⟩ := hq.frame_hear h.own_eq now (.connectFailed fault)
  have hfailed : (q.hear now (.connectFailed fault)).failed = q.failed ++ [fault] := rfl
  have hlength : (q.hear now (.connectFailed fault)).failed.length = q.failed.length + 1 := by
    rw [hfailed, List.length_append, List.length_singleton]
  have hat := Lists.forall_getElem?_concat hq.failed_at ⟨after, hattempt⟩
  have hcompany := company_hear h.own_eq now (.connectFailed fault)
  by_cases hlate : (begun + timeout).nanos ≤ (now + Acquire.pause).nanos
  · have hown : (q.hear now (.connectFailed fault)).company.own =
        .failed (verdict endpoint (q.failed ++ [fault])) := by
      rw [hcompany, ← hq.endpoint_eq]
      simp [Company.act, Pool.advance, hlate, Fate.of, Acquire.fault, verdict]
    exact h.last hkept hendpoint h.started_eq (hlength ▸ Nat.le_succ _) hlength.le hat (.inr hown)
  · have hpauses : (q.hear now (.connectFailed fault)).Pauses begun timeout (now + Acquire.pause)
        (n + 1) := by
      refine ⟨?_, h.started_eq.trans hlength.symm, ?_, ?_, Nat.lt_of_not_le hlate⟩
      · rw [hcompany, hfailed]
        simp [Company.act, Pool.advance, hlate, Fate.of]
      · rw [hlength, h.wakes_eq]
        omega
      · have := h.pauses_le
        rw [hlength, Nat.succ_mul]
        show _ ≤ now.nanos + Acquire.pause.nanos
        omega
    exact ⟨hkept, hendpoint, hat, .pausing hpauses⟩

/-- Whatever the task hears of its attempt. -/
theorem heard (hnow : q.now.nanos ≤ now.nanos) :
    (q.hear now (if (env.attempts (q.started - 1)).endedBy q.now now then
      (env.attempts (q.started - 1)).signal else .timeUp)).Goes env begun timeout endpoint
      (n + 1) := by
  rw [show q.started - 1 = q.failed.length by rw [h.started_eq]; rfl]
  split
  · next hended =>
    obtain ⟨after, hafter, -⟩ := (Option.any_eq_true _ _).1 hended
    cases hattempt : env.attempts q.failed.length with
    | mk outcome =>
      rw [hattempt] at hafter
      cases hafter
      cases outcome with
      | ok stream => exact h.connected hq hattempt
      | error fault => exact h.failed hq hattempt hnow
  · exact h.cutOff hq

end Connects

theorem Pauses.retry {resume now : Span} (h : q.Pauses begun timeout resume n)
    (hq : q.Goes env begun timeout endpoint n) (hnow : resume.nanos ≤ now.nanos) :
    (q.hear now .pauseOver).Goes env begun timeout endpoint (n + 1) := by
  obtain ⟨hkept, hendpoint⟩ := hq.frame_hear h.own_eq now .pauseOver
  have hfailed : (q.hear now .pauseOver).failed = q.failed := List.append_nil _
  have hat := hq.failed_at
  refine ⟨hkept, hendpoint, by rwa [hfailed], .connecting ⟨?_, ?_, ?_, ?_, ?_⟩⟩
  · rw [company_hear h.own_eq, hfailed]
    rfl
  · rw [hfailed, ← h.started_eq]
    rfl
  · rw [hfailed, h.wakes_eq]
  · rw [hfailed]
    exact h.pauses_le.trans hnow
  · have := h.pauses_le
    have := h.resume_lt
    rw [hfailed]
    omega

theorem connects_start {c : Company} {now : Span}
    (hown : c.own = .underWay ⟨begun + timeout, 0, none, .connecting⟩)
    (hnow : begun.nanos ≤ now.nanos) (htimeout : 0 < timeout.nanos) :
    (start c now).Connects begun timeout 0 where
  own_eq := hown
  started_eq := rfl
  wakes_eq := rfl
  pauses_le := by
    show begun.nanos + 0 * Acquire.pause.nanos ≤ now.nanos
    rwa [Nat.zero_mul, Nat.add_zero]
  pauses_lt := by
    show 0 * Acquire.pause.nanos < timeout.nanos
    rwa [Nat.zero_mul]

/-- A task that goes on is nearer to the end of its acquire, or has come to it. -/
theorem Goes.wake (hq : q.Goes env begun timeout endpoint n) :
    (q.wake env n).Goes env begun timeout endpoint (n + 1) := by
  have hq := hq.meanwhile (env.others n)
  rw [Quest.wake]
  generalize q.meanwhile (env.others n) = q at hq
  have hlate (moment : Span) :
      q.now.nanos ≤ ((⟨max q.now.nanos moment.nanos⟩ : Span) + env.late n).nanos ∧
        moment.nanos ≤ ((⟨max q.now.nanos moment.nanos⟩ : Span) + env.late n).nanos := by
    show _ ≤ max q.now.nanos moment.nanos + _ ∧ _ ≤ max q.now.nanos moment.nanos + _
    omega
  cases hq.stands with
  | connecting h =>
    rw [h.own_eq]
    exact h.heard hq (hlate _).1
  | pausing h =>
    rw [h.own_eq]
    exact h.retry hq (hlate _).2
  | ended h =>
    rcases h.outcome with ⟨id, stream, after, -, hown, -⟩ | ⟨hown, -⟩ <;> rw [hown]
    all_goals exact { hq with stands := .ended h }

theorem Goes.run (hq : q.Goes env begun timeout endpoint 0) (n : Nat) :
    (q.run env n).Goes env begun timeout endpoint n := by
  induction n with
  | zero => exact hq
  | succ n ih => exact ih.wake

/-- **An acquire comes to an end** when its task has gone on twice for every pause that it has time
for. -/
theorem Goes.settled (hq : q.Goes env begun timeout endpoint 0) :
    (q.run env (2 * (timeout.nanos ⌈/⌉ Acquire.pause.nanos))).Settled env endpoint
      (timeout.nanos ⌈/⌉ Acquire.pause.nanos) := by
  have hrun := hq.run (2 * (timeout.nanos ⌈/⌉ Acquire.pause.nanos))
  cases hrun.stands with
  | connecting h =>
    have := succ_le_of_pauses_lt h.pauses_lt
    have := h.wakes_eq
    omega
  | pausing h =>
    have := h.wakes_eq
    omega
  | ended h => exact h

end Quest

/-! ## Acquires come to an end -/

namespace Company

/-- An acquire gets its permit, and has to connect. -/
structure SetsOut (now : Span) (c c' : Company) : Prop where
  exists_queued : ∃ a, c.own = .underWay a ∧ a.stage = .queued
  step_eq : c.step? (.signal now .permitFree) = some c'
  exists_connecting : ∃ a, c'.own = .underWay a ∧ a.stage = .connecting

/-- An acquire that waits for a permit is as it began. -/
def Fresh (begun timeout : Span) (c : Company) : Prop :=
  ∀ a, c.own = .underWay a → a.stage = .queued → a = ⟨begun + timeout, 0, none, .queued⟩

theorem Fresh.becomes {begun timeout : Span} {c c' : Company} (hc : c.Fresh begun timeout)
    (h : c.Becomes c') : c'.Fresh begun timeout := by
  intro a' hown hqueued
  cases h with
  | other => exact hc a' hown hqueued
  | signal ha now s =>
    cases Pool.eq_of_advance_queued (Fate.eq_pending_of hown) hqueued
    exact hc a' ha hqueued
  | cancel => cases hown

theorem fresh_start (t : Tasks) (begun : Span) :
    (start t begun).Fresh begun t.pool.connectTimeout :=
  fun _ hown _ => (Fate.underWay.inj hown).symm

/-- An acquire that sets out has all of its attempts before it. -/
theorem SetsOut.own_eq {begun timeout now : Span} {c c' : Company} (h : c.SetsOut now c')
    (hc : c.Fresh begun timeout) :
    c'.own = .underWay ⟨begun + timeout, 0, none, .connecting⟩ := by
  obtain ⟨⟨q, hown, hqueued⟩, hstep, a, ha, hconnecting⟩ := h
  cases hc q hown hqueued
  rw [step?, hown] at hstep
  cases hstep
  have hpending := Fate.eq_pending_of ha
  change (c.others.pool.enter _).2 = _ at hpending
  rcases c.others.pool.enter_cases ⟨begun + timeout, 0, none, .queued⟩ with
    ⟨-, he⟩ | ⟨connection, idle, -, -, he⟩ | ⟨-, -, he⟩
  · rw [he] at hpending
    cases hpending
    cases hconnecting
  · rw [he] at hpending
    cases hpending
  · rw [he] at hpending
    cases hpending
    exact ha

/-- **An acquire comes to an end, and leaves the pool as it should.** Whatever the others on the
pool do, an acquire that failed, be it for want of a permit, or was cancelled has changed nothing of
the pool by itself, and one that made a connection has taken one room, with its permit.

An acquire that gets its permit and has to connect makes one attempt at least, and no more than
pauses are begun in the time that it has. It comes to an end whatever becomes of the attempts and
however late its task goes on, and if it gives up, then with the number of attempts that failed and
the last failure, or for want of time if none failed. -/
theorem acquires_end_cleanly {t : Tasks} (ht : t.Sound)
    (htimeout : 0 < t.pool.connectTimeout.nanos) {begun : Span} {events : List Event} {c : Company}
    (h : (start t begun).steps? events = some c) :
    (∀ fault, c.own = .failed fault → c.AsFound) ∧ (c.own = .cancelled → c.AsFound) ∧
      (∀ connection, c.own = .connected connection →
        c.liveChange = 1 ∧ c.permitsChange = -1 ∧ c.IdleKept) ∧
      ∀ now c', begun.nanos ≤ now.nanos → c.SetsOut now c' → ∀ env : Surroundings,
        ((Quest.start c' now).run env
          (2 * (t.pool.connectTimeout.nanos ⌈/⌉ Acquire.pause.nanos))).Settled env t.pool.endpoint
            (t.pool.connectTimeout.nanos ⌈/⌉ Acquire.pause.nanos) := by
  have hkept : c.Kept := of_steps? (fun _ _ => .becomes) (kept_start ht begun) h
  refine ⟨fun fault hown => ?_, fun hown => ?_, fun connection hown => ⟨?_, ?_, ?_⟩, ?_⟩
  · exact hkept.asFound_of_failed hown
  · exact hkept.asFound (by rw [hown]; rfl) (by rw [hown]; rfl) (by rw [hown]; rfl)
  · rw [hkept.live_eq, hown]
    rfl
  · rw [hkept.permits_eq, hown]
    rfl
  · exact hkept.idle (by rw [hown]; rfl)
  · intro now c' hnow hout env
    have hbecomes := becomes_of_step? hout.step_eq
    have hfresh : c.Fresh begun t.pool.connectTimeout :=
      of_steps? (fun _ _ => .becomes) (fresh_start t begun) h
    have hendpoint : c.others.pool.endpoint = t.pool.endpoint :=
      of_steps? (P := fun c => c.others.pool.endpoint = t.pool.endpoint)
        (fun _ _ hc h => (endpoint_becomes h).trans hc) rfl h
    exact Quest.Goes.settled
      ⟨hkept.becomes hbecomes, (endpoint_becomes hbecomes).trans hendpoint, nofun,
        .connecting (Quest.connects_start (hout.own_eq hfresh) hnow htimeout)⟩

/-- No attempt succeeds, and each fails at once. Meanwhile another task connects. -/
def refusing : Surroundings where
  attempts _ := ⟨.error .refused, some .zero⟩
  late _ := .zero
  others n := if n = 1 then [.acquire .zero, .advance 0 .zero (.connected 0)] else []

theorem acquires_end_cleanly_refused :
    ∃ c, (start (.start "a:1" 2 (.ofMillis 25)) .zero).SetsOut .zero c ∧
      ((Quest.start c .zero).run refusing 6).started = 3 ∧
      ((Quest.start c .zero).run refusing 6).company.own =
        .failed (.unreachable "a:1" 3 .refused) ∧
      ((Quest.start c .zero).run refusing 6).company.others.pool.live = 1 ∧
      ((Quest.start c .zero).run refusing 6).Settled refusing "a:1" 3 := by
  obtain ⟨c, hout⟩ : ∃ c, (start (.start "a:1" 2 (.ofMillis 25)) .zero).SetsOut .zero c :=
    ⟨_, ⟨_, rfl, rfl⟩, rfl, _, rfl, rfl⟩
  have hsound := Tasks.sound_start "a:1" 2 (.ofMillis 25)
  have hnothing : (start (.start "a:1" 2 (.ofMillis 25)) .zero).steps? [] = some _ := rfl
  obtain ⟨-, -, -, hends⟩ := acquires_end_cleanly hsound (by decide) hnothing
  refine ⟨c, hout, ?_, ?_, ?_, hends .zero c (Nat.le_refl _) hout refusing⟩
  all_goals
    cases hout.step_eq
    rfl

end Company

end LoadGen
