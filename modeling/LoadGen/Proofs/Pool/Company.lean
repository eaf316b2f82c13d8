import LoadGen.Proofs.Pool.Tasks

/-!
# One acquire among others

A task acquires a connection from a pool on which other tasks go on with theirs (`Company`). What
the acquire does to the pool is what lies between the pools that it finds and those that it leaves;
what happens in between is the doing of the others. At any time its own changes add up to the room
and the permit that it has now (`Company.Kept`): an acquire that has come to nothing has changed
nothing, and one that has made a connection has taken one room.
-/

namespace LoadGen

open Acquire (heldBy)
open Time (Span)

/-! ## Tasks beside others -/

namespace Tasks

/-- Tasks with some more acquires and loans. -/
def beside (t : Tasks) (acquires : List Acquire) (loans : List Connection) : Tasks :=
  { t with
    acquires := t.acquires ++ acquires
    loans := t.loans ++ loans }

variable {t t' : Tasks}

theorem sound_beside {acquires : List Acquire} {loans : List Connection} :
    (t.beside acquires loans).Sound ↔
      t.pool.Sound (heldBy t.acquires + heldBy acquires) (t.loans ++ loans) t.dropped := by
  rw [Sound, beside, Acquire.heldBy_append]

theorem beside_settle (t : Tasks) (progress : Acquire.Progress) (acquires : List Acquire)
    (loans : List Connection) :
    (t.settle progress).beside acquires loans = (t.beside acquires loans).settle progress := by
  simp only [settle, beside, List.append_assoc]

/-- Tasks do what they do whether or not there are others beside them. -/
theorem step?_beside {e : Event} (h : t.step? e = some t') (acquires : List Acquire)
    (loans : List Connection) :
    (t.beside acquires loans).step? e = some (t'.beside acquires loans) := by
  have hleft {α : Type} {l : List α} {i : Nat} {a : α} (h : l[i]? = some a) (l' : List α) :
      i < l.length ∧ (l ++ l')[i]? = some a := by
    obtain ⟨hlt, -⟩ := List.getElem?_eq_some_iff.1 h
    exact ⟨hlt, by rw [List.getElem?_append_left hlt, h]⟩
  cases e with
  | acquire now =>
    cases h
    rw [beside_settle]
    rfl
  | queue now =>
    cases h
    rw [beside_settle]
    rfl
  | advance task now signal =>
    obtain ⟨a, ha, -⟩ := Option.bind_eq_some_iff.1 h
    obtain ⟨hlt, ha'⟩ := hleft ha acquires
    rw [step?_advance ha] at h
    cases h
    rw [beside_settle, step?_advance ha']
    simp only [beside, List.eraseIdx_append_of_lt_length hlt]
  | cancel task =>
    obtain ⟨a, ha, h⟩ := Option.bind_eq_some_iff.1 h
    obtain ⟨hlt, ha⟩ := hleft ha acquires
    cases h
    simp [step?, beside, ha, List.eraseIdx_append_of_lt_length hlt]
  | exchange loan sent signal =>
    obtain ⟨c, hc, h⟩ := Option.bind_eq_some_iff.1 h
    obtain ⟨hlt, hc⟩ := hleft hc loans
    cases h
    simp [step?, beside, hc, List.set_append_left _ _ hlt]
  | release loan healthy =>
    obtain ⟨c, hc, h⟩ := Option.bind_eq_some_iff.1 h
    obtain ⟨hlt, hc⟩ := hleft hc loans
    cases h
    simp [step?, beside, hc, List.eraseIdx_append_of_lt_length hlt]

/-- What tasks do is nothing to the endpoint of their pool. -/
theorem endpoint_step? {e : Event} (h : t.step? e = some t') :
    t'.pool.endpoint = t.pool.endpoint := by
  cases e with
  | acquire now =>
    cases h
    exact t.pool.endpoint_acquire now
  | queue now =>
    cases h
    rfl
  | advance task now signal =>
    obtain ⟨a, -, h⟩ := Option.bind_eq_some_iff.1 h
    cases h
    exact t.pool.endpoint_advance a now signal
  | cancel task =>
    obtain ⟨a, -, h⟩ := Option.bind_eq_some_iff.1 h
    cases h
    exact t.pool.endpoint_cancel a
  | exchange loan sent signal =>
    obtain ⟨c, -, h⟩ := Option.bind_eq_some_iff.1 h
    cases h
    rfl
  | release loan healthy =>
    obtain ⟨c, -, h⟩ := Option.bind_eq_some_iff.1 h
    cases h
    exact t.pool.endpoint_release c healthy

end Tasks

/-! ## Fates of an acquire -/

/-- What has become of an acquire. -/
inductive Fate
  | underWay (acquire : Acquire)
  /-- It was handed an idle connection. -/
  | served (connection : Connection)
  /-- It made a connection. -/
  | connected (connection : Connection)
  | failed (fault : AcquireFault)
  | cancelled

namespace Fate

/-- What becomes of an acquire that waited at a stage. -/
def of (stage : Acquire.Stage) : Acquire.Progress → Fate
  | .pending a => underWay a
  | .ready c => if stage = .queued then served c else connected c
  | .failed fault => failed fault

def acquires : Fate → List Acquire
  | underWay a => [a]
  | _ => []

/-- The connection that was handed out. -/
def loans : Fate → List Connection
  | served c => [c]
  | connected c => [c]
  | _ => []

/-- The idle connection that was taken. -/
def taken : Fate → List Connection
  | served c => [c]
  | _ => []

/-- The rooms that were taken for a new connection. -/
def rooms : Fate → Nat
  | underWay a => a.held
  | connected _ => 1
  | _ => 0

/-- The permits that are held, with a connection or on the way to one. -/
def permits : Fate → Nat
  | underWay a => a.held
  | served _ => 1
  | connected _ => 1
  | _ => 0

variable (stage : Acquire.Stage) (progress : Acquire.Progress)

variable {stage progress} in
theorem eq_pending_of {a : Acquire} (h : of stage progress = underWay a) :
    progress = .pending a := by
  cases progress with
  | pending a' =>
    cases h
    rfl
  | ready c =>
    rw [of] at h
    split at h <;> cases h
  | failed fault => cases h

theorem acquires_of : (of stage progress).acquires = progress.acquires := by
  cases progress with
  | ready c =>
    rw [of]
    split <;> rfl
  | _ => rfl

theorem loans_of : (of stage progress).loans = progress.loans := by
  cases progress with
  | ready c =>
    rw [of]
    split <;> rfl
  | _ => rfl

end Fate

/-! ## What an acquire does to its pool -/

namespace Pool

/-- How a pool differs from an earlier one: rooms and permits that were taken, and idle connections
taken from the front. -/
structure Differs (p p' : Pool) (rooms permits : Int) (taken : List Connection) : Prop where
  live_eq : (p'.live : Int) = p.live + rooms
  permits_eq : (p'.permits : Int) = p.permits - permits
  idle_eq : p.idle = taken ++ p'.idle

variable {p : Pool}

theorem differs_self (p : Pool) : p.Differs p 0 0 [] where
  live_eq := by omega
  permits_eq := by omega
  idle_eq := rfl

theorem differs_giveUp (h : p.giveUp.live + 1 = p.live) : p.Differs p.giveUp (-1) (-1) [] where
  live_eq := by omega
  permits_eq := by
    rw [giveUp, returnPermit]
    push_cast
    omega
  idle_eq := rfl

theorem differs_enter (p : Pool) (a : Acquire) :
    p.Differs (p.enter a).1 (Fate.of .queued (p.enter a).2).rooms
      (Fate.of .queued (p.enter a).2).permits (Fate.of .queued (p.enter a).2).taken := by
  have htake (hpermits : 0 < p.permits) : ((p.permits - 1 : Nat) : Int) = p.permits - 1 := by
    omega
  rcases p.enter_cases a with ⟨-, h⟩ | ⟨c, idle, hpermits, hidle, h⟩ | ⟨hpermits, -, h⟩
  · rw [h]
    exact p.differs_self
  · rw [h]
    exact ⟨(add_zero _).symm, htake hpermits, hidle⟩
  · rw [h]
    exact ⟨rfl, htake hpermits, rfl⟩

variable {a : Acquire} {held : Nat} {loans dropped : List Connection}

/-- A step of an acquire changes the pool by what it has after it and had not before. -/
theorem Sound.differs_advance (hp : p.Sound (held + a.held) loans dropped) (now : Span)
    (s : Acquire.Signal) :
    p.Differs (p.advance a now s).1 ((Fate.of a.stage (p.advance a now s).2.1).rooms - a.held)
      ((Fate.of a.stage (p.advance a now s).2.1).permits - a.held)
      (Fate.of a.stage (p.advance a now s).2.1).taken := by
  obtain ⟨deadline, failures, last, stage⟩ := a
  cases stage with
  | queued =>
    cases s with
    | permitFree =>
      have h := p.differs_enter ⟨deadline, failures, last, .queued⟩
      simpa [Pool.advance, Acquire.held] using h
    | _ => exact p.differs_self
  | connecting =>
    cases s with
    | connected stream => exact ⟨(add_zero _).symm, (sub_zero _).symm, rfl⟩
    | connectFailed fault =>
      simp only [Pool.advance]
      split
      · exact differs_giveUp hp.giveUp_live
      · exact p.differs_self
    | timeUp => exact differs_giveUp hp.giveUp_live
    | _ => exact p.differs_self
  | pausing resume => cases s <;> exact p.differs_self

/-- An acquire that waits in the queue after something has happened to it is as it was. -/
theorem eq_of_advance_queued {a' : Acquire} {now : Span} {s : Acquire.Signal}
    (h : (p.advance a now s).2.1 = .pending a') (hqueued : a'.stage = .queued) : a' = a := by
  obtain ⟨deadline, failures, last, stage⟩ := a
  cases stage with
  | queued =>
    cases s with
    | permitFree =>
      change (p.enter _).2 = _ at h
      rcases p.enter_cases ⟨deadline, failures, last, .queued⟩ with
        ⟨-, he⟩ | ⟨c, idle, -, -, he⟩ | ⟨-, -, he⟩
      · rw [he] at h
        exact (Acquire.Progress.pending.inj h).symm
      · rw [he] at h
        cases h
      · rw [he] at h
        cases h
        cases hqueued
    | timeUp => cases h
    | _ => exact (Acquire.Progress.pending.inj h).symm
  | connecting =>
    cases s with
    | connectFailed fault =>
      simp only [Pool.advance] at h
      split at h <;> cases h
      cases hqueued
    | connected | timeUp => cases h
    | _ =>
      cases h
      cases hqueued
  | pausing resume => cases s <;> cases h <;> cases hqueued

theorem Sound.differs_cancel (hp : p.Sound (held + a.held) loans dropped) :
    p.Differs (p.cancel a) (0 - a.held) (0 - a.held) [] := by
  obtain ⟨deadline, failures, last, stage⟩ := a
  cases stage with
  | queued => exact p.differs_self
  | connecting => exact differs_giveUp hp.giveUp_live
  | pausing resume => exact differs_giveUp hp.giveUp_live

end Pool

/-! ## An acquire in company -/

/-- An acquire among other tasks on a pool. -/
structure Company where
  /-- The pool, and the others on it. -/
  others : Tasks
  own : Fate
  /-- Each pool that the acquire found, with the one that it left. -/
  steps : List (Pool × Pool)

namespace Company

/-- An acquire begins, and waits for a permit. It may get one at once. -/
def start (t : Tasks) (begun : Span) : Company where
  others := t
  own := .underWay
    { deadline := begun + t.pool.connectTimeout, failures := 0, last := none, stage := .queued }
  steps := []

/-- What can happen in company. -/
inductive Event
  /-- Another task does something. -/
  | other (e : Tasks.Event)
  /-- Something happens to the acquire. -/
  | signal (now : Span) (s : Acquire.Signal)
  | cancel

/-- The acquire leaves a pool and comes to something. -/
def act (c : Company) (pool : Pool) (own : Fate) : Company where
  others := { c.others with pool }
  own
  steps := c.steps ++ [(c.others.pool, pool)]

/-- What an event does; nothing if there is nothing it could happen to. -/
def step? (c : Company) : Event → Option Company
  | .other e => (c.others.step? e).map fun others => { c with others }
  | .signal now s =>
    match c.own with
    | .underWay a =>
      some (c.act (c.others.pool.advance a now s).1
        (.of a.stage (c.others.pool.advance a now s).2.1))
    | _ => none
  | .cancel =>
    match c.own with
    | .underWay a => some (c.act (c.others.pool.cancel a) .cancelled)
    | _ => none

/-- An acquire that gets a permit at once, or an idle connection with it, is `Pool.acquire`. -/
theorem step?_start (t : Tasks) (begun : Span) :
    (start t begun).step? (.signal begun .permitFree) =
      some ((start t begun).act (t.pool.acquire begun).1 (.of .queued (t.pool.acquire begun).2)) :=
  rfl

/-- What events do in order. -/
def steps? (c : Company) : List Event → Option Company
  | [] => some c
  | e :: events => do
    let c ← c.step? e
    c.steps? events

/-- All that can become of a company in one step. -/
inductive Becomes (c : Company) : Company → Prop
  | other {e : Tasks.Event} {others : Tasks} (h : c.others.step? e = some others) :
      Becomes c { c with others }
  | signal {a : Acquire} (hown : c.own = .underWay a) (now : Span) (s : Acquire.Signal) :
      Becomes c (c.act (c.others.pool.advance a now s).1
        (.of a.stage (c.others.pool.advance a now s).2.1))
  | cancel {a : Acquire} (hown : c.own = .underWay a) :
      Becomes c (c.act (c.others.pool.cancel a) .cancelled)

theorem becomes_of_step? {c c' : Company} {e : Event} (h : c.step? e = some c') :
    c.Becomes c' := by
  rw [step?.eq_def] at h
  split at h
  · obtain ⟨others, hothers, rfl⟩ := Option.map_eq_some_iff.1 h
    exact .other hothers
  · split at h
    · next hown =>
      cases h
      exact .signal hown _ _
    · cases h
  · split at h
    · next hown =>
      cases h
      exact .cancel hown
    · cases h

/-- **What every step keeps is kept by any number of them.** -/
theorem of_steps? {P : Company → Prop} (hstep : ∀ c c', P c → c.Becomes c' → P c')
    {c c' : Company} (hc : P c) {events : List Event} (h : c.steps? events = some c') : P c' := by
  induction events generalizing c with
  | nil =>
    cases h
    exact hc
  | cons e events ih =>
    obtain ⟨c₁, h₁, h⟩ := Option.bind_eq_some_iff.1 h
    exact ih (hstep c c₁ hc (becomes_of_step? h₁)) h

/-- By how much the acquire itself changed the number of rooms that are taken. -/
def liveChange (c : Company) : Int := (c.steps.map fun x => (x.2.live : Int) - x.1.live).sum

/-- By how much the acquire itself changed the number of free permits. -/
def permitsChange (c : Company) : Int :=
  (c.steps.map fun x => (x.2.permits : Int) - x.1.permits).sum

/-- The acquire left the idle connections alone. -/
def IdleKept (c : Company) : Prop := ∀ x ∈ c.steps, x.2.idle = x.1.idle

/-- All that the acquire itself did to the pool comes to nothing. -/
structure AsFound (c : Company) : Prop where
  live_eq : c.liveChange = 0
  permits_eq : c.permitsChange = 0
  idle : c.IdleKept

variable {c c' : Company}

/-- The changes of the acquire are those that it stands for now, and the accounts of the pool are
right about all of its tasks. -/
structure Kept (c : Company) : Prop where
  sound : (c.others.beside c.own.acquires c.own.loans).Sound
  live_eq : c.liveChange = c.own.rooms
  permits_eq : c.permitsChange = -c.own.permits
  idle : c.own.taken = [] → c.IdleKept

theorem kept_start {t : Tasks} (ht : t.Sound) (begun : Span) : (start t begun).Kept where
  sound := Tasks.sound_beside.2 (by rwa [start, Fate.loans.eq_def, List.append_nil])
  live_eq := rfl
  permits_eq := rfl
  idle _ := List.forall_mem_nil _

namespace Kept

theorem other (hc : c.Kept) {e : Tasks.Event} {others : Tasks}
    (h : c.others.step? e = some others) : Kept { c with others } where
  sound := hc.sound.step? (Tasks.step?_beside h _ _)
  live_eq := hc.live_eq
  permits_eq := hc.permits_eq
  idle := hc.idle

theorem act (hc : c.Kept) (htaken : c.own.taken = []) {pool : Pool} {own : Fate}
    (hdiffers : c.others.pool.Differs pool (own.rooms - c.own.rooms)
      (own.permits - c.own.permits) own.taken)
    (hsound : ((c.act pool own).others.beside own.acquires own.loans).Sound) :
    (c.act pool own).Kept where
  sound := hsound
  live_eq := by
    have := hc.live_eq
    have := hdiffers.live_eq
    rw [liveChange] at *
    simp only [Company.act, List.map_append, List.sum_append, List.map_singleton,
      List.sum_singleton]
    omega
  permits_eq := by
    have := hc.permits_eq
    have := hdiffers.permits_eq
    rw [permitsChange] at *
    simp only [Company.act, List.map_append, List.sum_append, List.map_singleton,
      List.sum_singleton]
    omega
  idle hown := by
    have hidle := hdiffers.idle_eq
    rw [show own.taken = [] from hown, List.nil_append] at hidle
    intro x hx
    rcases List.mem_append.1 hx with hx | hx
    · exact hc.idle htaken x hx
    · cases List.mem_singleton.1 hx
      exact hidle.symm

variable {a : Acquire}

/-- What the accounts say while the acquire is under way. -/
theorem sound_pool (hc : c.Kept) (hown : c.own = .underWay a) :
    c.others.pool.Sound (heldBy c.others.acquires + a.held) c.others.loans c.others.dropped := by
  have hsound := Tasks.sound_beside.1 hc.sound
  rwa [hown, Fate.loans.eq_def, List.append_nil] at hsound

theorem signal (hc : c.Kept) (hown : c.own = .underWay a) (now : Span) (s : Acquire.Signal) :
    (c.act (c.others.pool.advance a now s).1
      (.of a.stage (c.others.pool.advance a now s).2.1)).Kept := by
  have hsound := hc.sound_pool hown
  refine hc.act (by rw [hown]; rfl) (by rw [hown]; exact hsound.differs_advance now s) ?_
  rw [Tasks.sound_beside, Fate.acquires_of, Fate.loans_of]
  exact (hsound.advance now s).of_numbers (List.perm_append_comm.map _)

theorem cancel (hc : c.Kept) (hown : c.own = .underWay a) :
    (c.act (c.others.pool.cancel a) .cancelled).Kept := by
  have hsound := hc.sound_pool hown
  refine hc.act (by rw [hown]; rfl) (by rw [hown]; exact hsound.differs_cancel) ?_
  rw [Tasks.sound_beside, Fate.loans.eq_def, List.append_nil]
  exact hsound.cancel

theorem becomes (hc : c.Kept) (h : c.Becomes c') : c'.Kept := by
  cases h with
  | other h => exact hc.other h
  | signal hown now s => exact hc.signal hown now s
  | cancel hown => exact hc.cancel hown

/-- An acquire that stands for nothing has changed nothing. -/
theorem asFound (hc : c.Kept) (hrooms : c.own.rooms = 0) (hpermits : c.own.permits = 0)
    (htaken : c.own.taken = []) : c.AsFound where
  live_eq := by rw [hc.live_eq, hrooms]; rfl
  permits_eq := by rw [hc.permits_eq, hpermits]; rfl
  idle := hc.idle htaken

theorem asFound_of_failed (hc : c.Kept) {fault : AcquireFault} (hown : c.own = .failed fault) :
    c.AsFound :=
  hc.asFound (by rw [hown]; rfl) (by rw [hown]; rfl) (by rw [hown]; rfl)

end Kept

/-- The endpoint of the pool remains the same. -/
theorem endpoint_becomes (h : c.Becomes c') :
    c'.others.pool.endpoint = c.others.pool.endpoint := by
  cases h with
  | other h => exact Tasks.endpoint_step? h
  | signal => exact Pool.endpoint_advance ..
  | cancel => exact Pool.endpoint_cancel ..

end Company

end LoadGen
