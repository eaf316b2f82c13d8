import LoadGen.Pool.Acquire
import LoadGen.Proofs.Lists.Places

/-!
# Tasks on a pool

Any number of tasks share a pool. They start acquires, which get permits, connect, fail, run out of
time or are cancelled, each at its own moments; they use the connections they get, and give them
back. `Tasks` is all of this at one moment, `Tasks.step?` what one task does between two moments at
which others may go on.

A pool keeps two accounts, permits and rooms. `Pool.Sound` says how they go together: each permit
is free, held by an acquire or lent with a connection, and each room that is taken is an idle
connection, one being made or one on loan. Every operation of the pool keeps this. Together the two
accounts say that a task that gets a permit while all rooms are taken finds an idle connection
(`Pool.Sound.exists_idle`), so that there are never more connections than rooms. The numbers of the
connections are accounted for as well: each number given out so far is that of one connection, which
is idle, on loan or dropped.
-/

namespace LoadGen

open Time (Span)

/-! ## Shares of an acquire -/

namespace Acquire

/-- The number of permits an acquire holds: none while it waits for one. -/
def held (a : Acquire) : Nat :=
  match a.stage with
  | .queued => 0
  | .connecting | .pausing _ => 1

/-- The number of permits that acquires hold. -/
def heldBy (acquires : List Acquire) : Nat := (acquires.map held).sum

theorem heldBy_append (as bs : List Acquire) : heldBy (as ++ bs) = heldBy as + heldBy bs := by
  rw [heldBy, List.map_append, List.sum_append]
  rfl

/-- The acquire while it is under way. -/
def Progress.acquires : Progress → List Acquire
  | pending a => [a]
  | ready _ => []
  | failed _ => []

/-- The connection that was handed out. -/
def Progress.loans : Progress → List Connection
  | pending _ => []
  | ready c => [c]
  | failed _ => []

end Acquire

open Acquire (heldBy)

/-! ## Accounts of a pool -/

namespace Pool

/-- The accounts of a pool, while acquires hold some permits and connections are on loan or were
dropped. -/
structure Sound (p : Pool) (held : Nat) (loans dropped : List Connection) : Prop where
  permits_eq : p.permits + held + loans.length = p.capacity
  live_eq : p.live = p.idle.length + held + loans.length
  live_le : p.live ≤ p.capacity
  /-- Each number given out is that of one connection. -/
  numbered : ((p.idle ++ loans ++ dropped).map (·.id)).Perm (List.range p.nextId)

theorem sound_new (endpoint : String) (capacity : Nat) (timeout : Span) :
    (new endpoint capacity timeout).Sound 0 [] [] where
  permits_eq := rfl
  live_eq := rfl
  live_le := Nat.zero_le _
  numbered := .refl []

variable {p : Pool}

/-- All that entering can come to. -/
theorem enter_cases (p : Pool) (a : Acquire) :
    (p.permits = 0 ∧ p.enter a = (p, .pending { a with stage := .queued })) ∨
    (∃ c idle, 0 < p.permits ∧ p.idle = c :: idle ∧
      p.enter a = ({ p with permits := p.permits - 1, idle }, .ready c)) ∨
    (0 < p.permits ∧ (p.capacity ≤ p.live → p.idle = []) ∧
      p.enter a = ({ p with permits := p.permits - 1, live := p.live + 1 },
        .pending { a with stage := .connecting })) := by
  by_cases hpermits : 0 < p.permits
  · by_cases hfull : p.capacity ≤ p.live
    · cases hidle : p.idle with
      | nil => simp [enter, takePermit?, claim, hpermits, hfull, hidle]
      | cons c idle => simp [enter, takePermit?, claim, hpermits, hfull, hidle]
    · simp [enter, takePermit?, claim, hpermits, hfull]
  · have : p.permits = 0 := by omega
    simp [enter, takePermit?, this]

namespace Sound

variable {held : Nat} {loans dropped : List Connection}

/-- A free permit leaves room for a connection, or there is an idle one. -/
theorem idle_ne_nil (hp : p.Sound held loans dropped) (hpermits : 0 < p.permits)
    (hfull : p.capacity ≤ p.live) : p.idle ≠ [] := by
  have := hp.permits_eq
  have := hp.live_eq
  exact List.ne_nil_of_length_pos (by omega)

/-- **Whoever gets a permit while all rooms are taken finds an idle connection.** -/
theorem exists_idle (hp : p.Sound held loans dropped) {p' : Pool} (h : p.takePermit? = some p')
    (hfull : p'.capacity ≤ p'.live) : ∃ c p'', p'.claim = (p'', .idle c) := by
  rw [takePermit?] at h
  split at h
  · next hpermits =>
    cases h
    obtain ⟨c, idle, hidle⟩ := List.exists_cons_of_ne_nil (hp.idle_ne_nil hpermits hfull)
    refine ⟨c, { p with permits := p.permits - 1, idle }, ?_⟩
    simp only [claim, if_pos hfull, hidle]
  · cases h

/-- The accounts only know the numbers of the connections on loan. -/
theorem of_numbers (hp : p.Sound held loans dropped) {loans' : List Connection}
    (h : (loans'.map (·.id)).Perm (loans.map (·.id))) : p.Sound held loans' dropped := by
  have hlength : loans'.length = loans.length := by
    simpa only [List.length_map] using h.length_eq
  refine ⟨?_, ?_, hp.live_le, ?_⟩
  · rw [hlength, hp.permits_eq]
  · rw [hlength, hp.live_eq]
  · have hnumbered := hp.numbered
    rw [List.map_append, List.map_append] at hnumbered ⊢
    exact ((h.append_left _).append_right _).trans hnumbered

/-- An idle connection is handed out. -/
theorem handOut (hp : p.Sound held loans dropped) {c : Connection} {idle : List Connection}
    (hpermits : 0 < p.permits) (hidle : p.idle = c :: idle) :
    Sound { p with permits := p.permits - 1, idle } held (c :: loans) dropped := by
  have hpermits_eq := hp.permits_eq
  have hlive_eq := hp.live_eq
  have hnumbered := hp.numbered
  rw [hidle] at hlive_eq hnumbered
  rw [List.length_cons] at hlive_eq
  refine ⟨?_, ?_, hp.live_le, ?_⟩
  · rw [List.length_cons]
    dsimp only
    omega
  · rw [List.length_cons]
    dsimp only
    omega
  · have hperm : (idle ++ c :: loans ++ dropped).Perm (c :: idle ++ loans ++ dropped) :=
      List.perm_middle.append_right dropped
    exact (hperm.map _).trans hnumbered

/-- A room is taken for a new connection. -/
theorem takeRoom (hp : p.Sound held loans dropped) (hpermits : 0 < p.permits)
    (hroom : p.live < p.capacity) :
    Sound { p with permits := p.permits - 1, live := p.live + 1 } (held + 1) loans dropped := by
  have := hp.permits_eq
  have := hp.live_eq
  refine ⟨?_, ?_, hroom, hp.numbered⟩ <;> dsimp only <;> omega

/-- A connection is made in a room that was taken, and handed out. -/
theorem establish (hp : p.Sound (held + 1) loans dropped) (stream : Nat) :
    (p.establish stream).1.Sound held ((p.establish stream).2.1 :: loans) dropped := by
  have := hp.permits_eq
  have := hp.live_eq
  refine ⟨?_, ?_, hp.live_le, ?_⟩
  · simp only [Pool.establish, List.length_cons]
    omega
  · simp only [Pool.establish, List.length_cons]
    omega
  · have hperm : (p.idle ++ Connection.new p.nextId stream :: loans ++ dropped).Perm
        (p.idle ++ loans ++ dropped ++ [Connection.new p.nextId stream]) := by
      refine (List.perm_middle.append_right dropped).trans ?_
      exact (List.perm_append_singleton _ _).symm
    rw [Pool.establish, List.range_succ]
    refine (hperm.map _).trans ?_
    rw [List.map_append]
    exact hp.numbered.append_right [p.nextId]

/-- The room of a holder of a permit is given up; there is one. -/
theorem giveUp_live (hp : p.Sound (held + 1) loans dropped) : p.giveUp.live + 1 = p.live := by
  have := hp.live_eq
  simp only [giveUp, returnPermit]
  omega

theorem giveUp (hp : p.Sound (held + 1) loans dropped) : p.giveUp.Sound held loans dropped := by
  have := hp.permits_eq
  have := hp.live_eq
  have := hp.live_le
  refine ⟨?_, ?_, ?_, hp.numbered⟩ <;> simp only [Pool.giveUp, returnPermit] <;> omega

/-- The room of a connection that is dropped is free again; there is one. -/
theorem release_live {c : Connection} (hp : p.Sound held (c :: loans) dropped) :
    (p.release c false).1.live + 1 = p.live := by
  have := hp.live_eq
  rw [List.length_cons] at this
  simp only [release, returnPermit, Bool.false_eq_true, if_false]
  omega

theorem release {c : Connection} (hp : p.Sound held (c :: loans) dropped) (healthy : Bool) :
    (p.release c healthy).1.Sound held loans (if healthy then dropped else c :: dropped) := by
  have hpermits_eq := hp.permits_eq
  have hlive_eq := hp.live_eq
  have := hp.live_le
  rw [List.length_cons] at hpermits_eq hlive_eq
  cases healthy with
  | true =>
    refine ⟨?_, ?_, hp.live_le, ?_⟩
    · simp only [Pool.release, returnPermit, if_true]
      omega
    · simp only [Pool.release, returnPermit, if_true, List.length_append, List.length_singleton]
      omega
    · have hperm : (p.idle ++ [c] ++ loans ++ dropped).Perm (p.idle ++ c :: loans ++ dropped) := by
        rw [List.append_assoc p.idle, List.singleton_append]
      exact (hperm.map _).trans hp.numbered
  | false =>
    refine ⟨?_, ?_, ?_, ?numbered⟩
    case numbered =>
      have hperm : (p.idle ++ loans ++ c :: dropped).Perm (p.idle ++ c :: loans ++ dropped) := by
        refine List.perm_middle.trans ?_
        exact (List.perm_middle.append_right dropped).symm
      exact (hperm.map _).trans hp.numbered
    all_goals
      simp only [Pool.release, returnPermit, Bool.false_eq_true, if_false]
      omega

/-! ### Acquires -/

theorem enter (hp : p.Sound held loans dropped) (a : Acquire) :
    (p.enter a).1.Sound (held + heldBy (p.enter a).2.acquires) ((p.enter a).2.loans ++ loans)
      dropped := by
  rcases p.enter_cases a with ⟨-, h⟩ | ⟨c, idle, hpermits, hidle, h⟩ | ⟨hpermits, hroom, h⟩
  · rw [h]
    exact hp
  · rw [h]
    exact hp.handOut hpermits hidle
  · rw [h]
    refine hp.takeRoom hpermits (Nat.lt_of_not_le fun hfull => ?_)
    exact hp.idle_ne_nil hpermits hfull (hroom hfull)

theorem advance {a : Acquire} (hp : p.Sound (held + a.held) loans dropped) (now : Span)
    (s : Acquire.Signal) :
    (p.advance a now s).1.Sound (held + heldBy (p.advance a now s).2.1.acquires)
      ((p.advance a now s).2.1.loans ++ loans) dropped := by
  obtain ⟨deadline, failures, last, stage⟩ := a
  cases stage with
  | queued =>
    cases s with
    | permitFree => exact hp.enter _
    | _ => exact hp
  | connecting =>
    cases s with
    | connected stream => exact hp.establish stream
    | connectFailed fault =>
      simp only [Pool.advance]
      split
      · exact hp.giveUp
      · exact hp
    | timeUp => exact hp.giveUp
    | _ => exact hp
  | pausing resume => cases s <;> exact hp

theorem cancel {a : Acquire} (hp : p.Sound (held + a.held) loans dropped) :
    (p.cancel a).Sound held loans dropped := by
  obtain ⟨deadline, failures, last, stage⟩ := a
  cases stage with
  | queued => exact hp
  | connecting => exact hp.giveUp
  | pausing resume => exact hp.giveUp

end Sound

/-! ### A pool keeps its endpoint -/

theorem endpoint_enter (p : Pool) (a : Acquire) : (p.enter a).1.endpoint = p.endpoint := by
  rcases p.enter_cases a with ⟨-, h⟩ | ⟨c, idle, -, -, h⟩ | ⟨-, -, h⟩ <;> rw [h]

theorem endpoint_acquire (p : Pool) (now : Span) : (p.acquire now).1.endpoint = p.endpoint :=
  p.endpoint_enter _

theorem endpoint_advance (p : Pool) (a : Acquire) (now : Span) (s : Acquire.Signal) :
    (p.advance a now s).1.endpoint = p.endpoint := by
  rw [advance.eq_def]
  split
  · exact p.endpoint_enter a
  · rfl
  · rfl
  · dsimp only
    split <;> rfl
  all_goals rfl

theorem endpoint_cancel (p : Pool) (a : Acquire) : (p.cancel a).endpoint = p.endpoint := by
  rw [cancel]
  split <;> rfl

theorem endpoint_release (p : Pool) (c : Connection) (healthy : Bool) :
    (p.release c healthy).1.endpoint = p.endpoint := by
  rw [release]
  split <;> rfl

end Pool

/-! ## Tasks -/

/-- Tasks that share a pool: the acquires under way, the connections on loan, and those that were
dropped. -/
structure Tasks where
  pool : Pool
  acquires : List Acquire
  loans : List Connection
  dropped : List Connection

namespace Tasks

def start (endpoint : String) (capacity : Nat) (timeout : Span) : Tasks :=
  ⟨.new endpoint capacity timeout, [], [], []⟩

/-- What a task can do next. -/
inductive Event
  /-- A task starts an acquire. -/
  | acquire (now : Span)
  /-- A task starts an acquire behind others, which the free permits will go to. -/
  | queue (now : Span)
  /-- Something happens to an acquire. -/
  | advance (task : Nat) (now : Span) (signal : Acquire.Signal)
  | cancel (task : Nat)
  /-- Something happens to the request on a connection. -/
  | exchange (loan sent : Nat) (signal : Exchange.Signal)
  | release (loan : Nat) (healthy : Bool)

/-- Keeps what an acquire has come to. -/
def settle (t : Tasks) (progress : Acquire.Progress) : Tasks :=
  { t with
    acquires := progress.acquires ++ t.acquires
    loans := progress.loans ++ t.loans }

/-- What an event does; nothing if there is no such acquire or loan. -/
def step? (t : Tasks) : Event → Option Tasks
  | .acquire now =>
    let (pool, progress) := t.pool.acquire now
    some ({ t with pool }.settle progress)
  | .queue now =>
    let a : Acquire :=
      { deadline := now + t.pool.connectTimeout, failures := 0, last := none, stage := .queued }
    some (t.settle (.pending a))
  | .advance task now signal => do
    let a ← t.acquires[task]?
    let (pool, progress, _) := t.pool.advance a now signal
    some ({ t with pool, acquires := t.acquires.eraseIdx task }.settle progress)
  | .cancel task => do
    let a ← t.acquires[task]?
    some { t with pool := t.pool.cancel a, acquires := t.acquires.eraseIdx task }
  | .exchange loan sent signal => do
    let c ← t.loans[loan]?
    some { t with loans := t.loans.set loan (c.exchange sent signal).1 }
  | .release loan healthy => do
    let c ← t.loans[loan]?
    some { t with
      pool := (t.pool.release c healthy).1
      loans := t.loans.eraseIdx loan
      dropped := if healthy then t.dropped else c :: t.dropped }

/-- What events do in order. -/
def steps? (t : Tasks) : List Event → Option Tasks
  | [] => some t
  | e :: events => do
    let t ← t.step? e
    t.steps? events

/-- The accounts of the pool are right about the tasks. -/
def Sound (t : Tasks) : Prop := t.pool.Sound (heldBy t.acquires) t.loans t.dropped

theorem sound_start (endpoint : String) (capacity : Nat) (timeout : Span) :
    (start endpoint capacity timeout).Sound :=
  Pool.sound_new endpoint capacity timeout

variable {t t' : Tasks}

theorem exchange_id (c : Connection) (sent : Nat) (signal : Exchange.Signal) :
    (c.exchange sent signal).1.id = c.id := by
  have htake (c : Connection) : (c.takeResponse sent).1.id = c.id := by
    rw [Connection.takeResponse]
    split <;> rfl
  cases signal with
  | written => exact htake c
  | received bytes =>
    cases bytes with
    | nil => rfl
    | cons b bytes => exact htake _
  | _ => rfl

theorem step?_advance {task : Nat} {a : Acquire} (ha : t.acquires[task]? = some a) (now : Span)
    (signal : Acquire.Signal) :
    t.step? (.advance task now signal) =
      some (settle
        { t with
          pool := (t.pool.advance a now signal).1
          acquires := t.acquires.eraseIdx task } (t.pool.advance a now signal).2.1) := by
  rw [step?, ha]
  rfl

/-- What an acquire holds, and what the others hold. -/
theorem heldBy_eraseIdx {acquires : List Acquire} {task : Nat} {a : Acquire}
    (h : acquires[task]? = some a) :
    heldBy acquires = heldBy (acquires.eraseIdx task) + a.held := by
  rw [heldBy, Lists.sum_map_eraseIdx Acquire.held h, Nat.add_comm]
  rfl

namespace Sound

/-- The accounts are right again once it is settled what an acquire has come to. -/
theorem settle {progress : Acquire.Progress}
    (h : t.pool.Sound (heldBy t.acquires + heldBy progress.acquires) (progress.loans ++ t.loans)
      t.dropped) :
    (t.settle progress).Sound := by
  rw [Sound, Tasks.settle, Acquire.heldBy_append, Nat.add_comm]
  exact h

variable (ht : t.Sound)

include ht

theorem acquire {now : Span} (h : t.step? (.acquire now) = some t') : t'.Sound := by
  cases h
  exact settle (Pool.Sound.enter ht _)

theorem queue {now : Span} (h : t.step? (.queue now) = some t') : t'.Sound := by
  cases h
  exact settle ht

theorem advance {task : Nat} {now : Span} {signal : Acquire.Signal}
    (h : t.step? (.advance task now signal) = some t') : t'.Sound := by
  obtain ⟨a, ha, h⟩ := Option.bind_eq_some_iff.1 h
  cases h
  rw [Sound, heldBy_eraseIdx ha] at ht
  exact settle (ht.advance now signal)

theorem cancel {task : Nat} (h : t.step? (.cancel task) = some t') : t'.Sound := by
  obtain ⟨a, ha, h⟩ := Option.bind_eq_some_iff.1 h
  cases h
  rw [Sound, heldBy_eraseIdx ha] at ht
  exact Pool.Sound.cancel ht

theorem exchange {loan sent : Nat} {signal : Exchange.Signal}
    (h : t.step? (.exchange loan sent signal) = some t') : t'.Sound := by
  obtain ⟨c, hc, h⟩ := Option.bind_eq_some_iff.1 h
  cases h
  have hnumbers :
      (t.loans.set loan (c.exchange sent signal).1).map (·.id) = t.loans.map (·.id) := by
    rw [List.map_set, exchange_id]
    exact Lists.set_eq_self (by rw [List.getElem?_map, hc, Option.map_some])
  exact Pool.Sound.of_numbers ht (.of_eq hnumbers)

theorem release {loan : Nat} {healthy : Bool}
    (h : t.step? (.release loan healthy) = some t') : t'.Sound := by
  obtain ⟨c, hc, h⟩ := Option.bind_eq_some_iff.1 h
  cases h
  have hperm := ((Lists.perm_of_getElem? hc).map (·.id)).symm
  exact (Pool.Sound.of_numbers ht hperm).release healthy

theorem step? {e : Event} (h : t.step? e = some t') : t'.Sound := by
  cases e with
  | acquire now => exact ht.acquire h
  | queue now => exact ht.queue h
  | advance task now signal => exact ht.advance h
  | cancel task => exact ht.cancel h
  | exchange loan sent signal => exact ht.exchange h
  | release loan healthy => exact ht.release h

theorem steps? {events : List Event} (h : t.steps? events = some t') : t'.Sound := by
  induction events generalizing t with
  | nil =>
    cases h
    exact ht
  | cons e events ih =>
    obtain ⟨t₁, h₁, h⟩ := Option.bind_eq_some_iff.1 h
    exact ih (ht.step? h₁) h

end Sound

/-! ### What stays -/

theorem capacity_enter (p : Pool) (a : Acquire) : (p.enter a).1.capacity = p.capacity := by
  rcases p.enter_cases a with ⟨-, h⟩ | ⟨c, idle, -, -, h⟩ | ⟨-, -, h⟩ <;> rw [h]

theorem capacity_advance (p : Pool) (a : Acquire) (now : Span) (s : Acquire.Signal) :
    (p.advance a now s).1.capacity = p.capacity := by
  obtain ⟨deadline, failures, last, stage⟩ := a
  cases stage with
  | queued =>
    cases s with
    | permitFree => exact capacity_enter p _
    | _ => rfl
  | connecting =>
    cases s with
    | connectFailed fault =>
      simp only [Pool.advance]
      split <;> rfl
    | _ => rfl
  | pausing resume => cases s <;> rfl

/-- A step neither changes the capacity nor takes back a connection that was dropped. -/
theorem frame_of_step? {e : Event} (h : t.step? e = some t') :
    t'.pool.capacity = t.pool.capacity ∧ ∀ c ∈ t.dropped, c ∈ t'.dropped := by
  cases e with
  | acquire now =>
    cases h
    exact ⟨capacity_enter _ _, fun _ hc => hc⟩
  | queue now =>
    cases h
    exact ⟨rfl, fun _ hc => hc⟩
  | advance task now signal =>
    obtain ⟨a, -, h⟩ := Option.bind_eq_some_iff.1 h
    cases h
    exact ⟨capacity_advance _ _ _ _, fun _ hc => hc⟩
  | cancel task =>
    obtain ⟨a, -, h⟩ := Option.bind_eq_some_iff.1 h
    cases h
    refine ⟨?_, fun _ hc => hc⟩
    dsimp only
    rw [Pool.cancel]
    split <;> rfl
  | exchange loan sent signal =>
    obtain ⟨c, -, h⟩ := Option.bind_eq_some_iff.1 h
    cases h
    exact ⟨rfl, fun _ hc => hc⟩
  | release loan healthy =>
    obtain ⟨c, -, h⟩ := Option.bind_eq_some_iff.1 h
    cases h
    cases healthy with
    | true => exact ⟨rfl, fun _ hc => hc⟩
    | false => exact ⟨rfl, fun _ hd => List.mem_cons_of_mem c hd⟩

theorem frame_of_steps? {events : List Event} (h : t.steps? events = some t') :
    t'.pool.capacity = t.pool.capacity ∧ ∀ c ∈ t.dropped, c ∈ t'.dropped := by
  induction events generalizing t with
  | nil =>
    cases h
    exact ⟨rfl, fun _ hc => hc⟩
  | cons e events ih =>
    obtain ⟨t₁, h₁, h⟩ := Option.bind_eq_some_iff.1 h
    obtain ⟨hcapacity₁, hdropped₁⟩ := frame_of_step? h₁
    obtain ⟨hcapacity, hdropped⟩ := ih h
    exact ⟨hcapacity.trans hcapacity₁, fun c hc => hdropped c (hdropped₁ c hc)⟩

/-! ### What the accounts say -/

namespace Sound

variable (ht : t.Sound)

include ht

/-- An acquire that holds a permit has a room to give up. -/
theorem giveUp_live {a : Acquire} (ha : a ∈ t.acquires) (hheld : a.stage ≠ .queued) :
    t.pool.giveUp.live + 1 = t.pool.live := by
  obtain ⟨task, htask⟩ := List.mem_iff_getElem?.1 ha
  have hone : a.held = 1 := by
    rw [Acquire.held]
    split
    · next hqueued => exact absurd hqueued hheld
    all_goals rfl
  rw [Sound, heldBy_eraseIdx htask, hone] at ht
  exact Pool.Sound.giveUp_live ht

/-- A connection on loan has a room to give up. -/
theorem release_live {c : Connection} (hc : c ∈ t.loans) :
    (t.pool.release c false).1.live + 1 = t.pool.live := by
  obtain ⟨loan, hloan⟩ := List.mem_iff_getElem?.1 hc
  have hperm := ((Lists.perm_of_getElem? hloan).map (·.id)).symm
  exact (Pool.Sound.of_numbers ht hperm).release_live

/-- A connection that was dropped is nowhere else. -/
theorem not_mem_of_dropped {c : Connection} (hc : c ∈ t.dropped) :
    c.id ∉ (t.pool.idle ++ t.loans).map (·.id) := by
  intro hmem
  have hnodup := ht.numbered.nodup_iff.2 List.nodup_range
  rw [List.map_append] at hnodup
  exact (List.nodup_append.1 hnodup).2.2 _ hmem _ (List.mem_map_of_mem hc) rfl

end Sound

/-- What is so on a pool with tasks, now and from now on. -/
structure Accounts (t : Tasks) : Prop where
  /-- Each permit is free, held by an acquire, or lent with a connection. -/
  permits_eq : t.pool.permits + heldBy t.acquires + t.loans.length = t.pool.capacity
  /-- Each room taken is an idle connection, one being made, or one on loan. -/
  live_eq : t.pool.live = t.pool.idle.length + heldBy t.acquires + t.loans.length
  live_le : t.pool.live ≤ t.pool.capacity
  /-- An acquire that holds a permit has a room to give up. -/
  giveUp_live : ∀ a ∈ t.acquires, a.stage ≠ .queued → t.pool.giveUp.live + 1 = t.pool.live
  /-- A connection on loan has a room to give up. -/
  release_live : ∀ c ∈ t.loans, (t.pool.release c false).1.live + 1 = t.pool.live
  /-- Whoever gets a permit while all rooms are taken finds an idle connection. -/
  exists_idle : ∀ p, t.pool.takePermit? = some p → p.capacity ≤ p.live →
    ∃ c p', p.claim = (p', .idle c)
  /-- Each number given out is that of one connection, which is in one place. -/
  numbered : ((t.pool.idle ++ t.loans ++ t.dropped).map (·.id)).Perm (List.range t.pool.nextId)
  /-- A connection that was dropped is never seen again. -/
  gone : ∀ later t', t.steps? later = some t' → ∀ c ∈ t.dropped,
    c ∈ t'.dropped ∧ c.id ∉ (t'.pool.idle ++ t'.loans).map (·.id)

/-- **The accounts of a pool are right**, whatever the tasks on it do and in whatever order. -/
theorem accounts_right {endpoint : String} {capacity : Nat} {timeout : Span} {events : List Event}
    (h : (start endpoint capacity timeout).steps? events = some t) :
    t.pool.capacity = max capacity 1 ∧ t.Accounts := by
  have ht : t.Sound := (sound_start endpoint capacity timeout).steps? h
  refine ⟨(frame_of_steps? h).1, ht.permits_eq, ht.live_eq, ht.live_le,
    fun a ha hheld => ht.giveUp_live ha hheld, fun c hc => ht.release_live hc,
    fun p hp hfull => Pool.Sound.exists_idle ht hp hfull, ht.numbered, ?_⟩
  intro later t' hlater c hc
  have hdropped : c ∈ t'.dropped := (frame_of_steps? hlater).2 c hc
  exact ⟨hdropped, (ht.steps? hlater).not_mem_of_dropped hdropped⟩

/-- Two rooms. The first connection is dropped, which leaves its room for another; that one is given
back and handed out again. One acquire waits for a permit and is cancelled, and one that cannot
connect runs out of time. -/
def shift : List Event :=
  [.acquire .zero, .advance 0 .zero (.connected 0), .acquire .zero,
    .advance 0 .zero (.connectFailed .refused), .advance 0 .zero .pauseOver, .queue .zero,
    .release 0 false, .acquire .zero, .advance 0 .zero (.connected 1), .cancel 0,
    .exchange 0 14 .written, .release 0 true, .acquire .zero, .advance 0 .zero .timeUp]

theorem accounts_right_shift :
    ∃ t, (start "a:1" 2 (.ofSeconds 1)).steps? shift = some t ∧ t.loans.length = 1 ∧
      t.dropped.length = 1 ∧ t.pool.capacity = max 2 1 ∧ t.Accounts := by
  obtain ⟨t, ht, hloans, hdropped⟩ : ∃ t, (start "a:1" 2 (.ofSeconds 1)).steps? shift = some t ∧
      t.loans.length = 1 ∧ t.dropped.length = 1 := ⟨_, rfl, rfl, rfl⟩
  exact ⟨t, ht, hloans, hdropped, accounts_right ht⟩

end Tasks

end LoadGen
