import LoadGen.Proofs.Pool.Tasks

/-!
# Connections in turn

A pool is used by one borrower after the other: each acquires a connection, sends requests on it and
gives it back, healthy or not. What was given back is all that is needed to say which connection is
handed out next (`Return.Next`): a new one as long as there is room, and otherwise the one that has
been idle for the longest time. The idle connections stand in this order (`Return.standing`), since
they are appended when they are given back and taken from the front.
-/

namespace LoadGen

open Time (Span)

/-! ## What was given back -/

/-- A connection that was given back. -/
structure Return where
  id : Nat
  healthy : Bool
  deriving Repr, DecidableEq

namespace Return

/-- How many were given back since a connection was, in a log with the latest in front. -/
def age (log : List Return) (id : Nat) : Nat := log.findIdx (·.id = id)

/-- A connection was healthy when it was given back the last time. -/
def IsLive (log : List Return) (id : Nat) : Prop :=
  (log.find? (·.id = id)).any (·.healthy) = true

instance (log : List Return) : DecidablePred (IsLive log) := fun _ =>
  inferInstanceAs (Decidable (_ = _))

/-- The connections that were ever given back. -/
def ids (log : List Return) : Finset Nat := (log.map (·.id)).toFinset

/-- The connections that are live. -/
def live (log : List Return) : Finset Nat := (ids log).filter (IsLive log)

/-- What is to be handed out after a log, by a pool with room for `capacity` connections: a new
connection while fewer are live, and otherwise the live one given back longest ago. -/
def Next (capacity : Nat) (log : List Return) (id : Nat) : Prop :=
  if (live log).card < capacity then id ∉ ids log ∧ id = (ids log).card
  else id ∈ live log ∧ ∀ other ∈ live log, other ≠ id → age log other < age log id

theorem ids_cons (x : Return) (log : List Return) : ids (x :: log) = insert x.id (ids log) := by
  rw [ids, List.map_cons, List.toFinset_cons, ids]

/-- The live connections, the one given back first in front. -/
def standing : List Return → List Nat
  | [] => []
  | r :: log => (standing log).filter (· ≠ r.id) ++ if r.healthy then [r.id] else []

variable {log : List Return}

theorem isLive_cons {r : Return} {id : Nat} :
    IsLive (r :: log) id ↔ if r.id = id then r.healthy = true else IsLive log id := by
  by_cases h : r.id = id <;> simp [IsLive, h]

theorem age_cons {r : Return} {id : Nat} :
    age (r :: log) id = if r.id = id then 0 else age log id + 1 := by
  by_cases h : r.id = id <;> simp [age, List.findIdx_cons, h]

theorem mem_standing {id : Nat} : id ∈ standing log ↔ IsLive log id := by
  induction log with
  | nil => simp [standing, IsLive]
  | cons r log ih =>
    rw [standing, List.mem_append, List.mem_filter, ih, isLive_cons]
    by_cases h : r.id = id
    · subst h
      cases r.healthy <;> simp
    · have h' : ¬id = r.id := fun h' => h h'.symm
      cases r.healthy <;> simp [h, h']

/-- The live connections stand in the order in which they were given back. -/
theorem pairwise_standing (log : List Return) :
    (standing log).Pairwise fun a b => age log b < age log a := by
  induction log with
  | nil => exact .nil
  | cons r log ih =>
    have hne {id : Nat} (h : id ∈ (standing log).filter (· ≠ r.id)) : ¬r.id = id := fun heq => by
      simp [heq] at h
    rw [standing, List.pairwise_append]
    refine ⟨(ih.filter _).imp_of_mem fun ha hb h => ?_, by split <;> simp, fun a ha b hb => ?_⟩
    · rw [age_cons, age_cons, if_neg (hne ha), if_neg (hne hb)]
      exact Nat.succ_lt_succ h
    · have hlast : r.id = b := by
        split at hb
        · exact (List.mem_singleton.1 hb).symm
        · cases hb
      rw [age_cons, age_cons, if_neg (hne ha), if_pos hlast]
      exact Nat.zero_lt_succ _

theorem mem_ids_of_mem_standing {id : Nat} (h : id ∈ standing log) : id ∈ ids log := by
  obtain ⟨r, hr, -⟩ := (Option.any_eq_true ..).1 (mem_standing.1 h)
  refine List.mem_toFinset.2 (List.mem_map.2 ⟨r, List.mem_of_find?_eq_some hr, ?_⟩)
  simpa using List.find?_some hr

theorem toFinset_standing (log : List Return) : (standing log).toFinset = live log := by
  ext id
  rw [List.mem_toFinset, live, Finset.mem_filter, ← mem_standing]
  exact ⟨fun h => ⟨mem_ids_of_mem_standing h, h⟩, And.right⟩

theorem nodup_standing (log : List Return) : (standing log).Nodup :=
  (pairwise_standing log).imp fun h heq => absurd (heq ▸ h) (Nat.lt_irrefl _)

theorem card_live (log : List Return) : (live log).card = (standing log).length := by
  rw [← toFinset_standing, List.toFinset_card_of_nodup (nodup_standing log)]

/-- The first of the live connections was given back longest ago. -/
theorem age_lt_of_standing {id : Nat} {rest : List Nat} (h : standing log = id :: rest) :
    ∀ other ∈ live log, other ≠ id → age log other < age log id := by
  intro other hother hne
  have hpairwise := pairwise_standing log
  rw [← toFinset_standing, List.mem_toFinset, h] at hother
  rw [h] at hpairwise
  exact List.rel_of_pairwise_cons hpairwise ((List.mem_cons.1 hother).resolve_left hne)

end Return

/-! ## Borrowing -/

/-- What a borrower does, and what happens meanwhile. -/
structure Loan where
  /-- When it asks for a connection. -/
  asked : Span
  /-- What happens while it waits for one. -/
  dial : List (Span × Acquire.Signal)
  /-- The requests it sends on it: their lengths and what happens to them. -/
  uses : List (Nat × Exchange.Signal)
  /-- Whether it gives the connection back as a healthy one. -/
  healthy : Bool

namespace Pool

/-- Follows an acquire up to the connection it is given; nothing if it does not get one. -/
def follow? (p : Pool) :
    Acquire.Progress → List (Span × Acquire.Signal) → Option (Pool × Connection)
  | .ready c, _ => some (p, c)
  | .failed _, _ | .pending _, [] => none
  | .pending a, (now, s) :: signals =>
    let (p, progress, _) := p.advance a now s
    p.follow? progress signals

/-- Lends a connection. -/
def lend? (p : Pool) (l : Loan) : Option (Pool × Connection) :=
  let (p, progress) := p.acquire l.asked
  p.follow? progress l.dial

end Pool

/-- A connection on which requests were sent. -/
def Connection.after (c : Connection) (uses : List (Nat × Exchange.Signal)) : Connection :=
  uses.foldl (fun c (sent, s) => (c.exchange sent s).1) c

/-- A pool with what was given back to it. -/
structure Rotation where
  pool : Pool
  /-- The latest one is in front. -/
  log : List Return

namespace Rotation

def start (endpoint : String) (capacity : Nat) (timeout : Span) : Rotation :=
  ⟨.new endpoint capacity timeout, []⟩

/-- A borrower has its turn. -/
def serve? (r : Rotation) (l : Loan) : Option Rotation := do
  let (pool, c) ← r.pool.lend? l
  return ⟨(pool.release (c.after l.uses) l.healthy).1, ⟨c.id, l.healthy⟩ :: r.log⟩

/-- Borrowers have their turns one after the other. -/
def serves? (r : Rotation) : List Loan → Option Rotation
  | [] => some r
  | l :: loans => do
    let r ← r.serve? l
    r.serves? loans

end Rotation

/-- What happens while a connection is made that is wanted by a deadline: attempts may fail as long
as there is time for the next one, and the last one succeeds. -/
inductive Loan.Connects (deadline : Span) : List (Span × Acquire.Signal) → Prop
  | connected (now : Span) (stream : Nat) : Connects deadline [(now, .connected stream)]
  | retry {now : Span} {fault : TransportFault} {resume : Span}
      {signals : List (Span × Acquire.Signal)}
      (htime : (now + Acquire.pause).nanos < deadline.nanos) (h : Connects deadline signals) :
      Connects deadline ((now, .connectFailed fault) :: (resume, .pauseOver) :: signals)

namespace Connection

theorem id_after (c : Connection) (uses : List (Nat × Exchange.Signal)) :
    (c.after uses).id = c.id := by
  induction uses generalizing c with
  | nil => rfl
  | cons use uses ih => exact (ih _).trans (Tasks.exchange_id c use.1 use.2)

end Connection

namespace Pool

variable {p : Pool}

theorem acquire_of_room (hpermits : 0 < p.permits) (hroom : p.live < p.capacity) (now : Span) :
    p.acquire now = ({ p with permits := p.permits - 1, live := p.live + 1 },
      .pending ⟨now + p.connectTimeout, 0, none, .connecting⟩) := by
  simp only [acquire, enter, takePermit?, if_pos hpermits, claim, if_neg (Nat.not_le_of_lt hroom)]

theorem acquire_of_full (hpermits : 0 < p.permits) (hfull : p.capacity ≤ p.live) {c : Connection}
    {idle : List Connection} (hidle : p.idle = c :: idle) (now : Span) :
    p.acquire now = ({ p with permits := p.permits - 1, idle }, .ready c) := by
  simp only [acquire, enter, takePermit?, if_pos hpermits, claim, if_pos hfull, hidle]

@[simp]
theorem follow?_ready (p : Pool) (c : Connection) (signals : List (Span × Acquire.Signal)) :
    p.follow? (.ready c) signals = some (p, c) := by
  rw [follow?.eq_def]

@[simp]
theorem follow?_failed (p : Pool) (fault : AcquireFault)
    (signals : List (Span × Acquire.Signal)) : p.follow? (.failed fault) signals = none := by
  cases signals <;> rfl

/-- An acquire that has a permit and gets a connection gets a new one. -/
theorem follow?_cases {a : Acquire} (ha : a.stage ≠ .queued)
    {signals : List (Span × Acquire.Signal)} {x : Pool × Connection}
    (h : p.follow? (.pending a) signals = some x) :
    ∃ stream, x = ((p.establish stream).1, (p.establish stream).2.1) := by
  induction signals generalizing a with
  | nil => cases h
  | cons signal signals ih =>
    obtain ⟨now, s⟩ := signal
    obtain ⟨deadline, failures, last, stage⟩ := a
    rw [follow?] at h
    cases stage with
    | queued => exact absurd rfl ha
    | connecting =>
      cases s with
      | connected stream =>
        simp only [advance, establish, follow?_ready] at h
        exact ⟨stream, (Option.some.inj h).symm⟩
      | connectFailed fault =>
        simp only [advance] at h
        split at h
        · simp at h
        · exact ih (by simp) h
      | timeUp => simp [advance] at h
      | permitFree | pauseOver => exact ih (by simp) h
    | pausing resume => cases s <;> exact ih (by simp) h

/-- An acquire whose connect succeeds gets a connection. -/
theorem exists_follow?_of_connects {deadline : Span} {signals : List (Span × Acquire.Signal)}
    (h : Loan.Connects deadline signals) (p : Pool) (failures : Nat)
    (last : Option TransportFault) :
    ∃ x, p.follow? (.pending ⟨deadline, failures, last, .connecting⟩) signals = some x := by
  induction h generalizing failures last with
  | connected now stream => exact ⟨_, rfl⟩
  | @retry now fault resume signals htime _ ih =>
    have hretry :
        p.advance ⟨deadline, failures, last, .connecting⟩ now (.connectFailed fault) = _ :=
      if_neg (Nat.not_le_of_lt htime)
    obtain ⟨x, hx⟩ := ih (failures + 1) (some fault)
    exact ⟨x, by rw [follow?, hretry]; exact hx⟩

/-! ### A pool of which nothing is on loan -/

section Unlent

variable (hpermits : 0 < p.permits) (hlive : p.live = p.idle.length)

include hlive

theorem exists_idle_of_full (hfull : p.capacity ≤ p.live) : ∃ c idle, p.idle = c :: idle := by
  have := p.capacity_pos
  exact List.exists_cons_of_ne_nil (List.ne_nil_of_length_pos (by omega))

include hpermits

/-- A new connection is lent while there is room, and otherwise the first idle one. -/
theorem lend?_cases {l : Loan} {x : Pool × Connection} (h : p.lend? l = some x) :
    (p.live < p.capacity ∧ ∃ stream, x =
      ({ p with permits := p.permits - 1, live := p.live + 1, nextId := p.nextId + 1 },
        .new p.nextId stream)) ∨
    (p.capacity ≤ p.live ∧ ∃ c idle, p.idle = c :: idle ∧
      x = ({ p with permits := p.permits - 1, idle }, c)) := by
  rw [lend?] at h
  rcases Nat.lt_or_ge p.live p.capacity with hroom | hfull
  · rw [acquire_of_room hpermits hroom] at h
    exact .inl ⟨hroom, follow?_cases (by simp) h⟩
  · obtain ⟨c, idle, hidle⟩ := exists_idle_of_full hlive hfull
    simp only [acquire_of_full hpermits hfull hidle, follow?_ready] at h
    exact .inr ⟨hfull, c, idle, hidle, (Option.some.inj h).symm⟩

/-- A borrower whose connect succeeds is served. -/
theorem exists_lend? {l : Loan} (hl : Loan.Connects (l.asked + p.connectTimeout) l.dial) :
    ∃ x, p.lend? l = some x := by
  rw [lend?]
  rcases Nat.lt_or_ge p.live p.capacity with hroom | hfull
  · rw [acquire_of_room hpermits hroom]
    exact exists_follow?_of_connects hl _ 0 none
  · obtain ⟨c, idle, hidle⟩ := exists_idle_of_full hlive hfull
    rw [acquire_of_full hpermits hfull hidle]
    exact ⟨_, follow?_ready ..⟩

end Unlent

theorem capacity_release (p : Pool) (c : Connection) (healthy : Bool) :
    (p.release c healthy).1.capacity = p.capacity := by
  cases healthy <;> rfl

theorem connectTimeout_release (p : Pool) (c : Connection) (healthy : Bool) :
    (p.release c healthy).1.connectTimeout = p.connectTimeout := by
  cases healthy <;> rfl

end Pool

/-! ## Who gets what -/

namespace Rotation

open Return

/-- What the log says of the pool while nothing is on loan. -/
structure InOrder (r : Rotation) : Prop where
  permits_eq : r.pool.permits = r.pool.capacity
  live_eq : r.pool.live = r.pool.idle.length
  live_le : r.pool.live ≤ r.pool.capacity
  /-- A connection that was not healthy has left its room. -/
  room : ∀ x ∈ r.log.head?, x.healthy = false → r.pool.live < r.pool.capacity
  /-- The idle connections are those that are live, the one given back first in front. -/
  idle_eq : r.pool.idle.map (·.id) = standing r.log
  /-- The connections made so far are those that were given back. -/
  ids_eq : ids r.log = Finset.range r.pool.nextId

theorem inOrder_start (endpoint : String) (capacity : Nat) (timeout : Span) :
    (start endpoint capacity timeout).InOrder :=
  ⟨rfl, rfl, Nat.zero_le _, nofun, rfl, rfl⟩

/-- A connection is given back to a pool that the log describes but for this one. -/
theorem inOrder_release {p : Pool} {c : Connection} {id : Nat} {log : List Return} (hid : c.id = id)
    (hpermits : p.permits + 1 = p.capacity) (hlive : p.live = p.idle.length + 1)
    (hle : p.live ≤ p.capacity) (hidle : p.idle.map (·.id) = (standing log).filter (· ≠ id))
    (hids : insert id (ids log) = Finset.range p.nextId) (healthy : Bool) :
    InOrder ⟨(p.release c healthy).1, ⟨id, healthy⟩ :: log⟩ := by
  cases healthy with
  | true =>
    refine ⟨hpermits, ?_, hle, by simp, ?_, (ids_cons _ _).trans hids⟩
    · simpa [Pool.release, Pool.returnPermit] using hlive
    · simp [Pool.release, Pool.returnPermit, standing, hidle, hid]
  | false =>
    have hroom : p.live - 1 < p.capacity := by omega
    refine ⟨hpermits, ?_, hroom.le, fun _ _ _ => hroom, ?_, (ids_cons _ _).trans hids⟩
    · simp [Pool.release, Pool.returnPermit, hlive]
    · simp [Pool.release, Pool.returnPermit, standing, hidle]

/-- What the turn of a borrower comes to: the connection it gets is the next one, by what was given
back before. -/
structure InTurn (r : Rotation) (l : Loan) (r' : Rotation) (id : Nat) : Prop where
  log_eq : r'.log = ⟨id, l.healthy⟩ :: r.log
  live_eq : r.pool.live = (live r.log).card
  idle_eq : (r.pool.idle.map (·.id)).toFinset = live r.log
  made_eq : r.pool.nextId = (ids r.log).card
  next : Next r.pool.capacity r.log id
  /-- A connection that was not healthy is replaced at once. -/
  replaced : ∀ x ∈ r.log.head?, x.healthy = false → id ∉ ids r.log

variable {r : Rotation}

theorem InOrder.inTurn (h : r.InOrder) {l : Loan} {r' : Rotation} {id : Nat}
    (hlog : r'.log = ⟨id, l.healthy⟩ :: r.log)
    (hnew : r.pool.live < r.pool.capacity → id = r.pool.nextId)
    (hold : r.pool.capacity ≤ r.pool.live → ∃ rest, standing r.log = id :: rest) :
    r.InTurn l r' id := by
  have hlive : (live r.log).card = r.pool.live := by
    rw [card_live, ← h.idle_eq, List.length_map, h.live_eq]
  have hmade : (ids r.log).card = r.pool.nextId := by
    rw [h.ids_eq, Finset.card_range]
  have hfresh (hroom : r.pool.live < r.pool.capacity) : id ∉ ids r.log := by
    rw [hnew hroom, h.ids_eq]
    exact Finset.notMem_range_self
  refine ⟨hlog, hlive.symm, by rw [h.idle_eq, toFinset_standing], hmade.symm, ?_,
    fun x hx hx' => hfresh (h.room x hx hx')⟩
  rw [Next, hlive]
  split
  · next hroom => exact ⟨hfresh hroom, (hnew hroom).trans hmade.symm⟩
  · next hfull =>
    obtain ⟨rest, hrest⟩ := hold (Nat.le_of_not_lt hfull)
    refine ⟨?_, age_lt_of_standing hrest⟩
    rw [← toFinset_standing, List.mem_toFinset, hrest]
    exact List.mem_cons_self

namespace InOrder

variable (h : r.InOrder)

include h

theorem permits_pos : 0 < r.pool.permits := h.permits_eq ▸ r.pool.capacity_pos

/-- **A borrower gets the connection whose turn it is.** -/
theorem serve {l : Loan} {r' : Rotation} (hr : r.serve? l = some r') :
    (∃ id, r.InTurn l r' id) ∧ r'.InOrder ∧ r'.pool.capacity = r.pool.capacity ∧
      r'.pool.connectTimeout = r.pool.connectTimeout := by
  obtain ⟨⟨p, c⟩, hlend, hr⟩ := Option.bind_eq_some_iff.1 hr
  cases hr
  have hback : r.pool.permits - 1 + 1 = r.pool.capacity := by
    have := h.permits_pos
    have := h.permits_eq
    omega
  rcases Pool.lend?_cases h.permits_pos h.live_eq hlend with
    ⟨hroom, stream, heq⟩ | ⟨hfull, c, idle, hidle, heq⟩
  · cases heq
    have hnot : r.pool.nextId ∉ standing r.log := fun hmem =>
      Finset.notMem_range_self (h.ids_eq ▸ mem_ids_of_mem_standing hmem)
    refine ⟨⟨r.pool.nextId, ?_⟩, ?_, Pool.capacity_release .., Pool.connectTimeout_release ..⟩
    · exact h.inTurn rfl (fun _ => rfl) fun hfull => absurd hroom (Nat.not_lt_of_le hfull)
    · refine inOrder_release (Connection.id_after ..) ?_ ?_ ?_ ?_ ?_ l.healthy
      · exact hback
      · exact congrArg (· + 1) h.live_eq
      · exact hroom
      · rw [h.idle_eq, List.filter_eq_self.2 fun id hid => ?_]
        exact decide_eq_true fun heq : id = r.pool.nextId => hnot (heq ▸ hid)
      · rw [h.ids_eq, Finset.range_add_one]
        rfl
  · cases heq
    have hstanding : standing r.log = c.id :: idle.map (·.id) := by
      rw [← h.idle_eq, hidle, List.map_cons]
    refine ⟨⟨c.id, ?_⟩, ?_, Pool.capacity_release .., Pool.connectTimeout_release ..⟩
    · exact h.inTurn rfl (fun hroom => absurd hroom (Nat.not_lt_of_le hfull))
        fun _ => ⟨_, hstanding⟩
    · refine inOrder_release (Connection.id_after ..) ?_ ?_ ?_ ?_ ?_ l.healthy
      · exact hback
      · exact h.live_eq.trans (congrArg List.length hidle)
      · exact h.live_le
      · have hnot : c.id ∉ idle.map (·.id) := (List.nodup_cons.1 (hstanding ▸ nodup_standing _)).1
        rw [hstanding, List.filter_cons_of_neg (by simp), List.filter_eq_self.2 fun id hid => ?_]
        exact decide_eq_true fun heq : id = c.id => hnot (heq ▸ hid)
      · have hmem : c.id ∈ standing r.log := hstanding ▸ List.mem_cons_self
        rw [Finset.insert_eq_of_mem (mem_ids_of_mem_standing hmem), h.ids_eq]

theorem exists_serve {l : Loan} (hl : Loan.Connects (l.asked + r.pool.connectTimeout) l.dial) :
    ∃ r', r.serve? l = some r' := by
  obtain ⟨x, hx⟩ := Pool.exists_lend? h.permits_pos h.live_eq hl
  exact ⟨_, by rw [serve?, hx]; rfl⟩

end InOrder

/-! ### Runs -/

theorem serves?_append (r : Rotation) (before after : List Loan) :
    r.serves? (before ++ after) = (r.serves? before).bind (·.serves? after) := by
  induction before generalizing r with
  | nil => rfl
  | cons l before ih =>
    simp only [List.cons_append, serves?, Option.bind_eq_bind, Option.bind_assoc]
    exact congrArg _ (funext fun r => ih r)

/-- Borrowers whose connects succeed are all served. -/
theorem InOrder.exists_serves (h : r.InOrder) {loans : List Loan}
    (hloans : ∀ l ∈ loans, Loan.Connects (l.asked + r.pool.connectTimeout) l.dial) :
    ∃ r', r.serves? loans = some r' := by
  induction loans generalizing r with
  | nil => exact ⟨r, rfl⟩
  | cons l loans ih =>
    obtain ⟨hl, hloans⟩ := List.forall_mem_cons.1 hloans
    obtain ⟨r₁, hr₁⟩ := h.exists_serve hl
    obtain ⟨-, h₁, -, htimeout⟩ := h.serve hr₁
    obtain ⟨r', hr'⟩ := ih h₁ (by rwa [htimeout])
    exact ⟨r', by rw [serves?, hr₁]; exact hr'⟩

theorem InOrder.serves (h : r.InOrder) {loans : List Loan} {r' : Rotation}
    (hr : r.serves? loans = some r') :
    r'.InOrder ∧ r'.log.length = r.log.length + loans.length ∧
      r'.pool.capacity = r.pool.capacity := by
  induction loans generalizing r with
  | nil =>
    cases hr
    exact ⟨h, rfl, rfl⟩
  | cons l loans ih =>
    obtain ⟨r₁, hr₁, hr⟩ := Option.bind_eq_some_iff.1 hr
    obtain ⟨⟨id, hturn⟩, h₁, hcapacity₁, -⟩ := h.serve hr₁
    obtain ⟨h', hlength, hcapacity⟩ := ih h₁ hr
    refine ⟨h', ?_, hcapacity.trans hcapacity₁⟩
    rw [hlength, hturn.log_eq, List.length_cons, List.length_cons]
    omega

end Rotation

namespace Return

/-- `n` turns, each with the connection after the one before, and all of them healthy. -/
def rounds (capacity n : Nat) : List Return :=
  (List.range n).reverse.map fun k => ⟨k % capacity, true⟩

variable {capacity : Nat}

theorem rounds_succ (capacity n : Nat) :
    rounds capacity (n + 1) = ⟨n % capacity, true⟩ :: rounds capacity n := by
  rw [rounds, List.range_succ, List.reverse_append, List.map_append]
  rfl

/-- The numbers of the connections in order. -/
theorem map_id_rounds (capacity n : Nat) :
    (rounds capacity n).reverse.map (·.id) = (List.range n).map (· % capacity) := by
  rw [rounds, ← List.map_reverse, List.reverse_reverse, List.map_map]
  rfl

theorem drop_map_mod {n : Nat} (hcapacity : 0 < capacity) (hn : capacity ≤ n) :
    ((List.range n).map (· % capacity)).drop (n - capacity) =
      n % capacity :: ((List.range n).map (· % capacity)).drop (n + 1 - capacity) := by
  have hlt : n - capacity < ((List.range n).map (· % capacity)).length := by simp; omega
  rw [List.drop_eq_getElem_cons hlt, List.getElem_map, List.getElem_range,
    ← Nat.mod_eq_sub_mod hn, show n - capacity + 1 = n + 1 - capacity by omega]

/-- After so many turns, the connections of the last ones are live. -/
theorem standing_rounds (hcapacity : 0 < capacity) (n : Nat) :
    standing (rounds capacity n) = ((List.range n).map (· % capacity)).drop (n - capacity) := by
  induction n with
  | zero => simp [rounds, standing]
  | succ n ih =>
    have hlast : ((List.range (n + 1)).map (· % capacity)).drop (n + 1 - capacity) =
        ((List.range n).map (· % capacity)).drop (n + 1 - capacity) ++ [n % capacity] := by
      rw [List.range_succ, List.map_append, List.drop_append_of_le_length (by simp; omega)]
      rfl
    have hnodup := nodup_standing (rounds capacity n)
    rw [rounds_succ, standing, hlast, if_pos rfl]
    refine congrArg (· ++ [n % capacity]) ?_
    rw [ih] at hnodup ⊢
    rcases Nat.lt_or_ge n capacity with hn | hn
    · rw [Nat.sub_eq_zero_of_le hn.le, Nat.sub_eq_zero_of_le hn, List.drop_zero]
      refine List.filter_eq_self.2 fun id hid => ?_
      obtain ⟨k, hk, rfl⟩ := List.mem_map.1 hid
      have hk := List.mem_range.1 hk
      rw [Nat.mod_eq_of_lt hn, Nat.mod_eq_of_lt (hk.trans hn)]
      exact decide_eq_true hk.ne
    · rw [drop_map_mod hcapacity hn] at hnodup ⊢
      rw [List.filter_cons_of_neg (by simp)]
      refine List.filter_eq_self.2 fun id hid => decide_eq_true fun heq : id = n % capacity => ?_
      exact (List.nodup_cons.1 hnodup).1 (heq ▸ hid)

theorem ids_rounds (hcapacity : 0 < capacity) (n : Nat) :
    ids (rounds capacity n) = Finset.range (min n capacity) := by
  induction n with
  | zero => simp [rounds, ids]
  | succ n ih =>
    rw [rounds_succ, ids_cons, ih]
    rcases Nat.lt_or_ge n capacity with hn | hn
    · rw [Nat.mod_eq_of_lt hn, min_eq_left hn.le, min_eq_left hn, Finset.range_add_one]
    · rw [min_eq_right hn, min_eq_right (by omega)]
      exact Finset.insert_eq_of_mem (Finset.mem_range.2 (Nat.mod_lt n hcapacity))

/-- The next turn of these is that of the connection after the last one. -/
theorem Next.eq_mod (hcapacity : 0 < capacity) {n id : Nat}
    (h : Next capacity (rounds capacity n) id) : id = n % capacity := by
  have hcard : (live (rounds capacity n)).card = min n capacity := by
    rw [card_live, standing_rounds hcapacity, List.length_drop, List.length_map, List.length_range]
    omega
  rw [Next, hcard] at h
  split at h
  · next hlt =>
    have hn : n < capacity := by omega
    rw [h.2, ids_rounds hcapacity, Finset.card_range, min_eq_left hn.le, Nat.mod_eq_of_lt hn]
  · next hge =>
    have hstanding := standing_rounds hcapacity n
    rw [drop_map_mod hcapacity (by omega)] at hstanding
    by_contra hne
    have hfirst : n % capacity ∈ live (rounds capacity n) := by
      rw [← toFinset_standing, List.mem_toFinset, hstanding]
      exact List.mem_cons_self
    exact Nat.lt_asymm (h.2 _ hfirst (Ne.symm hne)) (age_lt_of_standing hstanding id h.1 hne)

end Return

namespace Rotation

open Return

section Runs

variable {endpoint : String} {capacity : Nat} {timeout : Span} (hcapacity : 1 ≤ capacity)
  {loans : List Loan} {r : Rotation}
  (hr : (start endpoint capacity timeout).serves? loans = some r)

include hr

theorem inOrder_of_serves? (hcapacity : 1 ≤ capacity) :
    r.InOrder ∧ r.log.length = loans.length ∧ r.pool.capacity = capacity := by
  obtain ⟨h, hlength, hcap⟩ := (inOrder_start endpoint capacity timeout).serves hr
  exact ⟨h, hlength.trans (Nat.zero_add _), hcap.trans (max_eq_left hcapacity)⟩

include hcapacity

/-- The turn of one of the borrowers. -/
theorem exists_inTurn {before after : List Loan} {l : Loan}
    (hsplit : loans = before ++ l :: after) :
    ∃ r₁ r₂ id, (start endpoint capacity timeout).serves? before = some r₁ ∧
      r₁.serve? l = some r₂ ∧ r₂.serves? after = some r ∧ r₁.pool.capacity = capacity ∧
      r₁.InTurn l r₂ id := by
  subst hsplit
  rw [serves?_append] at hr
  obtain ⟨r₁, hr₁, hr⟩ := Option.bind_eq_some_iff.1 hr
  obtain ⟨r₂, hr₂, hr⟩ := Option.bind_eq_some_iff.1 hr
  obtain ⟨h₁, -, hcap⟩ := inOrder_of_serves? hr₁ hcapacity
  obtain ⟨⟨id, hturn⟩, -⟩ := h₁.serve hr₂
  exact ⟨r₁, r₂, id, hr₁, hr₂, hr, hcap, hturn⟩

/-- Connections that are all given back as healthy ones are handed out in rounds. -/
theorem log_eq_rounds (hhealthy : ∀ l ∈ loans, l.healthy = true) :
    r.log = rounds capacity loans.length := by
  induction loans using List.reverseRecOn generalizing r with
  | nil =>
    cases hr
    rfl
  | append_singleton loans l ih =>
    obtain ⟨r₁, r₂, id, hr₁, -, hr₂, hcap, hturn⟩ := exists_inTurn hcapacity hr rfl
    cases hr₂
    have hlog := ih hr₁ (List.forall_mem_append.1 hhealthy).1
    have hnext := hturn.next
    rw [hcap, hlog] at hnext
    rw [hturn.log_eq, hlog, hnext.eq_mod hcapacity, hhealthy l (by simp), List.length_append,
      List.length_singleton, rounds_succ]

end Runs

/-- **Connections are handed out in turn.** Borrowers that use a pool one after the other, and whose
connects succeed, are all served. Each gets a new connection, numbered by those made before, if
fewer are live than there is room for, and otherwise the idle one that was given back longest ago;
the live connections are those that are idle, and were healthy when they were given back the last
time. After one that was not, the next borrower gets a new connection. If all are healthy, the
connections are handed out in rounds, and none is made after the first round. -/
theorem handed_out_in_turn {endpoint : String} {capacity : Nat} {timeout : Span}
    (hcapacity : 1 ≤ capacity) {loans : List Loan} :
    ((∀ l ∈ loans, Loan.Connects (l.asked + timeout) l.dial) →
      ∃ r, (start endpoint capacity timeout).serves? loans = some r) ∧
    ∀ r, (start endpoint capacity timeout).serves? loans = some r →
      r.log.length = loans.length ∧
      (∀ before l after, loans = before ++ l :: after → ∃ r₁ r₂ id,
        (start endpoint capacity timeout).serves? before = some r₁ ∧ r₁.serve? l = some r₂ ∧
          r₂.serves? after = some r ∧ r₁.pool.capacity = capacity ∧ r₁.InTurn l r₂ id) ∧
      ((∀ l ∈ loans, l.healthy = true) →
        r.log.reverse.map (·.id) = (List.range loans.length).map (· % capacity) ∧
          r.pool.nextId = min loans.length capacity) := by
  refine ⟨(inOrder_start endpoint capacity timeout).exists_serves, fun r hr => ?_⟩
  obtain ⟨h, hlength, -⟩ := inOrder_of_serves? hr hcapacity
  refine ⟨hlength, fun before l after => exists_inTurn hcapacity hr, fun hhealthy => ?_⟩
  have hlog := log_eq_rounds hcapacity hr hhealthy
  have hmade := congrArg Finset.card h.ids_eq
  rw [hlog, ids_rounds hcapacity, Finset.card_range, Finset.card_range] at hmade
  rw [hlog, map_id_rounds]
  exact ⟨rfl, hmade.symm⟩

/-- Four borrowers of a pool with two rooms. The first connection is made at the second attempt, and
the next one is given back broken and replaced; then it is the turn of the first one again. -/
def relay : List Loan :=
  [⟨.zero, [(.zero, .connectFailed .refused), (.ofMillis 10, .pauseOver),
      (.ofMillis 10, .connected 0)], [(14, .written)], true⟩,
    ⟨.ofMillis 20, [(.ofMillis 20, .connected 1)], [(14, .timeUp)], false⟩,
    ⟨.ofMillis 30, [(.ofMillis 30, .connected 2)], [], true⟩,
    ⟨.ofMillis 40, [(.ofMillis 40, .connected 3)], [], true⟩]

theorem handed_out_in_turn_relay :
    1 ≤ 2 ∧ (∀ l ∈ relay, Loan.Connects (l.asked + .ofSeconds 1) l.dial) ∧
      ∃ r, (start "a:1" 2 (.ofSeconds 1)).serves? relay = some r ∧ r.log.length = relay.length ∧
        r.log.map (·.id) = [0, 2, 1, 0] := by
  have hrelay : ∀ l ∈ relay, Loan.Connects (l.asked + .ofSeconds 1) l.dial := by
    simp only [relay, List.forall_mem_cons]
    exact ⟨.retry (by decide) (.connected _ _), .connected _ _, .connected _ _, .connected _ _,
      List.forall_mem_nil _⟩
  obtain ⟨hserved, hturns⟩ := @handed_out_in_turn "a:1" 2 (.ofSeconds 1) (by decide) relay
  obtain ⟨r, hr⟩ := hserved hrelay
  refine ⟨by decide, hrelay, r, hr, (hturns r hr).1, ?_⟩
  cases hr
  rfl

end Rotation

end LoadGen
