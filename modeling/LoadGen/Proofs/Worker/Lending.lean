import LoadGen.Proofs.Pool.Tasks
import LoadGen.Proofs.Run.Sights

/-!
# What a worker borrows

A worker has at most one acquire under way, or one connection on loan, and all that it does with its
pools is what tasks do that share a pool (`Tasks.Event`). Each of its pools is therefore what such
events make of a new one (`Worker.Borrows`), and the accounts of tasks are those of a worker:
`Worker.Borrows.sound` says so of a pool, and `Worker.Borrows.live_le` bounds the connections of
all pools of a worker.
-/

namespace LoadGen

open Acquire (heldBy)
open Time (Span)

/-! ## Tasks that began with a new pool -/

namespace Tasks

theorem steps?_concat (t : Tasks) (events : List Event) (e : Event) :
    t.steps? (events ++ [e]) = (t.steps? events).bind (·.step? e) := by
  induction events generalizing t with
  | nil => exact Option.bind_fun_some _
  | cons e' events ih =>
    rw [List.cons_append, steps?, steps?]
    simp only [Option.bind_eq_bind, Option.bind_assoc, ih]

/-- Tasks that events lead to, from a new pool on. -/
def Reachable (capacity : Nat) (timeout : Span) (t : Tasks) : Prop :=
  ∃ endpoint events, (start endpoint capacity timeout).steps? events = some t

namespace Reachable

variable {capacity : Nat} {timeout : Span} {t t' : Tasks}

theorem step? (ht : t.Reachable capacity timeout) {e : Event} (h : t.step? e = some t') :
    t'.Reachable capacity timeout := by
  obtain ⟨endpoint, events, ht⟩ := ht
  exact ⟨endpoint, events ++ [e], by rw [steps?_concat, ht, Option.bind_some, h]⟩

theorem sound (ht : t.Reachable capacity timeout) : t.Sound := by
  obtain ⟨endpoint, events, ht⟩ := ht
  exact (sound_start endpoint capacity timeout).steps? ht

theorem capacity_eq (ht : t.Reachable capacity timeout) :
    t.pool.capacity = max capacity 1 := by
  obtain ⟨endpoint, events, ht⟩ := ht
  exact (frame_of_steps? ht).1

end Reachable

end Tasks

/-! ## Shares of a worker -/

namespace Worker

variable {R : Type}

namespace Phase

/-- The position of the pool that a worker deals with. -/
def position? : Phase R → Option Nat
  | .acquiring _ pool _ _ => some pool
  | .exchanging _ pool _ _ _ => some pool
  | _ => none

/-- The acquire under way on the pool at a position. -/
def acquiresAt (i : Nat) : Phase R → List Acquire
  | .acquiring _ pool _ acquire => if pool = i then [acquire] else []
  | _ => []

/-- The connection on loan from the pool at a position. -/
def loansAt (i : Nat) : Phase R → List Connection
  | .exchanging _ pool _ connection _ => if pool = i then [connection] else []
  | _ => []

theorem position?_of_idle {phase : Phase R} (h : phase = .ready ∨ phase = .resting) :
    phase.position? = none := by
  rcases h with rfl | rfl <;> rfl

/-- A worker that deals with one pool at most does not deal with another one. -/
theorem position?_ne {phase : Phase R} {i j : Nat}
    (h : phase.position? = none ∨ phase.position? = some i) (hj : i ≠ j) :
    phase.position? ≠ some j := by
  rcases h with h | h <;> rw [h]
  · exact nofun
  · exact fun hsome => hj (Option.some.inj hsome)

/-- A worker has nothing of the pools that it does not deal with. -/
theorem nothingAt {phase : Phase R} {i : Nat} (h : phase.position? ≠ some i) :
    phase.acquiresAt i = [] ∧ phase.loansAt i = [] := by
  cases phase with
  | acquiring job pool since acquire => exact ⟨if_neg fun hpool => h (congrArg some hpool), rfl⟩
  | exchanging job pool since connection written =>
    exact ⟨rfl, if_neg fun hpool => h (congrArg some hpool)⟩
  | _ => exact ⟨rfl, rfl⟩

end Phase

/-- A pool, as the one at a position, with what the worker does there. -/
def tasksAt (w : Worker R) (i : Nat) (p : Pool) (dropped : List Connection) : Tasks :=
  ⟨p, w.phase.acquiresAt i, w.phase.loansAt i, dropped⟩

theorem tasksAt_eq {w : Worker R} {i : Nat} (h : w.phase.position? ≠ some i) (p : Pool)
    (dropped : List Connection) : w.tasksAt i p dropped = ⟨p, [], [], dropped⟩ := by
  obtain ⟨hacquires, hloans⟩ := Phase.nothingAt h
  rw [tasksAt, hacquires, hloans]

theorem tasksAt_of_acquiring {w : Worker R} {job : Job R} {i : Nat} {since : Span}
    {acquire : Acquire} (h : w.phase = .acquiring job i since acquire) (p : Pool)
    (dropped : List Connection) : w.tasksAt i p dropped = ⟨p, [acquire], [], dropped⟩ := by
  simp [tasksAt, h, Phase.acquiresAt, Phase.loansAt]

theorem tasksAt_of_exchanging {w : Worker R} {job : Job R} {i : Nat} {since : Span}
    {connection : Connection} {written : Bool}
    (h : w.phase = .exchanging job i since connection written) (p : Pool)
    (dropped : List Connection) : w.tasksAt i p dropped = ⟨p, [], [connection], dropped⟩ := by
  simp [tasksAt, h, Phase.acquiresAt, Phase.loansAt]

/-- A worker of a configuration: there is a pool for each endpoint, and each is what the worker, as
tasks on it, has made of a new one. -/
structure Borrows (config : Config R) (w : Worker R) : Prop where
  size_eq : w.pools.size = config.endpoints.length
  position_lt : ∀ i ∈ w.phase.position?, i < w.pools.size
  tasks : ∀ i p, w.pools[i]? = some p → ∃ dropped,
    (w.tasksAt i p dropped).Reachable config.general.poolsize config.general.connectTimeout

variable {config : Config R} {w w' : Worker R}

theorem borrows_new (config : Config R) (id : Nat) (source : Random.Source) :
    (new config id source).Borrows config where
  size_eq := by simp [new]
  position_lt := nofun
  tasks i p hp := by
    rw [new, List.getElem?_toArray, List.getElem?_map, Option.map_eq_some_iff] at hp
    obtain ⟨endpoint, -, rfl⟩ := hp
    exact ⟨[], endpoint, [], rfl⟩

namespace Borrows

section Accounts

variable (hw : w.Borrows config) {i : Nat} {p : Pool} (hp : w.pools[i]? = some p)

include hw hp

theorem capacity_eq : p.capacity = max config.general.poolsize 1 := by
  obtain ⟨dropped, htasks⟩ := hw.tasks i p hp
  exact htasks.capacity_eq

/-- The accounts of a pool are right about the worker. -/
theorem sound :
    ∃ dropped, p.Sound (heldBy (w.phase.acquiresAt i)) (w.phase.loansAt i) dropped := by
  obtain ⟨dropped, htasks⟩ := hw.tasks i p hp
  exact ⟨dropped, htasks.sound⟩

end Accounts

/-! ### Turns -/

/-- A worker that has nothing of its pools goes on to something that is no pool's business. -/
theorem keep (hw : w.Borrows config) (hbefore : w.phase.position? = none)
    (hpools : w'.pools = w.pools) (hafter : w'.phase.position? = none) : w'.Borrows config where
  size_eq := by rw [hpools, hw.size_eq]
  position_lt := by
    rw [hafter]
    exact nofun
  tasks i p hp := by
    rw [hpools] at hp
    obtain ⟨dropped, hreachable⟩ := hw.tasks i p hp
    rw [tasksAt_eq (by simp [hbefore])] at hreachable
    exact ⟨dropped, by rwa [tasksAt_eq (by simp [hafter])]⟩

/-- A worker does something with the pool at a position, and with no other. -/
theorem replace (hw : w.Borrows config) {i : Nat} {p q : Pool} (hp : w.pools[i]? = some p)
    (hbefore : w.phase.position? = none ∨ w.phase.position? = some i)
    (hpools : w'.pools = w.pools.setIfInBounds i q)
    (hafter : w'.phase.position? = none ∨ w'.phase.position? = some i)
    (hstep : ∀ dropped,
      (w.tasksAt i p dropped).Reachable config.general.poolsize config.general.connectTimeout →
      ∃ dropped', (w'.tasksAt i q dropped').Reachable config.general.poolsize
        config.general.connectTimeout) : w'.Borrows config := by
  obtain ⟨hi, -⟩ := Array.getElem?_eq_some_iff.1 hp
  have hsize : w'.pools.size = w.pools.size := by rw [hpools, Array.size_setIfInBounds]
  refine ⟨hsize.trans hw.size_eq, fun j hj => ?_, fun j r hr => ?_⟩
  · obtain rfl : i = j := by
      by_contra hne
      exact Phase.position?_ne hafter hne hj
    rwa [hsize]
  · rw [hpools] at hr
    by_cases hj : i = j
    · subst hj
      rw [Array.getElem?_setIfInBounds_self_of_lt hi] at hr
      cases hr
      obtain ⟨dropped, hreachable⟩ := hw.tasks i p hp
      exact hstep dropped hreachable
    · rw [Array.getElem?_setIfInBounds_ne hj] at hr
      obtain ⟨dropped, hreachable⟩ := hw.tasks j r hr
      rw [tasksAt_eq (Phase.position?_ne hbefore hj)] at hreachable
      exact ⟨dropped, by rwa [tasksAt_eq (Phase.position?_ne hafter hj)]⟩

/-- A worker goes on with what its acquire on a pool has come to. -/
theorem afterAcquire (hw : w.Borrows config) {i : Nat} {p q : Pool} (hp : w.pools[i]? = some p)
    (hbefore : w.phase.position? = none ∨ w.phase.position? = some i)
    {progress : Acquire.Progress}
    (hstep : ∀ dropped, ∃ e,
      (w.tasksAt i p dropped).step? e = some ⟨q, progress.acquires, progress.loans, dropped⟩)
    {w₁ : Worker R} (hpools : w₁.pools = w.pools.setIfInBounds i q) (shared : Shared R)
    (now : Span) (job : Job R) (since : Span) :
    (w₁.afterAcquire shared now job i since progress).worker.Borrows config := by
  have hpools' :
      (w₁.afterAcquire shared now job i since progress).worker.pools =
        w.pools.setIfInBounds i q := by
    cases progress <;> exact hpools
  have hafter :
      (w₁.afterAcquire shared now job i since progress).worker.phase.position? = none ∨
        (w₁.afterAcquire shared now job i since progress).worker.phase.position? = some i := by
    cases progress with
    | pending acquire => exact .inr rfl
    | ready connection => exact .inr rfl
    | failed fault => exact .inl rfl
  have htasks (dropped : List Connection) :
      (w₁.afterAcquire shared now job i since progress).worker.tasksAt i q dropped =
        ⟨q, progress.acquires, progress.loans, dropped⟩ := by
    cases progress with
    | pending acquire => exact tasksAt_of_acquiring rfl q dropped
    | ready connection => exact tasksAt_of_exchanging rfl q dropped
    | failed fault => rfl
  refine hw.replace hp hbefore hpools' hafter fun dropped hreachable => ?_
  obtain ⟨e, he⟩ := hstep dropped
  exact ⟨dropped, by rw [htasks]; exact hreachable.step? he⟩

theorem draw [Weights.Weight R] (hw : w.Borrows config) (hidle : w.phase.position? = none)
    (shared : Shared R) (now : Span) : (w.draw shared now).worker.Borrows config := by
  rw [Worker.draw]
  split
  · exact hw.keep hidle rfl rfl
  · exact hw.keep hidle rfl rfl
  · dsimp only
    split
    · exact hw.keep hidle rfl rfl
    · next p hp =>
      refine hw.afterAcquire hp (.inl hidle) (fun dropped => ⟨.acquire now, ?_⟩) rfl ..
      rw [tasksAt_eq (by simp [hidle])]
      simp [Tasks.step?, Tasks.settle]

/-- A worker goes on with a request; when that is finished, the connection is given back. -/
theorem afterExchange (hw : w.Borrows config) {job : Job R} {i : Nat} {since : Span}
    {connection : Connection} {written : Bool}
    (hphase : w.phase = .exchanging job i since connection written) (sent : Nat)
    (signal : Exchange.Signal) (shared : Shared R) (now : Span) :
    (w.afterExchange shared now job i since (connection.exchange sent signal).1
      (connection.exchange sent signal).2).worker.Borrows config := by
  have hbefore : w.phase.position? = some i := by rw [hphase]; rfl
  have hi : i < w.pools.size := hw.position_lt i hbefore
  have hp : w.pools[i]? = some w.pools[i] := Array.getElem?_eq_getElem hi
  have hexchange (dropped : List Connection) :
      (w.tasksAt i w.pools[i] dropped).step? (.exchange 0 sent signal) =
        some ⟨w.pools[i], [], [(connection.exchange sent signal).1], dropped⟩ := by
    rw [tasksAt_of_exchanging hphase]
    rfl
  generalize (connection.exchange sent signal).1 = connection' at hexchange ⊢
  cases (connection.exchange sent signal).2 with
  | reading =>
    have hpools : w.pools = w.pools.setIfInBounds i w.pools[i] := by
      rw [Array.setIfInBounds_def, dif_pos hi, Array.set_getElem_self]
    refine hw.replace hp (.inr hbefore) hpools (.inr rfl) fun dropped hreachable => ⟨dropped, ?_⟩
    rw [tasksAt_of_exchanging rfl]
    exact hreachable.step? (hexchange dropped)
  | finished result =>
    have hback (healthy : Bool) {w' : Worker R} (hpools : w'.pools =
        w.pools.setIfInBounds i (w.pools[i].release connection' healthy).1)
        (hready : w'.phase.position? = none) : w'.Borrows config := by
      refine hw.replace hp (.inr hbefore) hpools (.inl hready) fun dropped hreachable => ?_
      have hreleased := (hreachable.step? (hexchange dropped)).step? (e := .release 0 healthy) rfl
      exact ⟨_, by rwa [tasksAt_eq (by simp [hready])]⟩
    rw [Worker.afterExchange, hp]
    dsimp only
    split <;> exact hback _ rfl rfl

theorem turnAt [Weights.Weight R] (hw : w.Borrows config) (x : Sight R) :
    (w.turnAt x).worker.Borrows config := by
  have hacts := w.acts x
  generalize w.turnAt x = turn at hacts ⊢
  cases hacts with
  | unchanged => exact hw
  | started hphase => exact hw.keep (by rw [hphase]; rfl) rfl rfl
  | stopped hphase => exact hw.keep (Phase.position?_of_idle hphase) rfl rfl
  | begun hbegins => exact hw.draw (Phase.position?_of_idle (of_begins hbegins).1) ..
  | @acquired job pool since acquire s p events hphase hsignal hpool =>
    refine hw.afterAcquire hpool (.inr (by rw [hphase]; rfl))
      (fun dropped => ⟨.advance 0 x.now s, ?_⟩) rfl ..
    rw [tasksAt_of_acquiring hphase, Tasks.step?_advance rfl]
    simp [Tasks.settle]
  | cancelled hphase hsignal hpool =>
    refine hw.replace hpool (.inr (by rw [hphase]; rfl)) rfl (.inl rfl)
      fun dropped hreachable => ⟨dropped, ?_⟩
    rw [tasksAt_of_acquiring hphase] at hreachable
    exact hreachable.step? (e := .cancel 0) rfl
  | exchanged hphase => exact hw.afterExchange hphase ..

end Borrows

/-! ## Connections of a worker -/

/-- The connections of all pools of a worker, those that are being made included. -/
def live (w : Worker R) : Nat := (w.pools.toList.map (·.live)).sum

/-- A worker has no more connections than its pools have room for. -/
theorem Borrows.live_le (hw : w.Borrows config) :
    w.live ≤ config.endpoints.length * max config.general.poolsize 1 := by
  have hpool : ∀ n ∈ w.pools.toList.map (·.live), n ≤ max config.general.poolsize 1 := by
    intro n hn
    obtain ⟨p, hmem, rfl⟩ := List.mem_map.1 hn
    obtain ⟨i, hp⟩ := Array.mem_iff_getElem?.1 (Array.mem_toList_iff.1 hmem)
    obtain ⟨dropped, hsound⟩ := hw.sound hp
    rw [← hw.capacity_eq hp]
    exact hsound.live_le
  have hsum := List.sum_le_card_nsmul _ _ hpool
  rwa [List.length_map, Array.length_toList, hw.size_eq, smul_eq_mul] at hsum

end Worker

end LoadGen
