import LoadGen.Proofs.Run.Selections
import LoadGen.Proofs.Worker.Watch

/-!
# Workers that reach an endpoint

The requests of a worker go to its endpoints in turn. If some of the endpoints are always reached,
the acquires that fail in a row are at endpoints between two of those (`Streak`). So many in a row
that the worker is degraded do not fit in between, if the reached endpoints are dense enough in the
rotation (`Chronicle.not_degraded_of_dense`). One endpoint is dense enough if there are no more
endpoints than failures that a worker tolerates (`Chronicle.not_degraded_of_reached`), but not if
there is one more (`Chronicle.degraded_in_reach`).
-/

namespace LoadGen

open Time (Span)

variable {R : Type}

/-! ## Endpoints in turn -/

/-- Of so many endpoints one after the other that their failures degrade a worker, one is reached. -/
def Dense (n : Nat) (reached : Nat → Prop) : Prop :=
  ∀ s, ∃ j < Standing.tolerance, reached ((s + j) % n)

/-- Before the turn of the endpoint at `p` it was that of some endpoints that are not reached, at
least as many as acquires failed. -/
def Streak (n : Nat) (reached : Nat → Prop) (p failures : Nat) : Prop :=
  ∃ s passed, failures ≤ passed ∧ p = (s + passed) % n ∧ ∀ j < passed, ¬reached ((s + j) % n)

/-- A single endpoint is dense if there are not too many. -/
theorem dense_of_le {n g : Nat} (hg : g < n) (hn : n ≤ Standing.tolerance) : Dense n (· = g) := by
  intro s
  have hpos : 0 < n := Nat.zero_lt_of_lt hg
  have hs := Nat.mod_lt s hpos
  refine ⟨(g + n - s % n) % n, Nat.lt_of_lt_of_le (Nat.mod_lt _ hpos) hn, ?_⟩
  have hround : s % n + (g + n - s % n) = g + n := by omega
  calc (s + (g + n - s % n) % n) % n = (s % n + (g + n - s % n)) % n := by
        rw [Nat.add_mod_mod, Nat.mod_add_mod]
    _ = g := by rw [hround, Nat.add_mod_right, Nat.mod_eq_of_lt hg]

namespace Streak

variable {n : Nat} {reached : Nat → Prop} {p failures : Nat}

/-- After a success. -/
theorem zero (hp : p < n) : Streak n reached p 0 :=
  ⟨p, 0, Nat.le_refl 0, (Nat.mod_eq_of_lt hp).symm, nofun⟩

/-- One more acquire fails. -/
theorem succ (h : Streak n reached p failures) (hp : ¬reached p) :
    Streak n reached ((p + 1) % n) (failures + 1) := by
  obtain ⟨s, passed, hle, rfl, hnone⟩ := h
  refine ⟨s, passed + 1, Nat.succ_le_succ hle, Nat.mod_add_mod _ _ _, fun j hj => ?_⟩
  rcases Nat.lt_succ_iff_lt_or_eq.1 hj with hj | rfl
  · exact hnone j hj
  · exact hp

theorem mono {failures' : Nat} (h : Streak n reached p failures) (hle : failures' ≤ failures) :
    Streak n reached p failures' := by
  obtain ⟨s, passed, hpassed, hrest⟩ := h
  exact ⟨s, passed, hle.trans hpassed, hrest⟩

/-- No streak is long enough to degrade a worker. -/
theorem lt_tolerance (hdense : Dense n reached) (h : Streak n reached p failures) :
    failures < Standing.tolerance := by
  obtain ⟨s, passed, hle, -, hnone⟩ := h
  obtain ⟨j, hj, hreached⟩ := hdense s
  by_contra hmany
  exact hnone j (by omega) hreached

end Streak

/-! ## Turns of a worker -/

namespace Worker

/-- Whether an acquire at the endpoint at `g` ends without a connection in a turn. Acquires that are
given up because the run is stopping do not count. -/
def misses (w : Worker R) (stopping : Bool) (turn : Turn R) (g : Nat) : Bool :=
  match w.phase, turn.worker.phase with
  | .acquiring _ pool _ _, .resting => pool == g
  | .acquiring _ pool _ _, .ready => pool == g && !stopping
  | _, _ => false

/-- What is known of the acquires that failed in a row, from what a worker is doing. -/
def Phase.Steady (n : Nat) (reached : Nat → Prop) (stopping : Bool) (nextPool failures : Nat) :
    Phase R → Prop
  | .fresh | .ready | .resting => stopping = true ∨ Streak n reached nextPool failures
  | .acquiring _ pool _ _ => nextPool = (pool + 1) % n ∧ Streak n reached pool failures
  | .exchanging .. => failures = 0
  | .stopped | .aborted _ => True

/-- A worker with `n` endpoints is not degraded. -/
structure Steady (n : Nat) (reached : Nat → Prop) (stopping : Bool) (w : Worker R) : Prop where
  size_pools : w.pools.size = n
  nextPool_lt : w.nextPool < n
  degraded_eq : w.standing.degraded = false
  phase : w.phase.Steady n reached stopping w.nextPool w.standing.failures

/-- A turn leaves the health of the workers and the course of the run alone. -/
structure Turn.Calm (turn : Turn R) (shared : Shared R) : Prop where
  health_eq : turn.shared.health = shared.health
  stopping_eq : turn.shared.stopping = shared.stopping

variable {n : Nat} {reached : Nat → Prop} {w : Worker R} {shared : Shared R}

theorem steady_new {config : Config R} (h : config.endpoints ≠ []) (id : Nat)
    (source : Random.Source) (stopping : Bool) :
    (new config id source).Steady config.endpoints.length reached stopping where
  size_pools := by rw [new, List.size_toArray, List.length_map]
  nextPool_lt := List.length_pos_of_ne_nil h
  degraded_eq := rfl
  phase := .inr (.zero (List.length_pos_of_ne_nil h))

/-- Goes on with an acquire in a streak that is not long enough to degrade the worker. -/
theorem steady_afterAcquire (w : Worker R) (shared : Shared R) (now : Span) (job : Job R)
    (pool : Nat) (since : Span) (progress : Acquire.Progress) (hdense : Dense n reached)
    (hsize : w.pools.size = n) (hdegraded : w.standing.degraded = false)
    (hnext : w.nextPool < n) (hturn : w.nextPool = (pool + 1) % n)
    (hstreak : Streak n reached pool w.standing.failures)
    (hfailed : ∀ fault, progress = .failed fault → ¬reached pool) :
    (w.afterAcquire shared now job pool since progress).worker.Steady n reached shared.stopping ∧
      (w.afterAcquire shared now job pool since progress).Calm shared := by
  cases progress with
  | pending acquire => exact ⟨⟨hsize, hnext, hdegraded, hturn, hstreak⟩, rfl, rfl⟩
  | ready connection =>
    have hconnected : w.standing.onConnected shared.health w.id =
        (⟨0, false⟩, shared.health, []) := by
      rw [Standing.onConnected, hdegraded]
      rfl
    rw [afterAcquire, hconnected]
    exact ⟨⟨hsize, hnext, rfl, rfl⟩, rfl, rfl⟩
  | failed fault =>
    have hlonger := hstreak.succ (hfailed fault rfl)
    have hfew : ¬Standing.tolerance ≤ min (w.standing.failures + 1) Standing.maxFailures := by
      have := hlonger.lt_tolerance hdense
      omega
    have hfault : w.standing.onFault shared.health w.id fault =
        (⟨min (w.standing.failures + 1) Standing.maxFailures, false⟩, shared.health, []) := by
      rw [Standing.onFault, hdegraded]
      dsimp only
      rw [decide_eq_false hfew]
      rfl
    rw [afterAcquire, hfault]
    refine ⟨⟨hsize, hnext, rfl, .inr ?_⟩, rfl, rfl⟩
    rw [hturn]
    exact hlonger.mono (Nat.min_le_left _ _)

theorem Steady.draw [Weights.Weight R] (hw : w.Steady n reached shared.stopping)
    (hdense : Dense n reached)
    (hstreak : Streak n reached w.nextPool w.standing.failures) (now : Span) :
    (w.draw shared now).worker.Steady n reached shared.stopping ∧
      (w.draw shared now).Calm shared := by
  rw [Worker.draw]
  split
  · exact ⟨⟨hw.size_pools, hw.nextPool_lt, hw.degraded_eq, trivial⟩, rfl, rfl⟩
  · exact ⟨⟨hw.size_pools, hw.nextPool_lt, hw.degraded_eq, .inr hstreak⟩, rfl, rfl⟩
  · next o workload source hselect =>
    dsimp only
    split
    · exact ⟨⟨hw.size_pools, hw.nextPool_lt, hw.degraded_eq, trivial⟩, rfl, rfl⟩
    · next pool hpool =>
      have hnever := pool.acquire_ne_failed now
      have hsize : (w.pools.setIfInBounds w.nextPool (pool.acquire now).1).size = n := by
        rw [Array.size_setIfInBounds, hw.size_pools]
      have hpos : 0 < n := Nat.zero_lt_of_lt hw.nextPool_lt
      have hnext : (w.nextPool + 1) % w.pools.size = (w.nextPool + 1) % n := by rw [hw.size_pools]
      obtain ⟨hsteady, hcalm⟩ := steady_afterAcquire
        { w with
          source := (request o source).2
          pools := w.pools.setIfInBounds w.nextPool (pool.acquire now).1
          nextPool := (w.nextPool + 1) % w.pools.size }
        { shared with workload } now ⟨o, (request o source).1⟩ w.nextPool now (pool.acquire now).2
        hdense hsize hw.degraded_eq (hnext ▸ Nat.mod_lt _ hpos) hnext hstreak
        fun fault hfault => absurd hfault (hnever fault)
      exact ⟨hsteady, hcalm.health_eq, hcalm.stopping_eq⟩

/-- An exchange ends a streak, whatever comes of it. -/
theorem Steady.afterExchange (hw : w.Steady n reached shared.stopping)
    (hfailures : w.standing.failures = 0) (now : Span) (job : Job R) (pool : Nat) (since : Span)
    (connection : Connection) (progress : Exchange.Progress) :
    (w.afterExchange shared now job pool since connection progress).worker.Steady n reached
        shared.stopping ∧
      (w.afterExchange shared now job pool since connection progress).Calm shared := by
  cases progress with
  | reading => exact ⟨⟨hw.size_pools, hw.nextPool_lt, hw.degraded_eq, hfailures⟩, rfl, rfl⟩
  | finished result =>
    rw [Worker.afterExchange]
    dsimp only
    split
    · exact ⟨⟨hw.size_pools, hw.nextPool_lt, hw.degraded_eq, trivial⟩, rfl, rfl⟩
    · next p hpool =>
      have hsize (q : Pool) : (w.pools.setIfInBounds pool q).size = n := by
        rw [Array.size_setIfInBounds, hw.size_pools]
      have hstreak : Streak n reached w.nextPool w.standing.failures := by
        rw [hfailures]
        exact .zero hw.nextPool_lt
      cases result with
      | ok exchange =>
        exact ⟨⟨hsize _, hw.nextPool_lt, hw.degraded_eq, .inr hstreak⟩, rfl, rfl⟩
      | error fault =>
        exact ⟨⟨hsize _, hw.nextPool_lt, hw.degraded_eq, .inr hstreak⟩, rfl, rfl⟩

/-- **A worker that misses none of the endpoints that are reached stays as it is**: not degraded. -/
theorem Steady.step [Weights.Weight R] (hw : w.Steady n reached shared.stopping)
    (hdense : Dense n reached) (now : Span) (s : Signal)
    (hmisses : ∀ g, reached g → w.misses shared.stopping (w.step shared now s) g = false) :
    (w.step shared now s).worker.Steady n reached shared.stopping ∧
      (w.step shared now s).Calm shared := by
  have hphase := hw.phase
  have hturn (hidle : shared.stopping = true ∨ Streak n reached w.nextPool w.standing.failures) :
      (if shared.stopping then w.stop shared else w.draw shared now).worker.Steady n reached
          shared.stopping ∧
        (if shared.stopping then w.stop shared else w.draw shared now).Calm shared := by
    split
    · exact ⟨⟨hw.size_pools, hw.nextPool_lt, hw.degraded_eq, trivial⟩, rfl, rfl⟩
    · next hgoing => exact hw.draw hdense (hidle.resolve_left hgoing) now
  rw [step.eq_def] at hmisses ⊢
  dsimp only at hmisses ⊢
  split at hmisses
  · next h =>
    rw [h] at hphase
    exact ⟨⟨hw.size_pools, hw.nextPool_lt, hw.degraded_eq, hphase⟩, rfl, rfl⟩
  · next h => exact hturn (by rwa [h] at hphase)
  · next h => exact hturn (by rwa [h] at hphase)
  · next job pool since acquire s h =>
    rw [h] at hphase
    obtain ⟨hnext, hstreak⟩ := hphase
    split at hmisses
    · exact ⟨hw, rfl, rfl⟩
    · next p hpool =>
      have hsize : (w.pools.setIfInBounds pool (p.advance acquire now s).1).size = n := by
        rw [Array.size_setIfInBounds, hw.size_pools]
      obtain ⟨hsteady, hcalm⟩ := steady_afterAcquire
        { w with pools := w.pools.setIfInBounds pool (p.advance acquire now s).1 } shared now job
        pool since (p.advance acquire now s).2.1 hdense hsize hw.degraded_eq hw.nextPool_lt hnext
        hstreak fun fault hfault hreached => by
          have hmiss := hmisses pool hreached
          rw [misses, h, hfault] at hmiss
          simp [afterAcquire] at hmiss
      exact ⟨hsteady, hcalm.health_eq, hcalm.stopping_eq⟩
  · next job pool since acquire h =>
    rw [h] at hphase
    obtain ⟨hnext, hstreak⟩ := hphase
    split at hmisses
    · exact ⟨hw, rfl, rfl⟩
    · next p hpool =>
      refine ⟨⟨?_, hw.nextPool_lt, hw.degraded_eq, ?_⟩, rfl, rfl⟩
      · rw [Array.size_setIfInBounds, hw.size_pools]
      · cases hstopping : shared.stopping with
        | true => exact .inl rfl
        | false =>
          have hnot : ¬reached pool := fun hreached => by
            have hmiss := hmisses pool hreached
            rw [misses, h, hstopping] at hmiss
            simp at hmiss
          rw [hnext]
          exact .inr ((hstreak.succ hnot).mono (Nat.le_succ _))
  · next job pool since connection written s h =>
    rw [h] at hphase
    exact hw.afterExchange hphase now job pool since _ _
  · exact ⟨hw, rfl, rfl⟩

/-! ### The course of the run -/

theorem stopping_afterAcquire (w : Worker R) (shared : Shared R) (now : Span) (job : Job R)
    (pool : Nat) (since : Span) (progress : Acquire.Progress) :
    (w.afterAcquire shared now job pool since progress).shared.stopping = shared.stopping := by
  cases progress <;> rfl

theorem stopping_afterExchange (w : Worker R) (shared : Shared R) (now : Span) (job : Job R)
    (pool : Nat) (since : Span) (connection : Connection) (progress : Exchange.Progress) :
    (w.afterExchange shared now job pool since connection progress).shared.stopping =
      shared.stopping := by
  cases progress with
  | reading => rfl
  | finished result =>
    rw [afterExchange]
    dsimp only
    split
    · rfl
    · cases result <;> rfl

theorem stopping_draw [Weights.Weight R] (w : Worker R) (shared : Shared R) (now : Span) :
    (w.draw shared now).shared.stopping = shared.stopping := by
  rw [draw]
  split
  · rfl
  · rfl
  · dsimp only
    split
    · rfl
    · exact stopping_afterAcquire _ _ _ _ _ _ _

/-- No worker decides that the run is to stop. -/
theorem stopping_step [Weights.Weight R] (w : Worker R) (shared : Shared R) (now : Span)
    (s : Signal) : (w.step shared now s).shared.stopping = shared.stopping := by
  have hturn : (if shared.stopping then w.stop shared else w.draw shared now).shared.stopping =
      shared.stopping := by
    split
    · rfl
    · exact w.stopping_draw shared now
  rw [step.eq_def]
  dsimp only
  split
  · rfl
  · exact hturn
  · exact hturn
  · split
    · rfl
    · exact stopping_afterAcquire _ _ _ _ _ _ _
  · split <;> rfl
  · exact stopping_afterExchange _ _ _ _ _ _ _ _
  · rfl

theorem Steady.of_stopping {stopping stopping' : Bool} (hw : w.Steady n reached stopping)
    (hstopping : stopping = true → stopping' = true) : w.Steady n reached stopping' where
  size_pools := hw.size_pools
  nextPool_lt := hw.nextPool_lt
  degraded_eq := hw.degraded_eq
  phase := by
    have hphase := hw.phase
    generalize w.phase = phase at hphase ⊢
    cases phase with
    | fresh => exact hphase.imp_left hstopping
    | ready => exact hphase.imp_left hstopping
    | resting => exact hphase.imp_left hstopping
    | _ => exact hphase

end Worker

/-! ## Runs -/

namespace Chronicle

variable [Weights.Weight R]

/-- Whether an acquire of a client at the endpoint at `g` ends without a connection in an event. -/
def misses (c : Chronicle R) (client g : Nat) : Event → Bool
  | .signal client' now s =>
    client' == client && (c.run.workers[client]?).any fun w =>
      w.misses c.run.shared.stopping (w.step c.run.shared now s) g
  | .wakeup .. => false

/-- Whether all acquires of a client at the endpoint at `g` succeed. -/
def reaches (client g : Nat) (c : Chronicle R) : List Event → Bool
  | [] => true
  | e :: events => !c.misses client g e && reaches client g (c.step e) events

/-- Whether all acquires of a client at the endpoint at `g` succeed in a run from its start. -/
def Reaches (config : Config R) (entropy : UInt64) (events : List Event) (client g : Nat) : Prop :=
  ((Run.start config entropy).toOption.all fun (r, _) => reaches client g (start r) events) = true

instance (config : Config R) (entropy : UInt64) (events : List Event) (client g : Nat) :
    Decidable (Reaches config entropy events client g) :=
  inferInstanceAs (Decidable (_ = true))

/-- The worker of a client is not degraded. -/
def Steady (n : Nat) (reached : Nat → Prop) (client : Nat) (c : Chronicle R) : Prop :=
  ∀ w, c.run.workers[client]? = some w → w.Steady n reached c.run.shared.stopping

variable {n : Nat} {reached : Nat → Prop} {client : Nat} {c : Chronicle R}

omit [Weights.Weight R] in
/-- The run loop leaves the workers alone, and may decide that the run is to stop. -/
theorem attend_workers (c : Chronicle R) (now : Span) (cause : Wakeup) :
    (c.attend now cause).run.workers = c.run.workers ∧
      (c.run.shared.stopping = true → (c.attend now cause).run.shared.stopping = true) := by
  refine ⟨(c.attend_frame now cause).2.1, fun hstopping => ?_⟩
  cases cause with
  | tick =>
    rw [attend, Run.tick]
    dsimp only
    split
    · rfl
    · exact hstopping
  | ended client =>
    rw [attend, Run.join]
    split
    · rfl
    · exact hstopping
  | lost reason => rfl
  | health =>
    rw [attend, Run.checkHealth]
    dsimp only
    split
    · rfl
    · exact hstopping
  | shutDown => rfl

/-- An event in which the client misses none of the endpoints that are reached. -/
theorem Steady.step (hc : c.Steady n reached client) (hdense : Dense n reached) {e : Event}
    (hmisses : ∀ g, reached g → c.misses client g e = false) :
    (c.step e).Steady n reached client := by
  cases e with
  | signal client' now s =>
    rw [Chronicle.step, work]
    cases hw : c.run.workers[client']? with
    | none => exact hc
    | some w =>
      dsimp only
      rw [Run.work_eq hw]
      intro w' hw'
      obtain ⟨hlt, -⟩ := Array.getElem?_eq_some_iff.1 hw
      dsimp only at hw' ⊢
      rw [Array.getElem?_setIfInBounds, if_pos hlt] at hw'
      rw [w.stopping_step]
      split at hw'
      · next hsame =>
        subst hsame
        cases hw'
        refine ((hc w hw).step hdense now s fun g hg => ?_).1
        have hmiss := hmisses g hg
        rw [misses, hw, beq_self_eq_true, Bool.true_and] at hmiss
        exact hmiss
      · exact hc w' hw'
  | wakeup now cause =>
    rw [Chronicle.step]
    split
    · obtain ⟨hworkers, hstopping⟩ := c.attend_workers now cause
      intro w hw
      rw [hworkers] at hw
      exact (hc w hw).of_stopping hstopping
    · exact hc

/-- A client misses none of endpoints that are dense in the rotation, in what is to come. -/
def InReach (n client : Nat) (events : List Event) (c : Chronicle R) : Prop :=
  ∃ reached, Dense n reached ∧ c.Steady n reached client ∧
    ∀ g, reached g → c.reaches client g events = true

theorem InReach.step {e : Event} {events : List Event} (h : c.InReach n client (e :: events)) :
    (c.step e).InReach n client events := by
  obtain ⟨reached, hdense, hc, hreaches⟩ := h
  have hboth (g : Nat) (hg : reached g) :
      c.misses client g e = false ∧ (c.step e).reaches client g events = true := by
    have h := hreaches g hg
    rwa [reaches, Bool.and_eq_true, Bool.not_eq_true'] at h
  exact ⟨reached, hdense, hc.step hdense fun g hg => (hboth g hg).1, fun g hg => (hboth g hg).2⟩

theorem InReach.degraded_eq {events : List Event} (h : c.InReach n client events) {w : Worker R}
    (hw : c.run.workers[client]? = some w) : w.standing.degraded = false := by
  obtain ⟨reached, -, hc, -⟩ := h
  exact (hc w hw).degraded_eq

theorem InReach.steps {events : List Event} (h : c.InReach n client events) :
    (c.steps events).InReach n client [] := by
  induction events generalizing c with
  | nil => exact h
  | cons e events ih => exact ih h.step

/-- Workers are in reach at the start if one of their endpoints always is. -/
theorem inReach_start {config : Config R} {entropy : UInt64} {events : List Event} {r : Run R}
    {log : List Log.Event} (hr : Run.start config entropy = .ok (r, log))
    (hdense : Dense config.endpoints.length reached)
    (hreaches : ∀ g, reached g → Reaches config entropy events client g) :
    (start r).InReach config.endpoints.length client events := by
  obtain ⟨-, -, hends, hworkers⟩ := Run.start_eq hr
  refine ⟨reached, hdense, fun w hw => ?_, fun g hg => ?_⟩
  · obtain ⟨id, source, rfl⟩ := hworkers w (Array.mem_of_getElem? hw)
    exact Worker.steady_new hends id source _
  · have hreach := hreaches g hg
    rwa [Reaches, hr] at hreach

/-! ### The health of the run -/

omit [Weights.Weight R] in
/-- No notice is left, and the run does not end for want of healthy workers. -/
structure Healthy (c : Chronicle R) : Prop where
  notice_eq : c.run.shared.health.notice = false
  verdict_ne : ∀ now, c.run.verdict ≠ some (.failed .noHealthyWorkers, now)

omit [Weights.Weight R] in
theorem Healthy.attend (hc : c.Healthy) (now : Span) (cause : Wakeup) :
    (c.attend now cause).Healthy := by
  cases cause with
  | tick =>
    rw [Chronicle.attend, Run.tick]
    dsimp only
    split
    · exact ⟨hc.notice_eq, fun _ hfailed => by cases hfailed⟩
    · exact ⟨hc.notice_eq, hc.verdict_ne⟩
  | ended client =>
    rw [Chronicle.attend, Run.join]
    split
    · exact ⟨hc.notice_eq, fun _ hfailed => by cases hfailed⟩
    · exact hc
  | lost reason => exact ⟨hc.notice_eq, fun _ hfailed => by cases hfailed⟩
  | health =>
    rw [Chronicle.attend, Run.checkHealth, Health.takeNotice_eq, hc.notice_eq]
    exact ⟨rfl, hc.verdict_ne⟩
  | shutDown => exact ⟨hc.notice_eq, fun _ hfailed => by cases hfailed⟩

theorem size_step (c : Chronicle R) (e : Event) :
    (c.step e).run.workers.size = c.run.workers.size := by
  cases e with
  | signal client now s =>
    rw [Chronicle.step, work]
    cases hw : c.run.workers[client]? with
    | none => rfl
    | some w =>
      dsimp only
      rw [Run.work_eq hw]
      exact Array.size_setIfInBounds
  | wakeup now cause =>
    rw [Chronicle.step]
    split
    · rw [(c.attend_workers now cause).1]
    · rfl

theorem Healthy.step (hc : c.Healthy) {e : Event} {events : List Event}
    (hall : ∀ client < c.run.workers.size, c.InReach n client (e :: events)) :
    (c.step e).Healthy := by
  cases e with
  | signal client now s =>
    rw [Chronicle.step, work]
    cases hw : c.run.workers[client]? with
    | none => exact hc
    | some w =>
      obtain ⟨hlt, -⟩ := Array.getElem?_eq_some_iff.1 hw
      obtain ⟨reached, hdense, hsteady, hreaches⟩ := hall client hlt
      obtain ⟨-, hcalm⟩ := (hsteady w hw).step hdense now s fun g hg => by
        have hreach := hreaches g hg
        rw [reaches, Bool.and_eq_true, Bool.not_eq_true', misses, hw, beq_self_eq_true,
          Bool.true_and] at hreach
        exact hreach.1
      dsimp only
      rw [Run.work_eq hw]
      exact ⟨hcalm.health_eq ▸ hc.notice_eq, hc.verdict_ne⟩
  | wakeup now cause =>
    rw [Chronicle.step]
    split
    · exact hc.attend now cause
    · exact hc

theorem Healthy.steps (hc : c.Healthy) {events : List Event}
    (hall : ∀ client < c.run.workers.size, c.InReach n client events) :
    (c.steps events).Healthy := by
  induction events generalizing c with
  | nil => exact hc
  | cons e events ih =>
    refine ih (hc.step hall) fun client hclient => (hall client ?_).step
    rwa [c.size_step] at hclient

theorem healthy_start {config : Config R} {entropy : UInt64} {r : Run R} {log : List Log.Event}
    (hr : Run.start config entropy = .ok (r, log)) : (start r).Healthy := by
  rw [Run.start] at hr
  split at hr
  · cases hr
  · cases hr
    exact ⟨rfl, fun _ hfailed => by cases hfailed⟩

omit [Weights.Weight R] in
/-- The result of a run is that nobody is healthy only if that was decided. -/
theorem Healthy.result_ne (hc : c.Healthy) : c.run.result ≠ .error .noHealthyWorkers := by
  have hverdict := hc.verdict_ne
  intro hresult
  rw [Run.result] at hresult
  generalize c.run.verdict = verdict at hverdict hresult
  dsimp only at hresult
  split at hresult
  · next fault now =>
    cases hresult
    exact hverdict now rfl
  all_goals (split at hresult <;> cases hresult)

section Reached

variable {config : Config R} {entropy : UInt64} {events : List Event}

/-- **A worker is not degraded** if it always reaches endpoints that are dense in the rotation. -/
theorem not_degraded_of_dense (h : run? config entropy events = some c)
    (hdense : Dense config.endpoints.length reached)
    (hreaches : ∀ g, reached g → Reaches config entropy events client g) {w : Worker R}
    (hw : c.run.workers[client]? = some w) : w.standing.degraded = false := by
  obtain ⟨⟨r, log⟩, hr, hc⟩ := Option.bind_eq_some_iff.1 h
  cases hc
  exact (inReach_start (Config.eq_ok_of_toOption hr) hdense hreaches).steps.degraded_eq hw

/-- **A worker that can reach an endpoint is not degraded**, if there are no more endpoints than
failures in a row that a worker tolerates: whatever becomes of acquires at other endpoints, of
operations and of the other workers. If this is so of all workers, then the run does not end for want
of healthy ones. -/
theorem not_degraded_of_reached (hfew : config.endpoints.length ≤ Standing.tolerance)
    (h : run? config entropy events = some c) :
    (∀ client w, c.run.workers[client]? = some w →
      (∃ g < config.endpoints.length, Reaches config entropy events client g) →
      w.standing.degraded = false) ∧
    ((∀ client < config.general.clients,
        ∃ g < config.endpoints.length, Reaches config entropy events client g) →
      (∀ now, c.run.verdict ≠ some (.failed .noHealthyWorkers, now)) ∧
        c.run.result ≠ .error .noHealthyWorkers) := by
  refine ⟨fun client w hw ⟨g, hg, hreaches⟩ => ?_, fun hall => ?_⟩
  · exact not_degraded_of_dense h (dense_of_le hg hfew) (fun _ hsame => hsame ▸ hreaches) hw
  · obtain ⟨⟨r, log⟩, hr, hc⟩ := Option.bind_eq_some_iff.1 h
    cases hc
    replace hr := Config.eq_ok_of_toOption hr
    obtain ⟨-, hsize, -⟩ := Run.start_eq hr
    have hhealthy : ((start r).steps events).Healthy :=
      (healthy_start hr).steps fun client hclient => by
        obtain ⟨g, hg, hreaches⟩ := hall client (hsize ▸ hclient)
        exact inReach_start hr (dense_of_le hg hfew) fun _ hsame => hsame ▸ hreaches
    exact ⟨hhealthy.verdict_ne, hhealthy.result_ne⟩

end Reached

/-! ### All endpoints but one are lost -/

/-- One client and up to 26 endpoints. -/
def rotation (endpoints : Nat) : Config.Draft ℚ :=
  { Trial.sampleDraft 1 1 with
    endpoints := ("abcdefghijklmnopqrstuvwxyz".toList.take endpoints).map fun host =>
      String.ofList [host, ':', '1']
    keyspaces :=
      [{ length := 1, count := 1, weight := 1, commands := [{ action := "len", weight := 1 }],
         values := [] }] }

/-- A request goes to the first endpoint, no connection is made to the others when it is their turn,
and then the run loop looks after the health of the workers. -/
def lateOutage (endpoints : Nat) : List Event :=
  told 0 .zero [.resume, .resume, .acquire (.connected 0), .exchange .written,
    .exchange (.received (Wire.textBytes ":0\r\n"))] ++
  (List.replicate (endpoints - 1) (told 0 .zero [.resume, .acquire .timeUp])).flatten ++
  [.wakeup .zero .health]

/-- As many endpoints as failures that are tolerated. -/
def fewEndpoints : Config ℚ := .checked (rotation 16) (by decide +kernel)

/-- One more. -/
def manyEndpoints : Config ℚ := .checked (rotation 17) (by decide +kernel)

def fewLost : Chronicle ℚ := (run? fewEndpoints 0 (lateOutage 16)).get (by decide +kernel)

def manyLost : Chronicle ℚ := (run? manyEndpoints 0 (lateOutage 17)).get (by decide +kernel)

theorem not_degraded_of_reached_few :
    Reaches fewEndpoints 0 (lateOutage 16) 0 0 ∧
      fewLost.run.workers.toList.map (·.standing) = [⟨15, false⟩] ∧
      fewLost.run.result ≠ .error .noHealthyWorkers := by
  have hreaches : Reaches fewEndpoints 0 (lateOutage 16) 0 0 := by decide +kernel
  have hrun : run? fewEndpoints 0 (lateOutage 16) = some fewLost := (Option.some_get _).symm
  have hone : fewEndpoints.general.clients = 1 := by decide +kernel
  obtain ⟨-, hresult⟩ := not_degraded_of_reached (by decide +kernel) hrun
  refine ⟨hreaches, by decide +kernel, (hresult fun client hclient => ?_).2⟩
  obtain rfl : client = 0 := by omega
  exact ⟨0, by decide +kernel, hreaches⟩

/-- **With one more endpoint a worker is degraded that reaches one of them**, and the run ends for
want of healthy workers. -/
theorem degraded_in_reach :
    run? manyEndpoints 0 (lateOutage 17) = some manyLost ∧
      manyEndpoints.endpoints.length = Standing.tolerance + 1 ∧
      (∀ client < manyEndpoints.general.clients, ∃ g < manyEndpoints.endpoints.length,
        Reaches manyEndpoints 0 (lateOutage 17) client g) ∧
      manyLost.run.workers.toList.map (·.standing) = [⟨16, true⟩] ∧
      manyLost.run.result = .error .noHealthyWorkers := by
  have hone : manyEndpoints.general.clients = 1 := by decide +kernel
  refine ⟨(Option.some_get _).symm, by decide +kernel, fun client hclient => ?_,
    by decide +kernel, ?_⟩
  · obtain rfl : client = 0 := by omega
    exact ⟨0, by decide +kernel, by decide +kernel⟩
  · have hends : (match manyLost.run.result with
        | .error .noHealthyWorkers => true
        | _ => false) = true := by decide +kernel
    split at hends
    · next hresult => exact hresult
    · cases hends

end Chronicle

end LoadGen
