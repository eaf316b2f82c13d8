import LoadGen.Proofs.Trial.Basic
import LoadGen.Proofs.Workload.Selects

/-!
# Turns of a worker

What one signal can do to a worker, as far as operations are concerned (`Turns`): the worker goes on
with what it has, draws an operation, drops the one it has, or completes it with a response.
`Sound.step_spec` says that there is nothing else, and in particular that a sound worker never
aborts; `Run.signal_spec` says what a turn leaves of the run around it.
-/

namespace LoadGen

open Config (Keyspace)
open Stats (Entry)
open Time (Span)

variable {R : Type}

/-- A job belongs to a configuration: its request carries out its operation. -/
structure Job.Fits (config : Config R) (job : Job R) : Prop where
  mem_keyspaces : job.operation.keyspace ∈ config.keyspaces.items
  keyIndex_lt : job.operation.keyIndex < job.operation.keyspace.count
  action_eq : job.request.action = job.operation.action
  key_eq : job.request.key = job.operation.keyspace.key job.operation.keyIndex

/-- No acquire fails as it begins. -/
theorem Pool.acquire_ne_failed (p : Pool) (now : Span) (fault : AcquireFault) :
    (p.acquire now).2 ≠ .failed fault := by
  rw [acquire, enter]
  split
  · exact nofun
  · split <;> exact nofun

namespace Worker

/-- What is known of the phase of a worker with `pools` pools. -/
def Phase.Sound (config : Config R) (pools : Nat) : Phase R → Prop
  | .acquiring job pool _ _ => job.Fits config ∧ pool < pools
  | .exchanging job pool _ _ _ => job.Fits config ∧ pool < pools
  | .aborted _ => False
  | _ => True

/-- What is known of a worker. -/
structure Sound (config : Config R) (w : Worker R) : Prop where
  nextPool_lt : w.nextPool < w.pools.size
  phase : w.phase.Sound config w.pools.size

theorem sound_new {config : Config R} (h : config.endpoints ≠ []) (id : Nat)
    (source : Random.Source) : (new config id source).Sound config where
  nextPool_lt := by
    rw [new, List.size_toArray, List.length_map]
    exact List.length_pos_of_ne_nil h
  phase := trivial

theorem Sound.job_fits {config : Config R} {w : Worker R} (hw : w.Sound config) {job : Job R}
    (h : w.phase.job? = some job) : job.Fits config := by
  have hphase := hw.phase
  generalize w.phase = phase at h hphase
  cases phase with
  | acquiring => cases h; exact hphase.1
  | exchanging => cases h; exact hphase.1
  | _ => cases h

theorem Phase.job?_of_sending? {phase : Phase R} {job : Job R} (h : phase.sending? = some job) :
    phase.job? = some job := by
  cases phase with
  | exchanging => exact h
  | _ => cases h

/-- What a signal can do to a worker. -/
inductive Turns (w : Worker R) (workload : Workload R) (s : Signal) (turn : Turn R) : Prop
  | kept (hjob : turn.worker.phase.job? = w.phase.job?)
      (hworkload : turn.shared.workload = workload)
      (hentries : ∀ e ∈ turn.entries, e.outcome = .skipped)
  | drawn {job : Job R} (hbefore : w.phase.job? = none)
      (hafter : turn.worker.phase.job? = some job)
      (h : workload.Selects (.dispatched job.operation) turn.shared.workload)
      (hentries : turn.entries = [])
  | dropped {job : Job R} (hbefore : w.phase.job? = some job)
      (hafter : turn.worker.phase.job? = none) (h : ∀ answer, w.receives s answer = false)
  | completed {job : Job R} {response : Wire.Response} {entry : Entry}
      (hbefore : w.phase.job? = some job) (hafter : turn.worker.phase.job? = none)
      (hworkload : turn.shared.workload = workload.complete job.operation response)
      (hentries : turn.entries = [entry])
      (houtcome : entry.outcome = (outcomeOf job.operation response).1)
      (hanswer : ∀ answer, w.receives s answer = answer.agrees response)

section Spec

variable {config : Config R} {w : Worker R} (hw : w.Sound config) (shared : Shared R) (now : Span)

include hw

theorem Sound.afterAcquire_spec {job : Job R} (hjob : job.Fits config) (pool : Nat)
    (hpool : pool < w.pools.size) (since : Span) (progress : Acquire.Progress) :
    (w.afterAcquire shared now job pool since progress).shared.workload = shared.workload ∧
      (w.afterAcquire shared now job pool since progress).worker.Sound config ∧
      ((w.afterAcquire shared now job pool since progress).worker.phase.job? = some job ∧
          (w.afterAcquire shared now job pool since progress).entries = [] ∨
        (∃ fault, progress = .failed fault) ∧
          (w.afterAcquire shared now job pool since progress).worker.phase.job? = none) := by
  cases progress with
  | pending acquire => exact ⟨rfl, ⟨hw.nextPool_lt, hjob, hpool⟩, .inl ⟨rfl, rfl⟩⟩
  | ready connection => exact ⟨rfl, ⟨hw.nextPool_lt, hjob, hpool⟩, .inl ⟨rfl, rfl⟩⟩
  | failed fault => exact ⟨rfl, ⟨hw.nextPool_lt, trivial⟩, .inr ⟨⟨fault, rfl⟩, rfl⟩⟩

omit hw in
/-- A request keeps the action and the key of its operation. -/
theorem fits_request {o : Operation R} (ho : o.keyspace ∈ config.keyspaces.items)
    (hi : o.keyIndex < o.keyspace.count) (source : Random.Source) :
    Job.Fits config ⟨o, (request o source).1⟩ where
  mem_keyspaces := ho
  keyIndex_lt := hi
  action_eq := rfl
  key_eq := rfl

theorem Sound.draw_spec [Weights.Weight R] (hworkload : shared.workload.Sound config)
    (hbefore : w.phase.job? = none) (s : Signal) :
    Turns w shared.workload s (w.draw shared now) ∧ (w.draw shared now).worker.Sound config := by
  obtain ⟨sel, workload, source, hselect, h⟩ := hworkload.select_spec w.source
  rw [draw, hselect]
  cases h with
  | skipped k a => exact ⟨.kept hbefore.symm rfl (by simp), ⟨hw.nextPool_lt, trivial⟩⟩
  | @dispatched o _ hk h =>
    rw [hworkload.config_eq] at hk
    have hfits := fits_request hk (hworkload.claimed_lt hk h) source
    dsimp only
    generalize request o source = made at hfits ⊢
    obtain ⟨request, source⟩ := made
    dsimp only at hfits ⊢
    obtain ⟨pool, hpool⟩ : ∃ pool, w.pools[w.nextPool]? = some pool :=
      ⟨_, Array.getElem?_eq_getElem hw.nextPool_lt⟩
    rw [hpool]
    have hprogress := pool.acquire_ne_failed now
    dsimp only
    generalize pool.acquire now = acquired at hprogress ⊢
    obtain ⟨pool, progress⟩ := acquired
    have hdrawn : Sound config { w with
        source
        pools := w.pools.setIfInBounds w.nextPool pool
        nextPool := (w.nextPool + 1) % w.pools.size } :=
      ⟨by simpa using Nat.mod_lt _ (Nat.zero_lt_of_lt hw.nextPool_lt), by simpa using hw.phase⟩
    obtain ⟨hshared, hsound, hafter⟩ := hdrawn.afterAcquire_spec { shared with workload } now hfits
      w.nextPool (by simpa using hw.nextPool_lt) now progress
    rcases hafter with ⟨hjob, hentries⟩ | ⟨⟨fault, hfault⟩, -⟩
    · refine ⟨.drawn hbefore hjob ?_ hentries, hsound⟩
      rw [hshared]
      exact .dispatched (hworkload.config_eq ▸ hk) h
    · exact absurd hfault (hprogress fault)

theorem Sound.afterExchange_spec [Weights.Weight R] {job : Job R} (hjob : job.Fits config) {pool : Nat}
    (hpool : pool < w.pools.size) (since : Span) (connection : Connection)
    (progress : Exchange.Progress) (hbefore : w.phase.job? = some job) {s : Signal}
    (hreceives : ∀ answer, w.receives s answer = progress.agrees answer) :
    Turns w shared.workload s (w.afterExchange shared now job pool since connection progress) ∧
      (w.afterExchange shared now job pool since connection progress).worker.Sound config := by
  cases progress with
  | reading => exact ⟨.kept hbefore.symm rfl nofun, ⟨hw.nextPool_lt, hjob, hpool⟩⟩
  | finished result =>
    rw [afterExchange]
    dsimp only
    rw [Array.getElem?_eq_getElem hpool]
    cases result with
    | error fault => exact ⟨.dropped hbefore rfl hreceives, ⟨by simpa using hw.nextPool_lt, trivial⟩⟩
    | ok exchange =>
      obtain ⟨response, sent, received⟩ := exchange
      exact ⟨.completed hbefore rfl rfl rfl rfl hreceives, ⟨by simpa using hw.nextPool_lt, trivial⟩⟩

/-- **A worker does nothing else.** -/
theorem Sound.step_spec [Weights.Weight R] (hworkload : shared.workload.Sound config) (s : Signal) :
    Turns w shared.workload s (w.step shared now s) ∧ (w.step shared now s).worker.Sound config := by
  have hphase := hw.phase
  rw [step.eq_def]
  dsimp only
  split
  · next h => exact ⟨.kept (by rw [h]; rfl) rfl nofun, ⟨hw.nextPool_lt, trivial⟩⟩
  · next h =>
    split
    · exact ⟨.kept (by rw [h]; rfl) rfl nofun, ⟨hw.nextPool_lt, trivial⟩⟩
    · exact hw.draw_spec shared now hworkload (by rw [h]; rfl) _
  · next h =>
    split
    · exact ⟨.kept (by rw [h]; rfl) rfl nofun, ⟨hw.nextPool_lt, trivial⟩⟩
    · exact hw.draw_spec shared now hworkload (by rw [h]; rfl) _
  · next job pool since acquire s h =>
    rw [h] at hphase
    obtain ⟨hjob, hpool⟩ := hphase
    rw [Array.getElem?_eq_getElem hpool]
    dsimp only
    generalize w.pools[pool].advance acquire now s = advanced
    obtain ⟨p, progress, noted⟩ := advanced
    have hadvanced : Sound config { w with pools := w.pools.setIfInBounds pool p } :=
      ⟨by simpa using hw.nextPool_lt, by simpa using hw.phase⟩
    obtain ⟨hshared, hsound, hafter⟩ := hadvanced.afterAcquire_spec shared now hjob pool
      (by simpa using hpool) since progress
    refine ⟨?_, hsound⟩
    rcases hafter with ⟨hafter, hentries⟩ | ⟨-, hafter⟩
    · exact .kept (by rw [h]; exact hafter) hshared (by rw [hentries]; exact nofun)
    · exact .dropped (by rw [h]; rfl) hafter (by simp [receives, h])
  · next job pool since acquire h =>
    rw [h] at hphase
    obtain ⟨hjob, hpool⟩ := hphase
    rw [Array.getElem?_eq_getElem hpool]
    refine ⟨.dropped (by rw [h]; rfl) rfl ?_, ⟨by simpa using hw.nextPool_lt, trivial⟩⟩
    simp [receives, h]
  · next job pool since connection written s h =>
    rw [h] at hphase
    obtain ⟨hjob, hpool⟩ := hphase
    refine hw.afterExchange_spec shared now hjob hpool since _ _ (by rw [h]; rfl) fun answer => ?_
    simp only [receives, h]
  · exact ⟨.kept rfl rfl nofun, hw⟩

end Spec

end Worker

/-! ## Turns in a run -/

namespace Run

/-- The operation that a client has under way. -/
def job? (r : Run R) (client : Nat) : Option (Job R) :=
  r.workers[client]?.bind (·.phase.job?)

theorem lt_size_of_job? {r : Run R} {client : Nat} {job : Job R} (h : r.job? client = some job) :
    client < r.workers.size := by
  obtain ⟨w, hw, -⟩ := Option.bind_eq_some_iff.1 h
  exact (Array.getElem?_eq_some_iff.1 hw).1

theorem length_seeds (n : Nat) (source : Random.Source) : (seeds n source).length = n := by
  induction n generalizing source with
  | zero => rfl
  | succ n ih => exact congrArg (· + 1) (ih _)

/-- A window that is sealed is of no concern to the workers. -/
theorem tick_frame (r : Run R) (now : Span) :
    (r.tick now).1.shared.workload = r.shared.workload ∧ (r.tick now).1.workers = r.workers := by
  rw [tick]
  dsimp only
  split <;> exact ⟨rfl, rfl⟩

theorem checkHealth_frame (r : Run R) (now : Span) :
    (r.checkHealth now).1.shared.workload = r.shared.workload ∧
      (r.checkHealth now).1.workers = r.workers := by
  rw [checkHealth]
  dsimp only
  split <;> exact ⟨rfl, rfl⟩

variable [Weights.Weight R] {r : Run R} {client : Nat} {w : Worker R}

/-- What becomes of a run when a client has had a turn. -/
structure After (r : Run R) (client : Nat) (turn : Worker.Turn R) (r' : Run R) : Prop where
  size_workers : r'.workers.size = r.workers.size
  workload_eq : r'.shared.workload = turn.shared.workload
  mem_workers : ∀ w ∈ r'.workers, w ∈ r.workers ∨ w = turn.worker
  job?_eq : ∀ c, r'.job? c = if client = c then turn.worker.phase.job? else r.job? c

theorem signal_spec (h : r.workers[client]? = some w) (now : Span) (s : Signal) :
    r.After client (w.step r.shared now s) (r.signal client now s).1 := by
  have hworkers : (r.signal client now s).1.workers =
      r.workers.setIfInBounds client (w.step r.shared now s).worker := by
    rw [signal, h]
    dsimp only
    split <;> rfl
  obtain ⟨hlt, -⟩ := Array.getElem?_eq_some_iff.1 h
  exact
  { size_workers := by rw [hworkers, Array.size_setIfInBounds]
    workload_eq := by
      rw [signal, h]
      dsimp only
      split <;> rfl
    mem_workers := by
      rw [hworkers]
      exact fun _ => Array.mem_or_eq_of_mem_setIfInBounds
    job?_eq := fun c => by
      rw [job?, hworkers, Array.getElem?_setIfInBounds, if_pos hlt, job?]
      split
      · rw [Option.bind_some]
      · rfl }

/-- A run begins with the workload and the workers of its configuration. -/
theorem start_eq {config : Config R} {entropy : UInt64} {log : List Log.Event}
    (h : start config entropy = .ok (r, log)) :
    r.shared.workload = .new config ∧ r.workers.size = config.general.clients ∧
      config.endpoints ≠ [] ∧ ∀ w ∈ r.workers, ∃ id source, w = Worker.new config id source := by
  rw [start] at h
  split at h
  · cases h
  · next hends =>
    cases h
    refine ⟨rfl, ?_, by simpa using hends, ?_⟩
    · simp [length_seeds]
    · intro w hw
      rw [List.mem_toArray, List.mem_map] at hw
      obtain ⟨⟨seed, id⟩, -, rfl⟩ := hw
      exact ⟨id, .ofSeed seed, rfl⟩

/-- No client has an operation under way at the start. -/
theorem job?_start {config : Config R} {entropy : UInt64} {log : List Log.Event}
    (h : start config entropy = .ok (r, log)) (client : Nat) : r.job? client = none := by
  obtain ⟨-, -, -, hworkers⟩ := start_eq h
  rw [job?]
  cases hw : r.workers[client]? with
  | none => rfl
  | some w =>
    obtain ⟨id, source, rfl⟩ := hworkers w (Array.mem_of_getElem? hw)
    rfl

end Run

theorem Trial.Quiescent.job?_eq_none {t : Trial R} (h : t.Quiescent) (client : Nat) :
    t.run.job? client = none := by
  rw [Run.job?]
  cases hw : t.run.workers[client]? with
  | none => rfl
  | some w => exact h w (Array.mem_of_getElem? hw)

end LoadGen
