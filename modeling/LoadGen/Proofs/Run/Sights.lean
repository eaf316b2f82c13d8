import LoadGen.Proofs.Run.Reach

/-!
# What a client sees of a run

All that a client of a run gets to see are the signals it is given, each with the moment and the
state of what it shares with the others (`Sight`). Its worker after any events is that after the
sights they come to (`Chronicle.getElem?_workers_steps`), so that what is said of a worker and of
whatever it may see holds in every run. A run keeps its workload and its workers sound
(`Chronicle.Sound`), and with them all that a client sees.
-/

namespace LoadGen

open Time (Span)

variable {R : Type}

/-- What a worker finds when it gets a signal. -/
structure Sight (R : Type) where
  shared : Shared R
  now : Span
  signal : Signal

namespace Worker

variable [Weights.Weight R]

/-- The turn of a worker at a sight. -/
def turnAt (w : Worker R) (x : Sight R) : Turn R := w.step x.shared x.now x.signal

/-- The worker after what it sees, in order. -/
def after (w : Worker R) : List (Sight R) → Worker R
  | [] => w
  | x :: xs => (w.turnAt x).worker.after xs

theorem after_append (w : Worker R) (xs ys : List (Sight R)) :
    w.after (xs ++ ys) = (w.after xs).after ys := by
  induction xs generalizing w with
  | nil => rfl
  | cons x xs ih => exact ih _

/-! ### What a turn can be -/

omit [Weights.Weight R] in
/-- Whether a worker begins with an operation at a sight. -/
def begins (w : Worker R) (x : Sight R) : Bool :=
  match w.phase, x.signal with
  | .ready, .resume | .resting, .resume => !x.shared.stopping
  | _, _ => false

omit [Weights.Weight R] in
/-- A worker that begins has nothing under way, and the run goes on. -/
theorem of_begins {w : Worker R} {x : Sight R} (h : w.begins x = true) :
    (w.phase = .ready ∨ w.phase = .resting) ∧ x.signal = .resume ∧ x.shared.stopping = false := by
  rw [begins.eq_def] at h
  split at h
  · next hphase hsignal => exact ⟨.inl hphase, hsignal, by simpa using h⟩
  · next hphase hsignal => exact ⟨.inr hphase, hsignal, by simpa using h⟩
  · cases h

theorem turnAt_of_begins {w : Worker R} {x : Sight R} (h : w.begins x = true) :
    w.turnAt x = w.draw x.shared x.now := by
  obtain ⟨hphase, hsignal, hgoing⟩ := of_begins h
  rw [turnAt, hsignal, step.eq_def]
  rcases hphase with hphase | hphase <;> rw [hphase] <;> simp [hgoing]

/-- All that a turn of a worker can be. -/
inductive Acts (w : Worker R) (x : Sight R) : Turn R → Prop
  | unchanged (hbegins : w.begins x = false)
      (hquiet : ∀ s, x.signal = .exchange s → w.phase.sending? = none) :
      Acts w x ⟨w, x.shared, [], []⟩
  | started {events : List Log.Event} (hphase : w.phase = .fresh) :
      Acts w x ⟨{ w with phase := .ready }, x.shared, [], events⟩
  | stopped (hphase : w.phase = .ready ∨ w.phase = .resting)
      (hstopping : x.shared.stopping = true) : Acts w x (w.stop x.shared)
  | begun (hbegins : w.begins x = true) : Acts w x (w.draw x.shared x.now)
  | acquired {job : Job R} {pool : Nat} {since : Span} {acquire : Acquire} {s : Acquire.Signal}
      {p : Pool} {events : List Log.Event} (hphase : w.phase = .acquiring job pool since acquire)
      (hsignal : x.signal = .acquire s) (hpool : w.pools[pool]? = some p) :
      Acts w x { { w with
          pools := w.pools.setIfInBounds pool (p.advance acquire x.now s).1 }.afterAcquire x.shared
            x.now job pool since (p.advance acquire x.now s).2.1 with events }
  | cancelled {job : Job R} {pool : Nat} {since : Span} {acquire : Acquire} {p : Pool}
      (hphase : w.phase = .acquiring job pool since acquire) (hsignal : x.signal = .stop)
      (hpool : w.pools[pool]? = some p) :
      Acts w x ⟨{ w with
          pools := w.pools.setIfInBounds pool (p.cancel acquire)
          phase := .ready }, x.shared, [], []⟩
  | exchanged {job : Job R} {pool : Nat} {since : Span} {connection : Connection} {written : Bool}
      {s : Exchange.Signal} (hphase : w.phase = .exchanging job pool since connection written)
      (hsignal : x.signal = .exchange s) :
      Acts w x (w.afterExchange x.shared x.now job pool since
        (connection.exchange job.request.encode.length s).1
        (connection.exchange job.request.encode.length s).2)

/-- **A turn is nothing else.** -/
theorem acts (w : Worker R) (x : Sight R) : Acts w x (w.turnAt x) := by
  have hturn (hphase : w.phase = .ready ∨ w.phase = .resting) (hsignal : x.signal = .resume) :
      Acts w x (if x.shared.stopping then w.stop x.shared else w.draw x.shared x.now) := by
    split
    · next hstopping => exact .stopped hphase hstopping
    · next hgoing =>
      refine .begun ?_
      rw [begins.eq_def, hsignal]
      rcases hphase with hphase | hphase <;> simp [hphase, hgoing]
  rw [turnAt, step.eq_def]
  dsimp only
  split
  · next hphase hsignal => exact .started hphase
  · next hphase hsignal => exact hturn (.inl hphase) hsignal
  · next hphase hsignal => exact hturn (.inr hphase) hsignal
  · next hphase hsignal =>
    split
    · exact .unchanged (by rw [begins, hphase]) fun _ _ => by rw [hphase]; rfl
    · next hpool => exact .acquired hphase hsignal hpool
  · next hphase hsignal =>
    split
    · exact .unchanged (by rw [begins, hphase]) fun _ _ => by rw [hphase]; rfl
    · next hpool => exact .cancelled hphase hsignal hpool
  · next hphase hsignal => exact .exchanged hphase hsignal
  · next hready hresting hacquire hstop hexchange =>
    refine .unchanged ?_ fun s hsignal => ?_
    · rw [begins.eq_def]
      split
      · next hphase hsignal => exact absurd hsignal (hready hphase)
      · next hphase hsignal => exact absurd hsignal (hresting hphase)
      · rfl
    · cases hphase : w.phase with
      | exchanging => exact (hexchange _ _ _ _ _ _ hphase hsignal).elim
      | _ => rfl

/-! ### What a turn leaves -/

omit [Weights.Weight R] in
theorem workload_afterAcquire (w : Worker R) (shared : Shared R) (now : Span) (job : Job R)
    (pool : Nat) (since : Span) (progress : Acquire.Progress) :
    (w.afterAcquire shared now job pool since progress).shared.workload = shared.workload := by
  cases progress <;> rfl

theorem workload_draw {w : Worker R} {shared : Shared R} {selection : Selection R}
    {workload : Workload R} {source : Random.Source}
    (h : shared.workload.select w.source = .ok (selection, workload, source)) (now : Span) :
    (w.draw shared now).shared.workload = workload := by
  rw [draw, h]
  cases selection with
  | skipped => rfl
  | dispatched o =>
    dsimp only
    split
    · rfl
    · exact workload_afterAcquire ..

omit [Weights.Weight R] in
/-- Only a response changes the workload while a request is on its way. -/
theorem workload_afterExchange (w : Worker R) (shared : Shared R) (now : Span) (job : Job R)
    (pool : Nat) (since : Span) (connection : Connection) (progress : Exchange.Progress) :
    (w.afterExchange shared now job pool since connection progress).shared.workload =
        shared.workload ∨
      ∃ response, (w.afterExchange shared now job pool since connection progress).shared.workload =
        shared.workload.complete job.operation response := by
  cases progress with
  | reading => exact .inl rfl
  | finished result =>
    rw [afterExchange]
    dsimp only
    split
    · exact .inl rfl
    · cases result with
      | ok exchange => exact .inr ⟨exchange.response, rfl⟩
      | error fault => exact .inl rfl

theorem Sound.workload_turnAt {config : Config R} {w : Worker R} (hw : w.Sound config)
    {x : Sight R} (hx : x.shared.workload.Sound config) :
    (w.turnAt x).shared.workload.Sound config := by
  have hacts := w.acts x
  generalize w.turnAt x = turn at hacts ⊢
  cases hacts with
  | unchanged | started | stopped | cancelled => exact hx
  | begun =>
    obtain ⟨selection, workload, source, hselect, hs⟩ := hx.select_spec w.source
    rw [workload_draw hselect]
    exact hx.selects hs
  | acquired =>
    dsimp only
    rw [workload_afterAcquire]
    exact hx
  | @exchanged job pool since connection written s hphase =>
    have hjob : job.Fits config := hw.job_fits (by rw [hphase]; rfl)
    rcases w.workload_afterExchange x.shared x.now job pool since
      (connection.exchange job.request.encode.length s).1
      (connection.exchange job.request.encode.length s).2 with h | ⟨response, h⟩
    · rwa [h]
    · rw [h]
      exact hx.complete hjob.mem_keyspaces response

theorem Sound.turnAt {config : Config R} {w : Worker R} (hw : w.Sound config) {x : Sight R}
    (hx : x.shared.workload.Sound config) : (w.turnAt x).worker.Sound config :=
  (hw.step_spec x.shared x.now hx x.signal).2

end Worker

/-! ## Sights of a run -/

namespace Chronicle

variable [Weights.Weight R] {config : Config R} {c : Chronicle R}

omit [Weights.Weight R] in
/-- What a client sees of an event. -/
def sight (c : Chronicle R) (client : Nat) : Event → List (Sight R)
  | .signal client' now s => if client' = client then [⟨c.run.shared, now, s⟩] else []
  | .wakeup .. => []

/-- What a client sees of events, in order. -/
def sights (client : Nat) (c : Chronicle R) : List Event → List (Sight R)
  | [] => []
  | e :: events => c.sight client e ++ (c.step e).sights client events

theorem getElem?_workers_step (c : Chronicle R) (client : Nat) (e : Event) :
    (c.step e).run.workers[client]? =
      (c.run.workers[client]?).map (·.after (c.sight client e)) := by
  have hblind (c : Chronicle R) : c.run.workers[client]? =
      (c.run.workers[client]?).map (·.after []) := (Option.map_id' (x := _)).symm
  cases e with
  | signal client' now s =>
    rw [Chronicle.step, work, sight]
    by_cases hsame : client' = client
    · subst hsame
      rw [if_pos rfl]
      cases hw : c.run.workers[client']? with
      | none => rw [hw, Option.map_none]
      | some w =>
        obtain ⟨hlt, -⟩ := Array.getElem?_eq_some_iff.1 hw
        dsimp only
        rw [Run.work_eq hw]
        exact Array.getElem?_setIfInBounds_self_of_lt hlt
    · rw [if_neg hsame, ← hblind]
      split
      · rfl
      · next w hw =>
        dsimp only
        rw [Run.work_eq hw]
        exact Array.getElem?_setIfInBounds_ne hsame
  | wakeup now cause =>
    rw [Chronicle.step, sight, ← hblind]
    split
    · rw [(c.attend_frame now cause).2.1]
    · rfl

/-- **A worker is what its sights make of it.** -/
theorem getElem?_workers_steps (c : Chronicle R) (client : Nat) (events : List Event) :
    (c.steps events).run.workers[client]? =
      (c.run.workers[client]?).map (·.after (c.sights client events)) := by
  induction events generalizing c with
  | nil => exact Option.map_id'.symm ▸ rfl
  | cons e events ih =>
    rw [steps, List.foldl_cons, ← steps, ih, getElem?_workers_step, Option.map_map, sights]
    congr 1
    funext w
    exact (w.after_append _ _).symm

/-! ## Sound runs -/

/-- The workload of a run and its workers are sound. -/
structure Sound (config : Config R) (c : Chronicle R) : Prop where
  workload : c.run.shared.workload.Sound config
  worker : ∀ w ∈ c.run.workers, w.Sound config

theorem sound_start (hconfig : config.Accepted) {entropy : UInt64} {r : Run R}
    {log : List Log.Event} (hr : Run.start config entropy = .ok (r, log)) :
    (start r).Sound config := by
  obtain ⟨hworkload, -, hends, hworkers⟩ := Run.start_eq hr
  refine ⟨?_, fun w hw => ?_⟩
  · rw [start, hworkload]
    exact Workload.sound_new hconfig.regular
  · obtain ⟨id, source, rfl⟩ := hworkers w hw
    exact Worker.sound_new hends id source

theorem Sound.step (hc : c.Sound config) (e : Event) : (c.step e).Sound config := by
  cases e with
  | signal client now s =>
    rw [Chronicle.step, work]
    split
    · exact hc
    · next w hw =>
      have hsound := hc.worker w (Array.mem_of_getElem? hw)
      dsimp only
      rw [Run.work_eq hw]
      refine ⟨hsound.workload_turnAt (x := ⟨_, now, s⟩) hc.workload, fun w' hw' => ?_⟩
      rcases Array.mem_or_eq_of_mem_setIfInBounds hw' with hw' | rfl
      · exact hc.worker w' hw'
      · exact hsound.turnAt (x := ⟨_, now, s⟩) hc.workload
  | wakeup now cause =>
    rw [Chronicle.step]
    split
    · obtain ⟨-, hworkers, hworkload⟩ := c.attend_frame now cause
      exact ⟨by rw [hworkload]; exact hc.workload, by rw [hworkers]; exact hc.worker⟩
    · exact hc

/-- **A client sees sound workloads only.** -/
theorem Sound.sights (hc : c.Sound config) (client : Nat) (events : List Event) :
    ∀ x ∈ c.sights client events, x.shared.workload.Sound config := by
  induction events generalizing c with
  | nil => exact List.forall_mem_nil _
  | cons e events ih =>
    rw [Chronicle.sights, List.forall_mem_append]
    refine ⟨fun x hx => ?_, ih (hc.step e)⟩
    cases e with
    | signal client' now s =>
      rw [sight] at hx
      split at hx
      · cases List.mem_singleton.1 hx
        exact hc.workload
      · cases hx
    | wakeup => cases hx

end Chronicle

end LoadGen
