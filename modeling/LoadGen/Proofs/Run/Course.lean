import LoadGen.Proofs.Pool.Tasks
import LoadGen.Proofs.Run.Chronicle
import LoadGen.Proofs.Trial.Turns
import LoadGen.Proofs.Workload.Populations

/-!
# Courses of workers

All that a worker looks at when it selects is its `Course`: the workload without the populations,
the random words to come, and the endpoint whose turn it is. Each selection takes the course one
step further (`Course.next`), and nothing else moves it, whatever the network does: that is what one
turn can do (`Worker.Advances`, `Worker.step_spec`).
-/

namespace LoadGen

open Time (Span)
open Wire (Response)

variable {R : Type}

/-! ## Courses -/

/-- What the selections of a worker are made from. -/
structure Course (R : Type) where
  workload : Workload R
  source : Random.Source
  /-- The position of the endpoint whose turn it is. -/
  turn : Nat
  endpoints : Array String

namespace Course

variable [Weights.Weight R]

/-- The next selection and the course after it. -/
def next (c : Course R) : Option (Selected × Course R) :=
  match c.workload.select c.source with
  | .error _ => none
  | .ok (.skipped _ action, workload, source) =>
    some (.skipped action, { c with workload, source })
  | .ok (.dispatched operation, workload, source) =>
    let (request, source) := Worker.request operation source
    (c.endpoints[c.turn]?).map fun endpoint =>
      (.dispatched request (some endpoint),
        { c with workload, source, turn := (c.turn + 1) % c.endpoints.size })

theorem next_of_skipped {c : Course R} {keyspace : Nat} {action : Config.Action}
    {workload : Workload R} {source : Random.Source}
    (h : c.workload.select c.source = .ok (.skipped keyspace action, workload, source)) :
    c.next = some (.skipped action, { c with workload, source }) := by
  rw [next, h]

theorem next_of_dispatched {c : Course R} {o : Operation R} {workload : Workload R}
    {source : Random.Source} {endpoint : String}
    (h : c.workload.select c.source = .ok (.dispatched o, workload, source))
    (hendpoint : c.endpoints[c.turn]? = some endpoint) :
    c.next = some (.dispatched (Worker.request o source).1 (some endpoint),
      { c with
        workload
        source := (Worker.request o source).2
        turn := (c.turn + 1) % c.endpoints.size }) := by
  rw [next, h]
  dsimp only
  rw [hendpoint]
  rfl

theorem config_next {c c' : Course R} {x : Selected} (h : c.next = some (x, c')) :
    c'.workload.config = c.workload.config := by
  rw [next] at h
  split at h
  · cases h
  · next hselect =>
    cases h
    exact Workload.config_select hselect
  · next hselect =>
    obtain ⟨endpoint, -, h⟩ := Option.map_eq_some_iff.1 h
    cases h
    exact Workload.config_select hselect

/-- The course after `n` selections. -/
def after (c : Course R) : Nat → Option (Course R)
  | 0 => some c
  | n + 1 => (c.after n).bind fun c => c.next.map (·.2)

/-- The selection that comes after `n` others. -/
def nth (c : Course R) (n : Nat) : Option Selected :=
  (c.after n).bind fun c => c.next.map (·.1)

/-- Some selections are the first ones of a course. -/
def Begins (c : Course R) (selected : List Selected) : Prop :=
  ∀ i x, selected[i]? = some x → c.nth i = some x

theorem begins_nil (c : Course R) : c.Begins [] := nofun

theorem Begins.concat {c c₁ c₂ : Course R} {selected : List Selected} {x : Selected}
    (h : c.Begins selected) (hafter : c.after selected.length = some c₁)
    (hnext : c₁.next = some (x, c₂)) : c.Begins (selected ++ [x]) := by
  refine Lists.forall_getElem?_concat h ?_
  rw [nth, hafter, Option.bind_some, hnext]
  rfl

/-- Of two beginnings of a course one begins the other. -/
theorem Begins.isPrefix {c : Course R} {selected selected' : List Selected}
    (h : c.Begins selected) (h' : c.Begins selected')
    (hlength : selected.length ≤ selected'.length) : selected <+: selected' := by
  refine List.prefix_iff_getElem?.2 fun i hi => ?_
  have hx := h i _ (List.getElem?_eq_getElem hi)
  have hi' : i < selected'.length := Nat.lt_of_lt_of_le hi hlength
  have hy := h' i _ (List.getElem?_eq_getElem hi')
  rw [List.getElem?_eq_getElem hi', ← hy, hx]

end Course

/-! ## Turns and courses -/

namespace Worker

/-- The course of a worker. -/
def course (w : Worker R) (shared : Shared R) : Course R :=
  ⟨shared.workload.bare, w.source, w.nextPool, w.pools.map (·.endpoint)⟩

/-- A pool that keeps its endpoint leaves the endpoints as they are. -/
theorem map_endpoint_setIfInBounds {pools : Array Pool} {i : Nat} {p q : Pool}
    (hp : pools[i]? = some p) (hq : q.endpoint = p.endpoint) :
    (pools.setIfInBounds i q).map (·.endpoint) = pools.map (·.endpoint) :=
  Lists.map_setIfInBounds_eq hp hq

theorem failure_ne_skipped (kind : Stats.FailureKind) : Stats.Outcome.failure kind ≠ .skipped :=
  nofun

theorem outcomeOf_ne_skipped (o : Operation R) (response : Response) :
    (outcomeOf o response).1 ≠ .skipped := by
  cases response with
  | success => exact nofun
  | rejected reason =>
    rw [outcomeOf]
    split
    · exact nofun
    · exact failure_ne_skipped _

variable {w : Worker R} {shared : Shared R}

/-- Nothing is selected in a turn that starts on nothing and records nothing as skipped. -/
theorem Turn.selected_eq_nil {turn : Turn R} (hentries : ∀ e ∈ turn.entries, e.outcome ≠ .skipped)
    (hjob : turn.worker.phase.job? = none ∨ w.phase.job? ≠ none) : turn.selected w = [] := by
  have hfilter : turn.entries.filter (·.outcome = .skipped) = [] :=
    List.filter_eq_nil_iff.2 fun e he => by simpa using hentries e he
  rw [Turn.selected, hfilter]
  rcases hjob with hjob | hjob
  · rw [hjob]
    cases w.phase.job? <;> rfl
  · cases h : w.phase.job? with
    | none => exact absurd h hjob
    | some job => rfl

theorem Turn.selected_unchanged (w : Worker R) (shared : Shared R) :
    Turn.selected w ⟨w, shared, [], []⟩ = [] :=
  Turn.selected_eq_nil (List.forall_mem_nil _) (Classical.em _)

/-! ### Acquires -/

section Acquires

variable {now : Span} {job : Job R} {pool : Nat} {since : Span}

theorem course_afterAcquire {progress : Acquire.Progress} :
    (w.afterAcquire shared now job pool since progress).worker.course
      (w.afterAcquire shared now job pool since progress).shared = w.course shared := by
  cases progress <;> rfl

theorem afterAcquire_ne_skipped {progress : Acquire.Progress} :
    ∀ e ∈ (w.afterAcquire shared now job pool since progress).entries, e.outcome ≠ .skipped := by
  cases progress with
  | failed fault => exact List.forall_mem_singleton.2 (failure_ne_skipped _)
  | _ => exact List.forall_mem_nil _

/-- What is acquired for an operation goes where the pool is. -/
theorem afterAcquire_started {progress : Acquire.Progress} (hprogress : ∀ f, progress ≠ .failed f) :
    (w.afterAcquire shared now job pool since progress).worker.phase.job? = some job ∧
      (w.afterAcquire shared now job pool since progress).worker.endpoint? =
        (w.pools[pool]?).map (·.endpoint) := by
  cases progress with
  | failed fault => exact absurd rfl (hprogress fault)
  | _ => exact ⟨rfl, rfl⟩

end Acquires

variable [Weights.Weight R]

/-- What a turn can do to the course of a worker. -/
inductive Advances (w : Worker R) (shared : Shared R) (turn : Turn R) : Prop
  | halted (hselected : turn.selected w = []) (hover : turn.worker.isOver = true)
      (hconfig : turn.shared.workload.config = shared.workload.config)
  | kept (hselected : turn.selected w = [])
      (hcourse : turn.worker.course turn.shared = w.course shared)
  | selected {x : Selected} (hselected : turn.selected w = [x])
      (hnext : (w.course shared).next = some (x, turn.worker.course turn.shared))

theorem draw_spec (hjob : w.phase.job? = none) (now : Span) :
    Advances w shared (w.draw shared now) := by
  have hselect := shared.workload.select_bare w.source
  rw [draw]
  cases hdraw : shared.workload.select w.source with
  | error v => exact .halted (Turn.selected_eq_nil (List.forall_mem_nil _) (.inl rfl)) rfl rfl
  | ok drawn =>
    obtain ⟨selection, workload, source⟩ := drawn
    rw [hdraw] at hselect
    cases selection with
    | skipped keyspace action =>
      refine .selected (x := .skipped action) ?_ (Course.next_of_skipped hselect)
      rw [Turn.selected, hjob]
      rfl
    | dispatched o =>
      dsimp only
      cases hpool : w.pools[w.nextPool]? with
      | none =>
        exact .halted (Turn.selected_eq_nil (List.forall_mem_nil _) (.inl rfl)) rfl
          (Workload.config_select hdraw)
      | some pool =>
        have hendpoint : (w.course shared).endpoints[w.nextPool]? = some pool.endpoint := by
          rw [course, Array.getElem?_map, hpool]
          rfl
        have hpools := map_endpoint_setIfInBounds hpool (pool.endpoint_acquire now)
        obtain ⟨hlt, -⟩ := Array.getElem?_eq_some_iff.1 hpool
        dsimp only
        refine .selected (x := .dispatched (request o source).1 (some pool.endpoint)) ?_ ?_
        · obtain ⟨hstarted, hwhere⟩ := afterAcquire_started (pool.acquire_ne_failed now)
          rw [Turn.selected, hjob, hstarted, hwhere]
          rw [Array.getElem?_setIfInBounds_self_of_lt hlt, Option.map_some, pool.endpoint_acquire]
        · have hnext := Course.next_of_dispatched (c := w.course shared) hselect hendpoint
          rw [hnext, course_afterAcquire]
          simp only [course, hpools, Array.size_map]

theorem afterExchange_spec (hjob : w.phase.job? ≠ none) (now : Span) (job : Job R) (pool : Nat)
    (since : Span) (connection : Connection) (progress : Exchange.Progress) :
    Advances w shared (w.afterExchange shared now job pool since connection progress) := by
  cases progress with
  | reading => exact .kept (Turn.selected_eq_nil (List.forall_mem_nil _) (.inr hjob)) rfl
  | finished result =>
    rw [afterExchange]
    dsimp only
    cases hpool : w.pools[pool]? with
    | none => exact .halted (Turn.selected_eq_nil (List.forall_mem_nil _) (.inl rfl)) rfl rfl
    | some p =>
      cases result with
      | error fault =>
        have hpools := map_endpoint_setIfInBounds hpool (p.endpoint_release connection false)
        refine .kept (Turn.selected_eq_nil ?_ (.inl rfl)) ?_
        · exact List.forall_mem_singleton.2 (failure_ne_skipped _)
        · dsimp only
          rw [course, course, hpools]
      | ok exchange =>
        obtain ⟨response, sent, received⟩ := exchange
        have hpools := map_endpoint_setIfInBounds hpool (p.endpoint_release connection true)
        refine .kept (Turn.selected_eq_nil ?_ (.inl rfl)) ?_
        · exact List.forall_mem_singleton.2 (outcomeOf_ne_skipped job.operation response)
        · dsimp only
          rw [course, course, hpools, Workload.bare_complete]

/-- **A turn takes the course of a worker at most one step further.** -/
theorem step_spec (w : Worker R) (shared : Shared R) (now : Span) (s : Signal) :
    Advances w shared (w.step shared now s) := by
  have hturn (hjob : w.phase.job? = none) : Advances w shared
      (if shared.stopping then w.stop shared else w.draw shared now) := by
    split
    · exact .halted (Turn.selected_eq_nil (List.forall_mem_nil _) (.inl rfl)) rfl rfl
    · exact draw_spec hjob now
  rw [step.eq_def]
  dsimp only
  split
  · exact .kept (Turn.selected_eq_nil (List.forall_mem_nil _) (.inl rfl)) rfl
  · next h => exact hturn (by rw [h]; rfl)
  · next h => exact hturn (by rw [h]; rfl)
  · next job pool since acquire s h =>
    have hjob : w.phase.job? ≠ none := by rw [h]; exact Option.some_ne_none job
    cases hpool : w.pools[pool]? with
    | none => exact .kept (Turn.selected_eq_nil (List.forall_mem_nil _) (.inr hjob)) rfl
    | some p =>
      have hpools := map_endpoint_setIfInBounds hpool (p.endpoint_advance acquire now s)
      refine .kept (Turn.selected_eq_nil afterAcquire_ne_skipped (.inr hjob)) ?_
      dsimp only
      rw [course_afterAcquire, course, course, hpools]
  · next job pool since acquire h =>
    have hjob : w.phase.job? ≠ none := by rw [h]; exact Option.some_ne_none job
    cases hpool : w.pools[pool]? with
    | none => exact .kept (Turn.selected_eq_nil (List.forall_mem_nil _) (.inr hjob)) rfl
    | some p =>
      have hpools := map_endpoint_setIfInBounds hpool (p.endpoint_cancel acquire)
      refine .kept (Turn.selected_eq_nil (List.forall_mem_nil _) (.inr hjob)) ?_
      rw [course, course, hpools]
  · next job pool since connection written s h =>
    exact afterExchange_spec (by rw [h]; exact Option.some_ne_none job) now job pool since _ _
  · exact .kept (Turn.selected_unchanged w shared) rfl

/-- No turn changes the configuration. -/
theorem Advances.config_eq {turn : Turn R} (h : Advances w shared turn) :
    turn.shared.workload.config = shared.workload.config := by
  cases h with
  | halted _ _ hconfig => exact hconfig
  | kept _ hcourse => exact congrArg (·.workload.config) hcourse
  | selected _ hnext => exact Course.config_next hnext

/-- A worker that has ended does nothing any more. -/
theorem step_of_isOver {w : Worker R} (h : w.isOver = true) (shared : Shared R) (now : Span)
    (s : Signal) : w.step shared now s = ⟨w, shared, [], []⟩ := by
  rw [isOver] at h
  rw [step.eq_def]
  dsimp only
  split at h
  · next hphase => rw [hphase]
  · next v hphase => rw [hphase]
  · cases h

end Worker

end LoadGen
