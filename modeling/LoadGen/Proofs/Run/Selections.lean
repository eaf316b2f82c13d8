import LoadGen.Proofs.Run.Course
import LoadGen.Proofs.Trial.OneClient

/-!
# Selections do not depend on the server

As long as the only worker of a run has not ended, it stands on its course where its selections have
led it (`Chronicle.Follows`). Its selections are therefore the first ones of this course, and those
of two runs with the same seed can differ in their number only (`Chronicle.selections_agree`).
-/

namespace LoadGen

open Time (Span)

variable {R : Type}

/-! ## Runs and courses -/

/-- Where a seed is configured, the entropy makes no difference. -/
theorem Run.start_of_seed [Weights.Weight R] {config : Config R}
    (hseed : config.general.seed.isSome) (entropy entropy' : UInt64) :
    start config entropy = start config entropy' := by
  have hsame : config.general.seed.getD entropy = config.general.seed.getD entropy' := by
    obtain ⟨seed, hseed⟩ := Option.isSome_iff_exists.1 hseed
    rw [hseed]
    rfl
  rw [start, start]
  dsimp only
  rw [hsame]

namespace Chronicle

/-- The run loop leaves the workers and their workload alone. -/
theorem attend_frame (c : Chronicle R) (now : Span) (cause : Wakeup) :
    (c.attend now cause).selected = c.selected ∧
      (c.attend now cause).run.workers = c.run.workers ∧
      (c.attend now cause).run.shared.workload = c.run.shared.workload := by
  cases cause with
  | tick =>
    obtain ⟨hworkload, hworkers⟩ := c.run.tick_frame now
    exact ⟨rfl, hworkers, hworkload⟩
  | ended client =>
    refine ⟨rfl, ?_⟩
    rw [attend, Run.join]
    split <;> exact ⟨rfl, rfl⟩
  | lost reason => exact ⟨rfl, rfl, rfl⟩
  | health =>
    obtain ⟨hworkload, hworkers⟩ := c.run.checkHealth_frame now
    exact ⟨rfl, hworkers, hworkload⟩
  | shutDown => exact ⟨rfl, rfl, rfl⟩

/-- A chronicle of one worker follows a course: its selections are the first ones of the course, and
unless the worker has ended it stands where they lead. -/
structure Follows [Weights.Weight R] (course : Course R) (c : Chronicle R) : Prop where
  size_workers : c.run.workers.size = 1
  begins : course.Begins c.selected
  here : ∀ w ∈ c.run.workers,
    w.isOver = true ∨ course.after c.selected.length = some (w.course c.run.shared)

namespace Follows

variable [Weights.Weight R] {course : Course R} {c : Chronicle R}

/-- What a turn of the only worker makes of the course. -/
theorem turn (h : c.Follows course) {w : Worker R} (hw : w ∈ c.run.workers) (now : Span)
    (s : Signal) :
    course.Begins (c.selected ++ (w.step c.run.shared now s).selected w) ∧
      ((w.step c.run.shared now s).worker.isOver = true ∨
        course.after (c.selected ++ (w.step c.run.shared now s).selected w).length =
          some ((w.step c.run.shared now s).worker.course (w.step c.run.shared now s).shared)) := by
  rcases h.here w hw with hover | hhere
  · rw [Worker.step_of_isOver hover, Worker.Turn.selected_unchanged, List.append_nil]
    exact ⟨h.begins, .inl hover⟩
  · cases Worker.step_spec w c.run.shared now s with
    | halted hselected hover =>
      rw [hselected, List.append_nil]
      exact ⟨h.begins, .inl hover⟩
    | kept hselected hcourse =>
      rw [hselected, List.append_nil, hcourse]
      exact ⟨h.begins, .inr hhere⟩
    | selected hselected hnext =>
      rw [hselected, List.length_append, List.length_singleton, Course.after, hhere,
        Option.bind_some, hnext]
      exact ⟨h.begins.concat hhere hnext, .inr rfl⟩

theorem work (h : c.Follows course) (client : Nat) (now : Span) (s : Signal) :
    (c.work client now s).Follows course := by
  rw [Chronicle.work]
  cases hw : c.run.workers[client]? with
  | none => exact h
  | some w =>
    obtain ⟨hbegins, hhere⟩ := h.turn (Array.mem_of_getElem? hw) now s
    dsimp only
    rw [Run.work_eq hw]
    refine ⟨?_, hbegins, fun w' hw' => ?_⟩
    · dsimp only
      rw [Array.size_setIfInBounds, h.size_workers]
    · -- there is no other worker
      have hsize := h.size_workers
      obtain ⟨hclient, -⟩ := Array.getElem?_eq_some_iff.1 hw
      obtain ⟨i, hi, rfl⟩ := Array.getElem_of_mem hw'
      rw [Array.size_setIfInBounds] at hi
      obtain rfl : client = i := by omega
      rw [Array.getElem_setIfInBounds_self]
      exact hhere

theorem attend (h : c.Follows course) (now : Span) (cause : Wakeup) :
    (c.attend now cause).Follows course := by
  obtain ⟨hselected, hworkers, hworkload⟩ := c.attend_frame now cause
  refine ⟨by rw [hworkers, h.size_workers], by rw [hselected]; exact h.begins, ?_⟩
  intro w hw
  rw [hworkers] at hw
  rw [hselected, Worker.course, hworkload]
  exact h.here w hw

theorem step (h : c.Follows course) (e : Event) : (c.step e).Follows course := by
  cases e with
  | signal client now s => exact h.work client now s
  | wakeup now cause =>
    rw [Chronicle.step]
    split
    · exact h.attend now cause
    · exact h

theorem start {r : Run R} (hsize : r.workers.size = 1)
    (hcourse : ∀ w ∈ r.workers, course = w.course r.shared) : (start r).Follows course := by
  refine ⟨hsize, course.begins_nil, fun w hw => .inr ?_⟩
  rw [hcourse w hw]
  rfl

end Follows

/-- **Selections do not depend on the server.** Of two runs of one client with a configured seed,
whatever the network does in either of them and whenever they are stopped, the selections of one
are the first ones of the other: the operations that are held back, the requests with their keys and
values, and the endpoints to which they go. -/
theorem selections_agree [Weights.Weight R] {config : Config R}
    (hseed : config.general.seed.isSome) (hone : config.general.clients = 1)
    {entropy entropy' : UInt64} {events events' : List Event} {c c' : Chronicle R}
    (h : run? config entropy events = some c) (h' : run? config entropy' events' = some c') :
    c.selected <+: c'.selected ∨ c'.selected <+: c.selected := by
  obtain ⟨⟨r, log⟩, hr, -⟩ := Option.bind_eq_some_iff.1 h
  replace hr := Config.eq_ok_of_toOption hr
  obtain ⟨-, hsize, -⟩ := Run.start_eq hr
  rw [hone] at hsize
  have hlt : 0 < r.workers.size := by omega
  have hcourse : ∀ w ∈ r.workers, r.workers[0].course r.shared = w.course r.shared := by
    intro w hw
    obtain ⟨i, hi, rfl⟩ := Array.getElem_of_mem hw
    obtain rfl : i = 0 := by omega
    rfl
  -- the entropy makes no difference, so both runs begin alike
  have hstart (entropy' : UInt64) (r' : Run R) (log' : List Log.Event)
      (hr' : Run.start config entropy' = .ok (r', log')) :
      (start r').Follows (r.workers[0].course r.shared) := by
    rw [Run.start_of_seed hseed entropy' entropy, hr] at hr'
    cases hr'
    exact .start hsize hcourse
  have hc := of_run? (hstart entropy) (fun _ e hc => hc.step e) h
  have hc' := of_run? (hstart entropy') (fun _ e hc => hc.step e) h'
  rcases Nat.le_total c.selected.length c'.selected.length with hle | hle
  · exact .inl (hc.begins.isPrefix hc'.begins hle)
  · exact .inr (hc'.begins.isPrefix hc.begins hle)

/-! ### An outage -/

/-- One client and two endpoints. -/
def twoEndpoints : Config ℚ :=
  .checked { Trial.sampleDraft 1 47 with endpoints := ["localhost:1", "localhost:2"] }
    (by decide +kernel)

/-- Two requests are answered, and one more is on its way. -/
def answered : List Event :=
  told 0 .zero [.resume, .resume, .acquire (.connected 0), .exchange .written,
    .exchange (.received (Wire.textBytes "-ERR no such key\r\n")), .resume, .acquire (.connected 1),
    .exchange .written, .exchange (.received (Wire.textBytes "+OK\r\n")), .resume]

/-- No connection is made for the first request, the second one takes too long, and then the run is
stopped. -/
def outage : List Event :=
  told 0 .zero [.resume, .resume, .acquire .timeUp, .resume, .acquire (.connected 0),
    .exchange .timeUp] ++ [.wakeup .zero .shutDown, .signal 0 .zero .resume]

theorem selections_agree_outage :
    ∃ c c', run? twoEndpoints 0 answered = some c ∧ run? twoEndpoints 1 outage = some c' ∧
      c.selected.length = 3 ∧ c'.selected.length = 2 ∧
      (c.selected <+: c'.selected ∨ c'.selected <+: c.selected) := by
  have hanswered : (run? twoEndpoints 0 answered).map (·.selected.length) = some 3 := by
    decide +kernel
  have houtage : (run? twoEndpoints 1 outage).map (·.selected.length) = some 2 := by
    decide +kernel
  obtain ⟨c, hc, hlength⟩ := Option.map_eq_some_iff.1 hanswered
  obtain ⟨c', hc', hlength'⟩ := Option.map_eq_some_iff.1 houtage
  exact ⟨c, c', hc, hc', hlength, hlength',
    selections_agree (by decide +kernel) (by decide +kernel) hc hc'⟩

end Chronicle

end LoadGen
