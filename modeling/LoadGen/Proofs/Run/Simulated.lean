import LoadGen.Proofs.Run.Accounts
import LoadGen.Simulation.Basic

/-!
# What workers find in simulated runs

A simulation decides whose turn it is, what the network does, and when the run is stopped. A worker
that has its turn after it waited is woken (`Simulation.woken_or_goesOn`), so that it looks whether
it is to stop first (`Simulation.play`). What one client finds in the course of a simulation is its
history: it is orderly (`Simulation.Sound.orderly_history`), and its worker is what the history
makes of it (`Simulation.Sound.getElem?_workers_steps`). Therefore whatever is said of the ledger of
a worker holds for every client of a simulated run (`Simulation.exists_ledger`).
-/

namespace LoadGen

open Time (Span)

variable {R : Type}

/-! ## What leaves the workers alone -/

/-- Nothing happens to the workers of a run and their workload, and if it was stopped it still
is. -/
structure Run.Stays (r r' : Run R) : Prop where
  workers_eq : r'.workers = r.workers
  workload_eq : r'.shared.workload = r.shared.workload
  stopping : r.shared.stopping = true → r'.shared.stopping = true

namespace Run

namespace Stays

theorem refl (r : Run R) : r.Stays r := ⟨rfl, rfl, fun h => h⟩

theorem trans {r r' r'' : Run R} (h : r.Stays r') (h' : r'.Stays r'') : r.Stays r'' where
  workers_eq := h'.workers_eq.trans h.workers_eq
  workload_eq := h'.workload_eq.trans h.workload_eq
  stopping hstopping := h'.stopping (h.stopping hstopping)

/-- The run loop leaves the workers alone, whatever it wakes up for. -/
theorem attend (r : Run R) (now : Span) (cause : Chronicle.Wakeup) :
    r.Stays ((Chronicle.start r).attend now cause).run := by
  obtain ⟨-, -, hworkload⟩ := (Chronicle.start r).attend_frame now cause
  obtain ⟨hworkers, hstopping⟩ := (Chronicle.start r).attend_workers now cause
  exact ⟨hworkers, hworkload, hstopping⟩

end Stays

theorem Stays.sound [Weights.Weight R] {config : Config R} {r r' : Run R} (h : r.Stays r')
    (hr : (Chronicle.start r).Sound config) : (Chronicle.start r').Sound config where
  workload := by
    show r'.shared.workload.Sound config
    rw [h.workload_eq]
    exact hr.workload
  worker := by
    show ∀ w ∈ r'.workers, w.Sound config
    rw [h.workers_eq]
    exact hr.worker

end Run

/-- The worker after what it finds, in order. -/
def Worker.wakes [Weights.Weight R] (w : Worker R) (xs : List (Wake R)) : Worker R :=
  xs.foldl (fun w x => (w.wake x).worker) w

theorem Ledger.worker_notes [Weights.Weight R] (l : Ledger R) (xs : List (Wake R)) :
    (l.notes xs).worker = l.worker.wakes xs := by
  induction xs generalizing l with
  | nil => rfl
  | cons x xs ih => exact ih _

namespace Simulation

/-- Time passes around the workers of a run, and no turn begins or ends. -/
structure Elapses (s s' : Simulation R) : Prop where
  run : s.run.Stays s'.run
  active_eq : s'.active = s.active

namespace Elapses

theorem refl (s : Simulation R) : s.Elapses s := ⟨.refl s.run, rfl⟩

theorem trans {s s' s'' : Simulation R} (h : s.Elapses s') (h' : s'.Elapses s'') : s.Elapses s'' :=
  ⟨h.run.trans h'.run, h'.active_eq.trans h.active_eq⟩

theorem foldl {α : Type} {f : Simulation R → α → Simulation R}
    (hf : ∀ (s : Simulation R) (a : α), s.Elapses (f s a)) (as : List α)
    (s : Simulation R) : s.Elapses (as.foldl f s) := by
  induction as generalizing s with
  | nil => exact .refl s
  | cons a as ih => exact (hf s a).trans (ih _)

variable (s : Simulation R)

theorem wake (position : Nat) : s.Elapses (s.wake position) := ⟨.refl s.run, rfl⟩

theorem wakeToStop : s.Elapses s.wakeToStop := by
  refine foldl (fun s position => ?_) _ s
  dsimp only
  split
  · exact wake s position
  · exact .refl s

theorem wakeDue (moment : Nat) : s.Elapses (s.wakeDue moment) := foldl (fun s _ => wake s _) _ s

theorem stopWorkers : s.Elapses s.stopWorkers := ⟨⟨rfl, rfl, fun _ => rfl⟩, rfl⟩

theorem checkHealth : s.Elapses s.checkHealth := by
  rw [Simulation.checkHealth]
  split
  · exact ⟨.attend s.run s.clock .health, rfl⟩
  · exact .refl s

theorem tick : s.Elapses s.tick := by
  rw [Simulation.tick]
  split
  · dsimp only
    split <;> exact ⟨.attend s.run s.clock .tick, rfl⟩
  · exact .refl s

theorem shutDown : s.Elapses s.shutDown := by
  rw [Simulation.shutDown]
  split
  · exact ⟨.attend s.run s.clock .shutDown, rfl⟩
  · exact .refl s

theorem takeUp (want : Want) : s.Elapses (s.takeUp want).1 := by
  rw [Simulation.takeUp]
  generalize s.network.takeUp s.now want = taken
  have hnetwork : s.Elapses { s with network := taken.1 } := ⟨.refl s.run, rfl⟩
  dsimp only
  split
  · exact hnetwork.trans (stopWorkers _)
  · exact hnetwork

theorem attend : s.Elapses s.attend := by
  have hloop : s.Elapses s.checkHealth.tick.shutDown :=
    ((checkHealth s).trans (tick _)).trans (shutDown _)
  rw [Simulation.attend]
  generalize s.checkHealth.tick.shutDown = s₁ at hloop ⊢
  have hstop : s.Elapses (if s₁.nextStop?.any (· ≤ s₁.now) then s₁.stopWorkers else s₁) := by
    split
    · exact hloop.trans (stopWorkers s₁)
    · exact hloop
  generalize (if s₁.nextStop?.any (· ≤ s₁.now) then s₁.stopWorkers else s₁) = s₂ at hstop ⊢
  split
  · exact hstop.trans (wakeToStop s₂)
  · exact hstop

end Elapses

/-! ## Turns -/

/-- The turn that comes next, if it is known, is such a one, and its worker is told to stop only if
the run is stopped. -/
def Calls (p : Cue → Prop) (s : Simulation R) : Prop :=
  ∀ cue ∈ s.active, p cue ∧ (cue.signal = .stop → s.run.shared.stopping = true)

theorem timeUp_ne_stop (want : Want) : want.timeUp ≠ .stop := by
  cases want <;> exact nofun

theorem occur_ne_stop (n : Network) (happening : Happening) :
    (n.occur happening).2 ≠ .stop := by
  intro h
  cases happening with
  | dialEnds finish => cases finish <;> cases h
  | _ => cases h

section Calls

variable {s : Simulation R} {p : Cue → Prop}

theorem calls_of_none (h : s.active = none) : s.Calls p := fun cue hcue => by
  rw [h] at hcue
  cases hcue

theorem calls_of_ne {cue : Cue} (hcue : p cue) (hsignal : cue.signal ≠ .stop) :
    Calls p { s with active := some cue } := by
  rintro cue ⟨⟩
  exact ⟨hcue, fun hstop => absurd hstop hsignal⟩

theorem calls_of_isToStop {cue : Cue} (hcue : p cue) {w : Worker R}
    (h : w.isToStop s.run.shared = true) : Calls p { s with active := some cue } := by
  rintro cue ⟨⟩
  exact ⟨hcue, fun _ => (Bool.and_eq_true_iff.1 h).1⟩

end Calls

/-- A worker that is to wait goes on at once, or waits. -/
theorem sleep_spec {s : Simulation R} (hs : s.active = none) (position : Nat) (w : Worker R)
    (want : Want) (coming : Option (Nat × Happening)) :
    (s.sleep position w want coming).run = s.run ∧
      (s.sleep position w want coming).Calls (·.position = position) := by
  rw [sleep.eq_def]
  dsimp only
  split
  · exact ⟨rfl, calls_of_ne rfl (timeUp_ne_stop want)⟩
  · split
    · next hstop => exact ⟨rfl, calls_of_isToStop rfl hstop⟩
    · exact ⟨rfl, calls_of_none hs⟩

/-- A worker that had its turn keeps it, or gives it up. -/
theorem settle_spec (s : Simulation R) (position : Nat) :
    s.run.Stays (s.settle position).run ∧
      (s.settle position).Calls (·.position = position) := by
  rw [settle.eq_def]
  dsimp only
  split
  · exact ⟨.refl s.run, nofun⟩
  · next w _ =>
    split
    · exact ⟨.refl s.run, calls_of_ne rfl nofun⟩
    · exact ⟨.refl s.run, nofun⟩
    · exact ⟨.refl s.run, nofun⟩
    · have htaken := Elapses.takeUp { s with active := none } w.want
      generalize Simulation.takeUp { s with active := none } w.want = taken at htaken ⊢
      obtain ⟨hstays, hnone⟩ := htaken
      split
      · split
        · exact ⟨hstays, calls_of_ne rfl (occur_ne_stop _ _)⟩
        · obtain ⟨hrun, hcalls⟩ := sleep_spec hnone position w w.want taken.2
          exact ⟨hrun ▸ hstays, hcalls⟩
      · obtain ⟨hrun, hcalls⟩ := sleep_spec hnone position w w.want none
        exact ⟨hrun ▸ hstays, hcalls⟩

/-- A worker that waited until then is woken. -/
theorem takeTurn_spec {s : Simulation R} (hs : s.active = none) (position : Nat) :
    (s.takeTurn position).run = s.run ∧ (s.takeTurn position).Calls (·.woken = true) := by
  rw [takeTurn.eq_def]
  split
  · exact ⟨rfl, calls_of_none hs⟩
  · next w _ =>
    split
    · next hstop => exact ⟨rfl, calls_of_isToStop rfl hstop⟩
    · split
      · exact ⟨rfl, calls_of_ne rfl nofun⟩
      · exact ⟨rfl, calls_of_ne rfl nofun⟩
      · split
        · exact ⟨rfl, calls_of_ne rfl (occur_ne_stop _ _)⟩
        · exact ⟨rfl, calls_of_ne rfl (timeUp_ne_stop _)⟩
      · exact ⟨rfl, calls_of_ne rfl (timeUp_ne_stop _)⟩

section Step

variable [Weights.Weight R] {config : Config R} {s s' : Simulation R}

/-- All that a step can be: a worker has its turn and may go on, or time elapses, and then a worker
may be woken. -/
theorem step_cases (h : s.step = some s') :
    (∃ cue, s.active = some cue ∧ (s.play cue).1.Stays s'.run ∧
        s'.Calls (·.position = cue.position)) ∨
      s.active = none ∧ s.run.Stays s'.run ∧ s'.Calls (·.woken = true) := by
  rw [step.eq_def] at h
  split at h
  · next cue hcue =>
    cases h
    exact .inl ⟨cue, hcue, settle_spec (s.goOn (s.play cue).1 (s.play cue).2) cue.position⟩
  · next hnone =>
    refine .inr ⟨hnone, ?_⟩
    split at h
    · next position queue hqueue =>
      cases h
      obtain ⟨hrun, hcalls⟩ := takeTurn_spec (s := { s with queue }) hnone position
      exact ⟨by rw [hrun]; exact .refl s.run, hcalls⟩
    · split at h
      · cases h
      · have helapses : s.Elapses s' := by
          have hattend := Elapses.attend s
          dsimp only at h
          generalize s.attend = s₁ at hattend h
          split at h
          · obtain ⟨moment, -, rfl⟩ := Option.map_eq_some_iff.1 h
            have hlater : s₁.Elapses { s₁ with now := max s₁.now moment } := ⟨.refl s₁.run, rfl⟩
            exact ((hattend.trans hlater).trans (.wakeDue _ _)).trans (.attend _)
          · cases h
            exact hattend.trans ⟨.refl s₁.run, rfl⟩
        exact ⟨helapses.run, calls_of_none (helapses.active_eq.trans hnone)⟩

/-- **A worker is woken, or goes on with the turn that it has.** -/
theorem woken_or_goesOn (h : s.step = some s') {cue : Cue} (hcue : s'.active = some cue) :
    cue.woken = true ∨ ∃ before, s.active = some before ∧ before.position = cue.position := by
  rcases step_cases h with ⟨before, hbefore, -, hcalls⟩ | ⟨-, -, hcalls⟩
  · exact .inr ⟨before, hbefore, (hcalls cue hcue).1.symm⟩
  · exact .inl (hcalls cue hcue).1

/-! ## Histories -/

omit [Weights.Weight R] in
/-- What the worker at a position finds in the next step, if it has its turn. -/
def found (s : Simulation R) (position : Nat) : List (Wake R) :=
  match s.active with
  | some cue =>
    if cue.position = position then
      [{ shared := s.run.shared
         now := s.clock
         signal := cue.signal
         woken := cue.woken
         overtaken := false }]
    else []
  | none => []

/-- What the worker at a position finds in the next `n` steps. -/
def history (position : Nat) : Nat → Simulation R → List (Wake R)
  | 0, _ => []
  | n + 1, s => s.found position ++
    match s.step with
    | some s => s.history position n
    | none => []

/-- The run is sound, and the worker whose turn it is is told to stop only if it is stopped. -/
structure Sound (config : Config R) (s : Simulation R) : Prop where
  run : (Chronicle.start s.run).Sound config
  told : ∀ cue ∈ s.active, cue.signal = .stop → s.run.shared.stopping = true

omit [Weights.Weight R] in
theorem found_of_ne {cue : Cue} (hcue : s.active = some cue) {position : Nat}
    (h : cue.position ≠ position) : s.found position = [] := by
  rw [found, hcue]
  exact if_neg h

omit [Weights.Weight R] in
/-- What a worker finds is the run as it is, and a signal that is not yet given. -/
theorem of_mem_found {position : Nat} {x : Wake R} (h : x ∈ s.found position) :
    ∃ cue ∈ s.active, x.shared = s.run.shared ∧ x.signal = cue.signal ∧ x.overtaken = false := by
  rw [found] at h
  split at h
  · next cue hcue =>
    split at h
    · obtain rfl := List.mem_singleton.1 h
      exact ⟨cue, hcue, rfl, rfl, rfl⟩
    · cases h
  · cases h

theorem found_of_step_eq_none (h : s.step = none) (position : Nat) : s.found position = [] := by
  rw [step.eq_def] at h
  split at h
  · cases h
  · next hnone => rw [found, hnone]

/-- What a turn makes of a run, but for what the run loop learns of it. -/
theorem Sound.play (hs : s.Sound config) {cue : Cue} (hcue : s.active = some cue) :
    ∃ r : Run R, (Chronicle.start r).Sound config ∧ r.Stays (s.play cue).1 ∧
      (s.run.shared.stopping = true → r.shared.stopping = true) ∧
      ∀ position, r.workers[position]? =
        s.run.workers[position]?.map fun w : Worker R => w.wakes (s.found position) := by
  cases hw : s.run.workers[cue.position]? with
  | none =>
    have hplay : (s.play cue).1 = s.run := by
      rw [Simulation.play, Run.poll, Run.signal, hw]
      split <;> rfl
    refine ⟨s.run, hs.run, by rw [hplay]; exact .refl _, fun h => h, fun position => ?_⟩
    by_cases hposition : cue.position = position
    · rw [← hposition, hw]
      rfl
    · rw [found_of_ne hcue hposition]
      exact (Option.map_id' (x := _)).symm
  | some w =>
    -- the signal that the worker goes on with
    generalize hsignal :
      (if cue.woken then w.heed s.run.shared cue.signal else cue.signal) = signal
    let c := (Chronicle.start s.run).step (.signal cue.position s.clock signal)
    have hwork : c.run = s.run.work cue.position s.clock signal := by
      simp only [c, Chronicle.step, Chronicle.work, Chronicle.start, hw]
    have hplay : (s.play cue).1 = c.run.join cue.position s.clock := by
      rw [Simulation.play, Run.poll, hw, hwork, ← hsignal]
      split <;> exact Run.signal_eq ..
    have hsound := hs.run.step (.signal cue.position s.clock signal)
    refine ⟨c.run, ⟨hsound.workload, hsound.worker⟩, ?_, fun hstopping => ?_, fun position => ?_⟩
    · rw [hplay]
      exact .attend c.run s.clock (.ended cue.position)
    · rw [hwork, Run.work_eq hw]
      exact (w.stopping_step _ _ _).trans hstopping
    · rw [Chronicle.getElem?_workers_step]
      by_cases hposition : cue.position = position
      · subst hposition
        have hfound : s.found cue.position =
            [⟨⟨s.run.shared, s.clock, cue.signal⟩, cue.woken, false⟩] := by
          rw [found, hcue]
          exact if_pos rfl
        rw [Chronicle.start, hw, Option.map_some, Option.map_some, Chronicle.sight, if_pos rfl,
          hfound]
        show some (w.turnAt ⟨s.run.shared, s.clock, signal⟩).worker = some (w.wake _).worker
        rw [Worker.wake_of_not_overtaken rfl, ← hsignal]
      · rw [found_of_ne hcue hposition, Chronicle.sight, if_neg hposition]
        rfl

theorem Sound.step (hs : s.Sound config) (h : s.step = some s') : s'.Sound config := by
  rcases step_cases h with ⟨cue, hcue, hstays, hcalls⟩ | ⟨-, hstays, hcalls⟩
  · obtain ⟨r, hr, hplay, -, -⟩ := hs.play hcue
    exact ⟨(hplay.trans hstays).sound hr, fun cue hcue => (hcalls cue hcue).2⟩
  · exact ⟨hstays.sound hs.run, fun cue hcue => (hcalls cue hcue).2⟩

/-- A run that is stopped remains so. -/
theorem Sound.stopping_step (hs : s.Sound config) (h : s.step = some s')
    (hstopping : s.run.shared.stopping = true) : s'.run.shared.stopping = true := by
  rcases step_cases h with ⟨cue, hcue, hstays, -⟩ | ⟨-, hstays, -⟩
  · obtain ⟨r, -, hplay, hstill, -⟩ := hs.play hcue
    exact (hplay.trans hstays).stopping (hstill hstopping)
  · exact hstays.stopping hstopping

/-- A step makes of a worker what it finds. -/
theorem Sound.getElem?_workers_step (hs : s.Sound config) (h : s.step = some s') (position : Nat) :
    s'.run.workers[position]? =
      s.run.workers[position]?.map fun w : Worker R => w.wakes (s.found position) := by
  rcases step_cases h with ⟨cue, hcue, hstays, -⟩ | ⟨hnone, hstays, -⟩
  · obtain ⟨r, -, hplay, -, hworkers⟩ := hs.play hcue
    rw [(hplay.trans hstays).workers_eq, hworkers]
  · rw [hstays.workers_eq, found, hnone]
    exact (Option.map_id' (x := _)).symm

/-- **A worker is what its history makes of it.** -/
theorem Sound.getElem?_workers_steps (hs : s.Sound config) (position n : Nat) :
    (steps n s).run.workers[position]? =
      s.run.workers[position]?.map fun w : Worker R => w.wakes (history position n s) := by
  induction n generalizing s with
  | zero => exact (Option.map_id' (x := _)).symm
  | succ n ih =>
    rw [steps, history]
    cases hstep : s.step with
    | none =>
      rw [found_of_step_eq_none hstep]
      exact (Option.map_id' (x := _)).symm
    | some s' =>
      dsimp only
      rw [ih (hs.step hstep), hs.getElem?_workers_step hstep, Option.map_map]
      congr 1
      funext w
      exact (List.foldl_append ..).symm

/-! ### Histories are orderly -/

section History

variable (hs : s.Sound config) (position n : Nat)

include hs

theorem Sound.stopping_history (hstopping : s.run.shared.stopping = true) :
    ∀ x ∈ history position n s, x.shared.stopping = true := by
  induction n generalizing s with
  | zero => exact List.forall_mem_nil _
  | succ n ih =>
    rw [history, List.forall_mem_append]
    refine ⟨fun x hx => ?_, ?_⟩
    · obtain ⟨cue, -, hshared, -⟩ := of_mem_found hx
      rw [hshared, hstopping]
    · cases hstep : s.step with
      | none => exact List.forall_mem_nil _
      | some s' => exact ih (hs.step hstep) (hs.stopping_step hstep hstopping)

theorem Sound.of_mem_history :
    ∀ x ∈ history position n s, x.shared.workload.Sound config ∧
      (x.signal = .stop → x.shared.stopping = true) ∧ x.overtaken = false := by
  induction n generalizing s with
  | zero => exact List.forall_mem_nil _
  | succ n ih =>
    rw [history, List.forall_mem_append]
    refine ⟨fun x hx => ?_, ?_⟩
    · obtain ⟨cue, hcue, hshared, hsignal, hovertaken⟩ := of_mem_found hx
      rw [hshared, hsignal]
      exact ⟨hs.run.workload, hs.told cue hcue, hovertaken⟩
    · cases hstep : s.step with
      | none => exact List.forall_mem_nil _
      | some s' => exact ih (hs.step hstep)

theorem Sound.pairwise_history :
    (history position n s).Pairwise fun x y =>
      x.shared.stopping = true → y.shared.stopping = true := by
  induction n generalizing s with
  | zero => exact .nil
  | succ n ih =>
    rw [history, List.pairwise_append]
    refine ⟨?_, ?_, ?_⟩
    · rw [found]
      split
      · split
        · exact List.pairwise_singleton ..
        · exact .nil
      · exact .nil
    · cases hstep : s.step with
      | none => exact .nil
      | some s' => exact ih (hs.step hstep)
    · intro x hx y hy hstopping
      obtain ⟨cue, -, hshared, -⟩ := of_mem_found hx
      rw [hshared] at hstopping
      cases hstep : s.step with
      | none =>
        rw [hstep] at hy
        cases hy
      | some s' =>
        rw [hstep] at hy
        exact (hs.step hstep).stopping_history position n (hs.stopping_step hstep hstopping) y hy

/-- **What a worker finds in a simulation is orderly.** -/
theorem Sound.orderly_history : Wake.Orderly config (history position n s) := by
  have hfound := hs.of_mem_history position n
  refine .of_pairwise (fun x hx => (hfound x hx).1) ?_ fun x hx => (hfound x hx).2.1
  refine (hs.pairwise_history position n).imp_of_mem fun {x y} hx _ h hstopped => h ?_
  rwa [(hfound x hx).2.2, Bool.or_false] at hstopped

end History

/-! ### Clients of a run -/

theorem sound_start (hconfig : config.Accepted) {entropy : UInt64} {r : Run R}
    {log : List Log.Event} (hr : Run.start config entropy = .ok (r, log)) (plan : Plan)
    (script : Script) (events : List Log.Event) : (start plan r script events).Sound config := by
  have helapses := Elapses.attend (new plan r script events)
  refine ⟨helapses.run.sound (Chronicle.sound_start hconfig hr), fun cue hcue => ?_⟩
  have hnone : (start plan r script events).active = none := helapses.active_eq
  rw [hnone] at hcue
  cases hcue

/-- **A client of a simulated run keeps a ledger.** What it finds is orderly, whatever the network
does and whenever the run is stopped, and its worker is that of the ledger. -/
theorem exists_ledger (hconfig : config.Accepted) {entropy : UInt64} {r : Run R}
    {log : List Log.Event} (hr : Run.start config entropy = .ok (r, log)) (plan : Plan)
    (script : Script) (events : List Log.Event) (n : Nat) {position : Nat}
    (hposition : position < r.workers.size) :
    ∃ id source xs, xs = history position n (start plan r script events) ∧
      Wake.Orderly config xs ∧
        (steps n (start plan r script events)).run.workers[position]? =
          some ((Ledger.start config id source).notes xs).worker := by
  have hs := sound_start hconfig hr plan script events
  obtain ⟨-, -, -, hworkers⟩ := Run.start_eq hr
  obtain ⟨id, source, hnew⟩ := hworkers _ (Array.getElem_mem hposition)
  refine ⟨id, source, _, rfl, hs.orderly_history position n, ?_⟩
  have hbegin : (start plan r script events).run.workers = r.workers :=
    (Elapses.attend (new plan r script events)).run.workers_eq
  rw [hs.getElem?_workers_steps, hbegin, Array.getElem?_eq_getElem hposition, hnew, Option.map_some,
    Ledger.worker_notes]
  rfl

end Step

end Simulation

end LoadGen
