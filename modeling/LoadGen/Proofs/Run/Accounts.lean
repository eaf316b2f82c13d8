import LoadGen.Proofs.Run.Wakes
import LoadGen.Proofs.Stats.Holding

/-!
# Accounts of a worker

An iteration of a worker begins with a selection. What the worker records, writes and receives
until the next one belongs to it (`Ledger`). Each iteration records one outcome, for the action that
was selected (`Iteration.Counted`), except the last one: it may be under way, or cut short as the
run was stopped before there was a connection. Whatever is counted for a worker is thus a sum over
its iterations (`Ledger.accounts`).

A worker writes no request if it was woken after the run was stopped, but it may write one if the
run is stopped while it goes on (`Ledger.writes_of_stopped`).
-/

namespace LoadGen

open Config (Action)
open Stats (Entry WindowStats Counter)
open Time (Span)

variable {R : Type}

/-! ## Iterations -/

/-- What a selection led to. -/
structure Iteration (R : Type) where
  selection : Selection R
  /-- What was recorded. -/
  entries : List Entry
  /-- The requests that were written. -/
  written : List Wire.Request
  /-- The exchanges that returned a response, with their requests. -/
  answered : List (Wire.Request × Exchange)

/-- The action of a selection. -/
def Selection.action : Selection R → Action
  | .dispatched o => o.action
  | .skipped _ action => action

def Selection.isSkipped : Selection R → Bool
  | .dispatched _ => false
  | .skipped .. => true

namespace Iteration

/-- The bytes of the requests that were answered. -/
def sent (it : Iteration R) : Nat := (it.answered.map (·.1.encode.length)).sum

/-- The bytes of the responses. -/
def received (it : Iteration R) : Nat := (it.answered.map (·.2.received)).sum

/-- What is shown belongs to the iteration. -/
def add (it : Iteration R) (s : Shown R) : Iteration R :=
  { it with
    entries := it.entries ++ s.entries
    written := it.written ++ s.written
    answered := it.answered ++ s.answered }

/-- An iteration records one outcome, for the action that was selected: skipped if the selection
was, and otherwise no connection or that of its request. -/
structure Counts (it : Iteration R) (e : Entry) : Prop where
  action_eq : e.action = it.selection.action
  skipped_iff : e.outcome = .skipped ↔ it.selection.isSkipped = true
  returned_iff : Returned e.outcome ↔ it.written ≠ []
  sent_eq : e.sent = it.sent
  received_eq : e.received = it.received

def Counted (it : Iteration R) : Prop := ∃ e, it.entries = [e] ∧ it.Counts e

/-- An iteration has recorded nothing. -/
structure Open (it : Iteration R) : Prop where
  entries_eq : it.entries = []
  answered_eq : it.answered = []
  dispatched : it.selection.isSkipped = false

end Iteration

/-- A worker with what it has done. -/
structure Ledger (R : Type) where
  worker : Worker R
  /-- All that was recorded. -/
  recorded : List Entry
  /-- The last one first. -/
  iterations : List (Iteration R)

namespace Ledger

/-- What is shown with a selection begins an iteration, and all else belongs to the last one. -/
def enter (its : List (Iteration R)) (s : Shown R) : List (Iteration R) :=
  match s.selection with
  | some selection => ⟨selection, s.entries, s.written, s.answered⟩ :: its
  | none => its.modifyHead (·.add s)

variable [Weights.Weight R]

/-- The ledger of a new worker. -/
def start (config : Config R) (id : Nat) (source : Random.Source) : Ledger R :=
  ⟨.new config id source, [], []⟩

/-- The ledger after a worker was woken or went on. -/
def note (l : Ledger R) (x : Wake R) : Ledger R where
  worker := (l.worker.wake x).worker
  recorded := l.recorded ++ (l.worker.wake x).entries
  iterations := enter l.iterations (l.worker.shown x)

/-- The ledger after what a worker found, in order. -/
def notes (l : Ledger R) (xs : List (Wake R)) : Ledger R := xs.foldl note l

/-- What is counted for the worker. -/
def stats (l : Ledger R) : WindowStats := WindowStats.empty.countAll l.recorded

end Ledger

/-! ### Iterations and stages -/

/-- Where the last iteration stands. -/
def Stage.Last (its : List (Iteration R)) (ended : Bool) : Stage R → Prop
  | .fresh => its = []
  | .idle => ∀ it ∈ its.head?, it.Counted ∨ (it.Open ∧ it.written = []) ∧ ended = true
  | .seeking job => its.head? = some ⟨.dispatched job.operation, [], [], []⟩
  | .sending job => its.head? = some ⟨.dispatched job.operation, [], [job.request], []⟩

/-- The iterations of a worker account for all that it recorded. -/
structure Books (its : List (Iteration R)) (recorded : List Entry) (operations : Nat)
    (ended : Bool) (stage : Stage R) : Prop where
  earlier : ∀ it ∈ its.tail, it.Counted
  last : stage.Last its ended
  recorded_eq : recorded = its.reverse.flatMap (·.entries)
  operations_eq : operations = recorded.countP (Returned ·.outcome)

theorem Stage.Last.mono {its : List (Iteration R)} {ended ended' : Bool} {stage : Stage R}
    (h : stage.Last its ended) (hended : ended = true → ended' = true) : stage.Last its ended' := by
  cases stage with
  | idle => exact fun it hit => (h it hit).imp_right (And.imp_right hended)
  | _ => exact h

theorem Ledger.enter_nothing (its : List (Iteration R)) : enter its .nothing = its := by
  cases its with
  | nil => rfl
  | cons it its =>
    rw [enter, Shown.nothing]
    dsimp only [List.modifyHead]
    simp [Iteration.add]

namespace Books

variable {it : Iteration R} {its : List (Iteration R)} {recorded : List Entry}
  {operations n : Nat} {stopping ended ended' : Bool} {stage stage' : Stage R} {s : Shown R}

/-- A new iteration begins while the run is not stopped. -/
theorem begin (h : Books its recorded operations false .idle)
    (hlast : stage'.Last (it :: its) ended) (hn : n = it.entries.countP (Returned ·.outcome)) :
    Books (it :: its) (recorded ++ it.entries) (operations + n) ended stage' where
  earlier it' hit' := by
    cases its with
    | nil => cases hit'
    | cons first its =>
      rcases List.mem_cons.1 hit' with rfl | hit'
      · exact (h.last _ rfl).resolve_right fun hcut => nomatch hcut.2
      · exact h.earlier it' hit'
  last := hlast
  recorded_eq := by
    rw [h.recorded_eq, List.reverse_cons, List.flatMap_append, List.flatMap_singleton]
  operations_eq := by rw [h.operations_eq, List.countP_append, hn]

/-- The last iteration goes on. -/
theorem goOn (h : Books (it :: its) recorded operations ended stage)
    (hlast : stage'.Last (it.add s :: its) ended')
    (hn : n = s.entries.countP (Returned ·.outcome)) :
    Books (it.add s :: its) (recorded ++ s.entries) (operations + n) ended' stage' where
  earlier := h.earlier
  last := hlast
  recorded_eq := by
    rw [h.recorded_eq, List.reverse_cons, List.reverse_cons, List.flatMap_append,
      List.flatMap_append, List.flatMap_singleton, List.flatMap_singleton, Iteration.add,
      List.append_assoc]
  operations_eq := by rw [h.operations_eq, List.countP_append, hn]

theorem counted_idle (h : it.Counted) : Stage.idle.Last (it :: its) ended := by
  rintro it' ⟨⟩
  exact .inl h

/-- **What a worker shows keeps its books right.** -/
theorem pass (h : Books its recorded operations ended stage)
    (hp : Passes stopping ended' stage s n stage') (hgoing : stopping = false → ended = false) :
    Books (Ledger.enter its s) (recorded ++ s.entries) (operations + n) (ended || ended')
      stage' := by
  -- while an operation is under way, it is that of the last iteration
  have hunderway {it : Iteration R} (hhead : its.head? = some it) : ∃ rest, its = it :: rest :=
    ⟨_, List.eq_cons_of_mem_head? hhead⟩
  have hbegin (hgo : stopping = false) : Books its recorded operations false stage :=
    hgoing hgo ▸ h
  cases hp with
  | kept =>
    rw [Ledger.enter_nothing, Shown.nothing, List.append_nil]
    exact ⟨h.earlier, h.last.mono fun hended => by rw [hended]; rfl, h.recorded_eq, h.operations_eq⟩
  | started =>
    obtain rfl : its = [] := h.last
    rw [Ledger.enter_nothing, Shown.nothing, List.append_nil]
    exact ⟨h.earlier, nofun, h.recorded_eq, h.operations_eq⟩
  | skipped keyspace action hgo =>
    refine (hbegin hgo).begin (counted_idle ⟨_, rfl, ?_⟩) rfl
    exact ⟨rfl, by simp [Selection.isSkipped], by simp [Returned], rfl, rfl⟩
  | drawn job hgo => exact (hbegin hgo).begin rfl rfl
  | sent job hgo => exact (hbegin hgo).begin rfl rfl
  | overtaken o hgo hended =>
    refine (hbegin hgo).begin ?_ rfl
    rintro it ⟨⟩
    exact .inr ⟨⟨⟨rfl, rfl, rfl⟩, rfl⟩, by rw [hended, Bool.or_true]⟩
  | connected job =>
    obtain ⟨rest, rfl⟩ := hunderway h.last
    exact h.goOn rfl rfl
  | failed job latency =>
    obtain ⟨rest, rfl⟩ := hunderway h.last
    refine h.goOn (counted_idle ⟨_, rfl, ?_⟩) rfl
    exact ⟨rfl, by simp [Iteration.add, Selection.isSkipped], by simp [Iteration.add, Returned],
      rfl, rfl⟩
  | dropped job hended =>
    obtain ⟨rest, rfl⟩ := hunderway h.last
    refine h.goOn ?_ rfl
    rintro it ⟨⟩
    exact .inr ⟨⟨⟨rfl, rfl, rfl⟩, rfl⟩, by rw [hended, Bool.or_true]⟩
  | answered job exchange outcome latency hsent hreturned =>
    obtain ⟨rest, rfl⟩ := hunderway h.last
    refine h.goOn (counted_idle ⟨_, rfl, ?_⟩) (by simp [hreturned])
    exact ⟨rfl, by simp [Iteration.add, Selection.isSkipped, hreturned.1],
      by simp [Iteration.add, hreturned], by simp [Iteration.add, Iteration.sent, hsent],
      by simp [Iteration.add, Iteration.received]⟩
  | refused job outcome latency hreturned =>
    obtain ⟨rest, rfl⟩ := hunderway h.last
    refine h.goOn (counted_idle ⟨_, rfl, ?_⟩) (by simp [hreturned])
    exact ⟨rfl, by simp [Iteration.add, Selection.isSkipped, hreturned.1],
      by simp [Iteration.add, hreturned], rfl, rfl⟩

end Books

/-! ### Ledgers of runs -/

namespace Ledger

open Wake

variable [Weights.Weight R] {config : Config R} {l : Ledger R}

/-- The worker is sound, and its books are right. -/
structure Kept (config : Config R) (ended : Bool) (l : Ledger R) : Prop where
  worker : l.worker.Sound config
  books : Books l.iterations l.recorded l.worker.operations ended l.worker.phase.stage

omit [Weights.Weight R] in
theorem kept_start (hends : config.endpoints ≠ []) (id : Nat) (source : Random.Source) :
    (start config id source).Kept config false where
  worker := Worker.sound_new hends id source
  books := ⟨nofun, rfl, rfl, rfl⟩

theorem Kept.note {ended : Bool} (h : l.Kept config ended) {x : Wake R}
    (hx : x.shared.workload.Sound config) (hstop : x.signal = .stop → x.shared.stopping = true)
    (hended : ended = true → x.shared.stopping = true) :
    (l.note x).Kept config (ended || (x.shared.stopping || x.overtaken)) := by
  obtain ⟨n, hpasses, hoperations⟩ := Worker.goes h.worker hx hstop
  refine ⟨h.worker.wake hx, ?_⟩
  show Books _ _ (l.worker.wake x).worker.operations _ _
  rw [hoperations]
  refine h.books.pass hpasses fun hgoing => ?_
  by_contra hnot
  cases (hended (Bool.eq_true_of_not_eq_false hnot)).symm.trans hgoing

theorem notes_concat (l : Ledger R) (xs : List (Wake R)) (x : Wake R) :
    l.notes (xs ++ [x]) = (l.notes xs).note x := List.foldl_concat ..

/-- **The books of a worker are right** after all that it may find in a run. -/
theorem kept_notes (hends : config.endpoints ≠ []) (id : Nat) (source : Random.Source)
    {xs : List (Wake R)} (hxs : Orderly config xs) :
    ((start config id source).notes xs).Kept config (stopped xs) := by
  induction hxs with
  | nil => exact kept_start hends id source
  | concat _ hworkload hstopping hstop ih =>
    rw [notes_concat, stopped_concat]
    exact ih.note hworkload hstop hstopping

/-- A worker that was woken after the run was stopped does not wait for a connection. -/
theorem heedsStop_notes (hends : config.endpoints ≠ []) (id : Nat) (source : Random.Source)
    {xs : List (Wake R)} (hxs : Orderly config xs) (hlate : late xs = true) :
    ((start config id source).notes xs).worker.heedsStop = false := by
  induction hxs with
  | nil => cases hlate
  | concat h hworkload hstopping hstop ih =>
    obtain ⟨hstopped, hlooks⟩ := (h.concat hworkload hstopping hstop).of_late hlate
    have hworker := (kept_notes hends id source h).worker
    rw [notes_concat]
    exact (Worker.underway_of_stopping hworker hstopped (hlooks.imp_right ih)).1

/-- A worker that was woken after the run was stopped begins to write no request. -/
theorem writes_of_late (hends : config.endpoints ≠ []) (id : Nat) (source : Random.Source)
    {xs : List (Wake R)} {x : Wake R} (hxs : Orderly config (xs ++ [x]))
    (hlate : late (xs ++ [x]) = true) :
    ((start config id source).notes xs).worker.writes x = [] := by
  obtain ⟨hstopped, hlooks⟩ := hxs.of_late hlate
  exact Worker.writes_eq_nil (kept_notes hends id source hxs.of_append).worker hstopped
    (hlooks.imp_right (heedsStop_notes hends id source hxs.of_append))

end Ledger

/-! ## Sums over iterations -/

namespace Stats

/-- What an entry adds to a counter of an action. -/
theorem Entry.value_action (e : Entry) (a : Action) (c : ActionStats.Counter) :
    e.value (.action a c) =
      if e.action = a then (ActionStats.empty.record e.outcome e.latency).value c else 0 := by
  rw [value, WindowStats.value, WindowStats.count, WindowStats.recordRequest,
    WindowStats.action_recordBytes, WindowStats.action_record, WindowStats.action_empty]
  split
  · rfl
  · exact ActionStats.value_empty c

theorem Entry.value_attempted (e : Entry) (a : Action) :
    e.value (.action a .attempted) = if e.action = a ∧ e.outcome ≠ .skipped then 1 else 0 := by
  rw [value_action, ite_and]
  congr 1
  cases e.outcome <;> rfl

theorem Entry.value_skipped (e : Entry) (a : Action) :
    e.value (.action a .skipped) = if e.action = a ∧ e.outcome = .skipped then 1 else 0 := by
  rw [value_action, ite_and]
  congr 1
  cases e.outcome <;> rfl

theorem Entry.value_connection (e : Entry) (a : Action) :
    e.value (.action a (.failed .connection)) =
      if e.action = a ∧ e.outcome = .failure .connection then 1 else 0 := by
  rw [value_action, ite_and]
  congr 1
  cases e.outcome with
  | failure kind => cases kind <;> rfl
  | _ => rfl

theorem Entry.value_bytesSent (e : Entry) : e.value .bytesSent = e.sent := by
  simp [value, WindowStats.value, WindowStats.count, WindowStats.recordRequest,
    WindowStats.recordBytes, WindowStats.record, WindowStats.empty]

theorem Entry.value_bytesReceived (e : Entry) : e.value .bytesReceived = e.received := by
  simp [value, WindowStats.value, WindowStats.count, WindowStats.recordRequest,
    WindowStats.recordBytes, WindowStats.record, WindowStats.empty]

/-- A sum over all actions finds each entry once. -/
theorem sum_actions (entries : List Entry) (p : Entry → Prop) [DecidablePred p] :
    (Action.all.map fun a => (entries.map fun e => if e.action = a ∧ p e then 1 else 0).sum).sum =
      entries.countP (p ·) := by
  induction entries with
  | nil => rfl
  | cons e rest ih =>
    have hone : (Action.all.map fun a => if e.action = a ∧ p e then 1 else 0).sum =
        if p e then 1 else 0 := by
      by_cases hp : p e
      · simp only [hp, and_true, if_true]
        cases e.action <;> rfl
      · simp [hp]
    simp only [List.map_cons, List.sum_cons, List.sum_map_add, ih, hone, List.countP_cons,
      decide_eq_true_eq]
    exact Nat.add_comm _ _

/-- Attempts that had a connection and those that had none. -/
theorem countP_returned (entries : List Entry) :
    entries.countP (Returned ·.outcome) + entries.countP (·.outcome = .failure .connection) =
      entries.countP (·.outcome ≠ .skipped) := by
  induction entries with
  | nil => rfl
  | cons e rest ih =>
    rw [List.countP_cons, List.countP_cons, List.countP_cons, ← ih]
    by_cases hskipped : e.outcome = .skipped <;>
      by_cases hconnection : e.outcome = .failure .connection <;>
      simp [Returned, hskipped, hconnection] <;> omega

end Stats

open Stats

/-- The value of a counter after entries. -/
theorem Ledger.value_stats (l : Ledger R) (c : Counter) :
    l.stats.value c = (l.recorded.map (·.value c)).sum := by
  rw [stats, WindowStats.value_countAll, WindowStats.value_empty, Nat.zero_add]

namespace Books

variable {its : List (Iteration R)} {recorded : List Entry} {operations : Nat} {ended : Bool}
  {stage : Stage R} (h : Books its recorded operations ended stage)

include h

/-- What is open is the last iteration, which is under way or was cut short. -/
theorem counted_or_open {it : Iteration R} (hit : it ∈ its) :
    it.Counted ∨ it.Open ∧ its.head? = some it ∧
      ((∃ job, stage = .seeking job ∨ stage = .sending job) ∨ it.written = [] ∧ ended = true) := by
  have hlast := h.last
  cases its with
  | nil => cases hit
  | cons first rest =>
    rcases List.mem_cons.1 hit with rfl | hit
    · cases stage with
      | fresh => cases hlast
      | idle =>
        exact (hlast it rfl).imp_right fun hcut => ⟨hcut.1.1, rfl, .inr ⟨hcut.1.2, hcut.2⟩⟩
      | seeking job =>
        cases hlast
        exact .inr ⟨⟨rfl, rfl, rfl⟩, rfl, .inl ⟨job, .inl rfl⟩⟩
      | sending job =>
        cases hlast
        exact .inr ⟨⟨rfl, rfl, rfl⟩, rfl, .inl ⟨job, .inr rfl⟩⟩
    · exact .inl (h.earlier it hit)

/-- A sum over what was recorded is one over the iterations. -/
theorem sum_recorded {f : Entry → Nat} {g : Iteration R → Nat}
    (hcounted : ∀ it e, it.entries = [e] → it.Counts e → f e = g it)
    (hopen : ∀ it : Iteration R, it.Open → g it = 0) :
    (recorded.map f).sum = (its.map g).sum := by
  have hall : ∀ it ∈ its, (it.entries.map f).sum = g it := fun it hit => by
    rcases h.counted_or_open hit with ⟨e, he, hcounts⟩ | ⟨hopened, -⟩
    · rw [he, List.map_singleton, List.sum_singleton, hcounted it e he hcounts]
    · rw [hopened.entries_eq, hopen it hopened]
      rfl
  rw [h.recorded_eq, List.map_flatMap, List.flatMap_def, List.sum_flatten, List.map_map,
    List.map_reverse, List.sum_reverse]
  exact congrArg List.sum (List.map_congr_left hall)

/-- **Every selection is counted once**, unless it is open. -/
theorem countP_action (a : Action) :
    its.countP (·.selection.action = a) =
      (recorded.map (·.value (.action a .attempted))).sum +
        (recorded.map (·.value (.action a .skipped))).sum +
        its.countP fun it => it.selection.action = a ∧ it.entries = [] := by
  have hboth (e : Entry) : e.value (.action a .attempted) + e.value (.action a .skipped) =
      if e.action = a then 1 else 0 := by
    rw [e.value_attempted, e.value_skipped]
    by_cases ha : e.action = a <;> by_cases hskipped : e.outcome = .skipped <;> simp [ha, hskipped]
  have hsum : (recorded.map fun e => if e.action = a then 1 else 0).sum =
      (its.map fun it => if it.selection.action = a ∧ it.entries ≠ [] then 1 else 0).sum :=
    h.sum_recorded
      (fun it e he hcounts => by simp [hcounts.action_eq, he])
      fun it hopen => by simp [hopen.entries_eq]
  rw [← List.sum_map_add, List.map_congr_left fun e _ => hboth e, hsum]
  clear h hsum
  induction its with
  | nil => rfl
  | cons it its ih =>
    rw [List.countP_cons, ih, List.map_cons, List.sum_cons, List.countP_cons]
    by_cases ha : it.selection.action = a <;> by_cases hnone : it.entries = [] <;>
      simp [ha, hnone] <;> omega

theorem sum_sent : (recorded.map (·.value .bytesSent)).sum = (its.map (·.sent)).sum :=
  h.sum_recorded (fun _ e _ hcounts => e.value_bytesSent.trans hcounts.sent_eq)
    fun _ hopen => by rw [Iteration.sent, hopen.answered_eq]; rfl

theorem sum_received : (recorded.map (·.value .bytesReceived)).sum = (its.map (·.received)).sum :=
  h.sum_recorded (fun _ e _ hcounts => e.value_bytesReceived.trans hcounts.received_eq)
    fun _ hopen => by rw [Iteration.received, hopen.answered_eq]; rfl

end Books

namespace Ledger

open Wake

variable [Weights.Weight R] {config : Config R}

/-- **Every selected operation is counted once.** Whatever a worker of a configuration with an
endpoint finds in a run:

* each iteration records one outcome, for the action that was selected, and it is skipped exactly if
  the selection was. Only the last iteration may have recorded nothing: it is under way, or the run
  was stopped before it wrote anything;
* so many selections of an action were made as are counted as attempted or skipped, and the one that
  has recorded nothing, if there is one;
* as many operations are done as there are attempts that did not fail for want of a connection;
* the bytes are those of the requests and responses of the exchanges that returned a response;
* a worker that was woken after the run was stopped begins to write no request. -/
theorem accounts (hends : config.endpoints ≠ []) {id : Nat} {source : Random.Source}
    {xs : List (Wake R)} (hxs : Orderly config xs) {l : Ledger R}
    (hl : (start config id source).notes xs = l) :
    (∀ it ∈ l.iterations, it.Counted ∨ it.Open ∧ l.iterations.head? = some it ∧
      (l.worker.phase.job?.isSome = true ∨ it.written = [] ∧ stopped xs = true)) ∧
    (∀ a, l.iterations.countP (·.selection.action = a) =
      (l.stats.action a).attempted + (l.stats.action a).skipped +
        l.iterations.countP fun it => it.selection.action = a ∧ it.entries = []) ∧
    l.worker.operations + (Action.all.map fun a => (l.stats.action a).failed.connection).sum =
      (Action.all.map fun a => (l.stats.action a).attempted).sum ∧
    l.stats.bytesSent = (l.iterations.map (·.sent)).sum ∧
    l.stats.bytesReceived = (l.iterations.map (·.received)).sum ∧
    ∀ before x after, xs = before ++ x :: after → late (before ++ [x]) = true →
      ((start config id source).notes before).worker.writes x = [] := by
  have hbooks := (kept_notes hends id source hxs).books
  rw [hl] at hbooks
  refine ⟨fun it hit => ?_, fun a => ?_, ?_, ?_, ?_, fun before x after hsplit hlate => ?_⟩
  · refine (hbooks.counted_or_open hit).imp_right fun ⟨hopen, hhead, hwhy⟩ => ⟨hopen, hhead, ?_⟩
    refine hwhy.imp_left fun ⟨job, hjob⟩ => ?_
    cases hphase : l.worker.phase with
    | acquiring | exchanging => rfl
    | fresh | ready | resting | stopped | aborted =>
      rw [hphase] at hjob
      rcases hjob with h | h <;> cases h
  · rw [hbooks.countP_action a, ← l.value_stats, ← l.value_stats]
    rfl
  · have hattempted (a : Action) : (l.stats.action a).attempted =
        (l.recorded.map fun e => if e.action = a ∧ e.outcome ≠ .skipped then 1 else 0).sum :=
      (l.value_stats (.action a .attempted)).trans
        (congrArg List.sum (List.map_congr_left fun e _ => e.value_attempted a))
    have hconnection (a : Action) : (l.stats.action a).failed.connection = (l.recorded.map fun e =>
        if e.action = a ∧ e.outcome = .failure .connection then 1 else 0).sum :=
      (l.value_stats (.action a (.failed .connection))).trans
        (congrArg List.sum (List.map_congr_left fun e _ => e.value_connection a))
    rw [List.map_congr_left fun a _ => hattempted a, List.map_congr_left fun a _ => hconnection a,
      sum_actions, sum_actions, hbooks.operations_eq, countP_returned]
  · exact (l.value_stats .bytesSent).trans hbooks.sum_sent
  · exact (l.value_stats .bytesReceived).trans hbooks.sum_received
  · rw [hsplit, List.append_cons] at hxs
    exact writes_of_late hends id source hxs.of_append hlate

/-! ### A read cut short -/

/-- What the only client of a run finds when it is woken. -/
def soloSight (stopping : Bool) (signal : Signal) : Sight ℚ :=
  ⟨⟨.new Trial.solo, .new 1, stopping⟩, .zero, signal⟩

/-- A source whose words are all of one bits. -/
def ones : Random.Source := .stream (fun _ => 0xFFFFFFFFFFFFFFFF) 0

/-- A read is refused, another one is never answered, and a third one is drawn when the run is
stopped before there is a connection. -/
def cutShort : List (Wake ℚ) :=
  (([.resume, .resume, .acquire (.connected 0), .exchange .written,
      .exchange (.received (Wire.textBytes "-ERR no such key\r\n")), .resume, .exchange .written,
      .exchange .timeUp, .resume].map (soloSight false)) ++ [soloSight true .stop]).map .ofSight

theorem sound_soloSight {stopping : Bool} {signal : Signal} :
    (soloSight stopping signal).shared.workload.Sound Trial.solo :=
  Workload.sound_new Trial.accepted_solo.regular

theorem orderly_cutShort : Orderly Trial.solo cutShort :=
  .of_pairwise (by simp [cutShort, ofSight, sound_soloSight])
    (by simp [cutShort, ofSight, soloSight]) (by simp [cutShort, ofSight, soloSight])

theorem accounts_cutShort :
    Trial.solo.endpoints ≠ [] ∧ Orderly Trial.solo cutShort ∧
      ∃ l, (start Trial.solo 0 ones).notes cutShort = l ∧
        l.iterations.map (·.entries.length) = [0, 1, 1] ∧ l.worker.operations = 2 ∧
        l.stats.bytesReceived = 18 ∧
        l.iterations.countP (·.selection.action = .get) =
          (l.stats.action .get).attempted + (l.stats.action .get).skipped + 1 := by
  have hends : Trial.solo.endpoints ≠ [] := by decide +kernel
  refine ⟨hends, orderly_cutShort, _, rfl, by decide +kernel, by decide +kernel, by decide +kernel,
    ?_⟩
  have hopen : ((start Trial.solo 0 ones).notes cutShort).iterations.countP
      (fun it => it.selection.action = .get ∧ it.entries = []) = 1 := by decide +kernel
  rw [← hopen]
  exact (accounts hends orderly_cutShort rfl).2.1 .get

/-- A client is waiting for a connection, which is made while the client has its turn; so it does
not see that the run is stopped by then. -/
def unnoticed : Wake ℚ :=
  { soloSight true (.acquire (.connected 0)) with woken := false, overtaken := false }

/-- A read is drawn. -/
def waiting : List (Wake ℚ) := ([.resume, .resume].map (soloSight false)).map .ofSight

theorem orderly_unnoticed : Orderly Trial.solo (waiting ++ [unnoticed]) :=
  .of_pairwise (by simp [waiting, unnoticed, ofSight, sound_soloSight])
    (by simp [waiting, unnoticed, ofSight, soloSight])
    (by simp [waiting, unnoticed, ofSight, soloSight])

/-- **A request may be written after the run is stopped**, although there was no connection when it
was stopped. -/
theorem writes_of_stopped :
    Trial.solo.Accepted ∧ Trial.solo.endpoints ≠ [] ∧ Orderly Trial.solo (waiting ++ [unnoticed]) ∧
      unnoticed.shared.stopping = true ∧
      ∃ w, ((start Trial.solo 0 ones).notes waiting).worker = w ∧ w.phase.job?.isSome = true ∧
        w.phase.sending?.isNone = true ∧ w.writes unnoticed ≠ [] :=
  ⟨Trial.accepted_solo, by decide +kernel, orderly_unnoticed, rfl, _, rfl, by decide +kernel,
    by decide +kernel, by decide +kernel⟩

end Ledger

end LoadGen
