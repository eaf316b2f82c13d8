import Mathlib
import LoadGen.Proofs.Stats.Buckets
import LoadGen.Stats.Collector

/-!
# Windows are their counters

A window is read through its counters, the buckets of its histograms among them: `WindowStats.value`
is what each of them says. A proper window is determined by these values (`WindowStats.Proper.ext`).
Merging adds them (`WindowStats.value_merge`), and counting an entry adds what the entry alone would
give (`WindowStats.value_count`), so that whatever is done to windows is a matter of sums.
-/

namespace LoadGen.Stats

open Config (Action)
open Time (Span)

/-! ## Counters of an action -/

/-- What is counted for an action. -/
inductive ActionStats.Counter
  | attempted
  | succeeded
  | failed (kind : FailureKind)
  | expectedMisses
  | skipped
  /-- The latencies in the bucket with this lowest value. -/
  | latency (low : Nat)

namespace ActionStats

/-- What a counter says. -/
def value (s : ActionStats) : Counter → Nat
  | .attempted => s.attempted
  | .succeeded => s.succeeded
  | .failed kind => s.failed.get kind
  | .expectedMisses => s.expectedMisses
  | .skipped => s.skipped
  | .latency low => s.latency.countAt low

variable {s t : ActionStats}

@[simp]
theorem value_empty (c : Counter) : empty.value c = 0 := by
  cases c with
  | failed kind => cases kind <;> rfl
  | _ => rfl

theorem value_merge (ht : t.latency.Proper) (c : Counter) :
    (s.merge t).value c = s.value c + t.value c := by
  cases c with
  | failed kind => cases kind <;> rfl
  | latency low => simp [value, merge, ht.add?_eq, Histogram.countAt_merge]
  | _ => rfl

/-- Recording an operation adds what the operation alone gives. -/
theorem value_record (outcome : Outcome) (latency : Span) (c : Counter) :
    (s.record outcome latency).value c = s.value c + (empty.record outcome latency).value c := by
  cases outcome with
  | failure kind =>
    cases c with
    | failed kind' =>
      cases kind <;> cases kind' <;>
        simp [record, attempt, value, Failures.bump, Failures.get, empty, Failures.none]
    | latency low => simp [record, attempt, value, Histogram.countAt_record, empty]
    | _ => simp [record, attempt, value, empty]
  | _ =>
    cases c with
    | failed kind' =>
      cases kind' <;> simp [record, attempt, value, Failures.get, empty, Failures.none]
    | latency low => simp [record, attempt, value, Histogram.countAt_record, empty]
    | _ => simp [record, attempt, value, empty]

theorem proper_record (hs : s.latency.Proper) (outcome : Outcome) (latency : Span) :
    (s.record outcome latency).latency.Proper := by
  cases outcome with
  | skipped => exact hs
  | _ => exact hs.record _

theorem proper_merge (hs : s.latency.Proper) (ht : t.latency.Proper) :
    (s.merge t).latency.Proper := by
  rw [merge, ht.add?_eq]
  exact hs.merge ht

/-- Counters with the same values are the same. -/
theorem ext_value (hs : s.latency.Proper) (ht : t.latency.Proper)
    (h : ∀ c, s.value c = t.value c) : s = t := by
  have hfailed : s.failed = t.failed := by
    rw [Failures.mk.injEq]
    exact ⟨h (.failed .connection), h (.failed .timeout), h (.failed .protocol), h (.failed .io)⟩
  rw [ActionStats.mk.injEq]
  exact ⟨h .attempted, h .succeeded, hfailed, h .expectedMisses, h .skipped,
    hs.ext ht fun low => h (.latency low)⟩

end ActionStats

/-! ## Counters of a window -/

/-- What a window counts. -/
inductive Counter
  | action (a : Action) (c : ActionStats.Counter)
  | bytesSent
  | bytesReceived

namespace WindowStats

/-- What a counter says. -/
def value (w : WindowStats) : Counter → Nat
  | .action a c => (w.action a).value c
  | .bytesSent => w.bytesSent
  | .bytesReceived => w.bytesReceived

/-- The histograms are proper. -/
def Proper (w : WindowStats) : Prop := ∀ a, (w.action a).latency.Proper

theorem index_inj {a b : Action} (h : a.index = b.index) : a = b := by
  cases a <;> cases b <;> first | rfl | cases h

theorem exists_index (i : Nat) (hi : i < 8) : ∃ a : Action, a.index = i := by
  have h : ∀ i : Fin 8, ∃ a ∈ Action.all, a.index = i := by decide
  obtain ⟨a, -, ha⟩ := h ⟨i, hi⟩
  exact ⟨a, ha⟩

theorem action_eq_getElem (w : WindowStats) (a : Action) (h : a.index < 8) :
    w.action a = w.actions[a.index] := rfl

@[simp]
theorem action_empty (a : Action) : empty.action a = .empty := by
  simp [action_eq_getElem _ a (index_lt a), empty]

@[simp]
theorem action_merge (w v : WindowStats) (a : Action) :
    (w.merge v).action a = (w.action a).merge (v.action a) := by
  simp [action_eq_getElem _ a (index_lt a), merge]

theorem action_record (w : WindowStats) (a b : Action) (outcome : Outcome) (latency : Span) :
    (w.record a outcome latency).action b =
      if a = b then (w.action b).record outcome latency else w.action b := by
  rw [action_eq_getElem _ b (index_lt b), record, Vector.getElem_set]
  split
  · next h => rw [if_pos (index_inj h), index_inj h]
  · next h => rw [if_neg fun he => h (congrArg _ he), action_eq_getElem]

@[simp]
theorem action_recordBytes (w : WindowStats) (sent received : Nat) (a : Action) :
    (w.recordBytes sent received).action a = w.action a := rfl

/-- A window that is reset is empty. -/
@[simp]
theorem reset_eq_empty (w : WindowStats) : w.reset = empty := by
  have hactions : w.actions.map (fun _ => ActionStats.empty) = Vector.replicate 8 .empty := by
    ext i hi
    simp
  rw [reset, hactions]
  rfl

theorem ext_action {w v : WindowStats} (h : ∀ a, w.action a = v.action a)
    (hsent : w.bytesSent = v.bytesSent) (hreceived : w.bytesReceived = v.bytesReceived) :
    w = v := by
  have hactions : w.actions = v.actions := by
    ext i hi : 1
    obtain ⟨a, rfl⟩ := exists_index i hi
    exact h a
  rw [WindowStats.mk.injEq]
  exact ⟨hactions, hsent, hreceived⟩

/-- Counts entries in order. -/
def countAll (w : WindowStats) (entries : List Entry) : WindowStats := entries.foldl count w

/-! ### Proper windows -/

variable {w v : WindowStats}

theorem proper_empty : Proper empty := fun a => by
  rw [action_empty]
  exact Histogram.proper_empty

namespace Proper

theorem merge (hw : w.Proper) (hv : v.Proper) : (w.merge v).Proper := fun a => by
  rw [action_merge]
  exact ActionStats.proper_merge (hw a) (hv a)

theorem count (hw : w.Proper) (e : Entry) : (w.count e).Proper := fun a => by
  rw [WindowStats.count, recordRequest, action_recordBytes, action_record]
  split
  · exact ActionStats.proper_record (hw a) _ _
  · exact hw a

theorem countAll (hw : w.Proper) (entries : List Entry) : (w.countAll entries).Proper := by
  induction entries generalizing w with
  | nil => exact hw
  | cons e rest ih => exact ih (hw.count e)

/-- **Proper windows whose counters agree are the same.** -/
theorem ext (hw : w.Proper) (hv : v.Proper) (h : ∀ c, w.value c = v.value c) : w = v :=
  ext_action (fun a => ActionStats.ext_value (hw a) (hv a) fun c => h (.action a c))
    (h .bytesSent) (h .bytesReceived)

end Proper

/-! ### Sums -/

@[simp]
theorem value_empty (c : Counter) : empty.value c = 0 := by
  cases c with
  | action a c => simp [value]
  | _ => rfl

/-- **Merging adds the values of all counters.** -/
theorem value_merge {w v : WindowStats} (hv : v.Proper) (c : Counter) :
    (w.merge v).value c = w.value c + v.value c := by
  cases c with
  | action a c =>
    simp only [value, action_merge]
    exact ActionStats.value_merge (hv a) c
  | _ => rfl

end WindowStats

/-- What an entry adds to a counter. -/
def Entry.value (e : Entry) (c : Counter) : Nat := (WindowStats.empty.count e).value c

namespace WindowStats

/-- **Counting an entry adds what the entry alone gives.** -/
theorem value_count (w : WindowStats) (e : Entry) (c : Counter) :
    (w.count e).value c = w.value c + e.value c := by
  cases c with
  | action a c =>
    simp only [Entry.value, value, count, recordRequest, action_recordBytes, action_record,
      action_empty]
    split
    · exact ActionStats.value_record _ _ c
    · simp
  | bytesSent => simp [Entry.value, value, count, recordRequest, recordBytes, record, empty]
  | bytesReceived => simp [Entry.value, value, count, recordRequest, recordBytes, record, empty]

theorem value_countAll (w : WindowStats) (entries : List Entry) (c : Counter) :
    (w.countAll entries).value c = w.value c + (entries.map (·.value c)).sum := by
  induction entries generalizing w with
  | nil => rfl
  | cons e rest ih =>
    rw [countAll, List.foldl_cons, ← countAll, ih, value_count, List.map_cons, List.sum_cons,
      Nat.add_assoc]

end WindowStats

end LoadGen.Stats
