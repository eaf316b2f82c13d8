import LoadGen.Proofs.Stats.Holding
import LoadGen.Report.Window

/-!
# Figures of reports

A report is read through its figures: the counters of each action, by failure kind as well, and the
bytes. An action that is not in the report has figures of zero, which is right because attempts are
the operations that succeeded, failed or missed (`ActionStats.Balanced`). The figures of a report
are sums of counters (`WindowReport.figure_ofStats`), so that those of a report of several windows
add up (`Figure.value_flatten`).
-/

namespace LoadGen.Stats

open Config (Action)
open Time (Span)

/-! ## Attempts -/

theorem Failures.total_bump (f : Failures) (kind : FailureKind) :
    (f.bump kind).total = f.total + 1 := by
  cases kind <;> simp only [bump, total] <;> omega

/-- What was attempted has succeeded, failed or missed. -/
def ActionStats.Balanced (s : ActionStats) : Prop :=
  s.attempted = s.succeeded + s.failed.total + s.expectedMisses

theorem ActionStats.Balanced.record {s : ActionStats} (h : s.Balanced) (outcome : Outcome)
    (latency : Span) : (s.record outcome latency).Balanced := by
  rw [Balanced] at h ⊢
  cases outcome with
  | failure kind =>
    simp only [ActionStats.record, attempt, Failures.total_bump]
    omega
  | skipped => exact h
  | _ =>
    simp only [ActionStats.record, attempt]
    omega

namespace WindowStats

theorem balanced_count {w : WindowStats} (h : ∀ a, (w.action a).Balanced) (e : Entry)
    (a : Action) : ((w.count e).action a).Balanced := by
  rw [count, recordRequest, action_recordBytes, action_record]
  split
  · exact (h a).record _ _
  · exact h a

theorem balanced_countAll {w : WindowStats} (h : ∀ a, (w.action a).Balanced)
    (entries : List Entry) (a : Action) : ((w.countAll entries).action a).Balanced := by
  induction entries generalizing w with
  | nil => exact h a
  | cons e rest ih => exact ih (balanced_count h e)

theorem balanced_empty (a : Action) : (empty.action a).Balanced := by
  rw [action_empty]
  rfl

end WindowStats

end LoadGen.Stats

namespace LoadGen.Report

open Config (Action)
open Stats
open Time (Span)

/-! ## Figures -/

/-- What is said of an action. -/
inductive ActionFigure
  | attempted
  | succeeded
  | failed
  /-- Failures of one kind. -/
  | failures (kind : FailureKind)
  | expectedMisses
  | skipped
  deriving Repr, DecidableEq

/-- What a report says. -/
inductive Figure
  | action (a : Action) (f : ActionFigure)
  | bytesSent
  | bytesReceived
  deriving Repr, DecidableEq

def ActionReport.figure (r : ActionReport) : ActionFigure → Nat
  | .attempted => r.attempted
  | .succeeded => r.succeeded
  | .failed => r.failed
  | .failures kind => (r.failures.lookup kind).getD 0
  | .expectedMisses => r.expectedMisses
  | .skipped => r.skipped

/-- An action that is not reported counts nothing. -/
def WindowReport.figure (r : WindowReport) : Figure → Nat
  | .action a f => ((r.action? a).map (·.figure f)).getD 0
  | .bytesSent => r.bytesSent
  | .bytesReceived => r.bytesReceived

/-- The counters that make up a figure of an action. -/
def ActionFigure.counters : ActionFigure → List ActionStats.Counter
  | .attempted => [.attempted]
  | .succeeded => [.succeeded]
  | .failed => FailureKind.all.map .failed
  | .failures kind => [.failed kind]
  | .expectedMisses => [.expectedMisses]
  | .skipped => [.skipped]

/-- The counters that make up a figure. -/
def Figure.counters : Figure → List Counter
  | .action a f => f.counters.map (.action a)
  | .bytesSent => [.bytesSent]
  | .bytesReceived => [.bytesReceived]

namespace Figure

/-- What counters give for a figure. -/
def value (f : Figure) (w : WindowStats) : Nat := (f.counters.map w.value).sum

theorem value_empty (f : Figure) : f.value .empty = 0 := by
  rw [value]
  exact List.sum_eq_zero (by simp)

theorem value_append (f : Figure) (entries rest : List Entry) :
    f.value (WindowStats.empty.countAll (entries ++ rest)) =
      f.value (WindowStats.empty.countAll entries) +
        f.value (WindowStats.empty.countAll rest) := by
  rw [value, value, value, ← List.sum_map_add]
  exact congrArg List.sum (List.map_congr_left fun c _ =>
    WindowStats.value_countAll_append entries rest c)

/-- **The figures of several windows add up.** -/
theorem value_flatten (f : Figure) (windows : List (List Entry)) :
    f.value (WindowStats.empty.countAll windows.flatten) =
      (windows.map fun entries => f.value (WindowStats.empty.countAll entries)).sum := by
  induction windows with
  | nil => exact f.value_empty
  | cons entries rest ih =>
    rw [List.flatten_cons, value_append, ih, List.map_cons, List.sum_cons]

end Figure

/-! ## Figures of counters -/

theorem ActionReport.action_of_ofStats? {a : Action} {s : ActionStats} {r : ActionReport}
    (h : ofStats? a s = some r) : r.action = a := by
  rw [ofStats?] at h
  split at h
  · cases h
  · cases h
    rfl

/-- What is reported of an action are its figures. -/
theorem ActionReport.figure_ofStats? {s : ActionStats} (hs : s.Balanced) (a : Action)
    (f : ActionFigure) :
    ((ofStats? a s).map (·.figure f)).getD 0 = (f.counters.map s.value).sum := by
  rw [ofStats?]
  split
  · next hnone =>
    -- nothing was attempted, so nothing succeeded, failed or missed
    obtain ⟨hattempted, hskipped⟩ := hnone
    rw [ActionStats.Balanced, hattempted, Failures.total] at hs
    cases f with
    | failures kind =>
      cases kind <;> simp [ActionFigure.counters, ActionStats.value, Failures.get] <;> omega
    | _ =>
      simp [ActionFigure.counters, ActionStats.value, Failures.get, FailureKind.all]
      omega
  · cases f with
    | failures kind => cases kind <;> rfl
    | failed =>
      simp [ActionReport.figure, ActionFigure.counters, ActionStats.value, Failures.get,
        FailureKind.all, Failures.total]
      omega
    | _ => rfl

namespace WindowReport

variable (window : Nat) (start stop : Span) (stats : WindowStats) (existing : List (Option Nat))

/-- A report has what there is to report of an action. -/
theorem action?_ofStats (a : Action) :
    (ofStats window start stop stats existing).action? a =
      ActionReport.ofStats? a (stats.action a) := by
  have hmem : a ∈ Action.all := by cases a <;> decide
  rw [action?, ofStats]
  dsimp only
  rw [List.find?_filterMap]
  cases hfind : Action.all.find?
      fun b => (ActionReport.ofStats? b (stats.action b)).any (·.action = a) with
  | none =>
    have hnot := List.find?_eq_none.1 hfind a hmem
    cases h : ActionReport.ofStats? a (stats.action a) with
    | none => rfl
    | some r =>
      rw [h] at hnot
      exact absurd (by simpa using ActionReport.action_of_ofStats? h) hnot
  | some b =>
    have hb := List.find?_some hfind
    cases h : ActionReport.ofStats? b (stats.action b) with
    | none =>
      rw [h] at hb
      cases hb
    | some r =>
      rw [h] at hb
      obtain rfl : b = a := by
        rw [← ActionReport.action_of_ofStats? h]
        simpa using hb
      rfl

/-- **The figures of a report are those of the counters.** -/
theorem figure_ofStats (h : ∀ a, (stats.action a).Balanced) (f : Figure) :
    (ofStats window start stop stats existing).figure f = f.value stats := by
  cases f with
  | action a f =>
    rw [figure, action?_ofStats, ActionReport.figure_ofStats? (h a), Figure.value,
      Figure.counters, List.map_map]
    rfl
  | bytesSent => exact (Nat.add_zero _).symm
  | bytesReceived => exact (Nat.add_zero _).symm

/-- A report of entries has the figures of the entries. -/
theorem figure_countAll (entries : List Entry) (f : Figure) :
    (ofStats window start stop (WindowStats.empty.countAll entries) existing).figure f =
      f.value (WindowStats.empty.countAll entries) :=
  figure_ofStats _ _ _ _ _ (WindowStats.balanced_countAll WindowStats.balanced_empty entries) f

end WindowReport

end LoadGen.Report
