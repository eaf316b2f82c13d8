import LoadGen.Proofs.Report.Figures
import LoadGen.Proofs.Stats.Quantiles

/-!
# Reports are consistent

Recording, merging and resetting keep the counters of an action in balance with each other and with
the latencies counted (`ActionStats.Consistent`). So do all windows that these operations lead to
(`WindowStats.Reachable.consistent`), and their reports leave nothing out
(`WindowReport.report_consistent`).
-/

namespace LoadGen.Stats

open Config (Action)
open Time (Span)

/-! ## Numbers of latencies -/

namespace Histogram

theorem total_bump (low n : Nat) (l : List (Nat × Nat)) :
    total (·.2) (bump low n l) = total (·.2) l + n := by
  induction l with
  | nil => exact Nat.add_comm n 0
  | cons p rest ih =>
    simp only [total] at ih
    simp only [bump]
    split
    · simp only [total, List.foldr_cons]
      omega
    · split
      · simp only [total, List.foldr_cons]
        omega
      · simp only [total, List.foldr_cons, ih]
        omega

theorem count_record (h : Histogram) (v : Nat) : (h.record v).count = h.count + 1 :=
  total_bump ..

theorem count_merge (h other : Histogram) : (h.merge other).count = h.count + other.count := by
  obtain ⟨l⟩ := h
  obtain ⟨l'⟩ := other
  simp only [count, merge]
  induction l' generalizing l with
  | nil => rfl
  | cons p rest ih =>
    rw [List.foldl_cons, ih, total_bump, total, total, total, List.foldr_cons]
    omega

end Histogram

/-! ## Counters of an action -/

theorem Failures.total_eq_sum (f : Failures) : f.total = (FailureKind.all.map f.get).sum := by
  simp only [total, FailureKind.all, get, List.map_cons, List.map_nil, List.sum_cons, List.sum_nil]
  omega

/-- The counters of an action agree with each other: what was attempted has ended in one way, and
its latency was counted. -/
structure ActionStats.Consistent (s : ActionStats) : Prop where
  proper : s.latency.Proper
  balanced : s.Balanced
  count_latency : s.latency.count = s.attempted

namespace ActionStats

theorem consistent_empty : Consistent .empty :=
  ⟨Histogram.proper_empty, rfl, rfl⟩

namespace Consistent

variable {s t : ActionStats}

theorem record (hs : s.Consistent) (outcome : Outcome) (latency : Span) :
    (s.record outcome latency).Consistent where
  proper := proper_record hs.proper outcome latency
  balanced := hs.balanced.record outcome latency
  count_latency := by
    have h := hs.count_latency
    cases outcome with
    | skipped => exact h
    | _ => exact (Histogram.count_record _ _).trans (congrArg (· + 1) h)

theorem merge (hs : s.Consistent) (ht : t.Consistent) : (s.merge t).Consistent where
  proper := proper_merge hs.proper ht.proper
  balanced := by
    have h := hs.balanced
    have h' := ht.balanced
    simp only [Balanced, Failures.total, ActionStats.merge, Failures.merge] at h h' ⊢
    omega
  count_latency := by
    rw [ActionStats.merge, ht.proper.add?_eq, Option.getD_some, Histogram.count_merge,
      hs.count_latency, ht.count_latency]

/-- Attempts by how they ended. -/
theorem attempted_eq (hs : s.Consistent) :
    s.attempted = s.succeeded + (FailureKind.all.map s.failed.get).sum + s.expectedMisses := by
  rw [← Failures.total_eq_sum]
  exact hs.balanced

end Consistent

end ActionStats

/-! ## Windows -/

namespace WindowStats

/-- The windows that recording, merging and resetting lead to. -/
inductive Reachable : WindowStats → Prop
  | empty : Reachable .empty
  | record {w : WindowStats} (hw : Reachable w) (a : Action) (outcome : Outcome) (latency : Span) :
    Reachable (w.record a outcome latency)
  | recordBytes {w : WindowStats} (hw : Reachable w) (sent received : Nat) :
    Reachable (w.recordBytes sent received)
  | merge {w v : WindowStats} (hw : Reachable w) (hv : Reachable v) : Reachable (w.merge v)
  | reset {w : WindowStats} (hw : Reachable w) : Reachable w.reset

/-- **The counters of windows agree with each other**, whatever was done to them. -/
theorem Reachable.consistent {w : WindowStats} (hw : w.Reachable) (a : Action) :
    (w.action a).Consistent := by
  induction hw with
  | empty =>
    rw [action_empty]
    exact ActionStats.consistent_empty
  | record _ b outcome latency ih =>
    rw [action_record]
    split
    · exact ih.record outcome latency
    · exact ih
  | recordBytes _ sent received ih => exact ih
  | merge _ _ ih ih' =>
    rw [action_merge]
    exact ih.merge ih'
  | reset =>
    rw [reset_eq_empty, action_empty]
    exact ActionStats.consistent_empty

/-- The actions are listed in their order. -/
theorem map_action_all (w : WindowStats) : Action.all.map w.action = w.actions.toList := by
  have hindex : ∀ i : Fin 8, Action.all[i].index = i := by decide
  refine List.ext_getElem (by simp [Action.all]) fun i _ hi => ?_
  have hi : i < 8 := by simpa using hi
  simp only [List.getElem_map, Vector.getElem_toList, action_eq_getElem _ _ (index_lt _)]
  exact congrArg (w.actions.get ·) (Fin.ext (hindex ⟨i, hi⟩))

theorem attempted_eq_sum (w : WindowStats) :
    w.attempted = (Action.all.map fun a => (w.action a).attempted).sum := by
  have : (Action.all.map fun a => (w.action a).attempted) =
      (Action.all.map w.action).map (·.attempted) := List.map_map.symm
  rw [this, map_action_all, attempted, total, List.sum_eq_foldr, List.foldr_map]

end WindowStats

end LoadGen.Stats

namespace LoadGen.Report

open Config (Action)
open Stats
open Time (Span)

/-! ## Reports of windows -/

theorem total_filterMap {α β : Type} (f : β → Nat) (g : α → Option β) (l : List α) :
    total f (l.filterMap g) = (l.map fun a => ((g a).map f).getD 0).sum := by
  induction l with
  | nil => rfl
  | cons a rest ih =>
    rw [List.map_cons, List.sum_cons, ← ih]
    cases h : g a with
    | none => rw [List.filterMap_cons_none h, Option.map_none, Option.getD_none, Nat.zero_add]
    | some b =>
      rw [List.filterMap_cons_some h, Option.map_some, Option.getD_some]
      rfl

namespace WindowReport

variable (window : Nat) (start stop : Span) (w : WindowStats) (existing : List (Option Nat))

/-- The actions that are reported are those that were drawn, in their order. -/
theorem map_action_ofStats : (ofStats window start stop w existing).actions.map (·.action) =
    Action.all.filter fun a => (w.action a).attempted ≠ 0 ∨ (w.action a).skipped ≠ 0 := by
  rw [ofStats, ← List.filterMap_eq_filter]
  dsimp only
  rw [List.map_filterMap]
  refine List.filterMap_congr fun a _ => ?_
  rw [ActionReport.ofStats?, Option.guard]
  split
  · next h => rw [if_neg (by simpa using h), Option.map_none]
  · next h => exact (if_pos (by simpa [imp_iff_not_or] using h)).symm

/-- The figures of all actions together. -/
theorem total_figure_ofStats (h : ∀ a, (w.action a).Balanced) (f : ActionFigure) :
    total (·.figure f) (ofStats window start stop w existing).actions =
      (Action.all.map fun a => (f.counters.map (w.action a).value).sum).sum := by
  rw [ofStats, total_filterMap]
  exact congrArg List.sum (List.map_congr_left fun a _ => ActionReport.figure_ofStats? (h a) a f)

/-- What is reported of the latencies of an action. -/
theorem bind_latency_ofStats (a : Action) :
    ((ofStats window start stop w existing).action? a).bind (·.latency) =
      if 0 < (w.action a).attempted then some (.ofHistogram (w.action a).latency) else none := by
  rw [action?_ofStats, ActionReport.ofStats?]
  split
  · next h => rw [if_neg (by omega), Option.bind_none]
  · rfl

/-- **Reports are consistent.** Every window that recording, merging and resetting lead to counts for
each action as many attempts as latencies, and as operations that succeeded, failed in one of the
four ways or missed. Of its report we have:

* the actions are those that were attempted or skipped, in the order of all actions, each with its
  own counters;
* the figures of the whole window are the sums of the counters of all actions;
* an action has latencies exactly if it was attempted, and these are in order, as they also are if
  the ranks of quantiles are not rounded. -/
theorem report_consistent {w : WindowStats} (hw : w.Reachable) (window : Nat) (start stop : Span)
    (existing : List (Option Nat)) :
    (∀ a, let s := w.action a
      s.attempted = s.succeeded + (FailureKind.all.map s.failed.get).sum + s.expectedMisses ∧
      s.attempted = s.latency.count) ∧
    let r := ofStats window start stop w existing
    r.actions.map (·.action) =
      Action.all.filter (fun a => (w.action a).attempted ≠ 0 ∨ (w.action a).skipped ≠ 0) ∧
    (∀ x ∈ r.actions, let s := w.action x.action
      x.attempted = s.attempted ∧ x.succeeded = s.succeeded ∧
      x.failed = (FailureKind.all.map s.failed.get).sum ∧
      x.failures = FailureKind.all.map (fun kind => (kind, s.failed.get kind)) ∧
      x.expectedMisses = s.expectedMisses ∧ x.skipped = s.skipped) ∧
    r.attempted = w.attempted ∧
    r.attempted = (Action.all.map fun a => (w.action a).attempted).sum ∧
    r.succeeded = (Action.all.map fun a => (w.action a).succeeded).sum ∧
    r.failed = (Action.all.map fun a =>
      (FailureKind.all.map (w.action a).failed.get).sum).sum ∧
    r.skipped = (Action.all.map fun a => (w.action a).skipped).sum ∧
    ∀ a, (((r.action? a).bind (·.latency)).isSome = true ↔ 0 < (w.action a).attempted) ∧
      ∀ l, (r.action? a).bind (·.latency) = some l →
        l.Ordered ∧ (Latency.exact (w.action a).latency).Ordered := by
  have hconsistent := hw.consistent
  have htotal := total_figure_ofStats window start stop w existing fun a =>
    (hconsistent a).balanced
  have hattempted : (ofStats window start stop w existing).attempted =
      (Action.all.map fun a => (w.action a).attempted).sum := htotal .attempted
  refine ⟨fun a => ⟨(hconsistent a).attempted_eq, (hconsistent a).count_latency.symm⟩,
    map_action_ofStats .., fun x hx => ?_, ?_, hattempted, htotal .succeeded, ?_,
    htotal .skipped, fun a => ?_⟩
  · obtain ⟨a, -, hx⟩ := List.mem_filterMap.1 hx
    rw [ActionReport.ofStats?] at hx
    split at hx
    · cases hx
    · cases hx
      exact ⟨rfl, rfl, Failures.total_eq_sum _, rfl, rfl, rfl⟩
  · rw [hattempted, WindowStats.attempted_eq_sum]
  · exact htotal .failed
  · rw [bind_latency_ofStats]
    have hcount := (hconsistent a).count_latency
    split
    · next hpos =>
      refine ⟨iff_of_true rfl hpos, ?_⟩
      rintro _ ⟨⟩
      exact ⟨Latency.ordered_ofHistogram (hconsistent a).proper (hcount ▸ hpos),
        Latency.ordered_exact (hconsistent a).proper (hcount ▸ hpos)⟩
    · next hnone =>
      refine ⟨iff_of_false Bool.false_ne_true hnone, ?_⟩
      rintro _ ⟨⟩

/-- One worker has looked a structure up and then failed to, another one was held back. -/
def twoWorkers : WindowStats :=
  ((WindowStats.empty.record .find .success (.ofMillis 2)).record .find (.failure .timeout)
    (.ofSeconds 90)).merge (WindowStats.empty.record .create .skipped .zero)

theorem report_consistent_twoWorkers :
    let r := ofStats 0 .zero (.ofSeconds 100) twoWorkers []
    twoWorkers.Reachable ∧ r.actions.map (·.action) = [.create, .find] ∧ r.attempted = 2 ∧
      r.failed = 1 ∧ r.skipped = 1 ∧
      ∃ l, (r.action? .find).bind (·.latency) = some l ∧ l.Ordered := by
  have hreachable : twoWorkers.Reachable :=
    .merge (.record (.record .empty _ _ _) _ _ _) (.record .empty _ _ _)
  obtain ⟨-, hactions, -, -, hattempted, -, hfailed, hskipped, hlatency⟩ :=
    report_consistent hreachable 0 .zero (.ofSeconds 100) []
  obtain ⟨hsome, hordered⟩ := hlatency .find
  obtain ⟨l, hl⟩ := Option.isSome_iff_exists.1 (hsome.2 (by decide +kernel))
  exact ⟨hreachable, hactions.trans (by decide +kernel), hattempted.trans (by decide +kernel),
    hfailed.trans (by decide +kernel), hskipped.trans (by decide +kernel), l, hl, (hordered l hl).1⟩

end WindowReport

end LoadGen.Report
