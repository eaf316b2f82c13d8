import LoadGen.Proofs.Report.Figures
import LoadGen.Proofs.Run.Course
import LoadGen.Proofs.Trial.OneClient

/-!
# Reports tile the run

The report of a window counts what was recorded between two ticks, and the total of a run counts
what was recorded up to the last one (`Chronicle.Tiles`). Whatever comes in between, the windows
follow one another without gaps, the run is complete exactly when all of them were reported, and the
total is their sum (`Chronicle.reports_tile`).
-/

namespace LoadGen

open Config (windowOffset)
open Report (ActionFigure Figure Summary WindowReport)
open Stats (Collector Entry WindowStats)
open Time (Span)

variable {R : Type}

/-! ## Offsets of windows -/

theorem Config.windowOffset_zero (interval : Span) : windowOffset interval 0 = .zero := by
  simp [windowOffset, Span.scale, Span.zero]

/-- An offset is exact as long as it can be represented. -/
theorem Config.windowOffset_eq {interval : Span} {n : Nat} (hn : n < 2 ^ 32)
    (hfits : interval.nanos * n ≤ Span.max.nanos) :
    windowOffset interval n = ⟨interval.nanos * n⟩ := by
  have hmin : min n (UInt32.size - 1) = n := Nat.min_eq_left (Nat.le_sub_one_of_lt hn)
  rw [windowOffset, hmin, Span.scale, Nat.min_eq_left hfits]

namespace Run

/-! ## What the run loop keeps -/

/-- Two runs have the same workers and the same statistics. -/
structure SameBooks (r r' : Run R) : Prop where
  general_eq : r'.general = r.general
  workers_eq : r'.workers = r.workers
  collector_eq : r'.collector = r.collector
  total_eq : r'.total = r.total
  sealed_eq : r'.sealed = r.sealed

theorem sameBooks_decide (r : Run R) (verdict : Verdict R) (now : Span) :
    r.SameBooks (r.decide verdict now) := ⟨rfl, rfl, rfl, rfl, rfl⟩

theorem SameBooks.refl (r : Run R) : r.SameBooks r := ⟨rfl, rfl, rfl, rfl, rfl⟩

theorem sameBooks_join (r : Run R) (client : Nat) (now : Span) :
    r.SameBooks (r.join client now) := by
  rw [join]
  split
  · exact r.sameBooks_decide _ now
  · exact .refl r

theorem sameBooks_checkHealth (r : Run R) (now : Span) :
    r.SameBooks (r.checkHealth now).1 := by
  rw [checkHealth]
  dsimp only
  split <;> exact ⟨rfl, rfl, rfl, rfl, rfl⟩

/-- What a tick makes of a run. -/
structure Ticked (r r' : Run R) (now : Span) : Prop where
  general_eq : r'.general = r.general
  workers_eq : r'.workers = r.workers
  collector_eq : r'.collector = r.collector.flush.2
  total_eq : r'.total = r.total.merge r.collector.flush.1
  sealed_eq : r'.sealed = r.sealed + 1
  verdict_eq : r'.verdict =
    if r.general.windows ≤ r.sealed + 1 then some (.completed, now) else r.verdict

theorem ticked (r : Run R) (now : Span) : r.Ticked (r.tick now).1 now := by
  rw [tick]
  dsimp only
  split
  · next h => exact ⟨rfl, rfl, rfl, rfl, rfl, (if_pos h).symm⟩
  · next h => exact ⟨rfl, rfl, rfl, rfl, rfl, (if_neg h).symm⟩

theorem report_tick (r : Run R) (now : Span) : (r.tick now).2.1 =
    WindowReport.ofStats r.sealed (windowOffset r.general.interval r.sealed)
      (windowOffset r.general.interval (r.sealed + 1)) r.collector.flush.1
      r.shared.workload.existing := rfl

end Run

namespace Chronicle

/-- The windows of a chronicle and what is said about them. -/
structure Tiles (general : Config.General) (c : Chronicle R) : Prop where
  general_eq : c.run.general = general
  length_buffers : c.run.collector.buffers.length = c.run.workers.size
  holds : c.run.collector.Holds c.current
  length_reports : c.reports.length = c.run.sealed
  length_windows : c.windows.length = c.run.sealed
  report_eq : ∀ k report, c.reports[k]? = some report → ∃ entries existing,
    c.windows[k]? = some entries ∧
      report = WindowReport.ofStats k (windowOffset general.interval k)
        (windowOffset general.interval (k + 1)) (WindowStats.empty.countAll entries) existing
  total_eq : c.run.total = WindowStats.empty.countAll c.windows.flatten
  sealed_eq : ∀ now, c.run.verdict = some (.completed, now) → c.run.sealed = general.windows
  sealed_lt : (∀ now, c.run.verdict ≠ some (.completed, now)) → c.run.sealed < general.windows

namespace Tiles

variable {general : Config.General} {c : Chronicle R}

/-- Early ends leave everything as it is. -/
theorem of_sameBooks (h : c.Tiles general) {r : Run R} (hbooks : c.run.SameBooks r)
    (hlt : c.run.sealed < general.windows)
    (hverdict : ∀ now, r.verdict ≠ some (.completed, now)) :
    Tiles general { c with run := r } where
  general_eq := hbooks.general_eq.trans h.general_eq
  length_buffers := by
    show r.collector.buffers.length = r.workers.size
    rw [hbooks.collector_eq, hbooks.workers_eq, h.length_buffers]
  holds := by
    show r.collector.Holds c.current
    rw [hbooks.collector_eq]
    exact h.holds
  length_reports := h.length_reports.trans hbooks.sealed_eq.symm
  length_windows := h.length_windows.trans hbooks.sealed_eq.symm
  report_eq := h.report_eq
  total_eq := hbooks.total_eq.trans h.total_eq
  sealed_eq now hnow := absurd hnow (hverdict now)
  sealed_lt _ := by
    show r.sealed < general.windows
    rw [hbooks.sealed_eq]
    exact hlt

/-- A window is sealed. -/
theorem tick (h : c.Tiles general) (hlt : c.run.sealed < general.windows)
    (hnone : c.run.verdict = none) (now : Span) : (c.attend now .tick).Tiles general := by
  obtain ⟨hflush, hholds⟩ := h.holds.flush
  have hr := c.run.ticked now
  -- the flush empties the buffers into the report, so what is recorded next is in the next one
  have hreport : (c.run.tick now).2.1 = WindowReport.ofStats c.reports.length
      (windowOffset general.interval c.reports.length)
      (windowOffset general.interval (c.reports.length + 1))
      (WindowStats.empty.countAll c.current) c.run.shared.workload.existing := by
    rw [Run.report_tick, h.length_reports, h.general_eq, hflush]
  exact
  { general_eq := hr.general_eq.trans h.general_eq
    length_buffers := by
      show (c.run.tick now).1.collector.buffers.length = (c.run.tick now).1.workers.size
      rw [hr.collector_eq, hr.workers_eq, Collector.length_flush, h.length_buffers]
    holds := by
      show (c.run.tick now).1.collector.Holds []
      rw [hr.collector_eq]
      exact hholds
    length_reports := by
      show (c.reports ++ [(c.run.tick now).2.1]).length = (c.run.tick now).1.sealed
      rw [hr.sealed_eq, List.length_append, h.length_reports, List.length_singleton]
    length_windows := by
      show (c.windows ++ [c.current]).length = (c.run.tick now).1.sealed
      rw [hr.sealed_eq, List.length_append, h.length_windows, List.length_singleton]
    report_eq := by
      refine Lists.forall_getElem?_concat (fun k report hk => ?_) ?_
      · obtain ⟨entries, existing, hentries, hreport⟩ := h.report_eq k report hk
        obtain ⟨hk', -⟩ := List.getElem?_eq_some_iff.1 hentries
        exact ⟨entries, existing, (List.getElem?_append_left hk').trans hentries, hreport⟩
      · refine ⟨c.current, c.run.shared.workload.existing, ?_, hreport⟩
        rw [attend, h.length_reports, ← h.length_windows]
        exact List.getElem?_concat_length
    total_eq := by
      show (c.run.tick now).1.total = WindowStats.empty.countAll (c.windows ++ [c.current]).flatten
      rw [hr.total_eq, h.total_eq, hflush, WindowStats.merge_countAll, List.flatten_concat]
    sealed_eq := by
      intro now' hnow
      have hverdict : (c.run.tick now).1.verdict = some (.completed, now') := hnow
      rw [hr.verdict_eq, h.general_eq, hnone] at hverdict
      show (c.run.tick now).1.sealed = general.windows
      rw [hr.sealed_eq]
      split at hverdict
      · omega
      · cases hverdict
    sealed_lt := by
      intro hverdict
      show (c.run.tick now).1.sealed < general.windows
      rw [hr.sealed_eq]
      by_contra hge
      refine hverdict now ?_
      show (c.run.tick now).1.verdict = some (.completed, now)
      rw [hr.verdict_eq, h.general_eq, if_pos (Nat.le_of_not_lt hge)] }

theorem attend (h : c.Tiles general) (hnone : c.run.verdict = none) (now : Span) (cause : Wakeup) :
    (c.attend now cause).Tiles general := by
  have hlt := h.sealed_lt (fun _ => by rw [hnone]; rintro ⟨⟩)
  cases cause with
  | tick => exact h.tick hlt hnone now
  | ended client =>
    refine h.of_sameBooks (c.run.sameBooks_join client now) hlt fun now' => ?_
    rw [Run.join]
    split
    · rintro ⟨⟩
    · rw [hnone]
      rintro ⟨⟩
  | lost reason => exact h.of_sameBooks (c.run.sameBooks_decide _ now) hlt fun _ => by rintro ⟨⟩
  | health =>
    refine h.of_sameBooks (c.run.sameBooks_checkHealth now) hlt fun now' => ?_
    rw [Run.checkHealth]
    dsimp only
    split
    · rintro ⟨⟩
    · rw [hnone]
      rintro ⟨⟩
  | shutDown => exact h.of_sameBooks (c.run.sameBooks_decide _ now) hlt fun _ => by rintro ⟨⟩

theorem work [Weights.Weight R] (h : c.Tiles general) (client : Nat) (now : Span) (s : Signal) :
    (c.work client now s).Tiles general := by
  rw [Chronicle.work]
  cases hw : c.run.workers[client]? with
  | none => exact h
  | some w =>
    have hconfig := (Worker.step_spec w c.run.shared now s).config_eq
    obtain ⟨hclient, -⟩ := Array.getElem?_eq_some_iff.1 hw
    dsimp only
    rw [Run.work_eq hw]
    exact
    { general_eq := by
        rw [← h.general_eq, Run.general, Run.general, hconfig]
      length_buffers := by
        dsimp only [Collector.update]
        rw [List.length_modify, Array.size_setIfInBounds, h.length_buffers]
      holds := h.holds.update (by rw [h.length_buffers]; exact hclient) _
      length_reports := h.length_reports
      length_windows := h.length_windows
      report_eq := h.report_eq
      total_eq := h.total_eq
      sealed_eq := h.sealed_eq
      sealed_lt := h.sealed_lt }

theorem step [Weights.Weight R] (h : c.Tiles general) (e : Event) : (c.step e).Tiles general := by
  cases e with
  | signal client now s => exact h.work client now s
  | wakeup now cause =>
    rw [Chronicle.step]
    split
    · next hnone => exact h.attend (Option.isNone_iff_eq_none.1 hnone) now cause
    · exact h

theorem start [Weights.Weight R] {config : Config R} (hpos : 0 < config.general.windows)
    {entropy : UInt64} {r : Run R} {log : List Log.Event}
    (h : Run.start config entropy = .ok (r, log)) : (start r).Tiles config.general := by
  rw [Run.start] at h
  split at h
  · cases h
  · cases h
    exact
    { general_eq := rfl
      length_buffers := by
        dsimp only [Chronicle.start]
        rw [Collector.length_registerAll, List.size_toArray]
        exact Nat.zero_add _
      holds := Collector.Holds.empty.registerAll _
      length_reports := rfl
      length_windows := rfl
      report_eq := by rintro k report ⟨⟩
      total_eq := rfl
      sealed_eq := by rintro now ⟨⟩
      sealed_lt := fun _ => hpos }

/-! ### What the reports say -/

variable (h : c.Tiles general)

include h

theorem length_reports_le : c.reports.length ≤ general.windows := by
  rw [h.length_reports]
  by_cases hcompleted : ∃ now, c.run.verdict = some (.completed, now)
  · obtain ⟨now, hnow⟩ := hcompleted
    exact (h.sealed_eq now hnow).le
  · exact (h.sealed_lt fun now hnow => hcompleted ⟨now, hnow⟩).le

/-- A run that ended before its last window has not completed, and any other has. -/
theorem completed_iff :
    (∃ now, c.run.verdict = some (.completed, now)) ↔ c.reports.length = general.windows := by
  rw [h.length_reports]
  refine ⟨fun ⟨now, hnow⟩ => h.sealed_eq now hnow, fun hall => ?_⟩
  by_contra hnot
  have := h.sealed_lt fun now hnow => hnot ⟨now, hnow⟩
  omega

/-- The figures of the reports add up to those of the total. -/
theorem figure_total (f : Figure) :
    f.value c.run.total = (c.reports.map (·.figure f)).sum := by
  rw [h.total_eq, f.value_flatten]
  have hlength : c.windows.length = c.reports.length := h.length_windows.trans h.length_reports.symm
  refine congrArg List.sum (List.ext_getElem (by simp [hlength]) fun k hk hk' => ?_)
  rw [List.length_map] at hk hk'
  obtain ⟨entries, existing, hentries, hreport⟩ := h.report_eq k _ (List.getElem?_eq_getElem hk')
  rw [List.getElem?_eq_getElem hk, Option.some.injEq] at hentries
  rw [List.getElem_map, List.getElem_map, hreport, hentries, WindowReport.figure_countAll]

/-- The reports end where the next one would start. -/
theorem stop_getLast? : windowOffset general.interval c.reports.length =
    (c.reports.getLast?.map (·.stop)).getD .zero := by
  cases hlast : c.reports.getLast? with
  | none =>
    rw [List.getLast?_eq_none_iff.1 hlast]
    exact Config.windowOffset_zero _
  | some report =>
    rw [List.getLast?_eq_getElem?] at hlast
    obtain ⟨hlt, -⟩ := List.getElem?_eq_some_iff.1 hlast
    obtain ⟨entries, existing, -, rfl⟩ := h.report_eq _ _ hlast
    rw [Nat.sub_add_cancel (by omega)]
    rfl

end Tiles

/-- Once it is decided how a run ends, nothing is reported any more. -/
theorem steps_of_decided [Weights.Weight R] {c : Chronicle R} (h : c.run.verdict.isSome = true)
    (later : List Event) : (c.steps later).reports = c.reports := by
  induction later generalizing c with
  | nil => rfl
  | cons e later ih =>
    have hstep : (c.step e).run.verdict = c.run.verdict ∧ (c.step e).reports = c.reports := by
      cases e with
      | signal client now s =>
        rw [step, work]
        cases hw : c.run.workers[client]? with
        | none => exact ⟨rfl, rfl⟩
        | some w =>
          dsimp only
          rw [Run.work_eq hw]
          exact ⟨rfl, rfl⟩
      | wakeup now cause =>
        rw [step, if_neg (by simpa [Option.isSome_iff_ne_none] using h)]
        exact ⟨rfl, rfl⟩
    rw [← hstep.2]
    exact ih (by rw [hstep.1]; exact h)

end Chronicle

/-- What a run returns is what its windows add up to, if it returns that. -/
theorem Run.summary_of_result {r : Run R} {summary : Summary} {log : List Log.Event}
    (h : r.result = .ok (summary, log)) :
    ∃ completed elapsed, summary = r.summary completed elapsed ∧
      (completed = true ↔ ∃ now, r.verdict = some (.completed, now)) := by
  rw [result] at h
  dsimp only at h
  cases hviolation : r.violation? with
  | some v =>
    rw [hviolation] at h
    split at h <;> cases h
  | none =>
    rw [hviolation] at h
    split at h
    · cases h
    · next elapsed hverdict =>
      cases h
      exact ⟨true, elapsed, rfl, by simp [hverdict]⟩
    · next elapsed hverdict =>
      cases h
      exact ⟨false, elapsed, rfl, by simp [hverdict]⟩
    · next hverdict =>
      cases h
      exact ⟨false, .zero, rfl, by simp [hverdict]⟩

namespace Chronicle

/-- **Reports tile the run.**

A run of an accepted configuration with endpoints starts, and whatever happens in it, its reports
are numbered from zero, at most as many as there are to be windows. The report of a window says what
was recorded in it, and ends where the next one starts; offsets are exact as long as they can be
represented. Nothing is reported any more once it is decided how the run ends. What the run returns
then has as many windows as there were reports, and is complete exactly when these are all. Its
total goes from the start of the run to the end of the last report, says what was recorded in the
windows that were reported, and is their sum in all its figures. -/
theorem reports_tile [Weights.Weight R] {config : Config R} (hconfig : config.Accepted)
    (hends : config.endpoints ≠ []) (entropy : UInt64) (events : List Event) :
    ∃ c, run? config entropy events = some c ∧
      c.reports.length ≤ config.general.windows ∧ c.windows.length = c.reports.length ∧
      (∀ k report, c.reports[k]? = some report →
        report.window = k ∧
        (k + 1 < 2 ^ 32 → config.general.interval.nanos * (k + 1) ≤ Span.max.nanos →
          report.start = ⟨config.general.interval.nanos * k⟩ ∧
          report.stop = ⟨config.general.interval.nanos * (k + 1)⟩) ∧
        (∀ next, c.reports[k + 1]? = some next → next.start = report.stop) ∧
        ∃ entries, c.windows[k]? = some entries ∧
          report = .ofStats k report.start report.stop (WindowStats.empty.countAll entries)
            report.existing) ∧
      (c.run.verdict.isSome → ∀ later, (c.steps later).reports = c.reports) ∧
      ∀ summary log, c.run.result = .ok (summary, log) →
        summary.windows = c.reports.length ∧
        (summary.completed = true ↔ c.reports.length = config.general.windows) ∧
        summary.total = .ofStats 0 .zero ((c.reports.getLast?.map (·.stop)).getD .zero)
          (WindowStats.empty.countAll c.windows.flatten) summary.total.existing ∧
        ∀ f, summary.total.figure f = (c.reports.map (·.figure f)).sum := by
  obtain ⟨c, hc⟩ : ∃ c, run? config entropy events = some c := by
    rw [run?, Run.start, if_neg (by simpa using hends)]
    exact ⟨_, rfl⟩
  have h : c.Tiles config.general :=
    of_run? (fun _ _ => .start hconfig.windows_pos) (fun _ e hc => hc.step e) hc
  refine ⟨c, hc, h.length_reports_le, h.length_windows.trans h.length_reports.symm, ?reports,
    steps_of_decided, ?result⟩
  case reports =>
    intro k report hk
    obtain ⟨entries, existing, hentries, rfl⟩ := h.report_eq k report hk
    refine ⟨rfl, fun hlt hfits => ?_, fun next hnext => ?_, entries, hentries, rfl⟩
    · have hle : config.general.interval.nanos * k ≤ config.general.interval.nanos * (k + 1) :=
        Nat.mul_le_mul_left _ (Nat.le_succ k)
      exact ⟨Config.windowOffset_eq (by omega) (hle.trans hfits), Config.windowOffset_eq hlt hfits⟩
    · obtain ⟨_, _, -, rfl⟩ := h.report_eq (k + 1) next hnext
      rfl
  case result =>
    intro summary log hresult
    obtain ⟨completed, elapsed, rfl, hcompleted⟩ := Run.summary_of_result hresult
    have htotal : (c.run.summary completed elapsed).total = .ofStats 0 .zero
        ((c.reports.getLast?.map (·.stop)).getD .zero)
        (WindowStats.empty.countAll c.windows.flatten) c.run.shared.workload.existing := by
      rw [← h.stop_getLast?, ← h.total_eq, h.length_reports, ← h.general_eq,
        ← Config.windowOffset_zero c.run.general.interval]
      rfl
    refine ⟨h.length_reports.symm, hcompleted.trans h.completed_iff, htotal, fun f => ?_⟩
    rw [htotal, WindowReport.figure_countAll, ← h.total_eq, h.figure_total]

/-! ### A run that is stopped -/

/-- One client and two windows. -/
def twoWindows : Config ℚ :=
  .checked { Trial.sampleDraft 1 47 with
    general := { (Trial.sampleDraft 1 47).general with windows := 2 } } (by decide +kernel)

/-- One request is answered in the first window. In the second one the run is stopped when another
request has been sent, which takes too long. -/
def stopped : List Event :=
  told 0 .zero [.resume, .resume, .acquire (.connected 0), .exchange .written,
      .exchange (.received (Wire.textBytes "-ERR no such key\r\n"))] ++
    [.wakeup ⟨1000000000⟩ .tick] ++ told 0 ⟨1000000000⟩ [.resume, .acquire (.connected 1)] ++
    [.wakeup ⟨1500000000⟩ .shutDown] ++ told 0 ⟨2000000000⟩ [.exchange .timeUp, .resume]

theorem accepted_twoWindows : twoWindows.Accepted := Config.accepted_checked _ _

theorem reports_tile_stopped :
    ∃ c, run? twoWindows 0 stopped = some c ∧ c.reports.length = 1 ∧ c.current.length = 1 ∧
      ∃ summary log, c.run.result = .ok (summary, log) ∧ summary.windows = 1 ∧
        summary.completed = false ∧
        ∀ f, summary.total.figure f = (c.reports.map (·.figure f)).sum := by
  obtain ⟨c, hc, -, -, -, -, hresult⟩ :=
    reports_tile accepted_twoWindows (by decide +kernel) 0 stopped
  have hseen : (run? twoWindows 0 stopped).map (fun c =>
      (c.reports.length, c.current.length, c.run.result.toOption.isSome)) = some (1, 1, true) := by
    decide +kernel
  rw [hc, Option.map_some, Option.some.injEq, Prod.mk.injEq, Prod.mk.injEq] at hseen
  obtain ⟨hlength, hcurrent, hsome⟩ := hseen
  obtain ⟨⟨summary, log⟩, hsummary⟩ := Option.isSome_iff_exists.1 hsome
  have hok := Config.eq_ok_of_toOption hsummary
  obtain ⟨hwindows, hcompleted, -, hsum⟩ := hresult summary log hok
  have htwo : twoWindows.general.windows = 2 := by decide +kernel
  rw [hlength, htwo] at hcompleted
  refine ⟨c, hc, hlength, hcurrent, summary, log, hok, hwindows.trans hlength, ?_, hsum⟩
  rw [← Bool.not_eq_true, hcompleted]
  decide

end Chronicle

end LoadGen
