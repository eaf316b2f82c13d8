import LoadGen.Decimal.Shortest
import LoadGen.Report.Window

/-!
# Reports for people

A line for the window, one for each action that was drawn and one for each tracked keyspace.
-/

namespace LoadGen.Report

open Stats

/-- Throughput has one decimal place. -/
def throughputPlaces : Nat := 1

/-- The latencies of an action. -/
def Latency.plain (l : Latency) : String :=
  s!" min={l.min}us p50={l.p50}us p90={l.p90}us p99={l.p99}us p999={l.p999}us max={l.max}us"

/-- A text filled up with blanks on the right. -/
def padRight (width : Nat) (s : String) : String :=
  s ++ String.ofList (List.replicate (width - s.length) ' ')

/-- The line of an action; failures are listed by kind where there are any. -/
def ActionReport.plain (a : ActionReport) : String :=
  let counts := s!"  {padRight 9 a.action.name} attempted={a.attempted} ok={a.succeeded} " ++
    s!"fail={a.failed} miss={a.expectedMisses} skipped={a.skipped}"
  let failures := (a.failures.filter (0 < ·.2)).map fun (kind, n) => s!" {kind.name}={n}"
  let latency := match a.latency with
    | some l => l.plain
    | none => ""
  counts ++ String.join failures ++ latency

/-- The lines of a report under a title. -/
def WindowReport.plain (title : String) (r : WindowReport) : List String :=
  let rate := Decimal.fixed throughputPlaces r.throughput
  let head := s!"{title} [{r.start.words}..{r.stop.words}] attempted={r.attempted} ({rate}/s) " ++
    s!"ok={r.succeeded} fail={r.failed} skipped={r.skipped} " ++
    s!"tx={r.bytesSent}B rx={r.bytesReceived}B"
  let structures := r.existing.zipIdx.filterMap fun (n, keyspace) =>
    n.map fun n => s!"  keyspace {keyspace}: {n} structures"
  head :: r.actions.map ActionReport.plain ++ structures

/-- The lines of a window. -/
def WindowReport.plainLines (r : WindowReport) : List String :=
  r.plain s!"window {r.window}"

/-- The last lines of a run. -/
def Summary.plainLines (s : Summary) : List String :=
  s.total.plain s!"done windows={s.windows} completed={s.completed} elapsed={s.elapsed.words}"

end LoadGen.Report
