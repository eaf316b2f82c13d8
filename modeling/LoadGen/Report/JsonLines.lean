import LoadGen.Json.Value
import LoadGen.Report.Window

/-!
# Reports for machines

One JSON object on one line for every window, and one for the whole run.
-/

namespace LoadGen.Report

open Json (Value)
open Stats

def Latency.json (l : Latency) : Value :=
  .object [("min", .number l.min), ("p50", .number l.p50), ("p90", .number l.p90),
    ("p99", .number l.p99), ("p999", .number l.p999), ("max", .number l.max)]

def ActionReport.json (a : ActionReport) : Value :=
  .object [("action", .text a.action.name), ("attempted", .number a.attempted),
    ("succeeded", .number a.succeeded), ("failed", .number a.failed),
    ("failures", .object (a.failures.map fun (kind, n) => (kind.name, .number n))),
    ("expected_misses", .number a.expectedMisses), ("skipped", .number a.skipped),
    ("latency_us", .ofOption Latency.json a.latency)]

/-- The fields of a report. -/
def WindowReport.jsonFields (type : String) (r : WindowReport) : List (String × Value) :=
  [("type", .text type), ("window", .number r.window), ("start_ms", .number r.start.millis),
    ("end_ms", .number r.stop.millis), ("attempted", .number r.attempted),
    ("succeeded", .number r.succeeded), ("failed", .number r.failed),
    ("skipped", .number r.skipped), ("throughput", .float r.throughput),
    ("bytes_sent", .number r.bytesSent), ("bytes_received", .number r.bytesReceived),
    ("existing", .array (r.existing.map (.ofOption .number))),
    ("actions", .array (r.actions.map ActionReport.json))]

/-- The line of a window. -/
def WindowReport.jsonLine (r : WindowReport) : String :=
  (Value.object (r.jsonFields "window")).compact

/-- The last line of a run. -/
def Summary.jsonLine (s : Summary) : String :=
  (Value.object (s.total.jsonFields "final" ++
    [("windows", .number s.windows), ("completed", .boolean s.completed),
      ("elapsed_ms", .number s.elapsed.millis)])).compact

end LoadGen.Report
