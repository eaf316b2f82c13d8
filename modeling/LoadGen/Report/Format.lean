import LoadGen.Report.JsonLines
import LoadGen.Report.Plain

/-!
# Forms of reports

Reports are written for people or for machines, always as whole lines.
-/

namespace LoadGen.Report

/-- The forms in which reports are written. -/
inductive Format
  | plain
  | jsonLines
  deriving Repr, DecidableEq

/-- The lines of a window in a form. -/
def Format.window (f : Format) (r : WindowReport) : List String :=
  match f with
  | .plain => r.plainLines
  | .jsonLines => [r.jsonLine]

/-- The last lines of a run in a form. -/
def Format.final (f : Format) (s : Summary) : List String :=
  match f with
  | .plain => s.plainLines
  | .jsonLines => [s.jsonLine]

end LoadGen.Report
