import LoadGen.Log.Event

/-!
# The limit of open files

A process may keep as many files and connections open as its soft limit says, and may raise that
limit up to the hard one. Raising never lowers it.
-/

namespace LoadGen

open Log (Event)

/-- The limits of a process. -/
structure OpenFiles where
  soft : Nat
  hard : Nat
  deriving Repr, DecidableEq

/-- Raises the soft limit towards `target`; the soft limit afterwards is the one in effect. -/
def OpenFiles.raise (l : OpenFiles) (target : Nat) : OpenFiles × List Event :=
  let wanted := min target l.hard
  if wanted ≤ l.soft then
    (l, [{ level := .debug, component := .limits, message := "ulimit: current soft limit suffices",
           fields := [("current", .number l.soft), ("requested", .number target)] }])
  else
    ({ l with soft := wanted },
      [{ level := .info, component := .limits, message := "ulimit: raised open files soft limit",
         fields := [("previous", .number l.soft), ("applied", .number wanted)] }])

end LoadGen
