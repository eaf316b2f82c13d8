import LoadGen.Config.Document
import LoadGen.Limits.OpenFiles
import LoadGen.Log.Line
import LoadGen.Program.Arguments
import LoadGen.Report.Format
import LoadGen.Simulation.Outcome

/-!
# The program

From arguments to reports: the configuration is loaded and gets the additional endpoints, the limit
of open files is raised, the run is carried out, and its windows and its total are reported. The
first fault ends the program; what was reported until then stays.
-/

namespace LoadGen.Program

open Log (Event)
open Weights

/-- Why the program does not get through, by the step that failed. -/
inductive Fault (R : Type)
  | load (path : String) (fault : Config.Fault R)
  | endpoints (fault : Config.Fault R)
  | prepare (fault : RunFault R)
  | run (fault : RunFault R)

/-- What was done, and on the next line what went wrong. -/
def inContext (context fault : String) : String := context ++ "\r\n ↪ " ++ fault

def Fault.message {R : Type} [Weight R] : Fault R → String
  | load path fault => inContext s!"load config from {path}" fault.message
  | endpoints fault => inContext "add endpoints from command line" fault.message
  | prepare fault => inContext "prepare run" fault.message
  | run fault => inContext "run workload" fault.message

/-- What the caller is told about any fault. -/
def failure : String := "benchmark run failed"

/-- The last line of a program that failed. -/
def exitLine (reason : String) : String := s!"🚩 exit with error: {reason}"

/-- Why the log cannot be written to a file. -/
def logFileMessage (path : String) (reason : Config.ReadFault) : String :=
  inContext s!"open log file {path}" reason.message

/-- The layout of the log. -/
def Arguments.logLayout (a : Arguments) : Log.Layout :=
  if a.json then .json else if a.pretty then .pretty else .full

/-- The most verbose level that is logged. -/
def Arguments.logLevel (a : Arguments) : Log.Level :=
  if a.verbose then .debug else .info

/-- The format of the reports. -/
def Arguments.format (a : Arguments) : Report.Format :=
  if a.json then .jsonLines else .plain

/-- What the program finds when it starts. -/
structure Surroundings where
  /-- What reading the configuration yields. -/
  content : FileContent
  limits : OpenFiles
  /-- The seed if none is configured. -/
  entropy : UInt64
  network : Simulation.Script
  /-- When the program is asked to end, in milliseconds. -/
  shutdownAt : Option Nat
  /-- The number of events after which the run is given up. -/
  patience : Nat

/-- Whether the program is asked to end before it has done anything. -/
def Surroundings.isAskedAtOnce (s : Surroundings) : Bool := s.shutdownAt == some 0

/-- What the program leaves behind. -/
structure Execution where
  /-- The fault, if any. -/
  fault : Option (Fault Float)
  /-- The reported lines. -/
  output : List String
  events : List Event
  limits : OpenFiles

def event (level : Log.Level) (message : String) (fields : List (String × Log.Value)) : Event :=
  { level, component := .program, message, fields }

/-- Raises the limit of open files, with a warning if it stays below what the run needs. -/
def raiseLimits (a : Arguments) (config : Config Float) (limits : OpenFiles) :
    OpenFiles × List Event :=
  let (limits, events) := limits.raise a.openFiles
  let required := config.requiredDescriptors
  if limits.soft < required then
    (limits, events ++
      [event .warn "open files limit is below the number of pooled connections"
        [("limit", .number limits.soft), ("required", .number required)]])
  else (limits, events)

/-- What is logged when the program is asked to end. -/
def shutdownEvents : List Event :=
  [event .debug "default signal triggered: init graceful shutdown" []]

/-- The steps of the program up to its fault or its last report. -/
def steps (a : Arguments) (s : Surroundings) : Execution :=
  match Config.ofFile a.config s.content with
  | (.error fault, events) => ⟨some (.load a.config fault), [], events, s.limits⟩
  | (.ok config, loaded) => match config.withEndpoints a.endpoints with
    | .error fault => ⟨some (.endpoints fault), [], loaded, s.limits⟩
    | .ok config =>
      let (limits, raised) := raiseLimits a config s.limits
      let before := loaded ++ raised
      let plan : Simulation.Plan :=
        { attended := true, shutdownAt := s.shutdownAt
          shutdownEvents := if s.isAskedAtOnce then [] else shutdownEvents
          stopAt := none, listening := true }
      match Simulation.ofConfig config s.entropy plan s.network s.patience with
      | .error fault => ⟨some (.prepare fault), [], before, limits⟩
      | .ok outcome =>
        let windows := outcome.reports.flatMap a.format.window
        let events := before ++ outcome.events ++
          [event .debug "exit report worker: run finished" []]
        match outcome.result with
        | .error fault => ⟨some (.run fault), windows, events, limits⟩
        | .ok summary => ⟨none, windows ++ a.format.final summary, events, limits⟩

/-- The whole program. The run has ended by itself unless it was asked to. -/
def execute (a : Arguments) (s : Surroundings) : Execution :=
  let e := steps a s
  let first := if s.isAskedAtOnce then shutdownEvents else []
  let asked := (first ++ e.events).any (shutdownEvents.contains ·)
  let ended :=
    if asked then []
    else match e.fault with
      | some fault => [event .error s!"fatal err received: {fault.message}; abort" []]
      | none => [event .debug "benchmark is finished without error, return control" []]
  let delay := Time.Span.zero
  { e with
    events := first ++ e.events ++ ended ++
      [event .debug s!"gracefully shutdown with a delay of: {delay.brief}" []] }

/-- What is logged once the log is set up. -/
def startEvent (layout : Log.Layout) : Event :=
  { level := .debug, component := .logging, message := "tracing is set up"
    fields := [("format", .text layout.name)] }

/-- The lines of the log of an execution. -/
def Arguments.logLines (a : Arguments) (e : Execution) : List String :=
  let events := Log.upTo a.logLevel (startEvent a.logLayout :: e.events)
  match a.logLayout with
  | .json => events.map (·.jsonLine)
  | .full | .pretty => events.map (·.line)

/-- What the process leaves behind. -/
structure Ending where
  code : Nat
  /-- The lines of standard output. -/
  output : List String
  log : List String
  /-- The last lines on standard error. -/
  exit : List String

/-- The end of the process after an execution. -/
def Arguments.ending (a : Arguments) (e : Execution) : Ending where
  code := if e.fault.isSome then 1 else 0
  output := e.output
  log := a.logLines e
  exit := if e.fault.isSome then [exitLine failure] else []

/-- The end of the process if the log cannot be written. -/
def unloggedEnding : Ending := ⟨1, [], [], []⟩

/-- The exit code of a process whose arguments do not lead to a run. -/
def Refusal.code : Refusal → Nat
  | .helpWanted | .versionWanted => 0
  | _ => 2

end LoadGen.Program
