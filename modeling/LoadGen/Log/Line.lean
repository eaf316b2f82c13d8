import LoadGen.Json.Value
import LoadGen.Log.Event

/-!
# Log lines

How events are written: as one line of text each, or as one line of JSON. Lines name the level, the
component, the message and the fields.
-/

namespace LoadGen.Log

/-- How the log is written. -/
inductive Layout
  | full
  /-- For human readers. -/
  | pretty
  | json
  deriving Repr, DecidableEq

/-- The name of a layout. -/
def Layout.name : Layout → String
  | .full => "Full"
  | .pretty => "Pretty"
  | .json => "Json"

def Level.name : Level → String
  | .error => "ERROR"
  | .warn => "WARN"
  | .info => "INFO"
  | .debug => "DEBUG"
  | .trace => "TRACE"

/-- The name under which a component logs. -/
def Component.name : Component → String
  | .config => "rds_bench_lib::config"
  | .pool => "rds_bench_lib::pool"
  | .worker => "rds_bench_lib::worker"
  | .run => "rds_bench_lib::runner"
  | .limits => "rds_bench_lib::utils::os::unix"
  | .logging => "rds_bench::utils::telemetry"
  | .program => "rds_bench"

/-- The text of a value. -/
def Value.plain : Value → String
  | .number n => toString n
  | .flag b => toString b
  | .text s => s

def Value.toJson : Value → Json.Value
  | .number n => .number n
  | .flag b => .boolean b
  | .text s => .text s

/-- The event as text: level, component, message and fields. -/
def Event.line (e : Event) : String :=
  let fields := e.fields.map fun (name, value) => " " ++ name ++ "=" ++ value.plain
  e.level.name ++ " " ++ e.component.name ++ ": " ++ e.message ++ String.join fields

/-- The event as an object. -/
def Event.jsonLine (e : Event) : String :=
  Json.Value.compact <| .object <|
    [("level", .text e.level.name), ("message", .text e.message),
      ("target", .text e.component.name)] ++
    e.fields.map fun (name, value) => (name, value.toJson)

end LoadGen.Log
