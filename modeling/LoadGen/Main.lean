import LoadGen.Program.Execution

/-!
# The command line

Reads the arguments and the configuration, carries the program out, and writes what it leaves
behind. Sockets and limits of the process are out of reach here: the run is simulated on a network
without a route to anywhere, and the limits are those that processes usually have.
-/

namespace LoadGen.Main

open Program

/-- What the options are. -/
def usage : String :=
  "Usage: rds-bench [OPTIONS] <CONFIG>\n\n" ++
  "  -e, --endpoint <HOST:PORT>  endpoint to load, in addition to the configured ones\n" ++
  "      --json                  report and log lines of JSON\n" ++
  "  -v, --verbose               log more\n" ++
  "      --pretty                log for human readers\n" ++
  "  -o, --output <FILE>         write the log to a file\n" ++
  "      --graceful <SECONDS>    time for shutting down\n" ++
  "      --ulimit <N>            wanted limit of open files\n" ++
  "  -h, --help                  show this text\n" ++
  "  -V, --version               show the version"

/-- What is shown for arguments that do not lead to a run. -/
def explanation : Refusal → String
  | .helpWanted => usage
  | .versionWanted => "rds-bench 0.1.0"
  | .missingConfig => "error: no configuration given\n\n" ++ usage
  | .unknownArgument => "error: unexpected argument\n\n" ++ usage
  | .missingValue => "error: a value is required\n\n" ++ usage
  | .repeated => "error: an option is given more than once\n\n" ++ usage
  | .unexpectedValue => "error: an option takes no value\n\n" ++ usage
  | .notANumber => "error: invalid number\n\n" ++ usage

/-- Why a file cannot be used. -/
def readFault : IO.Error → Config.ReadFault
  | .noFileOrDirectory .. => .notFound
  | e => .other (toString e)

/-- What reading a file yields. -/
def contentOf (path : String) : IO FileContent := do
  try
    return .ok (← IO.FS.readBinFile path)
  catch e => return .error (readFault e)

/-- Where the log goes. -/
def openLog (a : Arguments) : IO (Except String IO.FS.Stream) := do
  match a.output with
  | none => return .ok (← IO.getStderr)
  | some path =>
    try
      return .ok (.ofHandle (← IO.FS.Handle.mk path .append))
    catch e => return .error (logFileMessage path (readFault e))

/-- Runs the program for its arguments. -/
def run (a : Arguments) : IO UInt32 := do
  match ← openLog a with
  | .error message =>
    IO.eprintln s!"Error: {Text.quoted message}"
    return UInt32.ofNat unloggedEnding.code
  | .ok log =>
    let ending := a.ending <| execute a
      { content := ← contentOf a.config
        limits := ⟨1024, 1048576⟩
        entropy := UInt64.ofNat (← IO.rand 0 (UInt64.size - 1))
        network := .offline
        shutdownAt := none
        patience := 100000000 }
    ending.log.forM log.putStrLn
    ending.output.forM IO.println
    ending.exit.forM IO.eprintln
    return UInt32.ofNat ending.code

end LoadGen.Main

open LoadGen LoadGen.Program in
/-- The program with its arguments. -/
def main (args : List String) : IO UInt32 := do
  match Arguments.ofList args with
  | .ok a => Main.run a
  | .error r =>
    let text := Main.explanation r
    if r.code = 0 then IO.println text else IO.eprintln text
    return UInt32.ofNat r.code
