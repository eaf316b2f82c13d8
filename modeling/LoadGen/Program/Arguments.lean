import LoadGen.Decimal.Reading

/-!
# Command line arguments

The one operand is the configuration. Options have a long name, after two dashes, and some a letter,
after one; letters without values can be joined. A value is the next argument, or what follows an
equals sign or the letter. An argument that looks like an option is never taken for a value, and two
dashes alone end the options.

A value is looked at when the next option is complete, or at the end, so an unknown option can be
reported before a bad value in front of it.
-/

namespace LoadGen.Program

/-- What the command line asks for. -/
structure Arguments where
  /-- The path of the configuration. -/
  config : String
  /-- Endpoints in addition to the configured ones. -/
  endpoints : List String
  /-- Report and log by lines of JSON. -/
  json : Bool
  /-- Log more. -/
  verbose : Bool
  /-- Log for human readers. -/
  pretty : Bool
  /-- The file for the log. -/
  output : Option String
  /-- The time for shutting down in seconds; there is no limit unless it is positive. -/
  graceful : Float
  /-- The wanted limit of open files. -/
  openFiles : Nat

/-- Why the arguments do not lead to a run. -/
inductive Refusal
  | helpWanted
  | versionWanted
  | missingConfig
  /-- An option or operand that is not expected. -/
  | unknownArgument
  /-- An option without a value, or with an empty one where that makes no sense. -/
  | missingValue
  /-- An option that may be given only once. -/
  | repeated
  /-- A value for an option that takes none. -/
  | unexpectedValue
  | notANumber
  deriving Repr, DecidableEq

/-- Options that take no value. -/
inductive Flag
  | json
  | verbose
  | pretty
  | help
  | version
  deriving Repr, DecidableEq

/-- What a value can be for. -/
inductive Slot
  | config
  | endpoint
  | output
  | graceful
  | openFiles
  deriving Repr, DecidableEq

/-- An option. -/
abbrev Choice := Flag ⊕ Slot

/-- The options by long name. -/
def longNames : List (String × Choice) :=
  [("json", .inl .json), ("verbose", .inl .verbose), ("pretty", .inl .pretty),
    ("help", .inl .help), ("version", .inl .version), ("endpoint", .inr .endpoint),
    ("output", .inr .output), ("graceful", .inr .graceful), ("ulimit", .inr .openFiles)]

/-- The options by letter. -/
def letters : List (Char × Choice) :=
  [('v', .inl .verbose), ('h', .inl .help), ('V', .inl .version), ('e', .inr .endpoint),
    ('o', .inr .output)]

/-- What has been read so far. -/
structure Reading where
  config : Option String := none
  endpoints : List String := []
  json : Bool := false
  verbose : Bool := false
  pretty : Bool := false
  output : Option String := none
  graceful : Option Float := none
  openFiles : Option Nat := none
  /-- A slot that was opened last, with its value once that is known. -/
  pending : Option (Slot × Option String) := none
  /-- Whether there was an operand. -/
  operand : Bool := false

namespace Reading

/-- Puts a value into its slot. -/
def put (r : Reading) (value : String) : Slot → Except Refusal Reading
  | .config => if value.isEmpty then .error .missingValue else .ok { r with config := some value }
  | .endpoint => .ok { r with endpoints := r.endpoints ++ [value] }
  | .output =>
    if r.output.isSome then .error .repeated
    else if value.isEmpty then .error .missingValue
    else .ok { r with output := some value }
  | .graceful =>
    if r.graceful.isSome then .error .repeated
    else match Decimal.ofText? value with
      | some x => .ok { r with graceful := some x }
      | none => .error .notANumber
  | .openFiles =>
    if r.openFiles.isSome then .error .repeated
    else match Text.natural? (UInt64.size - 1) value.toList with
      | some n => .ok { r with openFiles := some n }
      | none => .error .notANumber

/-- Closes the slot that was opened last. -/
def settle (r : Reading) : Except Refusal Reading :=
  let cleared := { r with pending := none }
  match r.pending with
  | none => .ok cleared
  | some (_, none) => .error .missingValue
  | some (slot, some value) => cleared.put value slot

/-- Sets a flag. -/
def set (r : Reading) (f : Flag) : Except Refusal Reading := do
  let r ← r.settle
  match f with
  | .json => if r.json then .error .repeated else .ok { r with json := true }
  | .verbose => if r.verbose then .error .repeated else .ok { r with verbose := true }
  | .pretty => if r.pretty then .error .repeated else .ok { r with pretty := true }
  | .help => .error .helpWanted
  | .version => .error .versionWanted

/-- Opens a slot; a value that is attached closes it again. -/
def openSlot (r : Reading) (slot : Slot) (attached : Option String) : Except Refusal Reading := do
  let r ← r.settle
  match attached with
  | some value => r.put value slot
  | none => .ok { r with pending := some (slot, none) }

/-- Reads an option by its long name. -/
def long (r : Reading) (name : String) (attached : Option String) : Except Refusal Reading :=
  match longNames.lookup name with
  | none => .error .unknownArgument
  | some (.inl f) => if attached.isSome then .error .unexpectedValue else r.set f
  | some (.inr slot) => r.openSlot slot attached

/-- Reads joined letters. -/
def short (r : Reading) : List Char → Except Refusal Reading
  | [] => .ok r
  | c :: rest => match letters.lookup c with
    | none => .error .unknownArgument
    | some (.inl f) => do (← r.set f).short rest
    | some (.inr slot) =>
      r.openSlot slot (match rest with
        | [] => none
        | '=' :: value => some (String.ofList value)
        | value => some (String.ofList value))

/-- Takes an argument that is no option: a value if one is missing, and an operand otherwise. -/
def plain (r : Reading) (arg : String) (optionsEnded : Bool) : Except Refusal Reading :=
  match r.pending, optionsEnded with
  | some (slot, none), false => .ok { r with pending := some (slot, some arg) }
  | _, _ =>
    if r.operand then .error .unknownArgument
    else do
      let r ← r.settle
      .ok { r with operand := true, pending := some (.config, some arg) }

/-- Reads all arguments; after the end of the options all are operands. -/
def arguments (r : Reading) (optionsEnded : Bool) : List String → Except Refusal Reading
  | [] => r.settle
  | arg :: rest => do
    if optionsEnded then (← r.plain arg true).arguments true rest
    else match arg.toList with
      | ['-', '-'] => r.arguments true rest
      | '-' :: '-' :: name =>
        let value := match name.dropWhile (· != '=') with
          | [] => none
          | _ :: value => some (String.ofList value)
        (← r.long (String.ofList (name.takeWhile (· != '='))) value).arguments false rest
      | '-' :: c :: more => (← r.short (c :: more)).arguments false rest
      | _ => (← r.plain arg false).arguments false rest

end Reading

/-- Reads a command line without the name of the program. -/
def Arguments.ofList (args : List String) : Except Refusal Arguments := do
  let r ← ({} : Reading).arguments false args
  match r.config with
  | none => throw .missingConfig
  | some config =>
    return {
      config
      endpoints := r.endpoints
      json := r.json
      verbose := r.verbose
      pretty := r.pretty
      output := r.output
      graceful := r.graceful.getD 0
      openFiles := r.openFiles.getD 262144 }

end LoadGen.Program
