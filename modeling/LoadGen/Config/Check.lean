import LoadGen.Config.Draft
import LoadGen.Config.Fault
import LoadGen.Log.Event
import LoadGen.Text.Numeral

/-!
# Checking a configuration

`Config.ofDraft` turns a configuration as written into a checked one or says what is wrong with
it. Checks are made in a fixed order and the first failure is reported: settings of the run,
endpoints, then one keyspace after the other, and last the weights of the keyspaces.

One alphabet is chosen for all keyspaces, which keeps keys of equal length apart across keyspaces:
the printable one if every keyspace fits in it, otherwise the binary one.
-/

namespace LoadGen.Config

open Weights Keys

variable {R : Type} [Weight R]

/-! ## Settings and endpoints -/

/-- The value of a setting, refused if it is zero. -/
def positive (setting : Setting) (value : Nat) : Except (Fault R) Nat :=
  if value = 0 then .error (.zero setting) else .ok value

def checkGeneral (d : GeneralDraft) : Except (Fault R) General := do
  let protocol ← match Protocol.ofName? d.protocol with
    | some p => .ok p
    | none => .error (.unknownProtocol d.protocol)
  let interval ← positive .interval d.interval
  let windows ← positive .windows d.windows
  let clients ← positive .clients d.clients
  let poolsize ← positive .poolsize d.poolsize
  let requestTimeout ← positive .requestTimeout d.requestTimeout
  let connectTimeout ← positive .connectTimeout d.connectTimeout
  return {
    protocol
    interval := .ofSeconds interval
    windows
    clients
    poolsize
    noDelay := d.noDelay
    requestTimeout := .ofMicros requestTimeout
    connectTimeout := .ofMicros connectTimeout
    seed := d.seed }

/-- Whether a text is a host, a colon and a number of 16 bits. The last colon counts, and the host
is not empty. -/
def isEndpoint (s : String) : Bool :=
  let reversed := s.toList.reverse
  let number := (reversed.takeWhile (· != ':')).reverse
  match reversed.dropWhile (· != ':') with
  | ':' :: host => !host.isEmpty && (Text.natural? (UInt16.size - 1) number).isSome
  | _ => false

def checkEndpoint (s : String) : Except (Fault R) String :=
  if isEndpoint s then .ok s else .error (.invalidEndpoint s)

/-! ## Keyspaces -/

/-- The number of elements of a command, one if it is not given. -/
def checkItems (ordinal : Nat) (action : Action) : Option Nat → Except (Fault R) Nat
  | none => .ok 1
  | some 0 => .error (.invalidKeyspace ordinal (.zeroItems action))
  | some n =>
    if n < UInt32.size then .ok n
    else .error (.invalidKeyspace ordinal (.tooManyItems action n))

/-- The bounds given with a command. An absent low bound is zero, an absent high bound is the
key count, or the low bound if that is larger. -/
def checkWatermarks (ordinal count : Nat) (action : Action) (low high : Option Nat) :
    Except (Fault R) (Option Watermarks) :=
  match low, high with
  | none, none => .ok none
  | _, _ =>
    if action.isLifecycle then
      let low := low.getD 0
      let high := high.getD (max count low)
      if high < low then .error (.invertedWatermarks ordinal low high)
      else .ok (some ⟨low, high⟩)
    else .error (.invalidKeyspace ordinal (.strayWatermarks action))

/-- Checks commands in order. `seen` holds the bounds of an earlier command, with which all
others have to agree; the bounds seen at the end are returned with the commands. -/
def checkCommands (ordinal count : Nat) (seen : Option Watermarks) :
    List (CommandDraft R) → Except (Fault R) (List (Command × R) × Option Watermarks)
  | [] => .ok ([], seen)
  | d :: rest => do
    let action ← match Action.ofName? d.action with
      | some a => .ok a
      | none => .error (.unknownAction ordinal d.action)
    let items ← checkItems ordinal action d.items
    let marks ← checkWatermarks ordinal count action d.low d.high
    let seen ← match marks, seen with
      | none, _ => .ok seen
      | some m, none => .ok (some m)
      | some m, some first =>
        if m = first then .ok (some m) else .error (.conflictingWatermarks ordinal first m)
    let (commands, seen) ← checkCommands ordinal count seen rest
    return ((⟨action, marks, items⟩, d.weight) :: commands, seen)

def checkValue (ordinal : Nat) (d : ValueDraft R) : Except (Fault R) (ValueSpec × R) := do
  let kind ← match ValueClass.ofName? d.kind with
    | some k => .ok k
    | none => .error (.unknownValueClass ordinal d.kind)
  if d.length = 0 then .error (.invalidKeyspace ordinal (.badValueLength d.length))
  else if kind = .integer ∧ 8 < d.length then
    .error (.invalidKeyspace ordinal (.wideInteger d.length))
  else .ok (⟨d.length, kind⟩, d.weight)

/-- The table of a weighted list of the configuration. -/
def weigh {α : Type} (list : WeightedList) (weighted : List (α × R)) :
    Except (Fault R) (WeightedTable R α) :=
  match WeightedTable.ofList weighted with
  | .ok table => .ok table
  | .error fault => .error (.badWeights list fault)

/-- The values of a keyspace; none are needed unless a command that can be drawn asks for them. -/
def checkValues (ordinal : Nat) (needed : Bool) (ds : List (ValueDraft R)) :
    Except (Fault R) (Option (WeightedTable R ValueSpec)) :=
  if ds.isEmpty then
    if needed then .error (.invalidKeyspace ordinal .noValues) else .ok none
  else do
    let values ← ds.mapM (checkValue ordinal)
    let table ← weigh (.values ordinal) values
    return some table

/-- Checks the keyspace at a position. -/
def checkKeyspace (stride ordinal : Nat) (d : KeyspaceDraft R) :
    Except (Fault R) (Keyspace R) := do
  let refuse {α : Type} (fault : KeyspaceFault) : Except (Fault R) α :=
    .error (.invalidKeyspace ordinal fault)
  if d.length = 0 then refuse .zeroLength
  else if d.count = 0 then refuse .zeroCount
  else if !Alphabet.binary.holds d.length (d.count * stride) then
    refuse (.tooFewKeys d.length d.count)
  else if d.commands.isEmpty then refuse .noCommands
  else
    let (commands, marks) ← checkCommands ordinal d.count none d.commands
    let needed := commands.any fun (command, weight) =>
      Weight.less 0 weight && command.action.needsValue
    let commands ← weigh (.commands ordinal) commands
    let values ← checkValues ordinal needed d.values
    let keyspace : Keyspace R :=
      { ordinal
        stride
        length := d.length
        alphabet := .printable
        count := d.count
        weight := d.weight
        commands
        values
        watermarks := marks.getD ⟨0, d.count⟩ }
    if keyspace.tracksLifecycle && maxTrackedKeys < keyspace.count then
      refuse (.tooManyTracked keyspace.count)
    else return keyspace

/-- Checks keyspaces from a position on. -/
def checkKeyspaces (stride ordinal : Nat) :
    List (KeyspaceDraft R) → Except (Fault R) (List (Keyspace R))
  | [] => .ok []
  | d :: rest => do
    let k ← checkKeyspace stride ordinal d
    let ks ← checkKeyspaces stride (ordinal + 1) rest
    return k :: ks

/-! ## The whole configuration -/

/-- Whether the printable alphabet has enough keys for every keyspace. -/
def fitsPrintable (ks : List (Keyspace R)) : Bool :=
  ks.all fun k => Alphabet.printable.holds k.length (k.count * k.stride)

/-- Everything but the weights of the keyspaces, with the alphabet still to be chosen. -/
def checkParts (d : Draft R) :
    Except (Fault R) (General × List String × List (Keyspace R)) := do
  let general ← checkGeneral d.general
  let endpoints ← d.endpoints.mapM checkEndpoint
  if d.keyspaces.isEmpty then .error .noKeyspaces
  else
    let keyspaces ← checkKeyspaces d.keyspaces.length 0 d.keyspaces
    return (general, endpoints, keyspaces)

/-- The keyspaces with the alphabet of the run. -/
def chooseAlphabet (ks : List (Keyspace R)) : List (Keyspace R) :=
  if fitsPrintable ks then ks else ks.map ({ · with alphabet := .binary })

end LoadGen.Config

namespace LoadGen

open Config

variable {R : Type} [Weights.Weight R]

/-- The checked configuration for one as written. -/
def Config.ofDraft (d : Draft R) : Except (Fault R) (Config R) := do
  let (general, endpoints, keyspaces) ← checkParts d
  let keyspaces ← weigh .keyspaces ((chooseAlphabet keyspaces).map fun k => (k, k.weight))
  return { general, endpoints, keyspaces }

/-- What is logged while a configuration is checked. -/
def Config.checkEvents (d : Draft R) : List Log.Event :=
  match checkParts d with
  | .ok (_, _, keyspaces) =>
    if fitsPrintable keyspaces then []
    else [{ level := .info, component := .config, fields := []
            message := "key lengths too short for printable keys: rendering binary keys" }]
  | .error _ => []

/-- Adds endpoints in order, each one once. -/
def Config.withEndpoints (c : Config R) : List String → Except (Fault R) (Config R)
  | [] => .ok c
  | e :: rest => do
    let e ← checkEndpoint e
    let c := if c.endpoints.contains e then c else { c with endpoints := c.endpoints ++ [e] }
    c.withEndpoints rest

end LoadGen
