import LoadGen.Config.Check
import LoadGen.Toml.Document

/-!
# Configurations in documents

Reads a configuration as written out of a document. A record is a table with known keys, or an
array that lists the fields in their order. Whole numbers are not negative; where a weight is
expected a whole number will do. A key that is not known, a field that is missing without having a
default, or a value of the wrong kind makes the document unreadable as a configuration.
-/

namespace LoadGen.Config

open Toml

/-! ## Values -/

def text? : Value → Option String
  | .text s => some s
  | _ => none

def natural? : Value → Option Nat
  | .integer n => if 0 ≤ n then some n.toNat else none
  | _ => none

def flag? : Value → Option Bool
  | .boolean b => some b
  | _ => none

def weight? : Value → Option Float
  | .float x => some x
  | .integer n => some (Decimal.nearest (n < 0) n.natAbs 1)
  | _ => none

def list? {α : Type} (item? : Value → Option α) : Value → Option (List α)
  | .array items => items.mapM item?
  | _ => none

/-! ## Records -/

/-- The fields of a record. Fields that are listed by position may only be left out if they have
a default. -/
structure Record where
  isNamed : Bool
  fields : List (String × Value)

/-- The record with the given field names, in order. -/
def Record.ofValue? (names : List String) : Value → Option Record
  | .table entries => if entries.all (names.contains ·.1) then some ⟨true, entries⟩ else none
  | .array items => some ⟨false, names.zip items⟩
  | _ => none

namespace Record

variable {α : Type} (r : Record) (name : String) (read? : Value → Option α)

def find? : Option Value :=
  (r.fields.find? (·.1 == name)).map (·.2)

/-- A field that must be there. -/
def required : Option α :=
  (r.find? name).bind read?

/-- A field with a default. -/
def defaulted (default : α) : Option α :=
  match r.find? name with
  | none => some default
  | some v => read? v

/-- A field that may be absent. -/
def optional : Option (Option α) :=
  match r.find? name with
  | none => if r.isNamed then some none else none
  | some v => (read? v).map some

end Record

/-! ## Configurations -/

def GeneralDraft.ofValue? (v : Value) : Option GeneralDraft := do
  let r ← Record.ofValue? ["protocol", "interval", "windows", "clients", "poolsize",
    "tcp_nodelay", "request_timeout", "connect_timeout", "seed"] v
  return {
    protocol := ← r.required "protocol" text?
    interval := ← r.required "interval" natural?
    windows := ← r.required "windows" natural?
    clients := ← r.required "clients" natural?
    poolsize := ← r.required "poolsize" natural?
    noDelay := ← r.defaulted "tcp_nodelay" flag? false
    requestTimeout := ← r.required "request_timeout" natural?
    connectTimeout := ← r.required "connect_timeout" natural?
    seed := ← r.defaulted "seed" (fun v => (natural? v).map (some ·.toUInt64)) none }

/-- The endpoints of the target. -/
def targetOfValue? (v : Value) : Option (List String) := do
  let r ← Record.ofValue? ["endpoints"] v
  r.defaulted "endpoints" (list? text?) []

def CommandDraft.ofValue? (v : Value) : Option (CommandDraft Float) := do
  let r ← Record.ofValue? ["action", "weight", "watermark_low", "watermark_high", "items"] v
  return {
    action := ← r.required "action" text?
    weight := ← r.defaulted "weight" weight? 1
    low := ← r.optional "watermark_low" natural?
    high := ← r.optional "watermark_high" natural?
    items := ← r.optional "items" natural? }

def ValueDraft.ofValue? (v : Value) : Option (ValueDraft Float) := do
  let r ← Record.ofValue? ["length", "weight", "class"] v
  return {
    length := ← r.required "length" natural?
    weight := ← r.defaulted "weight" weight? 1
    kind := ← r.defaulted "class" text? "bytes" }

def KeyspaceDraft.ofValue? (v : Value) : Option (KeyspaceDraft Float) := do
  let r ← Record.ofValue? ["length", "count", "weight", "commands", "values"] v
  return {
    length := ← r.required "length" natural?
    count := ← r.required "count" natural?
    weight := ← r.defaulted "weight" weight? 1
    commands := ← r.defaulted "commands" (list? CommandDraft.ofValue?) []
    values := ← r.defaulted "values" (list? ValueDraft.ofValue?) [] }

def Draft.ofValue? (v : Value) : Option (Draft Float) := do
  let r ← Record.ofValue? ["general", "target", "keyspace"] v
  return {
    general := ← r.required "general" GeneralDraft.ofValue?
    endpoints := ← r.defaulted "target" targetOfValue? []
    keyspaces := ← r.defaulted "keyspace" (list? KeyspaceDraft.ofValue?) [] }

/-- The configuration written in a text, not checked. -/
def Draft.read (text : String) : Except (Fault Float) (Draft Float) :=
  match (Toml.read? text).bind fun entries => Draft.ofValue? (.table entries) with
  | some d => .ok d
  | none => .error (.malformed "not a configuration document")

end LoadGen.Config

namespace LoadGen

open Config

/-- The checked configuration written in a text, with what is logged on the way. -/
def Config.ofText (text : String) : Except (Fault Float) (Config Float) × List Log.Event :=
  match Draft.read text with
  | .ok d => (Config.ofDraft d, Config.checkEvents d)
  | .error fault => (.error fault, [])

/-- What reading a file yields: its bytes, or the reason why there are none. -/
abbrev FileContent := Except ReadFault ByteArray

/-- The checked configuration in the file at a path, given what reading that file yields. -/
def Config.ofFile (path : String) (content : FileContent) :
    Except (Fault Float) (Config Float) × List Log.Event :=
  match content with
  | .error reason => (.error (.unreadable path reason), [])
  | .ok bytes =>
    match String.fromUTF8? bytes with
    | none => (.error (.unreadable path .notText), [])
    | some text =>
      match Config.ofText text with
      | (.ok config, events) =>
        let loaded : Log.Event :=
          { level := .info, component := .config, message := "configuration loaded"
            fields := [("path", .text path), ("keyspaces", .number config.keyspaces.size)] }
        (.ok config, events ++ [loaded])
      | (.error fault, events) => (.error fault, events)

end LoadGen
