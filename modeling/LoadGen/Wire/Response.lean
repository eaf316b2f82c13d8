import LoadGen.Wire.Reply

/-!
# Responses

How a reply answers a request: every reply without an error in it is a success, a reply that is an
error line is a rejection with a reason, and a reply with an error somewhere inside cannot be
understood, no more than malformed bytes.

An error line is a code and, after the first space, a detail. The known codes stand for themselves
if no detail follows; any other code gets a standard detail.
-/

namespace LoadGen.Wire

/-- The answer to a request. -/
inductive Response
  | success
  | rejected (reason : String)
  deriving Repr, DecidableEq

/-- Codes with a meaning of their own, and the names of those meanings. -/
def knownCodes : List (String × String) :=
  [("ERR", "ResponseError"), ("EXECABORT", "ExecAbortError"), ("LOADING", "BusyLoadingError"),
    ("NOSCRIPT", "NoScriptError"), ("MOVED", "Moved"), ("ASK", "Ask"), ("TRYAGAIN", "TryAgain"),
    ("CLUSTERDOWN", "ClusterDown"), ("CROSSSLOT", "CrossSlot"), ("MASTERDOWN", "MasterDown"),
    ("READONLY", "ReadOnly"), ("NOTBUSY", "NotBusy")]

/-- An error line at its first space. -/
def splitError (line : String) : String × Option String :=
  let chars := line.toList
  let code := String.ofList (chars.takeWhile (· != ' '))
  match chars.dropWhile (· != ' ') with
  | [] => (code, none)
  | _ :: detail => (code, some (String.ofList detail))

def standardDetail : String := "Unknown extension error encountered"

/-- The reason a server gives with an error line. -/
def rejectionReason (line : String) : String :=
  match splitError line with
  | (code, some detail) => code ++ " " ++ detail
  | (code, none) => if (knownCodes.lookup code).isSome then code else code ++ " " ++ standardDetail

/-- The description of an error line inside a reply. -/
def errorDescription (line : String) : String :=
  let (code, detail) := splitError line
  match knownCodes.lookup code, detail with
  | some meaning, some detail =>
    "An error was signalled by the server - " ++ meaning ++ ": " ++ detail
  | some meaning, none => "An error was signalled by the server- " ++ meaning
  | none, detail => code ++ ": " ++ detail.getD standardDetail

mutual

/-- The first error line in a reply. -/
def Reply.firstError? : Reply → Option String
  | .error line => some line
  | .array (some items) => firstErrorIn items
  | _ => none

def firstErrorIn : List Reply → Option String
  | [] => none
  | r :: rs => match r.firstError? with
    | some line => some line
    | none => firstErrorIn rs

end

/-- Why bytes cannot be understood as a response. -/
structure DecodeFault where
  reason : String
  deriving Repr, DecidableEq

def DecodeFault.message (f : DecodeFault) : String := "malformed response: " ++ f.reason

/-- The reason given for bytes that are no reply. -/
def parseFailure : String := "parse error - ParseError"

/-- The buffer is looked at in blocks of this many bytes. -/
def blockSize : Nat := 8192

/-- The bytes taken from a buffer whose first `used` bytes are a reply: whole blocks, as far as
there are. -/
def consumedBytes (length used : Nat) : Nat :=
  min length ((used + blockSize - 1) / blockSize * blockSize)

/-- The response at the front of a buffer with the number of bytes taken, nothing while the
response is incomplete. Only one request is under way on a connection, so bytes after the response
may be taken with it. -/
def decode (buffer : Bytes) : Except DecodeFault (Option (Response × Nat)) :=
  match Reply.read buffer with
  | .incomplete => .ok none
  | .malformed =>
    if buffer.head? = some 0x2d then
      -- an error line that is not text
      let used := match lineBytes buffer [] with
        | .complete _ rest => buffer.length - rest.length
        | _ => buffer.length
      .ok (some (.rejected parseFailure, consumedBytes buffer.length used))
    else .error ⟨parseFailure⟩
  | .complete reply rest =>
    let consumed := consumedBytes buffer.length (buffer.length - rest.length)
    match reply with
    | .error line => .ok (some (.rejected (rejectionReason line), consumed))
    | _ => match reply.firstError? with
      | some line => .error ⟨errorDescription line⟩
      | none => .ok (some (.success, consumed))

end LoadGen.Wire
