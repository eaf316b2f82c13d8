import LoadGen.Proofs.Wire.Requests
import LoadGen.Wire.Response
import Mathlib.Data.Finset.Insert
import Mathlib.Data.Finset.Erase

/-!
# A faithful server

The server that the engine keeps account of: it stores structures by their keys and carries out one
request after the other. A create is refused if the structure exists, and everything else if it does
not. `execute` takes the bytes of a request, and `execute_encode` says that they carry all that
matters, the action and the key.
-/

namespace LoadGen.Server

open Config (Action)
open Wire

/-- What a server says to a request. -/
inductive Answer
  | accepted
  | refused
  deriving Repr, DecidableEq

/-- Whether a response is what the server said. -/
def Answer.agrees : Answer → Response → Bool
  | .accepted, .success => true
  | .refused, .rejected _ => true
  | _, _ => false

/-- The keys of the structures that exist on a server. -/
abbrev Store := Finset Bytes

/-- Carries out an action on the structure of a key. -/
def perform (store : Store) (a : Action) (key : Bytes) : Answer × Store :=
  match a with
  | .create => if key ∈ store then (.refused, store) else (.accepted, insert key store)
  | .delete => if key ∈ store then (.accepted, store.erase key) else (.refused, store)
  | _ => (if key ∈ store then .accepted else .refused, store)

/-- The action of a command. -/
def actionOf? (command : Bytes) : Option Action :=
  Action.all.find? fun a => textBytes (commandName a) = command

/-- Executes the bytes of a request. -/
def execute (store : Store) (bytes : Bytes) : Answer × Store :=
  match readParts bytes with
  | some (command :: key :: _) => match actionOf? command with
    | some a => perform store a key
    | none => (.refused, store)
  | _ => (.refused, store)

theorem actionOf?_commandName (a : Action) : actionOf? (textBytes (commandName a)) = some a := by
  cases a <;> decide +kernel

/-- **A request arrives as it was meant.** -/
theorem execute_encode (store : Store) (r : Request) :
    execute store r.encode = perform store r.action r.key := by
  rw [execute, readParts_encode, Request.parts]
  dsimp only
  rw [actionOf?_commandName]

section Perform

variable (store : Store) (a : Action) (key : Bytes)

theorem answer_perform :
    (perform store a key).1 = if key ∈ store ↔ a = .create then .refused else .accepted := by
  cases a <;> simp only [perform] <;> split <;> simp_all

/-- Only creates and deletes change the store, and only at their key. -/
theorem mem_perform (key' : Bytes) :
    key' ∈ (perform store a key).2 ↔
      if key = key' ∧ a.isLifecycle = true then a = .create else key' ∈ store := by
  by_cases hkey : key = key'
  · subst hkey
    cases a with
    | create | delete => simp only [perform]; split <;> simp_all [Action.isLifecycle]
    | _ => simp [perform, Action.isLifecycle]
  · have hkey' : key' ≠ key := Ne.symm hkey
    cases a with
    | create | delete => simp only [perform]; split <;> simp [hkey, hkey']
    | _ => simp [perform, hkey]

end Perform

end LoadGen.Server
