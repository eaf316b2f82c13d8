import LoadGen.Config.Basic
import LoadGen.Config.Draft
import LoadGen.Proofs.Weights.Tables
import Mathlib

/-!
# Valid configurations

What makes a configuration as written a valid one (`Draft.Valid`), and what its checked form is then
(`Draft.Reads`). Both are said of the configuration as a whole: no order of checks, and no first
fault. One structure for each level: the settings of the run, the keyspaces, their commands and
their values. A run uses the checked form only (`Keyspace.Ready`).
-/

namespace LoadGen.Config

open Weights Keys

/-! ## Texts -/

/-- A text says a name, with blanks around it and in either case. -/
def Says (s name : String) : Prop := Text.foldCase (Text.trim s) = name

/-- An action may be named with its command family. -/
def Action.IsNamed (a : Action) (s : String) : Prop :=
  Says s a.name ∨ Says s ("sarray_" ++ a.name)

def ValueClass.IsNamed : ValueClass → String → Prop
  | bytes, s => Says s "bytes" ∨ Says s "raw"
  | integer, s => Says s "integer" ∨ Says s "u64"

/-- Decimal digits of a number, with or without a plus sign. -/
def IsNumeral (s : List Char) (n : Nat) : Prop :=
  ∃ digits, (s = digits ∨ s = '+' :: digits) ∧ digits ≠ [] ∧
    (∀ c ∈ digits, c.isDigit = true) ∧ Nat.ofDigitChars 10 digits 0 = n

/-- A host and a port of 16 bits, on the two sides of the last colon. -/
def IsHostPort (s : String) : Prop :=
  ∃ host port n, s.toList = host ++ ':' :: port ∧ ':' ∉ port ∧ host ≠ [] ∧
    IsNumeral port n ∧ n < 2 ^ 16

/-! ## What is valid -/

/-- The protocol is known, and all settings that must be are positive. -/
structure GeneralDraft.Valid (d : GeneralDraft) : Prop where
  protocol : Says d.protocol "rds"
  interval_pos : 0 < d.interval
  windows_pos : 0 < d.windows
  clients_pos : 0 < d.clients
  poolsize_pos : 0 < d.poolsize
  requestTimeout_pos : 0 < d.requestTimeout
  connectTimeout_pos : 0 < d.connectTimeout

variable {R : Type}

/-- The bounds that a command gives: none if it has neither, otherwise the low one is zero if it is
absent, and the high one is the key count, or the low bound if that is larger. -/
def CommandDraft.marks? (count : Nat) (d : CommandDraft R) : Option Watermarks :=
  if d.low.isNone ∧ d.high.isNone then none
  else some ⟨d.low.getD 0, d.high.getD (max count (d.low.getD 0))⟩

/-- Only an action that creates or deletes has bounds, and these are in order. -/
def CommandDraft.MarksValid (count : Nat) (a : Action) (d : CommandDraft R) : Prop :=
  ∀ m, d.marks? count = some m → (a = .create ∨ a = .delete) ∧ m.low ≤ m.high

/-- A number of elements is positive and has 32 bits. -/
def ItemsValid (items : Option Nat) : Prop := ∀ n, items = some n → 1 ≤ n ∧ n < 2 ^ 32

structure CommandDraft.Valid (count : Nat) (d : CommandDraft R) : Prop where
  exists_action : ∃ a : Action, a.IsNamed d.action
  items : ItemsValid d.items
  marks : ∀ a : Action, a.IsNamed d.action → d.MarksValid count a

/-- Numbers have at most eight bytes. -/
structure ValueDraft.Valid (d : ValueDraft R) : Prop where
  exists_kind : ∃ k : ValueClass, k.IsNamed d.kind
  length_pos : 0 < d.length
  length_le : ValueClass.integer.IsNamed d.kind → d.length ≤ 8

/-- All elements of a list are the same. -/
def Agree {α : Type} (as : List α) : Prop := ∀ a ∈ as, ∀ b ∈ as, a = b

/-- The bounds that the commands of a keyspace give. -/
def KeyspaceDraft.marks (d : KeyspaceDraft R) : List Watermarks :=
  d.commands.filterMap (·.marks? d.count)

section Weighing

variable [Weight R]

/-- A create or a delete has a share in the draws. -/
def KeyspaceDraft.DrawsLifecycle (d : KeyspaceDraft R) : Prop :=
  ∃ (i : Nat) (c : CommandDraft R) (a : Action), d.commands[i]? = some c ∧ a.IsNamed c.action ∧
    (a = .create ∨ a = .delete) ∧ Weight.less 0 (shareOf (d.commands.map (·.weight)) i) = true

/-- A command that is about values has a positive weight. -/
def KeyspaceDraft.NeedsValues (d : KeyspaceDraft R) : Prop :=
  ∃ c ∈ d.commands, ∃ a : Action, a.IsNamed c.action ∧
    a ∈ [.create, .find, .insert, .remove] ∧ Weight.less 0 c.weight = true

/-- A keyspace among `stride` ones: there are keys for all of them, the commands and the values are
valid and can be drawn from, and no two commands give different bounds. -/
structure KeyspaceDraft.Valid (stride : Nat) (d : KeyspaceDraft R) : Prop where
  length_pos : 0 < d.length
  count_pos : 0 < d.count
  keys_fit : d.count * stride ≤ 256 ^ d.length
  commands : ∀ c ∈ d.commands, c.Valid d.count
  marks_agree : Agree d.marks
  weighable_commands : Weighable (d.commands.map (·.weight))
  values : ∀ v ∈ d.values, v.Valid
  weighable_values : d.values ≠ [] → Weighable (d.values.map (·.weight))
  values_ne_nil : d.NeedsValues → d.values ≠ []
  count_le : d.DrawsLifecycle → d.count ≤ 2 ^ 27

/-- A valid configuration. -/
structure Draft.Valid (d : Draft R) : Prop where
  general : d.general.Valid
  endpoints : ∀ e ∈ d.endpoints, IsHostPort e
  keyspaces_ne_nil : d.keyspaces ≠ []
  keyspaces : ∀ k ∈ d.keyspaces, k.Valid d.keyspaces.length
  weighable : Weighable (d.keyspaces.map (·.weight))

end Weighing

/-! ## What is read -/

/-- The settings of the run as they are kept. -/
def GeneralDraft.read (d : GeneralDraft) : General where
  protocol := .rds
  interval := .ofSeconds d.interval
  windows := d.windows
  clients := d.clients
  poolsize := d.poolsize
  noDelay := d.noDelay
  requestTimeout := .ofMicros d.requestTimeout
  connectTimeout := .ofMicros d.connectTimeout
  seed := d.seed

/-- A command with its weight. One element is meant if no number is given. -/
structure CommandDraft.Reads (count : Nat) (d : CommandDraft R) (c : Command × R) : Prop where
  isNamed : c.1.action.IsNamed d.action
  watermarks_eq : c.1.watermarks = d.marks? count
  items_eq : c.1.items = d.items.getD 1
  weight_eq : c.2 = d.weight

/-- A value with its weight. -/
structure ValueDraft.Reads (d : ValueDraft R) (v : ValueSpec × R) : Prop where
  length_eq : v.1.length = d.length
  isNamed : v.1.kind.IsNamed d.kind
  weight_eq : v.2 = d.weight

section Weighing

variable [Weight R]

/-- A keyspace at a position, among `stride` ones. Its bounds are those that its commands give, or
all numbers of structures are allowed. -/
structure KeyspaceDraft.Reads (stride ordinal : Nat) (d : KeyspaceDraft R) (k : Keyspace R) :
    Prop where
  ordinal_eq : k.ordinal = ordinal
  stride_eq : k.stride = stride
  length_eq : k.length = d.length
  count_eq : k.count = d.count
  weight_eq : k.weight = d.weight
  commands : ∃ cs, List.Forall₂ (CommandDraft.Reads d.count) d.commands cs ∧ k.commands.Weighs cs
  values : (d.values = [] ∧ k.values = none) ∨
    ∃ vs t, List.Forall₂ ValueDraft.Reads d.values vs ∧ t.Weighs vs ∧ k.values = some t
  watermarks_eq : k.watermarks = d.marks.headD ⟨0, d.count⟩

/-- A configuration. All keyspaces use the same alphabet, the printable one if it has keys for all of
them. -/
structure Draft.Reads (d : Draft R) (c : Config R) : Prop where
  general_eq : c.general = d.general.read
  endpoints_eq : c.endpoints = d.endpoints
  keyspaces : List.Forall₂ (fun x k => x.1.Reads d.keyspaces.length x.2 k)
    d.keyspaces.zipIdx c.keyspaces.items
  weighs : c.keyspaces.Weighs (c.keyspaces.items.map fun k => (k, k.weight))
  alphabet_iff : ∀ k ∈ c.keyspaces.items, k.alphabet = .printable ↔
    ∀ k' ∈ d.keyspaces, k'.count * d.keyspaces.length ≤ 62 ^ k'.length

/-! ## What a run relies on -/

/-- What a run takes for granted about a keyspace, apart from its keys: bounds in order, the same for
all commands; commands about at least one element, with values if they can be drawn and need any;
values of one byte or more, and no number that does not fit a word; and not too many keys to keep
track of. -/
structure Keyspace.Ready (k : Keyspace R) : Prop where
  low_le_high : k.watermarks.low ≤ k.watermarks.high
  watermarks_eq : ∀ c ∈ k.commands.items, ∀ m, c.watermarks = some m → k.watermarks = m
  items : ∀ c ∈ k.commands.items, 1 ≤ c.items ∧ c.items < 2 ^ 32
  values_ne_none : ∃ cs, k.commands.Weighs cs ∧ ∀ c ∈ cs, c.1.action.needsValue = true →
    Weight.less 0 c.2 = true → k.values ≠ none
  values : ∀ t, k.values = some t → ∀ v ∈ t.items,
    0 < v.length ∧ (v.kind = .integer → v.length ≤ 8)
  count_le : k.tracksLifecycle = true → k.count ≤ 2 ^ 27

end Weighing

end LoadGen.Config
