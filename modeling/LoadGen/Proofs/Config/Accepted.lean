import LoadGen.Config.Check
import LoadGen.Proofs.Keys.Reading

/-!
# Accepted configurations

A configuration is accepted if it is the checked form of a draft, perhaps with endpoints added
later. What the engine takes for granted about its keyspaces follows (`Accepted.regular`): each one
knows its position and the number of all, they share one alphabet, and their keys fit.
-/

namespace LoadGen.Config

open Weights Keys

variable {R : Type}

theorem bind_eq_ok {ε α β : Type} {x : Except ε α} {f : α → Except ε β} {b : β} :
    x >>= f = .ok b ↔ ∃ a, x = .ok a ∧ f a = .ok b := by
  cases x with
  | error e => exact ⟨nofun, nofun⟩
  | ok a => exact ⟨fun h => ⟨a, rfl, h⟩, fun ⟨_, ha, h⟩ => by cases ha; exact h⟩

theorem eq_ok_of_toOption {ε α : Type} {x : Except ε α} {a : α} (h : x.toOption = some a) :
    x = .ok a := by
  cases x with
  | error e => cases h
  | ok a' =>
    cases h
    rfl

section Checks

variable [Weight R]

/-- The items of a table are those of the list, in order. -/
theorem items_of_weigh {α : Type} {list : WeightedList} {weighted : List (α × R)}
    {t : WeightedTable R α} (h : weigh list weighted = .ok t) : t.items = weighted.map (·.1) := by
  rw [weigh] at h
  split at h
  · next table htable =>
    cases h
    rw [WeightedTable.ofList] at htable
    dsimp only at htable
    split at htable
    · cases htable
    · split at htable
      · cases htable
      · split at htable
        · cases htable
        · cases htable
          rfl
  · cases h

/-- What the check of a keyspace at a position of `stride` establishes for its keys. -/
structure Keyspace.CheckedAt (stride ordinal : Nat) (k : Keyspace R) : Prop where
  ordinal_eq : k.ordinal = ordinal
  stride_eq : k.stride = stride
  alphabet_eq : k.alphabet = .printable
  count_pos : 0 < k.count
  holds_binary : Alphabet.binary.holds k.length (k.count * stride) = true

/-- All that a keyspace has passed when its check does not refuse it, and what becomes of it. -/
theorem of_checkKeyspace_eq_ok {stride ordinal : Nat} {d : KeyspaceDraft R} {k : Keyspace R}
    (h : checkKeyspace stride ordinal d = .ok k) :
    d.length ≠ 0 ∧ d.count ≠ 0 ∧ Alphabet.binary.holds d.length (d.count * stride) = true ∧
      d.commands.isEmpty = false ∧
      ∃ commands marks table values,
        checkCommands ordinal d.count none d.commands = .ok (commands, marks) ∧
        weigh (.commands ordinal) commands = .ok table ∧
        checkValues ordinal (commands.any fun (command, weight) =>
          Weight.less 0 weight && command.action.needsValue) d.values = .ok values ∧
        k = { ordinal, stride, length := d.length, alphabet := .printable, count := d.count,
              weight := d.weight, commands := table, values,
              watermarks := marks.getD ⟨0, d.count⟩ } ∧
        (k.tracksLifecycle = true → k.count ≤ maxTrackedKeys) := by
  rw [checkKeyspace] at h
  dsimp only at h
  split at h
  · cases h
  next hlength =>
  split at h
  · cases h
  next hcount =>
  split at h
  · cases h
  next hholds =>
  split at h
  · cases h
  next hcommands =>
  obtain ⟨⟨commands, marks⟩, hchecked, h⟩ := bind_eq_ok.1 h
  obtain ⟨table, htable, h⟩ := bind_eq_ok.1 h
  obtain ⟨values, hvalues, h⟩ := bind_eq_ok.1 h
  dsimp only at h
  split at h
  · cases h
  next htracked =>
  cases h
  exact ⟨hlength, hcount, by simpa using hholds, by simpa using hcommands, commands, marks, table,
    values, hchecked, htable, hvalues, rfl, by simpa using htracked⟩

theorem checkedAt_of_check {stride ordinal : Nat} {d : KeyspaceDraft R} {k : Keyspace R}
    (h : checkKeyspace stride ordinal d = .ok k) : k.CheckedAt stride ordinal := by
  obtain ⟨-, hcount, hholds, -, commands, marks, table, values, -, -, -, rfl, -⟩ :=
    of_checkKeyspace_eq_ok h
  exact ⟨rfl, rfl, rfl, Nat.pos_of_ne_zero hcount, hholds⟩

theorem checkedAt_of_checkKeyspaces {stride ordinal : Nat} {ds : List (KeyspaceDraft R)}
    {ks : List (Keyspace R)} (h : checkKeyspaces stride ordinal ds = .ok ks) :
    ks.length = ds.length ∧
      ∀ (p : Nat) (k : Keyspace R), ks[p]? = some k → k.CheckedAt stride (ordinal + p) := by
  induction ds generalizing ordinal ks with
  | nil =>
    cases h
    exact ⟨rfl, nofun⟩
  | cons d ds ih =>
    rw [checkKeyspaces] at h
    obtain ⟨k, hk, h⟩ := bind_eq_ok.1 h
    obtain ⟨rest, hrest, h⟩ := bind_eq_ok.1 h
    cases h
    obtain ⟨hlength, hat⟩ := ih hrest
    refine ⟨by rw [List.length_cons, List.length_cons, hlength], fun p k' hp => ?_⟩
    cases p with
    | zero =>
      cases hp
      exact checkedAt_of_check hk
    | succ p =>
      rw [List.getElem?_cons_succ] at hp
      rw [show ordinal + (p + 1) = ordinal + 1 + p by omega]
      exact hat p k' hp

end Checks

/-- The keyspaces of a run know their positions and number, share an alphabet, and have keys that
fit. -/
structure Regular (ks : List (Keyspace R)) : Prop where
  ordinal_eq : ∀ (p : Nat) (k : Keyspace R), ks[p]? = some k → k.ordinal = p
  stride_eq : ∀ k ∈ ks, k.stride = ks.length
  alphabet_eq : ∀ k ∈ ks, ∀ k' ∈ ks, k.alphabet = k'.alphabet
  count_pos : ∀ k ∈ ks, 0 < k.count
  fits : ∀ k ∈ ks, k.Fits

/-- The keyspace in another alphabet. -/
def Keyspace.inAlphabet (a : Alphabet) (k : Keyspace R) : Keyspace R := { k with alphabet := a }

section Choice

variable {ks : List (Keyspace R)}
  (hat : ∀ (p : Nat) (k : Keyspace R), ks[p]? = some k → k.CheckedAt ks.length p)

include hat

theorem exists_checkedAt {k : Keyspace R} (hk : k ∈ ks) :
    ∃ p < ks.length, k.CheckedAt ks.length p := by
  obtain ⟨p, hp, rfl⟩ := List.mem_iff_getElem.1 hk
  exact ⟨p, hp, hat p _ (List.getElem?_eq_getElem hp)⟩

/-- One alphabet is chosen, in which all keys fit. -/
theorem chooseAlphabet_eq : ∃ a : Alphabet,
    (∀ k ∈ ks, a.holds k.length (k.count * ks.length) = true) ∧
      chooseAlphabet ks = ks.map (·.inAlphabet a) := by
  rw [chooseAlphabet]
  split
  · next hprintable =>
    refine ⟨.printable, fun k hk => ?_, ?_⟩
    · obtain ⟨p, -, h⟩ := exists_checkedAt hat hk
      rw [← h.stride_eq]
      exact List.all_eq_true.1 hprintable k hk
    · refine ((List.map_congr_left fun k hk => ?_).trans (List.map_id' ks)).symm
      obtain ⟨p, -, h⟩ := exists_checkedAt hat hk
      rw [Keyspace.inAlphabet, ← h.alphabet_eq]
  · refine ⟨.binary, fun k hk => ?_, rfl⟩
    obtain ⟨p, -, h⟩ := exists_checkedAt hat hk
    exact h.holds_binary

theorem regular_inAlphabet {a : Alphabet}
    (hholds : ∀ k ∈ ks, a.holds k.length (k.count * ks.length) = true) :
    Regular (ks.map (·.inAlphabet a)) where
  ordinal_eq p k hp := by
    rw [List.getElem?_map, Option.map_eq_some_iff] at hp
    obtain ⟨k, hp, rfl⟩ := hp
    exact (hat p k hp).ordinal_eq
  stride_eq := by
    simp only [List.forall_mem_map, List.length_map]
    intro k hk
    obtain ⟨p, -, h⟩ := exists_checkedAt hat hk
    exact h.stride_eq
  alphabet_eq := by
    simp only [List.forall_mem_map]
    exact fun _ _ _ _ => rfl
  count_pos := by
    simp only [List.forall_mem_map]
    intro k hk
    obtain ⟨p, -, h⟩ := exists_checkedAt hat hk
    exact h.count_pos
  fits := by
    simp only [List.forall_mem_map]
    intro k hk
    obtain ⟨p, hp, h⟩ := exists_checkedAt hat hk
    refine ⟨?_, ?_⟩
    · show k.ordinal < k.stride
      rwa [h.ordinal_eq, h.stride_eq]
    · show k.count * k.stride ≤ a.radix ^ k.length
      rw [h.stride_eq]
      exact Alphabet.holds_iff_le_pow.1 (hholds k hk)

end Choice

/-- The keyspaces of a checked configuration are those of the draft, checked one by one, in the
alphabet of the run. -/
theorem exists_of_ofDraft [Weight R] {d : Draft R} {c : Config R} (h : Config.ofDraft d = .ok c) :
    ∃ ks, checkKeyspaces d.keyspaces.length 0 d.keyspaces = .ok ks ∧
      c.keyspaces.items = chooseAlphabet ks := by
  rw [Config.ofDraft] at h
  obtain ⟨⟨general, endpoints, ks⟩, hparts, h⟩ := bind_eq_ok.1 h
  obtain ⟨table, htable, h⟩ := bind_eq_ok.1 h
  cases h
  rw [checkParts] at hparts
  obtain ⟨_, -, hparts⟩ := bind_eq_ok.1 hparts
  obtain ⟨_, -, hparts⟩ := bind_eq_ok.1 hparts
  split at hparts
  · cases hparts
  obtain ⟨ks', hks, hparts⟩ := bind_eq_ok.1 hparts
  cases hparts
  refine ⟨ks, hks, ?_⟩
  rw [items_of_weigh htable, List.map_map]
  exact List.map_id' _

theorem regular_of_ofDraft [Weight R] {d : Draft R} {c : Config R} (h : Config.ofDraft d = .ok c) :
    Regular c.keyspaces.items := by
  obtain ⟨ks, hks, hitems⟩ := exists_of_ofDraft h
  obtain ⟨hlength, hat⟩ := checkedAt_of_checkKeyspaces hks
  have hat' : ∀ (p : Nat) (k : Keyspace R), ks[p]? = some k → k.CheckedAt ks.length p := by
    intro p k hp
    have := hat p k hp
    rwa [Nat.zero_add, ← hlength] at this
  obtain ⟨a, hholds, heq⟩ := chooseAlphabet_eq hat'
  rw [hitems, heq]
  exact regular_inAlphabet hat' hholds

end LoadGen.Config

namespace LoadGen

open Config

variable {R : Type} [Weights.Weight R]

/-- The checked form of a draft, with endpoints added. -/
def Config.Accepted (config : Config R) : Prop :=
  ∃ (d : Draft R) (c : Config R) (endpoints : List String),
    Config.ofDraft d = .ok c ∧ c.withEndpoints endpoints = .ok config

omit [Weights.Weight R] in
theorem Config.keyspaces_withEndpoints {c config : Config R} {endpoints : List String}
    (h : c.withEndpoints endpoints = .ok config) : config.keyspaces = c.keyspaces := by
  induction endpoints generalizing c with
  | nil =>
    cases h
    rfl
  | cons e rest ih =>
    rw [withEndpoints] at h
    obtain ⟨e', -, h⟩ := bind_eq_ok.1 h
    rw [ih h]
    split <;> rfl

omit [Weights.Weight R] in
theorem Config.general_withEndpoints {c config : Config R} {endpoints : List String}
    (h : c.withEndpoints endpoints = .ok config) : config.general = c.general := by
  induction endpoints generalizing c with
  | nil =>
    cases h
    rfl
  | cons e rest ih =>
    rw [withEndpoints] at h
    obtain ⟨e', -, h⟩ := bind_eq_ok.1 h
    rw [ih h]
    split <;> rfl

/-- The checked form of a draft that passes the checks. -/
def Config.checked (d : Draft R) (h : (Config.ofDraft d).toOption.isSome = true) : Config R :=
  (Config.ofDraft d).toOption.get h

theorem Config.accepted_checked (d : Draft R) (h : (Config.ofDraft d).toOption.isSome = true) :
    (Config.checked d h).Accepted := by
  have hget : (Config.ofDraft d).toOption = some (Config.checked d h) := (Option.some_get h).symm
  exact ⟨d, _, [], eq_ok_of_toOption hget, rfl⟩

omit [Weights.Weight R] in
theorem Config.pos_of_positive {setting : Setting} {value value' : Nat}
    (h : positive (R := R) setting value = .ok value') : 0 < value' := by
  rw [positive] at h
  split at h
  · cases h
  · next hvalue =>
    cases h
    exact Nat.pos_of_ne_zero hvalue

omit [Weights.Weight R] in
theorem Config.windows_pos_of_checkGeneral {d : GeneralDraft} {general : General}
    (h : checkGeneral (R := R) d = .ok general) : 0 < general.windows := by
  rw [checkGeneral] at h
  split at h
  case h_2 => cases h
  obtain ⟨_, -, h⟩ := bind_eq_ok.1 h
  obtain ⟨_, -, h⟩ := bind_eq_ok.1 h
  obtain ⟨windows, hwindows, h⟩ := bind_eq_ok.1 h
  obtain ⟨_, -, h⟩ := bind_eq_ok.1 h
  obtain ⟨_, -, h⟩ := bind_eq_ok.1 h
  obtain ⟨_, -, h⟩ := bind_eq_ok.1 h
  obtain ⟨_, -, h⟩ := bind_eq_ok.1 h
  cases h
  exact pos_of_positive hwindows

/-- A run has at least one window. -/
theorem Config.Accepted.windows_pos {config : Config R} (h : config.Accepted) :
    0 < config.general.windows := by
  obtain ⟨d, c, endpoints, hdraft, hends⟩ := h
  rw [general_withEndpoints hends]
  rw [ofDraft] at hdraft
  obtain ⟨⟨general, _, _⟩, hparts, hdraft⟩ := bind_eq_ok.1 hdraft
  obtain ⟨_, -, hdraft⟩ := bind_eq_ok.1 hdraft
  cases hdraft
  rw [checkParts] at hparts
  obtain ⟨_, hgeneral, hparts⟩ := bind_eq_ok.1 hparts
  obtain ⟨_, -, hparts⟩ := bind_eq_ok.1 hparts
  split at hparts
  · cases hparts
  obtain ⟨_, -, hparts⟩ := bind_eq_ok.1 hparts
  cases hparts
  exact windows_pos_of_checkGeneral hgeneral

theorem Config.Accepted.regular {config : Config R} (h : config.Accepted) :
    Regular config.keyspaces.items := by
  obtain ⟨d, c, endpoints, hdraft, hends⟩ := h
  rw [keyspaces_withEndpoints hends]
  exact regular_of_ofDraft hdraft

end LoadGen
