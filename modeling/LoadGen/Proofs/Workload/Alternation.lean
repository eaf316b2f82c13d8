import LoadGen.Proofs.Lists.Places
import LoadGen.Proofs.Trial.OneClient
import LoadGen.Proofs.Workload.Populations
import Mathlib

/-!
# Creates and deletes alternate

Workers share a workload. What they ask of it are selections, each with a source of its own, and
completions of whatever operations with whatever responses, one after the other in any order. A
`History` notes the operations that were dispatched.

The changes of a structure in a history (`changes`) are its dispatched creates and deletes. The flag
of the structure tells the last of them, a create is only claimed while the flag is down and a
delete only while it is up, so that they alternate (`changes_alternate`).
-/

namespace LoadGen

open Config (Keyspace Action)

variable {R : Type}

/-- The creates and deletes of a structure, the first one first, of operations that have the last
one first. -/
def changes (os : List (Operation R)) (k : Keyspace R) (index : Nat) : List Action :=
  ((os.filter fun o => o.isOn k index && o.action.isLifecycle).map (·.action)).reverse

/-- How many operations on the structures of a keyspace have an action. -/
def tally (os : List (Operation R)) (k : Keyspace R) (a : Action) : Nat :=
  os.countP fun o => o.keyspace.ordinal == k.ordinal && o.action == a

section Changes

variable (o : Operation R) (os : List (Operation R)) (k : Keyspace R) (index : Nat)

theorem changes_cons :
    changes (o :: os) k index =
      if (o.keyspace.ordinal = k.ordinal ∧ o.keyIndex = index) ∧ o.action.isLifecycle = true
      then changes os k index ++ [o.action] else changes os k index := by
  rw [changes, List.filter_cons]
  split
  · next h =>
    rw [if_pos (by simpa [Operation.isOn] using h), List.map_cons, List.reverse_cons, changes]
  · next h =>
    rw [if_neg (by simpa [Operation.isOn] using h), changes]

theorem lastChange?_eq_getLast? : lastChange? os k index = (changes os k index).getLast? := by
  rw [changes, List.getLast?_reverse, List.head?_map, List.head?_filter, lastChange?]

theorem tally_cons (a : Action) :
    tally (o :: os) k a =
      tally os k a + if o.keyspace.ordinal = k.ordinal ∧ o.action = a then 1 else 0 := by
  rw [tally, List.countP_cons, tally]
  congr 1
  simp only [Bool.and_eq_true, beq_iff_eq]

end Changes

/-- Actions alternate between creates and deletes, and the first one is a create. -/
def Alternate (actions : List Action) : Prop :=
  ∀ n a, actions[n]? = some a → a = if n % 2 = 0 then .create else .delete

namespace Alternate

variable {actions : List Action} (h : Alternate actions)

include h

/-- Where actions alternate, the last one is a create if their number is odd. -/
theorem getLast?_eq_create_iff :
    actions.getLast? = some .create ↔ actions.length % 2 = 1 := by
  rw [List.getLast?_eq_getElem?]
  cases hlast : actions[actions.length - 1]? with
  | none =>
    have := List.getElem?_eq_none_iff.1 hlast
    exact ⟨nofun, fun hodd => by omega⟩
  | some a =>
    have hlt : actions.length - 1 < actions.length := (List.getElem?_eq_some_iff.1 hlast).1
    rw [h _ a hlast]
    split
    · exact ⟨fun _ => by omega, fun _ => rfl⟩
    · exact ⟨nofun, fun hodd => by omega⟩

/-- A create goes on after a delete or as the first action, a delete after a create. -/
theorem concat {a : Action} (ha : a.isLifecycle = true)
    (hlast : (actions.getLast? == some .create) = (a == .delete)) :
    Alternate (actions ++ [a]) := by
  refine Lists.forall_getElem?_concat h ?_
  have hodd := h.getLast?_eq_create_iff
  cases a with
  | create =>
    have hnot : actions.getLast? ≠ some .create := by simpa using hlast
    rw [if_pos]
    rw [Ne, hodd] at hnot
    omega
  | delete =>
    have hcreate : actions.getLast? = some .create := by simpa using hlast
    rw [if_neg]
    have := hodd.1 hcreate
    omega
  | _ => cases ha

end Alternate

namespace Workload

/-- What a worker asks of the workload. -/
inductive Call (R : Type)
  /-- To select the next operation with a source. -/
  | select (source : Random.Source)
  /-- To complete an operation with a response. -/
  | complete (o : Operation R) (response : Wire.Response)

/-- A workload with the operations it dispatched, the last one first. -/
structure History (R : Type) where
  workload : Workload R
  dispatched : List (Operation R)

namespace History

variable [Weights.Weight R]

/-- Nothing is dispatched yet. -/
def start (config : Config R) : History R := ⟨.new config, []⟩

/-- The history after a call. -/
def step (h : History R) : Call R → Except Violation (History R)
  | .select source => do
    match ← h.workload.select source with
    | (.dispatched o, w, _) => return ⟨w, o :: h.dispatched⟩
    | (.skipped .., w, _) => return ⟨w, h.dispatched⟩
  | .complete o response => .ok ⟨h.workload.complete o response, h.dispatched⟩

/-- The history after calls in order. -/
def steps (h : History R) : List (Call R) → Except Violation (History R)
  | [] => .ok h
  | call :: calls => do
    let h ← h.step call
    h.steps calls

end History

/-! ## What a claim does to the numbers -/

section Claimed

variable {w w' : Workload R} {k k' : Keyspace R} {a : Action}

theorem size_claims {r : Option (Nat × Option Bool)} (h : Claims w k a r w') :
    w'.states.size = w.states.size := by
  cases h <;> simp [setState]

/-- All other commands leave the workload as it is. -/
theorem eq_of_claims {r : Option (Nat × Option Bool)} (h : Claims w k a r w')
    (ha : a.isLifecycle = false) : w' = w := by
  cases h with
  | held => rfl
  | created _ hcreate => cases hcreate ▸ ha
  | deleted _ hdelete => cases hdelete ▸ ha
  | drawn => rfl

/-- A claimed create adds one to the existing structures of its keyspace, and a claimed delete takes
one away. -/
theorem existing_claimed {i : Nat} {e : Option Bool} (h : Claims w k a (some (i, e)) w')
    {s : Lifecycle} (hs : w.state? k'.ordinal = some s) :
    ∃ s', w'.state? k'.ordinal = some s' ∧
      s'.existing + (if k.ordinal = k'.ordinal ∧ a = .delete then 1 else 0) =
        s.existing + if k.ordinal = k'.ordinal ∧ a = .create then 1 else 0 := by
  cases h with
  | @created t t' _ _ ht ha h =>
    rw [state?_setState ht]
    by_cases hkk : k.ordinal = k'.ordinal
    · cases ht.symm.trans (hkk ▸ hs)
      cases h with
      | claimed => exact ⟨_, if_pos hkk, by simp [hkk, ha, Lifecycle.insert]⟩
    · exact ⟨s, by rw [if_neg hkk, hs], by simp [hkk]⟩
  | @deleted t t' _ ht ha h =>
    rw [state?_setState ht]
    by_cases hkk : k.ordinal = k'.ordinal
    · cases ht.symm.trans (hkk ▸ hs)
      cases h with
      | claimed hmany =>
        refine ⟨_, if_pos hkk, ?_⟩
        simp only [hkk, ha, Lifecycle.removeAt, and_self, if_true, reduceCtorEq, and_false, if_false]
        omega
    · exact ⟨s, by rw [if_neg hkk, hs], by simp [hkk]⟩
  | drawn _ ha =>
    refine ⟨s, hs, ?_⟩
    by_cases hkk : k.ordinal = k'.ordinal
    · have hl := ha (by rw [hkk, hs]; rfl)
      have hcreate : a ≠ .create := fun h => by cases h ▸ hl
      have hdelete : a ≠ .delete := fun h => by cases h ▸ hl
      simp [hcreate, hdelete]
    · simp [hkk]

end Claimed

/-! ## Completions of any operation -/

section Complete

variable (w : Workload R) (o : Operation R) (response : Wire.Response)

theorem size_complete : (w.complete o response).states.size = w.states.size := by
  rcases complete_cases o response with h | ⟨s, a, -, h⟩
  · rw [h]
  · rw [h, setState, Array.size_setIfInBounds]

theorem existing_bare : w.bare.existing = w.existing := by
  rw [existing, existing, bare, Array.toList_map, List.map_map]
  refine List.map_congr_left fun s _ => ?_
  cases s <;> rfl

theorem existing_complete : (w.complete o response).existing = w.existing := by
  rw [← existing_bare, bare_complete, existing_bare]

theorem getElem?_existing {w : Workload R} {s : Lifecycle} {p : Nat} (hs : w.state? p = some s) :
    w.existing[p]? = some (some s.existing) := by
  have hget : w.states[p]? = some (some s) := Option.join_eq_some_iff.1 hs
  rw [existing, List.getElem?_map, Array.getElem?_toList, hget]
  rfl

end Complete

/-! ## The invariant -/

namespace History

variable [Weights.Weight R]

/-- What the flags and numbers of a workload tell of its history. -/
structure Sound (config : Config R) (h : History R) : Prop where
  workload : h.workload.Sound config
  size_states : h.workload.states.size = config.keyspaces.items.length
  /-- The flag of a structure tells its last change. -/
  exists?_eq : ∀ k ∈ config.keyspaces.items, k.tracksLifecycle = true → ∀ i,
    h.workload.exists? k i = (lastChange? h.dispatched k i == some .create)
  alternate : ∀ k ∈ config.keyspaces.items, k.tracksLifecycle = true → ∀ i,
    Alternate (changes h.dispatched k i)
  existing_eq : ∀ k ∈ config.keyspaces.items, k.tracksLifecycle = true →
    ∃ s, h.workload.state? k.ordinal = some s ∧
      s.existing + tally h.dispatched k .delete = tally h.dispatched k .create
  existed_eq : ∀ k ∈ config.keyspaces.items, k.tracksLifecycle = true → ∀ later o earlier,
    h.dispatched = later ++ o :: earlier → o.keyspace.ordinal = k.ordinal →
    o.existed = some (lastChange? earlier k o.keyIndex == some .create)

theorem sound_start {config : Config R} (hr : Config.Regular config.keyspaces.items) :
    (start config).Sound config where
  workload := sound_new hr
  size_states := by rw [start, new, List.size_toArray, List.length_map]
  exists?_eq k hk _ i := exists?_new hr hk i
  alternate _ _ _ _ := nofun
  existing_eq k hk ht := ⟨_, by rw [start, state?_new hr hk, if_pos ht], rfl⟩
  existed_eq _ _ _ later o earlier h _ := by cases later <;> cases h

namespace Sound

variable {config : Config R} {h : History R} (hh : h.Sound config)

include hh

/-- Whatever keyspace has a store is one of the configuration. -/
theorem exists_keyspace {p : Nat} {s : Lifecycle} (hs : h.workload.state? p = some s) :
    ∃ k ∈ config.keyspaces.items, k.ordinal = p := by
  have hp : p < config.keyspaces.items.length := hh.size_states ▸ lt_size_of_state? hs
  exact ⟨_, List.getElem_mem hp, hh.workload.regular.ordinal_eq p _ (List.getElem?_eq_getElem hp)⟩

/-- Completions leave everything but populations as it is, also those of operations that were never
dispatched. -/
theorem complete (o : Operation R) (response : Wire.Response) :
    Sound config ⟨h.workload.complete o response, h.dispatched⟩ where
  workload := by
    rcases complete_cases o response with heq | ⟨s, a, hs, heq⟩
    · rw [heq]
      exact hh.workload
    · obtain ⟨k, hk, hp⟩ := hh.exists_keyspace hs
      rw [heq, ← hp]
      rw [← hp] at hs
      exact hh.workload.setState hk hs ((hh.workload.tracks k hk s hs).adjust (a.change_le _))
  size_states := (size_complete _ o response).trans hh.size_states
  exists?_eq k hk ht i := (exists?_complete o response k i).trans (hh.exists?_eq k hk ht i)
  alternate := hh.alternate
  existing_eq k hk ht := by
    obtain ⟨s, hs, hsum⟩ := hh.existing_eq k hk ht
    rcases complete_cases o response with heq | ⟨t, a, hstate, heq⟩
    · exact ⟨s, by rw [heq, hs], hsum⟩
    · rw [heq, state?_setState hstate]
      split
      · next hp =>
        cases hstate.symm.trans (hp ▸ hs)
        exact ⟨_, rfl, by rw [Lifecycle.existing_adjust, hsum]⟩
      · exact ⟨s, hs, hsum⟩
  existed_eq := hh.existed_eq

/-- An operation is dispatched with knowledge of the last change of its structure, and is the next
change of it if it is a create or a delete. -/
theorem dispatch {o : Operation R} {w' : Workload R} (hk : o.keyspace ∈ config.keyspaces.items)
    (hc : Claims h.workload o.keyspace o.action (some (o.keyIndex, o.existed)) w') :
    Sound config ⟨w', o :: h.dispatched⟩ where
  workload := hh.workload.claims hk hc
  size_states := (size_claims hc).trans hh.size_states
  exists?_eq k' hk' ht' j := by
    rw [hh.workload.exists?_claimed hc hk' ht' j, lastChange?_cons]
    split
    · rfl
    · exact hh.exists?_eq k' hk' ht' j
  alternate k' hk' ht' j := by
    rw [changes_cons]
    split
    · next hon =>
      obtain ⟨⟨hordinal, rfl⟩, hl⟩ := hon
      rw [← hh.workload.regular.eq_of_ordinal_eq hk hk' hordinal] at ht' ⊢
      refine (hh.alternate _ hk ht' _).concat hl ?_
      rw [← lastChange?_eq_getLast?, ← hh.exists?_eq _ hk ht']
      exact (hh.workload.claimed_existed hk hc ht').2 hl
    · exact hh.alternate k' hk' ht' j
  existing_eq k' hk' ht' := by
    obtain ⟨s, hs, hsum⟩ := hh.existing_eq k' hk' ht'
    obtain ⟨s', hs', hnumber⟩ := existing_claimed hc hs
    refine ⟨s', hs', ?_⟩
    rw [tally_cons, tally_cons]
    omega
  existed_eq k' hk' ht' later o' earlier hsplit hordinal := by
    cases later with
    | nil =>
      cases hsplit
      rw [← hh.workload.regular.eq_of_ordinal_eq hk hk' hordinal] at ht' ⊢
      rw [(hh.workload.claimed_existed hk hc ht').1, hh.exists?_eq _ hk ht']
    | cons first later =>
      rw [List.cons_append, List.cons.injEq] at hsplit
      exact hh.existed_eq k' hk' ht' later o' earlier hsplit.2 hordinal

/-- **A call has a result**, which is sound again. -/
theorem step_spec (call : Call R) : ∃ h', h.step call = .ok h' ∧ h'.Sound config := by
  cases call with
  | select source =>
    obtain ⟨selection, w', source', hselect, hs⟩ := hh.workload.select_spec source
    simp only [step, hselect]
    cases hs with
    | skipped k a => exact ⟨_, rfl, hh⟩
    | dispatched hk hc => exact ⟨_, rfl, hh.dispatch (hh.workload.config_eq ▸ hk) hc⟩
  | complete o response => exact ⟨_, rfl, hh.complete o response⟩

/-- **Calls have a result**, in any order. -/
theorem steps_spec (calls : List (Call R)) : ∃ h', h.steps calls = .ok h' ∧ h'.Sound config := by
  induction calls generalizing h with
  | nil => exact ⟨h, rfl, hh⟩
  | cons call calls ih =>
    obtain ⟨h₁, hstep, hh₁⟩ := hh.step_spec call
    obtain ⟨h', hrest, hh'⟩ := ih hh₁
    exact ⟨h', by rw [steps, hstep]; exact hrest, hh'⟩

end Sound

/-- **Creates and deletes alternate.** Workers may select with any sources and complete any
operations with any responses, in any order: every call has a result, and for a tracked keyspace

* the dispatched creates and deletes of each structure alternate, and the first one is a create;
* as many structures exist as were created and not deleted since;
* every dispatched operation was told whether the last change of its structure before it was a
  create.

A further selection has a result too, and leaves the workload as it is if it is skipped or neither a
create nor a delete. A further completion leaves all flags and numbers of structures as they are. -/
theorem changes_alternate {config : Config R} (hconfig : config.Accepted)
    (calls : List (Call R)) :
    ∃ h, (start config).steps calls = .ok h ∧
      (∀ k ∈ config.keyspaces.items, k.tracksLifecycle = true →
        (∀ i n a, (changes h.dispatched k i)[n]? = some a →
          a = if n % 2 = 0 then .create else .delete) ∧
        (∃ n, h.workload.existing[k.ordinal]? = some (some n) ∧
          n + tally h.dispatched k .delete = tally h.dispatched k .create) ∧
        ∀ later o earlier, h.dispatched = later ++ o :: earlier →
          o.keyspace.ordinal = k.ordinal →
          o.existed = some (lastChange? earlier k o.keyIndex == some .create)) ∧
      (∀ source, ∃ selection w' source',
        h.workload.select source = .ok (selection, w', source') ∧
        ((∀ o, selection = .dispatched o → o.action.isLifecycle = false) → w' = h.workload)) ∧
      ∀ o response, (h.workload.complete o response).existing = h.workload.existing ∧
        ∀ k i, (h.workload.complete o response).exists? k i = h.workload.exists? k i := by
  obtain ⟨h, hsteps, hh⟩ := (sound_start hconfig.regular).steps_spec calls
  refine ⟨h, hsteps, fun k hk ht => ⟨hh.alternate k hk ht, ?_, hh.existed_eq k hk ht⟩,
    fun source => ?_, fun o response => ⟨existing_complete _ o response,
      fun k i => exists?_complete o response k i⟩⟩
  · obtain ⟨s, hs, hsum⟩ := hh.existing_eq k hk ht
    exact ⟨s.existing, getElem?_existing hs, hsum⟩
  · obtain ⟨selection, w', source', hselect, hs⟩ := hh.workload.select_spec source
    refine ⟨selection, w', source', hselect, fun hother => ?_⟩
    cases hs with
    | skipped => rfl
    | dispatched hk hc => exact eq_of_claims hc (hother _ rfl)

/-! ## Three workers -/

/-- A response to an insert that no keyspace is configured for. -/
def strayCalls : List (Call ℚ) :=
  Trial.solo.keyspaces.items.map fun keyspace =>
    .complete
      { keyspace, command := ⟨.insert, none, 3⟩, keyIndex := 1, existed := some false,
        value := none } .success

/-- A structure is created, a second create is skipped as the high watermark is reached, the
structure is read, deleted, read again and created again. -/
def sampleCalls : List (Call ℚ) :=
  [7, 14, 15].map (fun seed => .select (.ofSeed seed)) ++ strayCalls ++
    [8, 11, 13].map fun seed => .select (.ofSeed seed)

def sampleHistory : History ℚ :=
  ((start Trial.solo).steps sampleCalls).toOption.get (by decide +kernel)

theorem steps_sample : (start Trial.solo).steps sampleCalls = .ok sampleHistory :=
  Config.eq_ok_of_toOption (Option.some_get _).symm

theorem changes_alternate_sample :
    (∀ k ∈ Trial.solo.keyspaces.items, k.tracksLifecycle = true → ∀ i n a,
      (changes sampleHistory.dispatched k i)[n]? = some a →
        a = if n % 2 = 0 then .create else .delete) ∧
    Trial.solo.keyspaces.items.map (fun k => changes sampleHistory.dispatched k 1) =
      [[.create, .delete, .create]] ∧
    sampleHistory.workload.existing = [some 1] ∧
    sampleHistory.dispatched.reverse.map (fun o => (o.action, o.keyIndex, o.existed)) =
      [(.create, 1, some false), (.get, 1, some true), (.delete, 1, some true),
        (.get, 1, some false), (.create, 1, some false)] := by
  refine ⟨fun k hk ht => ?_, by decide +kernel, by decide +kernel, by decide +kernel⟩
  obtain ⟨h, hsteps, halternate, -⟩ := changes_alternate Trial.accepted_solo sampleCalls
  cases steps_sample.symm.trans hsteps
  exact (halternate k hk ht).1

end History

end Workload

end LoadGen
