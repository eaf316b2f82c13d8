import LoadGen.Proofs.Config.Accepted
import LoadGen.Proofs.Lifecycle.Watermarks
import LoadGen.Workload.Selection
import Mathlib.Data.Finset.Card

/-!
# What selections do

`Workload.Sound` says that the lifecycle stores of a workload are those of its tracked keyspaces,
each of them sound and within its watermarks. `Selects` is all that a selection can come to, and
`select_spec` says that nothing else happens to a sound workload. For the flags of the structures
this amounts to `Selects.exists?_eq`: a dispatched create sets its flag, a dispatched delete clears
it, and no other flag changes.
-/

namespace LoadGen

open Config

variable {R : Type}

theorem Config.Regular.eq_of_ordinal_eq {ks : List (Keyspace R)} (hr : Regular ks)
    {k k' : Keyspace R} (hk : k ∈ ks) (hk' : k' ∈ ks) (h : k.ordinal = k'.ordinal) : k = k' := by
  obtain ⟨p, hp⟩ := List.getElem?_of_mem hk
  obtain ⟨p', hp'⟩ := List.getElem?_of_mem hk'
  have hpos : p = p' := by rw [← hr.ordinal_eq p k hp, ← hr.ordinal_eq p' k' hp', h]
  subst hpos
  exact Option.some.inj (hp.symm.trans hp')

namespace Workload

/-- A store keeps the lifecycle of a keyspace. -/
structure Lifecycle.Tracks (s : Lifecycle) (k : Keyspace R) : Prop where
  sound : s.Sound
  count_eq : s.count = k.count
  watermarks_eq : s.watermarks = k.watermarks
  existing_le_high : s.existing ≤ s.watermarks.high

theorem Lifecycle.tracks_new (k : Keyspace R) : (new k.count k.watermarks).Tracks k where
  sound := sound_new _ _
  count_eq := by simp [new, Lifecycle.count]
  watermarks_eq := rfl
  existing_le_high := Nat.zero_le _

theorem Lifecycle.Tracks.performed {s s' : Lifecycle} {k : Keyspace R} (hs : s.Tracks k)
    {call : Lifecycle.Call} {o : Option Transition} (h : s.Performed call o s') : s'.Tracks k where
  sound := hs.sound.performed h
  count_eq := h.frame.1.trans hs.count_eq
  watermarks_eq := h.frame.2.trans hs.watermarks_eq
  existing_le_high := h.le_high hs.existing_le_high

theorem Lifecycle.Tracks.adjust {s : Lifecycle} {k : Keyspace R} (hs : s.Tracks k) {i : Nat}
    {change : Nat → Nat} (hchange : ∀ n ≤ maxPopulation, change n ≤ maxPopulation) :
    (s.adjust i change).Tracks k where
  sound := hs.sound.adjust hchange
  count_eq := (count_adjust s i change).trans hs.count_eq
  watermarks_eq := (watermarks_adjust s i change).trans hs.watermarks_eq
  existing_le_high := by
    rw [existing_adjust, watermarks_adjust]
    exact hs.existing_le_high

/-- At most as many structures are flagged as the high watermark allows. -/
theorem Lifecycle.Tracks.card_exists?_le {s : Lifecycle} {k : Keyspace R} (hs : s.Tracks k) :
    ((Finset.range k.count).filter fun i => s.exists? i = true).card ≤ k.watermarks.high := by
  have hsub : (Finset.range k.count).filter (fun i => s.exists? i = true) ⊆
      s.keys.toList.toFinset := by
    intro i hi
    rw [List.mem_toFinset, Array.mem_toList_iff]
    exact hs.sound.mem_keys_iff.2 (Finset.mem_filter.1 hi).2
  calc ((Finset.range k.count).filter fun i => s.exists? i = true).card
      ≤ s.keys.toList.toFinset.card := Finset.card_le_card hsub
    _ ≤ s.keys.toList.length := List.toFinset_card_le _
    _ = s.existing := by rw [Array.length_toList, hs.sound.existing_eq]
    _ ≤ k.watermarks.high := hs.watermarks_eq ▸ hs.existing_le_high

/-- Whether a structure is flagged as existing. -/
def exists? (w : Workload R) (k : Keyspace R) (index : Nat) : Bool :=
  (w.state? k.ordinal).any (·.exists? index)

/-! ## The stores -/

section States

variable {w : Workload R} {s s' : Lifecycle} {p : Nat}

theorem lt_size_of_state? (h : w.state? p = some s) : p < w.states.size := by
  by_contra hp
  rw [state?, Array.getElem?_eq_none (by omega)] at h
  cases h

theorem state?_setState (h : w.state? p = some s) (q : Nat) :
    (w.setState p s').state? q = if p = q then some s' else w.state? q := by
  have hp := lt_size_of_state? h
  simp only [state?, setState, Array.getElem?_setIfInBounds]
  by_cases hpq : p = q
  · rw [if_pos hpq, if_pos hpq, if_pos hp, Option.join_some]
  · rw [if_neg hpq, if_neg hpq]

theorem setState_self (hstate : w.state? p = some s) : w.setState p s = w := by
  have hp : w.states[p]? = some (some s) := by
    rw [state?] at hstate
    exact Option.join_eq_some_iff.1 hstate
  rw [setState]
  congr 1
  apply Array.ext_getElem?
  intro q
  rw [Array.getElem?_setIfInBounds]
  split
  · next h => rw [← h, hp, if_pos (lt_size_of_state? hstate)]
  · rfl

theorem exists?_setState {k : Keyspace R} (h : w.state? k.ordinal = some s) (k' : Keyspace R)
    (i : Nat) :
    (w.setState k.ordinal s').exists? k' i =
      if k.ordinal = k'.ordinal then s'.exists? i else w.exists? k' i := by
  rw [exists?, state?_setState h]
  split <;> rfl

end States

/-- All that a claim can come to. -/
inductive Claims (w : Workload R) (k : Keyspace R) (a : Action) :
    Option (Nat × Option Bool) → Workload R → Prop
  /-- A create or a delete claims nothing. -/
  | held : Claims w k a none w
  | created {s s' : Lifecycle} {index i : Nat} (hs : w.state? k.ordinal = some s)
      (ha : a = .create) (h : s.Created index (.claimed i) s') :
      Claims w k a (some (i, some false)) (w.setState k.ordinal s')
  | deleted {s s' : Lifecycle} {i : Nat} (hs : w.state? k.ordinal = some s) (ha : a = .delete)
      (h : s.Deleted (.claimed i) s') :
      Claims w k a (some (i, some true)) (w.setState k.ordinal s')
  /-- The key is drawn, and nothing changes. -/
  | drawn {i : Nat} (hi : i < k.count)
      (ha : (w.state? k.ordinal).isSome → a.isLifecycle = false) :
      Claims w k a (some (i, (w.state? k.ordinal).map (·.exists? i))) w

/-- All that a selection can come to. -/
inductive Selects (w : Workload R) : Selection R → Workload R → Prop
  | skipped (k : Keyspace R) (a : Action) : Selects w (.skipped k.ordinal a) w
  | dispatched {o : Operation R} {w' : Workload R} (hk : o.keyspace ∈ w.config.keyspaces.items)
      (h : Claims w o.keyspace o.action (some (o.keyIndex, o.existed)) w') :
      Selects w (.dispatched o) w'

/-- All other commands draw a key. -/
theorem claim_eq {w : Workload R} {k : Keyspace R} {a : Action}
    (ha : (w.state? k.ordinal).isSome → a.isLifecycle = false) (source : Random.Source) :
    w.claim k a source =
      .ok (some ((k.drawIndex source).1,
        (w.state? k.ordinal).map (·.exists? (k.drawIndex source).1)), w, (k.drawIndex source).2) := by
  rw [claim]
  · rintro s rfl hs
    cases ha (by rw [hs]; rfl)
  · rintro s rfl hs
    cases ha (by rw [hs]; rfl)

variable [Weights.Weight R]

/-- The stores of a workload are those of its tracked keyspaces. -/
structure Sound (config : Config R) (w : Workload R) : Prop where
  regular : Regular config.keyspaces.items
  config_eq : w.config = config
  isSome_state? : ∀ k ∈ config.keyspaces.items, (w.state? k.ordinal).isSome = k.tracksLifecycle
  tracks : ∀ k ∈ config.keyspaces.items, ∀ s, w.state? k.ordinal = some s → s.Tracks k

section New

variable {config : Config R} (hr : Regular config.keyspaces.items)

include hr

theorem state?_new {k : Keyspace R} (hk : k ∈ config.keyspaces.items) :
    (new config).state? k.ordinal =
      if k.tracksLifecycle then some (.new k.count k.watermarks) else none := by
  obtain ⟨p, hp⟩ := List.getElem?_of_mem hk
  rw [hr.ordinal_eq p k hp, state?, new, List.getElem?_toArray, List.getElem?_map, hp]
  rfl

theorem sound_new : (new config).Sound config where
  regular := hr
  config_eq := rfl
  isSome_state? k hk := by
    rw [state?_new hr hk]
    split <;> simp_all
  tracks k hk s hs := by
    rw [state?_new hr hk] at hs
    split at hs
    · cases hs
      exact Lifecycle.tracks_new k
    · cases hs

theorem exists?_new {k : Keyspace R} (hk : k ∈ config.keyspaces.items) (i : Nat) :
    (new config).exists? k i = false := by
  rw [exists?, state?_new hr hk]
  split
  · simp [Lifecycle.new, Lifecycle.exists?, Array.getD_eq_getD_getElem?, Array.getElem?_replicate]
    split <;> rfl
  · rfl

end New

section Sound

variable {config : Config R} {w w' : Workload R} (hw : w.Sound config)

include hw

theorem Sound.setState {k : Keyspace R} (hk : k ∈ config.keyspaces.items) {s s' : Lifecycle}
    (hs : w.state? k.ordinal = some s) (hs' : s'.Tracks k) :
    (w.setState k.ordinal s').Sound config where
  regular := hw.regular
  config_eq := hw.config_eq
  isSome_state? k' hk' := by
    rw [state?_setState hs]
    split
    · next h =>
      rw [← hw.regular.eq_of_ordinal_eq hk hk' h, ← hw.isSome_state? k hk, hs]
      rfl
    · exact hw.isSome_state? k' hk'
  tracks k' hk' t ht := by
    rw [state?_setState hs] at ht
    split at ht
    · next h =>
      cases ht
      rwa [← hw.regular.eq_of_ordinal_eq hk hk' h]
    · exact hw.tracks k' hk' t ht

/-! ## Selections -/

/-- **A claim has a result.** -/
theorem Sound.claim_spec {k : Keyspace R} (hk : k ∈ config.keyspaces.items) (a : Action)
    (source : Random.Source) :
    ∃ r w' source', w.claim k a source = .ok (r, w', source') ∧ Claims w k a r w' := by
  by_cases ha : (w.state? k.ordinal).isSome → a.isLifecycle = false
  · exact ⟨_, _, _, claim_eq ha source,
      .drawn (Random.Source.below_lt (hw.regular.count_pos k hk) source) ha⟩
  · rw [Classical.not_imp] at ha
    obtain ⟨s, hstate⟩ := Option.isSome_iff_exists.1 ha.1
    have hs := (hw.tracks k hk s hstate).sound
    cases a with
    | create =>
      obtain ⟨t, s', h, hc⟩ := hs.tryCreate_spec (k.drawIndex source).1
      simp only [claim, hstate, h]
      cases hc with
      | suppressed => exact ⟨_, _, _, rfl, by rw [setState_self hstate]; exact .held⟩
      | noCandidate => exact ⟨_, _, _, rfl, by rw [setState_self hstate]; exact .held⟩
      | claimed hroom hfound hlt habsent =>
        exact ⟨_, _, _, rfl, .created hstate rfl (.claimed hroom hfound hlt habsent)⟩
    | delete =>
      obtain ⟨t, s', source', h, hd⟩ := hs.tryDelete_spec source
      simp only [claim, hstate, h]
      cases hd with
      | suppressed => exact ⟨_, _, _, rfl, by rw [setState_self hstate]; exact .held⟩
      | claimed hmany hlisted => exact ⟨_, _, _, rfl, .deleted hstate rfl (.claimed hmany hlisted)⟩
    | _ => exact absurd rfl ha.2

/-- **A selection has a result.** -/
theorem Sound.select_spec (source : Random.Source) :
    ∃ sel w' source', w.select source = .ok (sel, w', source') ∧ Selects w sel w' := by
  have hmem : (w.config.keyspaces.sample source).1 ∈ w.config.keyspaces.items := List.getElem_mem _
  rw [select]
  generalize w.config.keyspaces.sample source = drawn at hmem ⊢
  obtain ⟨k, source⟩ := drawn
  dsimp only at hmem ⊢
  generalize k.commands.sample source = drawn
  obtain ⟨command, source⟩ := drawn
  obtain ⟨r, w', source, h, hc⟩ := hw.claim_spec (hw.config_eq ▸ hmem) command.action source
  dsimp only
  rw [h]
  cases r with
  | none =>
    cases hc
    exact ⟨_, _, _, rfl, .skipped k command.action⟩
  | some r => exact ⟨_, _, _, rfl, .dispatched hmem hc⟩

/-! ## What a claim leaves -/

section Claimed

variable {k k' : Keyspace R} (hk : k ∈ config.keyspaces.items) {a : Action}

include hk

theorem Sound.claims {r : Option (Nat × Option Bool)} (h : Claims w k a r w') :
    w'.Sound config := by
  cases h with
  | held => exact hw
  | created hs _ h => exact hw.setState hk hs ((hw.tracks k hk _ hs).performed (.create h))
  | deleted hs _ h =>
    -- which source the victim was drawn from does not matter
    have hperformed : Lifecycle.Performed _ (.delete (.ofSeed 0)) _ _ := .delete h
    exact hw.setState hk hs ((hw.tracks k hk _ hs).performed hperformed)
  | drawn => exact hw

variable {i : Nat} {e : Option Bool} (h : Claims w k a (some (i, e)) w')

include h

theorem Sound.claimed_lt : i < k.count := by
  cases h with
  | created hs _ h =>
    cases h with
    | claimed _ _ hlt => rwa [(hw.tracks k hk _ hs).count_eq] at hlt
  | deleted hs _ h =>
    cases h with
    | claimed _ hlisted =>
      have ht := hw.tracks k hk _ hs
      rw [← ht.count_eq]
      exact Lifecycle.lt_count_of_exists? (ht.sound.exists?_of_listed hlisted)
  | drawn hi => exact hi

variable (ht : k.tracksLifecycle = true)

include ht

/-- A claim tells whether the structure existed, and a create claims only an absent structure and a
delete only an existing one. -/
theorem Sound.claimed_existed :
    e = some (w.exists? k i) ∧ (a.isLifecycle = true → w.exists? k i = (a == .delete)) := by
  cases h with
  | created hs ha h =>
    cases h with
    | claimed _ _ _ habsent =>
      rw [exists?, hs, ha]
      exact ⟨congrArg some habsent.symm, fun _ => habsent⟩
  | deleted hs ha h =>
    cases h with
    | claimed _ hlisted =>
      have hexists := (hw.tracks k hk _ hs).sound.exists?_of_listed hlisted
      rw [exists?, hs, ha]
      exact ⟨congrArg some hexists.symm, fun _ => hexists⟩
  | drawn _ ha =>
    rw [← hw.isSome_state? k hk] at ht
    refine ⟨?_, fun hl => absurd (ha ht) (by simp [hl])⟩
    obtain ⟨s, hs⟩ := Option.isSome_iff_exists.1 ht
    rw [exists?, hs]
    rfl

omit hk ht in
/-- **A claimed create sets the flag of its structure and a claimed delete clears it**, and nothing
else is changed. -/
theorem Sound.exists?_claimed (hk' : k' ∈ config.keyspaces.items)
    (ht' : k'.tracksLifecycle = true) (j : Nat) :
    w'.exists? k' j =
      if (k.ordinal = k'.ordinal ∧ i = j) ∧ a.isLifecycle = true then a == .create
      else w.exists? k' j := by
  cases h with
  | created hs ha h =>
    cases h with
    | claimed _ _ hlt =>
      rw [exists?_setState hs, Lifecycle.exists?_insert _ _ _ hlt, ha, exists?]
      by_cases hkk : k.ordinal = k'.ordinal
      · rw [← hkk, hs]
        by_cases hij : i = j <;> simp [hkk, hij, Action.isLifecycle]
      · simp [hkk]
  | deleted hs ha h =>
    cases h with
    | claimed =>
      rw [exists?_setState hs, Lifecycle.exists?_removeAt, ha, exists?]
      by_cases hkk : k.ordinal = k'.ordinal
      · rw [← hkk, hs]
        by_cases hij : i = j <;> simp [hkk, hij, Action.isLifecycle]
      · simp [hkk]
  | drawn _ ha =>
    rw [if_neg]
    rintro ⟨⟨hkk, -⟩, hl⟩
    rw [← hw.isSome_state? k' hk', ← hkk] at ht'
    simp [ha ht'] at hl

end Claimed

theorem Sound.selects {sel : Selection R} (h : Selects w sel w') : w'.Sound config := by
  cases h with
  | skipped => exact hw
  | dispatched hk h => exact hw.claims (hw.config_eq ▸ hk) h

/-- **The flags of a tracked keyspace are within its high watermark.** -/
theorem Sound.card_exists?_le {k : Keyspace R} (hk : k ∈ config.keyspaces.items)
    (htracks : k.tracksLifecycle = true) :
    ((Finset.range k.count).filter fun i => w.exists? k i = true).card ≤ k.watermarks.high := by
  rw [← hw.isSome_state? k hk] at htracks
  obtain ⟨s, hs⟩ := Option.isSome_iff_exists.1 htracks
  simp only [exists?, hs, Option.any_some]
  exact (hw.tracks k hk s hs).card_exists?_le

/-! ## Completions -/

omit hw [Weights.Weight R] in
/-- A completion adjusts the population of its structure at most. -/
theorem complete_cases (o : Operation R) (response : Wire.Response) :
    w.complete o response = w ∨
      ∃ (s : Lifecycle) (a : Lifecycle.Adjustment), w.state? o.keyspace.ordinal = some s ∧
        w.complete o response =
          w.setState o.keyspace.ordinal (s.adjust o.keyIndex (a.change o.command.items)) := by
  rw [complete.eq_def]
  split
  · next s hs =>
    split
    · exact .inr ⟨s, .grow, hs, rfl⟩
    · exact .inr ⟨s, .shrink, hs, rfl⟩
    · exact .inr ⟨s, .truncate, hs, rfl⟩
    · exact .inl rfl
  · exact .inl rfl

theorem Sound.complete {o : Operation R} (ho : o.keyspace ∈ config.keyspaces.items)
    (response : Wire.Response) : (w.complete o response).Sound config := by
  rcases complete_cases o response with h | ⟨s, a, hs, h⟩
  · rwa [h]
  · rw [h]
    exact hw.setState ho hs ((hw.tracks _ ho _ hs).adjust (a.change_le _))

omit hw [Weights.Weight R] in
theorem exists?_complete (o : Operation R) (response : Wire.Response) (k : Keyspace R) (i : Nat) :
    (w.complete o response).exists? k i = w.exists? k i := by
  rcases complete_cases o response with h | ⟨s, a, hs, h⟩
  · rw [h]
  · rw [h, exists?_setState hs, Lifecycle.exists?_adjust]
    split
    · next hk => rw [exists?, ← hk, hs, Option.any_some]
    · rfl

end Sound

end Workload

end LoadGen
