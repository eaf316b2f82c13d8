import LoadGen.Proofs.Lifecycle.Watermarks
import Mathlib.Data.Nat.ModEq

/-!
# Creates probe their window

A create looks at the keys from the drawn one on, in cyclic order, but at no more than `maxProbes` of
them: these are its window. It claims the first absent structure of the window, and nothing only if
the store is full or the window is (`create_probes_window`).

The keys of a window are all different, so that a window with more keys than there are structures has
an absent one (`Sound.exists_absent`). Where all keys are in every window, creates therefore go on
until the store is full (`Sound.fills`).
-/

namespace LoadGen.Workload

/-- The structure that is claimed. -/
def Transition.claimed? : Transition → Option Nat
  | claimed index => some index
  | suppressed | noCandidate => none

namespace Lifecycle

open Config (Watermarks)

def Call.isCreate : Call → Bool
  | create _ => true
  | _ => false

def Call.isDelete : Call → Bool
  | delete _ => true
  | _ => false

/-- Performs calls in order, with the structures that they claim. -/
def claimAll (s : Lifecycle) : List Call → Except Violation (List Nat × Lifecycle)
  | [] => .ok ([], s)
  | call :: calls => do
    let (o, s) ← s.perform call
    let (claims, s) ← s.claimAll calls
    return ((o.bind (·.claimed?)).toList ++ claims, s)

variable {s s' : Lifecycle}

theorem performAll_of_claimAll {calls : List Call} {claims : List Nat}
    (h : s.claimAll calls = .ok (claims, s')) : s.performAll calls = .ok s' := by
  induction calls generalizing s claims with
  | nil =>
    cases h
    rfl
  | cons call calls ih =>
    rw [claimAll] at h
    rw [performAll]
    cases hcall : s.perform call with
    | error v =>
      rw [hcall] at h
      cases h
    | ok r =>
      rw [hcall] at h
      cases hrest : r.2.claimAll calls with
      | error v =>
        simp only [bind, Except.bind, hrest] at h
        cases h
      | ok rest =>
        simp only [bind, Except.bind, hrest] at h
        cases h
        exact ih hrest

/-! ## Windows -/

theorem mem_probes {count index i : Nat} :
    i ∈ probes count index ↔ ∃ p < min maxProbes count, i = (index + p) % count := by
  simp only [probes, List.mem_map, List.mem_range, eq_comm]

theorem length_probes (count index : Nat) : (probes count index).length = min maxProbes count := by
  rw [probes, List.length_map, List.length_range]

/-- A window has no key twice. -/
theorem nodup_probes (count index : Nat) : (probes count index).Nodup := by
  refine List.Nodup.map_on (fun p hp q hq h => ?_) List.nodup_range
  rw [List.mem_range] at hp hq
  have hpq : p ≡ q [MOD count] := Nat.ModEq.add_left_cancel' index h
  exact hpq.eq_of_lt_of_lt (by omega) (by omega)

/-- The first absent structure of a window. -/
theorem find?_probes_eq_some {count index j : Nat} :
    (probes count index).find? (!s.exists? ·) = some j ↔
      ∃ p < min maxProbes count, j = (index + p) % count ∧ s.exists? j = false ∧
        ∀ q < p, s.exists? ((index + q) % count) = true := by
  simp only [probes, List.find?_map, Option.map_eq_some_iff, List.find?_range_eq_some,
    List.mem_range, Function.comp_apply, Bool.not_eq_true', Bool.not_not]
  constructor
  · rintro ⟨p, ⟨habsent, hp, hbefore⟩, rfl⟩
    exact ⟨p, hp, rfl, habsent, hbefore⟩
  · rintro ⟨p, hp, rfl, habsent, hbefore⟩
    exact ⟨p, ⟨habsent, hp, hbefore⟩, rfl⟩

namespace Sound

variable (hs : s.Sound)

include hs

/-- **A window with more keys than there are structures has an absent one.** -/
theorem exists_absent (index : Nat) (h : s.existing < min maxProbes s.count) :
    ∃ i ∈ probes s.count index, s.exists? i = false := by
  by_contra! hall
  have hsub : probes s.count index ⊆ s.keys.toList := fun i hi =>
    Array.mem_toList_iff.2 (hs.mem_keys_iff.2 (by simpa using hall i hi))
  have hle := ((nodup_probes s.count index).subperm hsub).length_le
  rw [length_probes, Array.length_toList, ← hs.existing_eq] at hle
  omega

/-- A list of all existing structures, each of them once, is as long as they are many. -/
theorem length_eq_existing {claims : List Nat} (hnodup : claims.Nodup)
    (hmem : ∀ i, i ∈ claims ↔ s.exists? i = true) : claims.length = s.existing := by
  have hperm : claims.Perm s.keys.toList :=
    (List.perm_ext_iff_of_nodup hnodup hs.nodup_keys).2 fun i => by
      rw [hmem, Array.mem_toList_iff, hs.mem_keys_iff]
  rw [hperm.length_eq, Array.length_toList, hs.existing_eq]

end Sound

/-! ## What a create comes to -/

namespace Created

variable {index : Nat} {t : Transition} (h : s.Created index t s')

include h

theorem eq_suppressed_iff : t = .suppressed ↔ s.watermarks.high ≤ s.existing := by
  cases h with
  | suppressed hfull => exact iff_of_true rfl hfull
  | noCandidate hroom => exact iff_of_false nofun (by omega)
  | claimed hroom => exact iff_of_false nofun (by omega)

theorem eq_claimed_iff (j : Nat) :
    t = .claimed j ↔ s.existing < s.watermarks.high ∧
      (probes s.count index).find? (!s.exists? ·) = some j := by
  cases h with
  | suppressed hfull => exact iff_of_false nofun fun h => by omega
  | noCandidate hroom htaken =>
    refine iff_of_false nofun fun h => ?_
    have habsent := List.find?_some h.2
    rw [htaken j (List.mem_of_find?_eq_some h.2)] at habsent
    cases habsent
  | claimed hroom hfound =>
    rw [hfound, Option.some.injEq, Transition.claimed.injEq, and_iff_right hroom]

theorem eq_noCandidate_iff :
    t = .noCandidate ↔ s.existing < s.watermarks.high ∧
      ∀ i ∈ probes s.count index, s.exists? i = true := by
  cases h with
  | suppressed hfull => exact iff_of_false nofun fun h => by omega
  | noCandidate hroom htaken => exact iff_of_true rfl ⟨hroom, htaken⟩
  | claimed hroom hfound hlt habsent =>
    refine iff_of_false nofun fun h => ?_
    rw [h.2 _ (List.mem_of_find?_eq_some hfound)] at habsent
    cases habsent

/-- A create that claims nothing changes nothing. -/
theorem eq_of_claimed?_eq_none (ht : t.claimed? = none) : s' = s := by
  cases h with
  | suppressed => rfl
  | noCandidate => rfl
  | claimed => cases ht

/-- A create claims a structure while the store is not full, and there are fewer structures than
keys in its window. -/
theorem exists_claimed (hs : s.Sound) (hroom : s.existing < s.watermarks.high)
    (hwindow : s.existing < min maxProbes s.count) : ∃ j, t = .claimed j := by
  cases h with
  | suppressed hfull => omega
  | noCandidate _ htaken =>
    obtain ⟨i, hi, habsent⟩ := hs.exists_absent index hwindow
    rw [htaken i hi] at habsent
    cases habsent
  | @claimed _ i => exact ⟨i, rfl⟩

end Created

/-! ## Creates without deletes -/

/-- What a call that is no delete does, with what it claims, where every window has all keys. -/
inductive Extends (s : Lifecycle) (call : Call) : Option Nat → Lifecycle → Prop
  /-- A create claims a further structure. -/
  | added {j : Nat} {s' : Lifecycle} (hcreate : call.isCreate = true)
      (hroom : s.existing < min s.watermarks.high s.count)
      (hexisting : s'.existing = s.existing + 1) (habsent : s.exists? j = false)
      (hexists : ∀ i, s'.exists? i = true ↔ i = j ∨ s.exists? i = true) : Extends s call (some j) s'
  /-- The same structures exist as before; if the call is a create, no more can. -/
  | kept {s' : Lifecycle}
      (hfull : call.isCreate = true → min s.watermarks.high s.count ≤ s.existing)
      (hexisting : s'.existing = s.existing) (hexists : ∀ i, s'.exists? i = s.exists? i) :
      Extends s call none s'

namespace Sound

theorem extends_of_created (hs : s.Sound) (hall : s.count ≤ maxProbes) {index : Nat}
    {t : Transition} (h : s.Created index t s') : s.Extends (.create index) t.claimed? s' := by
  have hclaims := h.exists_claimed hs
  cases h with
  | suppressed hfull => exact .kept (fun _ => by omega) rfl fun _ => rfl
  | noCandidate hroom =>
    refine .kept (fun _ => ?_) rfl fun _ => rfl
    by_contra! hfew
    obtain ⟨j, hj⟩ := hclaims hroom (by omega)
    cases hj
  | @claimed hroom j _ hlt habsent =>
    have hcount := (hs.insert hlt habsent).existing_le_count
    rw [count_insert, show (s.insert j).existing = s.existing + 1 from rfl] at hcount
    refine .added rfl (by omega) rfl habsent fun i => ?_
    rw [exists?_insert s j i hlt, eq_comm (a := i)]
    split
    · next h => exact iff_of_true rfl (.inl h)
    · next h => exact (or_iff_right h).symm

theorem extends_of_performed (hs : s.Sound) (hall : s.count ≤ maxProbes) {call : Call}
    {o : Option Transition} (h : s.Performed call o s') (hcall : call.isDelete = false) :
    s.Extends call (o.bind (·.claimed?)) s' := by
  cases h with
  | create h => exact hs.extends_of_created hall h
  | delete => cases hcall
  | adjust a index items =>
    exact .kept nofun (existing_adjust _ _ _) fun i => exists?_adjust s index i _

/-- **Creates fill the store**, where every window has all keys and nothing is deleted: each of them
claims another structure, until no more may or can exist. -/
theorem fills (hs : s.Sound) (hall : s.count ≤ maxProbes)
    (hle : s.existing ≤ min s.watermarks.high s.count) (calls : List Call)
    (hcalls : ∀ call ∈ calls, call.isDelete = false) :
    ∃ claims s', s.claimAll calls = .ok (claims, s') ∧ s'.Sound ∧
      s'.existing = min (s.existing + calls.countP (·.isCreate)) (min s.watermarks.high s.count) ∧
      claims.Nodup ∧ (∀ i ∈ claims, s.exists? i = false) ∧
      ∀ i, s'.exists? i = true ↔ i ∈ claims ∨ s.exists? i = true := by
  induction calls generalizing s with
  | nil => exact ⟨[], s, rfl, hs, by simpa using hle, .nil, nofun, by simp⟩
  | cons call calls ih =>
    obtain ⟨hcall, hcalls⟩ := List.forall_mem_cons.1 hcalls
    obtain ⟨o, s₁, hp, hperf⟩ := hs.perform_spec call
    obtain ⟨hcount, hmarks⟩ := hperf.frame
    have hone := hs.extends_of_performed hall hperf hcall
    generalize hclaimed : o.bind (·.claimed?) = claimed at hone
    have hle₁ : s₁.existing ≤ min s₁.watermarks.high s₁.count := by
      rw [hcount, hmarks]
      cases hone <;> omega
    obtain ⟨claims, s', hrest, hs', hexisting, hnodup, habsent, hexists⟩ :=
      ih (hs.performed hperf) (hcount.symm ▸ hall) hle₁ hcalls
    rw [hcount, hmarks] at hexisting
    have hrun : s.claimAll (call :: calls) = .ok (claimed.toList ++ claims, s') := by
      rw [claimAll, hp, ← hclaimed]
      simp only [bind, Except.bind, hrest]
      rfl
    refine ⟨_, s', hrun, hs', ?_⟩
    rw [hexisting, List.countP_cons]
    cases hone with
    | @added j _ hcreate hroom hadd hnew hset =>
      simp only [hset] at hexists
      refine ⟨by rw [if_pos hcreate]; omega, ?_, ?_, fun i => ?_⟩
      · refine List.nodup_cons.2 ⟨fun hmem => ?_, hnodup⟩
        exact Bool.eq_false_iff.1 (habsent j hmem) ((hset j).2 (.inl rfl))
      · refine List.forall_mem_cons.2 ⟨hnew, fun i hi => Bool.eq_false_iff.2 fun h => ?_⟩
        exact Bool.eq_false_iff.1 (habsent i hi) ((hset i).2 (.inr h))
      · rw [hexists, ← or_assoc, Option.toList_some, List.singleton_append, List.mem_cons,
          or_comm (a := i ∈ claims)]
    | kept hfull hkept hsame =>
      simp only [hsame] at habsent hexists
      refine ⟨?_, hnodup, habsent, hexists⟩
      split
      · next hcreate =>
        have := hfull hcreate
        omega
      · omega

end Sound

/-- **A create probes exactly its window.** In every state that calls on a fresh store lead to, and
for every key, a create has a result:

* it is suppressed exactly if at least `high` structures exist;
* otherwise it claims the first absent structure in the cyclic order of the keys from the given one
  on, if that is among the first `min 64 count` of them, and finds no candidate exactly if all of
  these exist;
* if it claims nothing, it changes nothing;
* it always claims one if fewer than `min 64 (min count high)` exist.

With at most 64 keys, calls without a delete have claimed as many structures as there were creates,
or `high`, or all: they are the existing ones. -/
theorem create_probes_window (count : Nat) (marks : Watermarks) (calls : List Call) :
    ∃ s, (new count marks).performAll calls = .ok s ∧
      (∀ index < count, ∃ t s', s.tryCreate index = .ok (t, s') ∧
        (t = .suppressed ↔ marks.high ≤ s.existing) ∧
        (∀ j, t = .claimed j ↔ s.existing < marks.high ∧
          ∃ p < min 64 count, j = (index + p) % count ∧ s.exists? j = false ∧
            ∀ q < p, s.exists? ((index + q) % count) = true) ∧
        (t = .noCandidate ↔ s.existing < marks.high ∧
          ∀ p < min 64 count, s.exists? ((index + p) % count) = true) ∧
        (t = .suppressed ∨ t = .noCandidate → s' = s) ∧
        (s.existing < min 64 (min count marks.high) → ∃ j, t = .claimed j)) ∧
      (count ≤ 64 → (∀ call ∈ calls, call.isDelete = false) →
        ∃ claims, (new count marks).claimAll calls = .ok (claims, s) ∧
          claims.length = min (calls.countP (·.isCreate)) (min marks.high count) ∧
          claims.Nodup ∧ ∀ i, i ∈ claims ↔ s.exists? i = true) := by
  have hnew : (new count marks).count = count := by simp [new, Lifecycle.count]
  have hsound := sound_new count marks
  obtain ⟨s, hrun, hs, hcount, hmarks⟩ := hsound.performAll_induction
    (P := fun s => s.count = count ∧ s.watermarks = marks)
    (fun _ hp h => ⟨hp.frame.1.trans h.1, hp.frame.2.trans h.2⟩) ⟨hnew, rfl⟩ calls
  refine ⟨s, hrun, fun index _ => ?_, fun hall hcalls => ?_⟩
  · obtain ⟨t, s', ht, h⟩ := hs.tryCreate_spec index
    rw [← hcount, ← hmarks]
    refine ⟨t, s', ht, h.eq_suppressed_iff, fun j => ?_, ?_, ?_, fun hfew => ?_⟩
    · rw [h.eq_claimed_iff, find?_probes_eq_some]
      rfl
    · rw [h.eq_noCandidate_iff]
      simp only [mem_probes, forall_exists_index, and_imp]
      refine and_congr_right fun _ => ⟨fun hall p hp => hall _ p hp rfl, ?_⟩
      rintro hall _ p hp rfl
      exact hall p hp
    · rintro (rfl | rfl) <;> exact h.eq_of_claimed?_eq_none rfl
    · exact h.exists_claimed hs (by omega) (by simp only [maxProbes]; omega)
  · have habsent : ∀ i, (new count marks).exists? i = false := fun i =>
      Bool.eq_false_iff.2 fun h => by simpa [new] using hsound.mem_keys_iff.2 h
    obtain ⟨claims, s', hclaims, hs', hexisting, hnodup, -, hexists⟩ :=
      hsound.fills (hnew.symm ▸ hall) (Nat.zero_le _) calls hcalls
    cases (performAll_of_claimAll hclaims).symm.trans hrun
    simp only [habsent, Bool.false_eq_true, or_false] at hexists
    refine ⟨claims, hclaims, ?_, hnodup, fun i => (hexists i).symm⟩
    rw [hs'.length_eq_existing hnodup fun i => (hexists i).symm, hexisting, hnew]
    simp [new]

/-! ## A crowded store -/

/-- Creates of all but two of 66 structures. -/
def crowding : List Call := (List.range 64).map fun i => .create ((i + 3) % 66)

/-- Structures 1 and 2 are absent: out of sight from key 3 on, and found past the last key from key 4
on. -/
theorem create_probes_window_crowded :
    ∃ s, (new 66 ⟨0, 66⟩).performAll crowding = .ok s ∧
      (∃ s', s.tryCreate 3 = .ok (.noCandidate, s')) ∧
      ∃ s', s.tryCreate 4 = .ok (.claimed 1, s') := by
  obtain ⟨s, hrun, h, -⟩ := create_probes_window 66 ⟨0, 66⟩ crowding
  have hs : ((new 66 ⟨0, 66⟩).performAll crowding).toOption.any (fun s =>
      s.existing < 66 ∧ (∀ p < 64, s.exists? ((3 + p) % 66) = true) ∧
      s.exists? 1 = false ∧ ∀ q < 63, s.exists? ((4 + q) % 66) = true) = true := by decide +kernel
  rw [hrun] at hs
  obtain ⟨hroom, hwindow, habsent, hbefore⟩ := of_decide_eq_true hs
  obtain ⟨t, s₁, ht, -, -, hnone, -⟩ := h 3 (by decide)
  obtain ⟨t', s₂, ht', -, hclaimed, -⟩ := h 4 (by decide)
  obtain rfl := hnone.2 ⟨hroom, hwindow⟩
  obtain rfl := (hclaimed 1).2 ⟨hroom, 63, by decide, by decide, habsent, hbefore⟩
  exact ⟨s, hrun, ⟨s₁, ht⟩, s₂, ht'⟩

end Lifecycle

end LoadGen.Workload
