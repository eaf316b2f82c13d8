import LoadGen.Proofs.Config.Exact
import LoadGen.Proofs.Weights.Shares
import LoadGen.Proofs.Workload.Alternation

/-!
# Creates and deletes are guarded

A create or a delete of a tracked keyspace is `Guarded`: the store of the keyspace decides if it
goes out. Whether a keyspace is tracked depends on the shares of its commands, and what is drawn
depends on the sums of their weights. The two agree if the weights share out
(`History.guarded_of_sharesOut`); a keyspace whose weights add up to infinity is not tracked at all,
whatever is drawn (`Config.Accepted.tracksLifecycle_of_infinite`).
-/

namespace LoadGen

open Config (Keyspace Command)
open Weights (Weight Weighable)

/-! ## Accepted keyspaces -/

section Accepted

variable {R : Type} [Weight R] {config : Config R}

/-- A keyspace of an accepted configuration is what a run relies on, and its commands can be drawn
from. -/
theorem Config.Accepted.weighs (hconfig : config.Accepted) {k : Keyspace R}
    (hk : k ∈ config.keyspaces.items) :
    k.Ready ∧ ∃ cs : List (Command × R), k.commands.Weighs cs ∧ Weighable (cs.map (·.2)) := by
  obtain ⟨d, c, endpoints, hdraft, hends⟩ := hconfig
  rw [keyspaces_withEndpoints hends] at hk
  obtain ⟨hvalid, hreads⟩ := (decides_ofDraft d).of_eq_ok c hdraft
  obtain ⟨⟨kd, i⟩, hkd, hk'⟩ := Lists.exists_mem_of_forall₂' hreads.keyspaces hk
  have hkd := hvalid.keyspaces kd (List.mem_of_getElem? (List.mem_zipIdx_iff_getElem?.1 hkd))
  obtain ⟨cs, hcs, hweighs⟩ := hk'.commands
  refine ⟨hk'.ready hkd, cs, hweighs, ?_⟩
  rw [Lists.map_eq_of_forall₂ hcs fun _ _ h => h.weight_eq]
  exact hkd.weighable_commands

theorem Config.Keyspace.tracksLifecycle_of_share {k : Keyspace R} {i : ℕ}
    (hi : i < k.commands.items.length) (haction : k.commands.items[i].action.isLifecycle = true)
    (hshare : Weight.less 0 (k.commands.share i) = true) : k.tracksLifecycle = true := by
  rw [tracksLifecycle, List.any_eq_true]
  exact ⟨(k.commands.items[i], i), List.mem_zipIdx_iff_getElem?.2 (List.getElem?_eq_getElem hi),
    Bool.and_eq_true_iff.2 ⟨haction, hshare⟩⟩

end Accepted

section Shares

variable {config : Config Float} (hconfig : config.Accepted) {k : Keyspace Float}
  (hk : k ∈ config.keyspaces.items)

include hconfig hk

/-- Weights that add up to infinity leave nobody a share. -/
theorem Config.Accepted.tracksLifecycle_of_infinite
    (hinf : Weight.isFinite k.commands.total = false) : k.tracksLifecycle = false := by
  obtain ⟨-, cs, hweighs, hweighable⟩ := hconfig.weighs hk
  rw [Keyspace.tracksLifecycle, List.any_eq_false]
  rintro ⟨c, i⟩ - h
  rw [Bool.and_eq_true, Weights.WeightedTable.not_less_share hweighs hweighable hinf] at h
  exact Bool.false_ne_true h.2

/-- **What is drawn is tracked**, if the weights share out. -/
theorem Config.Accepted.tracksLifecycle_of_drawn (hshares : k.commands.SharesOut)
    {source : Random.Source}
    (haction : (k.commands.sample source).1.action.isLifecycle = true) :
    k.tracksLifecycle = true := by
  obtain ⟨-, cs, hweighs, hweighable⟩ := hconfig.weighs hk
  exact Keyspace.tracksLifecycle_of_share (Fin.isLt _) haction
    (Weights.WeightedTable.less_share_indexFor hweighs hweighable hshares source.next.1)

end Shares

/-! ## Guards -/

namespace Workload

variable {R : Type}

/-- A create or a delete that is drawn is held to the bounds of its keyspace: the store of the
keyspace decides if it goes out. -/
inductive Guarded (w : Workload R) (k : Keyspace R) (c : Command) :
    Selection R → Workload R → Prop
  | created {s s' : Lifecycle} {index : ℕ} {o : Operation R} (hs : w.state? k.ordinal = some s)
      (hc : c.action = .create) (ho : o.keyspace = k ∧ o.command = c)
      (h : s.tryCreate index = .ok (.claimed o.keyIndex, s'))
      (hroom : s.existing < k.watermarks.high) :
      Guarded w k c (.dispatched o) (w.setState k.ordinal s')
  | deleted {s s' : Lifecycle} {source source' : Random.Source} {o : Operation R}
      (hs : w.state? k.ordinal = some s) (hc : c.action = .delete)
      (ho : o.keyspace = k ∧ o.command = c)
      (h : s.tryDelete source = .ok (.claimed o.keyIndex, s', source'))
      (hmany : k.watermarks.low < s.existing) :
      Guarded w k c (.dispatched o) (w.setState k.ordinal s')
  /-- Nothing goes out, and no structure is touched. -/
  | held {s : Lifecycle} {t : Transition} (hs : w.state? k.ordinal = some s)
      (h : (c.action = .create ∧ ∃ index, s.tryCreate index = .ok (t, s)) ∨
        c.action = .delete ∧ ∃ source source', s.tryDelete source = .ok (t, s, source'))
      (ht : ∀ i, t ≠ .claimed i) : Guarded w k c (.skipped k.ordinal c.action) w

variable [Weight R]

section Drawn

variable {w w' : Workload R} {source source₁ source₂ source₃ : Random.Source} {k : Keyspace R}
  {c : Command} (hk : w.config.keyspaces.sample source = (k, source₁))
  (hc : k.commands.sample source₁ = (c, source₂))

include hk hc

theorem select_of_held (h : w.claim k c.action source₂ = .ok (none, w', source₃)) :
    w.select source = .ok (.skipped k.ordinal c.action, w', source₃) := by
  simp only [select, hk, hc, h]
  rfl

theorem select_of_claimed {i : ℕ} {existed : Option Bool}
    (h : w.claim k c.action source₂ = .ok (some (i, existed), w', source₃)) :
    ∃ o source', w.select source = .ok (.dispatched o, w', source') ∧
      (o.keyspace = k ∧ o.command = c) ∧ o.keyIndex = i := by
  simp only [select, hk, hc, h]
  exact ⟨_, _, rfl, ⟨rfl, rfl⟩, rfl⟩

/-- Whatever is drawn in a keyspace that is not tracked goes out. -/
theorem dispatched_of_untracked (hs : w.state? k.ordinal = none) :
    ∃ o source', w.select source = .ok (.dispatched o, w, source') ∧
      o.keyspace = k ∧ o.command = c := by
  have hclaim := claim_eq (a := c.action) (fun h => by rw [hs] at h; cases h) source₂
  obtain ⟨o, source', hselect, ho, -⟩ := select_of_claimed hk hc hclaim
  exact ⟨o, source', hselect, ho⟩

section Tracked

variable {s : Lifecycle} (hs : w.state? k.ordinal = some s) (htracks : s.Tracks k)

include hs htracks

theorem guarded_create (ha : c.action = .create) :
    ∃ selection w' source', w.select source = .ok (selection, w', source') ∧
      Guarded w k c selection w' := by
  obtain ⟨t, s', h, hcreated⟩ := htracks.sound.tryCreate_spec (k.drawIndex source₂).1
  cases hcreated with
  | suppressed | noCandidate =>
    have hclaim : w.claim k c.action source₂ =
        .ok (none, w.setState k.ordinal s, (k.drawIndex source₂).2) := by
      simp only [ha, claim, hs, h]
      rfl
    rw [setState_self hs] at hclaim
    exact ⟨_, _, _, select_of_held hk hc hclaim, .held hs (.inl ⟨ha, _, h⟩) (by simp)⟩
  | @claimed hroom i =>
    have hclaim : w.claim k c.action source₂ =
        .ok (some (i, some false), w.setState k.ordinal (s.insert i), (k.drawIndex source₂).2) := by
      simp only [ha, claim, hs, h]
      rfl
    obtain ⟨o, source', hselect, ho, rfl⟩ := select_of_claimed hk hc hclaim
    exact ⟨_, _, _, hselect, .created hs ha ho h (htracks.watermarks_eq ▸ hroom)⟩

theorem guarded_delete (ha : c.action = .delete) :
    ∃ selection w' source', w.select source = .ok (selection, w', source') ∧
      Guarded w k c selection w' := by
  obtain ⟨t, s', source', h, hdeleted⟩ := htracks.sound.tryDelete_spec source₂
  cases hdeleted with
  | suppressed =>
    have hclaim : w.claim k c.action source₂ = .ok (none, w.setState k.ordinal s, source') := by
      simp only [ha, claim, hs, h]
      rfl
    rw [setState_self hs] at hclaim
    exact ⟨_, _, _, select_of_held hk hc hclaim, .held hs (.inr ⟨ha, _, _, h⟩) (by simp)⟩
  | @claimed hmany position victim =>
    have hclaim : w.claim k c.action source₂ =
        .ok (some (victim, some true), w.setState k.ordinal (s.removeAt position victim),
          source') := by
      simp only [ha, claim, hs, h]
      rfl
    obtain ⟨o, source', hselect, ho, rfl⟩ := select_of_claimed hk hc hclaim
    exact ⟨_, _, _, hselect, .deleted hs ha ho h (htracks.watermarks_eq ▸ hmany)⟩

/-- **A create or a delete of a tracked keyspace is guarded.** -/
theorem guarded_of_tracks (haction : c.action.isLifecycle = true) :
    ∃ selection w' source', w.select source = .ok (selection, w', source') ∧
      Guarded w k c selection w' := by
  rcases Config.isLifecycle_iff.1 haction with ha | ha
  · exact guarded_create hk hc hs htracks ha
  · exact guarded_delete hk hc hs htracks ha

end Tracked

end Drawn

namespace History

/-- **Creates and deletes are guarded**, if the weights share out. Whatever the workers asked of the
workload before, if a source has a keyspace and one of its creates or deletes drawn, then

* the keyspace has no more keys than can be tracked, and its bounds are in order and those that its
  commands give;
* the selection has a result, in which the store of the keyspace decides if the operation goes
  out, within these bounds. -/
theorem guarded_of_sharesOut {config : Config Float} (hconfig : config.Accepted)
    (calls : List (Call Float)) :
    ∃ h, (start config).steps calls = .ok h ∧
      ∀ source k source₁ c source₂, h.workload.config.keyspaces.sample source = (k, source₁) →
        k.commands.sample source₁ = (c, source₂) → c.action.isLifecycle = true →
        k.commands.SharesOut →
        (k.count ≤ Config.maxTrackedKeys ∧ k.watermarks.low ≤ k.watermarks.high ∧
          ∀ c' ∈ k.commands.items, ∀ m, c'.watermarks = some m → k.watermarks = m) ∧
        ∃ selection w' source', h.workload.select source = .ok (selection, w', source') ∧
          Guarded h.workload k c selection w' := by
  obtain ⟨h, hsteps, hh⟩ := (sound_start hconfig.regular).steps_spec calls
  refine ⟨h, hsteps, fun source k source₁ c source₂ hk hc haction hshares => ?_⟩
  have hmem : k ∈ config.keyspaces.items := by
    have hsampled : (h.workload.config.keyspaces.sample source).1 ∈
      h.workload.config.keyspaces.items := List.getElem_mem _
    rwa [hk, hh.workload.config_eq] at hsampled
  have htracks := hconfig.tracksLifecycle_of_drawn hmem hshares (by rwa [hc])
  obtain ⟨s, hs⟩ := Option.isSome_iff_exists.1 ((hh.workload.isSome_state? k hmem).trans htracks)
  have hready := (hconfig.weighs hmem).1
  exact ⟨⟨hready.count_le htracks, hready.low_le_high, hready.watermarks_eq⟩,
    guarded_of_tracks hk hc hs (hh.workload.tracks k hmem s hs) haction⟩

/-! ## Weights of any size -/

/-- One keyspace with creates and deletes, each of a given weight. -/
def lifecycleDraft (weight : Float) : Config.Draft Float where
  general := (Trial.sampleDraft 1 0).general
  endpoints := ["localhost:1"]
  keyspaces :=
    [{ length := 4
       count := 2
       weight := 1
       commands := [{ action := "create", weight }, { action := "delete", weight }]
       values := [{ length := 1, weight := 1 }] }]

/-- The largest words, one after the other. -/
def largestWords : Random.Source := .stream (fun _ => 0xffffffffffffffff) 0

/-- Creates and deletes share the draws. -/
def evenly : Config Float := .checked (lifecycleDraft 1) (by decide +kernel)

theorem guarded_of_sharesOut_evenly :
    evenly.Accepted ∧ (∀ k ∈ evenly.keyspaces.items, k.commands.SharesOut) ∧
      ∃ k c selection w' source', c.action = .delete ∧
        (new evenly).select largestWords = .ok (selection, w', source') ∧
        Guarded (new evenly) k c selection w' := by
  have haccepted : evenly.Accepted := Config.accepted_checked _ _
  have hshares : ∀ k ∈ evenly.keyspaces.items, k.commands.SharesOut := by decide +kernel
  obtain ⟨h, hsteps, hh⟩ := guarded_of_sharesOut haccepted []
  cases hsteps
  have hdelete : ((evenly.keyspaces.sample largestWords).1.commands.sample
      (evenly.keyspaces.sample largestWords).2).1.action = .delete := by decide +kernel
  have hmem : (evenly.keyspaces.sample largestWords).1 ∈ evenly.keyspaces.items :=
    List.getElem_mem _
  generalize hk : evenly.keyspaces.sample largestWords = drawn at hdelete hmem
  obtain ⟨k, source₁⟩ := drawn
  generalize hc : k.commands.sample source₁ = drawn at hdelete
  obtain ⟨c, source₂⟩ := drawn
  obtain ⟨-, selection, w', source', hselect, hguarded⟩ :=
    hh largestWords k source₁ c source₂ hk hc (by rw [hdelete]; rfl) (hshares k hmem)
  exact ⟨haccepted, hshares, k, c, selection, w', source', hdelete, hselect, hguarded⟩

/-- The weights of creates and deletes add up to infinity. -/
def overflowing : Config Float := .checked (lifecycleDraft 1e308) (by decide +kernel)

/-- A delete is drawn and goes out, though no structure exists. -/
theorem unguarded_of_overflow :
    overflowing.Accepted ∧ ∃ k source₁ c source₂ o source',
      (new overflowing).config.keyspaces.sample largestWords = (k, source₁) ∧
      k.commands.sample source₁ = (c, source₂) ∧ c.action = .delete ∧
      (new overflowing).state? k.ordinal = none ∧
      (new overflowing).select largestWords = .ok (.dispatched o, new overflowing, source') ∧
      o.keyspace = k ∧ o.command = c := by
  have haccepted : overflowing.Accepted := Config.accepted_checked _ _
  have hdelete : ((overflowing.keyspaces.sample largestWords).1.commands.sample
      (overflowing.keyspaces.sample largestWords).2).1.action = .delete := by decide +kernel
  have hinfinite : Weight.isFinite
      (overflowing.keyspaces.sample largestWords).1.commands.total = false := by decide +kernel
  have hmem : (overflowing.keyspaces.sample largestWords).1 ∈ overflowing.keyspaces.items :=
    List.getElem_mem _
  generalize hk : overflowing.keyspaces.sample largestWords = drawn at hdelete hinfinite hmem
  obtain ⟨k, source₁⟩ := drawn
  generalize hc : k.commands.sample source₁ = drawn at hdelete
  obtain ⟨c, source₂⟩ := drawn
  have hstate : (new overflowing).state? k.ordinal = none := by
    rw [state?_new haccepted.regular hmem, haccepted.tracksLifecycle_of_infinite hmem hinfinite]
    rfl
  obtain ⟨o, source', hselect, ho⟩ :=
    dispatched_of_untracked (w := new overflowing) hk hc hstate
  exact ⟨haccepted, k, source₁, c, source₂, o, source', hk, hc, hdelete, hstate, hselect, ho⟩

end History

end Workload

end LoadGen
