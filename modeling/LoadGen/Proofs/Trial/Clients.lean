import LoadGen.Proofs.Trial.OneClient

/-!
# Any number of clients

With several clients requests need not be served in the order in which operations are drawn. When no
operation is under way, all have been served, those of each client in their order, and the engine
and the server agree about a structure exactly if the create or delete of it that was served last is
the kind that was drawn last (`quiescent_agreement`).
-/

namespace LoadGen.Trial

open Config (Keyspace Action)

variable {R : Type} [Weights.Weight R]

namespace Sound

variable {config : Config R} {t : Trial R} (ht : t.Sound config) (hq : t.Quiescent)

include ht hq

/-- With nothing under way, all requests have been served. -/
theorem drawn_eq_served (client : Nat) :
    t.drawn.filter (·.client == client) =
      (t.served.map (·.toNote)).filter (·.client == client) := by
  rw [ht.drawn_eq, hq.job?_eq_none, pending_none, List.nil_append]

theorem mem_served_iff {n : Note R} : n ∈ t.served.map (·.toNote) ↔ n ∈ t.drawn := by
  have h := congrArg (n ∈ ·) (ht.drawn_eq_served hq n.client)
  simpa [List.mem_filter] using h.symm

theorem served_eq_none_iff (k : Keyspace R) (i : Nat) :
    lastChange? (t.served.map (·.operation)) k i = none ↔
      lastChange? (t.drawn.map (·.operation)) k i = none := by
  have hops : t.served.map (·.operation) = (t.served.map (·.toNote)).map (·.operation) :=
    List.map_map.symm
  have hmem : ∀ o, o ∈ t.served.map (·.operation) ↔ o ∈ t.drawn.map (·.operation) := fun o => by
    rw [hops, List.mem_map, List.mem_map]
    exact exists_congr fun n => and_congr_left fun _ => ht.mem_served_iff hq
  rw [lastChange?_eq_none_iff, lastChange?_eq_none_iff]
  simp only [hmem]

/-- The engine and the server agree about a structure exactly if its last change is the same. -/
theorem agree_iff {k : Keyspace R} (hk : k ∈ config.keyspaces.items)
    (htracks : k.tracksLifecycle = true) {i : Nat} (hi : i < k.count) :
    (k.key i ∈ t.store ↔ t.run.shared.workload.exists? k i = true) ↔
      lastChange? (t.served.map (·.operation)) k i =
        lastChange? (t.drawn.map (·.operation)) k i := by
  rw [ht.mem_store_iff k hk i hi, ht.exists?_eq k hk htracks, beq_iff_eq]
  exact changes_eq_iff (fun _ => isLifecycle_of_lastChange?) (fun _ => isLifecycle_of_lastChange?)
    (ht.served_eq_none_iff hq k i)

end Sound

/-- **The engine and the server agree as far as the last changes do.** In every state in which no
operation is under way, the requests of all operations have been served, those of each client in
their order. About a structure of a tracked keyspace the server then agrees with the flag of the
engine exactly if the create or delete of it that was served last is of the same kind as the one
that was drawn last. If this is so for all structures of the keyspace, as many of them at most are
on the server as the high watermark allows. -/
theorem quiescent_agreement {config : Config R} {entropy : UInt64} {events : List Event}
    {t : Trial R} (hconfig : config.Accepted) (h : run? config entropy events = some t)
    (hq : t.Quiescent) :
    (∀ client, (t.served.map (·.toNote)).filter (·.client == client) =
      t.drawn.filter (·.client == client)) ∧
    ∀ k ∈ config.keyspaces.items, k.tracksLifecycle = true →
      (∀ i < k.count, (k.key i ∈ t.store ↔ t.run.shared.workload.exists? k i = true) ↔
        lastChange? (t.served.map (·.operation)) k i =
          lastChange? (t.drawn.map (·.operation)) k i) ∧
      ((∀ i < k.count, lastChange? (t.served.map (·.operation)) k i =
          lastChange? (t.drawn.map (·.operation)) k i) →
        ((Finset.range k.count).filter fun i => k.key i ∈ t.store).card ≤ k.watermarks.high) := by
  have ht := sound_of_run? hconfig h
  refine ⟨fun client => (ht.drawn_eq_served hq client).symm, fun k hk htracks =>
    ⟨fun i hi => ht.agree_iff hq hk htracks hi, fun hall => ?_⟩⟩
  have hsame : (Finset.range k.count).filter (fun i => k.key i ∈ t.store) =
      (Finset.range k.count).filter fun i => t.run.shared.workload.exists? k i = true := by
    refine Finset.filter_congr fun i hi => ?_
    have hi := Finset.mem_range.1 hi
    exact (ht.agree_iff hq hk htracks hi).2 (hall i hi)
  rw [hsame]
  exact ht.workload.card_exists?_le hk htracks

/-! ## Two clients at work -/

/-- Two clients at work; the first one creates a structure, which the other one then deletes. -/
def duo : Config ℚ := .checked (sampleDraft 2 117) (by decide +kernel)

/-- The requests arrive in the order in which they were drawn. -/
def orderlyEvents : List Event :=
  [turn 0, turn 0, turn 1, turn 1, connect 0, .arrive 0, connect 1, .arrive 1] ++
    reply 1 "+OK\r\n" ++ reply 0 "+OK\r\n"

/-- The requests cross, and the first client then creates another structure. -/
def crossingEvents : List Event :=
  [turn 0, turn 0, turn 1, turn 1, connect 1, .arrive 1] ++ reply 1 "-ERR no such key\r\n" ++
    [connect 0, .arrive 0] ++ reply 0 "+OK\r\n" ++ [turn 0, .arrive 0] ++ reply 0 "+OK\r\n"

def orderlyTrial : Trial ℚ := (run? duo 0 orderlyEvents).get (by decide +kernel)

def crossingTrial : Trial ℚ := (run? duo 0 crossingEvents).get (by decide +kernel)

theorem accepted_duo : duo.Accepted := Config.accepted_checked _ _

theorem run?_orderly : run? duo 0 orderlyEvents = some orderlyTrial := (Option.some_get _).symm

theorem run?_crossing : run? duo 0 crossingEvents = some crossingTrial := (Option.some_get _).symm

theorem quiescent_agreement_orderly :
    orderlyTrial.drawn.map (fun n => (n.client, n.operation.action)) =
      [(1, .delete), (0, .create)] ∧
    ∀ k ∈ duo.keyspaces.items,
      ((Finset.range k.count).filter fun i => k.key i ∈ orderlyTrial.store).card ≤
        k.watermarks.high := by
  refine ⟨by decide +kernel, fun k hk => ?_⟩
  have htracks : ∀ k ∈ duo.keyspaces.items, k.tracksLifecycle = true := by decide +kernel
  have hlast : ∀ k ∈ duo.keyspaces.items, ∀ i < k.count,
      lastChange? (orderlyTrial.served.map (·.operation)) k i =
        lastChange? (orderlyTrial.drawn.map (·.operation)) k i := by decide +kernel
  exact ((quiescent_agreement accepted_duo run?_orderly (by decide +kernel)).2 k hk
    (htracks k hk)).2 (hlast k hk)

/-- **Requests that cross leave the engine and the server in disagreement for good.** Two structures
are on the server in the end, though the high watermark allows one; the engine knows of one. -/
theorem disagreement_of_crossing :
    duo.Accepted ∧ run? duo 0 crossingEvents = some crossingTrial ∧ crossingTrial.Quiescent ∧
      ∃ k ∈ duo.keyspaces.items, k.tracksLifecycle = true ∧
        (∃ i < k.count, ¬(k.key i ∈ crossingTrial.store ↔
          crossingTrial.run.shared.workload.exists? k i = true)) ∧
        k.watermarks.high <
          ((Finset.range k.count).filter fun i => k.key i ∈ crossingTrial.store).card :=
  ⟨accepted_duo, run?_crossing, by decide +kernel, by decide +kernel⟩

end LoadGen.Trial
