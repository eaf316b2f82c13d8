import LoadGen.Proofs.Trial.Sound
import LoadGen.Proofs.Weights.Exact

/-!
# One client

With one client nothing comes between the draw of an operation and its request, so that requests
are served in the order in which operations are drawn. The engine then knows what is on the server
whenever the client has no operation under way, and knows of each operation of a tracked keyspace
how it will be answered (`mirrors_of_one_client`).
-/

namespace LoadGen.Trial

open Config (Keyspace Action)
open Server (Answer)

variable {R : Type} [Weights.Weight R]

/-- An operation that was drawn and served after the same operations is answered as the engine
expects. -/
theorem answer_of_foretold {served : List (Served R)} (hdrawn : Foretold (served.map (·.toNote)))
    (hserved : Faithful served) {s : Served R} (hs : s ∈ served)
    (ht : s.operation.keyspace.tracksLifecycle = true) :
    (s.operation.action.isLifecycle = true → s.answer = .accepted) ∧
      (s.answer = .refused → s.operation.expectsMiss = true) := by
  induction served with
  | nil => cases hs
  | cons s' earlier ih =>
    rcases List.mem_cons.1 hs with rfl | hs
    · obtain ⟨⟨client, o⟩, answer⟩ := s
      obtain ⟨hexisted, hchange⟩ := hdrawn.1 ht
      have hanswer := hserved.1
      have hsame : (earlier.map (·.toNote)).map (·.operation) = earlier.map (·.operation) :=
        List.map_map
      rw [hsame] at hexisted hchange
      dsimp only at hexisted hchange hanswer ⊢
      generalize lastChange? _ o.keyspace o.keyIndex = last at hexisted hchange hanswer
      -- an existing structure is not created again, so a refusal means that there is none
      have habsent : (last = some .create ↔ o.action = .create) →
          last ≠ some .create ∧ o.action ≠ .create := by
        intro hiff
        have hnot : last ≠ some .create := by
          intro hlast
          have ha := hiff.1 hlast
          simp [hlast, ha, Action.isLifecycle] at hchange
        exact ⟨hnot, fun ha => hnot (hiff.2 ha)⟩
      refine ⟨fun hl => ?_, fun hrefused => ?_⟩
      · rw [hanswer, if_neg]
        intro hiff
        obtain ⟨hlast, ha⟩ := habsent hiff
        have hdelete : o.action = .delete := by
          cases h : o.action <;> simp_all [Action.isLifecycle]
        exact hlast (by simpa [hdelete] using hchange hl)
      · rw [hanswer] at hrefused
        split at hrefused
        · next hiff =>
          obtain ⟨hlast, ha⟩ := habsent hiff
          simp [Operation.expectsMiss, hexisted, hlast, ha]
        · cases hrefused
    · exact ih hdrawn.2 hserved.2 hs

namespace Sound

variable {config : Config R} {t : Trial R} (ht : t.Sound config)
  (hone : config.general.clients = 1)

include ht hone

/-- All operations are those of the client at position zero. -/
theorem drawn_of_one_client :
    t.drawn = pending 0 (t.run.job? 0) (t.answers 0) ++ t.served.map (·.toNote) := by
  have hzero : ∀ n ∈ t.drawn, (n.client == 0) = true := fun n hn => by
    have := ht.client_lt n hn
    simp only [beq_iff_eq]
    omega
  have hserved : ∀ n ∈ t.served.map (·.toNote), (n.client == 0) = true := fun n hn => by
    have hfilter : n ∈ t.drawn.filter (·.client == n.client) := by
      rw [ht.drawn_eq]
      exact List.mem_append_right _ (List.mem_filter.2 ⟨hn, by simp⟩)
    exact hzero n (List.mem_filter.1 hfilter).1
  have h := ht.drawn_eq 0
  rwa [List.filter_eq_self.2 hzero, List.filter_eq_self.2 hserved] at h

theorem foretold_served : Foretold (t.served.map (·.toNote)) := by
  have h := ht.foretold
  rw [ht.drawn_of_one_client hone] at h
  exact h.of_append

/-- With nothing under way, the flags are those of the server. -/
theorem mem_store_iff_exists? (hq : t.Quiescent) {k : Keyspace R}
    (hk : k ∈ config.keyspaces.items) (htracks : k.tracksLifecycle = true) {i : Nat}
    (hi : i < k.count) : k.key i ∈ t.store ↔ t.run.shared.workload.exists? k i = true := by
  have hops : t.drawn.map (·.operation) = t.served.map (·.operation) := by
    rw [ht.drawn_of_one_client hone, hq.job?_eq_none, pending_none, List.nil_append, List.map_map]
    rfl
  rw [ht.mem_store_iff k hk i hi, ht.exists?_eq k hk htracks, hops, beq_iff_eq]

/-- What is recorded for an operation of a tracked keyspace. -/
theorem recorded_of_one_client {x : Completed R} (hx : x ∈ t.completed)
    (htracks : x.operation.keyspace.tracksLifecycle = true) :
    ∃ e, x.entries = [e] ∧ e.outcome ≠ .failure .protocol ∧
      (x.answer = .refused → e.outcome = .expectedMiss) ∧
      (x.operation.action.isLifecycle = true → x.answer = .accepted ∧ e.outcome = .success) := by
  obtain ⟨hserved, hrecorded⟩ := ht.recorded x hx
  obtain ⟨hchange, hmiss⟩ :=
    answer_of_foretold (ht.foretold_served hone) ht.faithful hserved htracks
  cases ha : x.answer with
  | accepted =>
    obtain ⟨e, hentries, houtcome⟩ := hrecorded.entries_of_accepted ha
    exact ⟨e, hentries, by simp [houtcome], nofun, fun _ => ⟨rfl, houtcome⟩⟩
  | refused =>
    obtain ⟨e, hentries, houtcome⟩ := hrecorded.entries_of_refused ha
    rw [if_pos (hmiss ha)] at houtcome
    refine ⟨e, hentries, by simp [houtcome], fun _ => houtcome, fun hl => ?_⟩
    cases ha.symm.trans (hchange hl)

omit hone in
/-- With nothing under way, all that was drawn is completed. -/
theorem exists_completed (hq : t.Quiescent) {n : Note R} (hn : n ∈ t.drawn) :
    ∃ x ∈ t.completed, x.toNote = n := by
  have h : n ∈ t.drawn.filter (·.client == n.client) := List.mem_filter.2 ⟨hn, by simp⟩
  rw [ht.drawn_eq_underway, hq.job?_eq_none] at h
  exact List.mem_map.1 (List.mem_filter.1 h).1

end Sound

/-- **With one client the engine mirrors the server.** Whenever the client has no operation under
way, the structures of tracked keyspaces on the server are those that are flagged as existing, and
every create and delete of them that was drawn has succeeded. What is refused of the operations on
tracked keyspaces is recorded as an expected miss, none as a failure, and no failure is recorded
besides. No worker aborts. -/
theorem mirrors_of_one_client {config : Config R} {entropy : UInt64} {events : List Event}
    {t : Trial R} (hconfig : config.Accepted) (hone : config.general.clients = 1)
    (h : run? config entropy events = some t) :
    (t.Quiescent →
      (∀ k ∈ config.keyspaces.items, k.tracksLifecycle = true → ∀ i < k.count,
        k.key i ∈ t.store ↔ t.run.shared.workload.exists? k i = true) ∧
      ∀ n ∈ t.drawn, n.operation.keyspace.tracksLifecycle = true →
        n.operation.action.isLifecycle = true →
        ∃ x ∈ t.completed, x.toNote = n ∧ x.answer = .accepted) ∧
    (∀ x ∈ t.completed, x.operation.keyspace.tracksLifecycle = true →
      ∃ e, x.entries = [e] ∧ e.outcome ≠ .failure .protocol ∧
        (x.answer = .refused → e.outcome = .expectedMiss) ∧
        (x.operation.action.isLifecycle = true → x.answer = .accepted ∧ e.outcome = .success)) ∧
    (∀ e ∈ t.others, e.outcome = .skipped) ∧ ∀ w ∈ t.run.workers, ∀ v, w.phase ≠ .aborted v := by
  have ht := sound_of_run? hconfig h
  refine ⟨fun hq => ⟨fun k hk htracks i hi => ?_, fun n hn htracks hl => ?_⟩, fun x hx htracks => ?_,
    ht.others_skipped, fun w hw => ht.phase_ne_aborted hw⟩
  · exact ht.mem_store_iff_exists? hone hq hk htracks hi
  · obtain ⟨x, hx, rfl⟩ := ht.exists_completed hq hn
    obtain ⟨e, -, -, -, hchange⟩ := ht.recorded_of_one_client hone hx htracks
    exact ⟨x, hx, rfl, (hchange hl).1⟩
  · exact ht.recorded_of_one_client hone hx htracks

/-! ## A client at work -/

/-- One endpoint, and one keyspace of two keys with creates, deletes and reads, of whose structures
one may exist. -/
def sampleDraft (clients : Nat) (seed : UInt64) : Config.Draft ℚ where
  general :=
    { protocol := "rds"
      interval := 1
      windows := 1
      clients
      poolsize := 1
      requestTimeout := 1000000
      connectTimeout := 1000000
      seed := some seed }
  endpoints := ["localhost:1"]
  keyspaces :=
    [{ length := 1
       count := 2
       weight := 1
       commands :=
         [{ action := "create", weight := 1, high := some 1 }, { action := "delete", weight := 1 },
           { action := "get", weight := 1 }]
       values := [{ length := 1, weight := 1 }] }]

/-- It is the turn of a client. -/
def turn (client : Nat) : Event := .signal client .zero .resume

/-- The connection of a client is made. -/
def connect (client : Nat) : Event := .signal client .zero (.acquire (.connected client))

/-- A client is done with its request and receives a line. -/
def reply (client : Nat) (line : String) : List Event :=
  [.signal client .zero (.exchange .written),
    .signal client .zero (.exchange (.received (Wire.textBytes line)))]

/-- One client at work. -/
def solo : Config ℚ := .checked (sampleDraft 1 47) (by decide +kernel)

/-- A read is refused, and then a structure is created, deleted and created again. -/
def soloEvents : List Event :=
  [turn 0, turn 0, connect 0, .arrive 0] ++ reply 0 "-ERR no such key\r\n" ++
    [turn 0, .arrive 0] ++ reply 0 "+OK\r\n" ++ [turn 0, .arrive 0] ++ reply 0 "+OK\r\n" ++
    [turn 0, .arrive 0] ++ reply 0 "+OK\r\n"

def soloTrial : Trial ℚ := (run? solo 0 soloEvents).get (by decide +kernel)

theorem accepted_solo : solo.Accepted := Config.accepted_checked _ _

theorem run?_solo : run? solo 0 soloEvents = some soloTrial := (Option.some_get _).symm

theorem mirrors_solo :
    (∀ k ∈ solo.keyspaces.items, k.tracksLifecycle = true → ∀ i < k.count,
      k.key i ∈ soloTrial.store ↔ soloTrial.run.shared.workload.exists? k i = true) ∧
    soloTrial.store.card = 1 ∧
    soloTrial.completed.map (fun x => (x.operation.action, x.entries.map (·.outcome))) =
      [(.create, [.success]), (.delete, [.success]), (.create, [.success]),
        (.get, [.expectedMiss])] :=
  ⟨((mirrors_of_one_client accepted_solo (by decide +kernel) run?_solo).1 (by decide +kernel)).1,
    by decide +kernel, by decide +kernel⟩

end LoadGen.Trial
