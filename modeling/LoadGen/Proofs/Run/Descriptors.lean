import LoadGen.Proofs.Config.Exact
import LoadGen.Proofs.Run.Chronicle
import LoadGen.Proofs.Run.Reach
import LoadGen.Proofs.Trial.Clients
import LoadGen.Proofs.Worker.Lending

/-!
# Connections and open files

The open files that a run is prepared for are its clients times the connections in a pool times the
endpoints, and some more, up to the largest number of 64 bits. A run never has more connections than
that, idle ones, ones that are used and ones being made together, at any time and whatever its
workers do (`Chronicle.live_within_descriptors`).
-/

namespace LoadGen

open Acquire (heldBy)

variable {R : Type}

/-! ## The number of open files -/

/-- A product that saturates may have had a factor that did. -/
theorem min_mul_saturated (a most : Nat) {k : Nat} (hk : 0 < k) :
    min (min a most * k) most = min (a * k) most := by
  rcases Nat.le_total a most with h | h
  · rw [Nat.min_eq_left h]
  · have hmost : most ≤ most * k := Nat.le_mul_of_pos_right most hk
    rw [Nat.min_eq_right h, Nat.min_eq_right hmost,
      Nat.min_eq_right (hmost.trans (Nat.mul_le_mul_right k h))]

theorem min_add_saturated (a most k : Nat) : min (min a most + k) most = min (a + k) most := by
  omega

theorem Config.requiredDescriptors_eq {config : Config R} (hends : config.endpoints ≠ []) :
    config.requiredDescriptors =
      min (config.general.clients * config.general.poolsize * config.endpoints.length + 64)
        (2 ^ 64 - 1) := by
  have hpos : 0 < config.endpoints.length := List.length_pos_of_ne_nil hends
  rw [requiredDescriptors, Nat.max_eq_left hpos, min_mul_saturated _ _ hpos, min_add_saturated]
  rfl

/-- A pool has room for one connection at least. -/
theorem Config.Accepted.poolsize_pos [Weights.Weight R] {config : Config R}
    (h : config.Accepted) : 0 < config.general.poolsize := by
  obtain ⟨d, c, endpoints, hdraft, hends⟩ := h
  obtain ⟨hvalid, hreads⟩ := (decides_ofDraft d).of_eq_ok c hdraft
  rw [general_withEndpoints hends, hreads.general_eq]
  exact hvalid.general.poolsize_pos

/-! ## The connections of a run -/

/-- The connections of all workers of a run. -/
def Run.live (r : Run R) : Nat := (r.workers.toList.map (·.live)).sum

namespace Chronicle

variable [Weights.Weight R] {config : Config R} {c : Chronicle R}

/-- There are as many workers as clients, and the pools of each are what it has made of them. -/
structure Borrows (config : Config R) (c : Chronicle R) : Prop where
  size_eq : c.run.workers.size = config.general.clients
  worker : ∀ w ∈ c.run.workers, w.Borrows config

theorem borrows_start {entropy : UInt64} {r : Run R} {log : List Log.Event}
    (hr : Run.start config entropy = .ok (r, log)) : (start r).Borrows config := by
  obtain ⟨-, hsize, -, hworkers⟩ := Run.start_eq hr
  refine ⟨hsize, fun w hw => ?_⟩
  obtain ⟨id, source, rfl⟩ := hworkers w hw
  exact Worker.borrows_new config id source

theorem Borrows.step (hc : c.Borrows config) (e : Event) : (c.step e).Borrows config := by
  refine ⟨(c.size_step e).trans hc.size_eq, ?_⟩
  cases e with
  | signal client now s =>
    rw [Chronicle.step, work]
    split
    · exact hc.worker
    · next w hw =>
      dsimp only
      rw [Run.work_eq hw]
      intro w' hw'
      rcases Array.mem_or_eq_of_mem_setIfInBounds hw' with hw' | rfl
      · exact hc.worker w' hw'
      · exact (hc.worker w (Array.mem_of_getElem? hw)).turnAt ⟨_, now, s⟩
  | wakeup now cause =>
    rw [Chronicle.step]
    split
    · rw [(c.attend_frame now cause).2.1]
      exact hc.worker
    · exact hc.worker

omit [Weights.Weight R] in
/-- A run has no more connections than the pools of all its workers have room for. -/
theorem Borrows.live_le (hc : c.Borrows config) :
    c.run.live ≤
      config.general.clients * (config.endpoints.length * max config.general.poolsize 1) := by
  have hworker : ∀ n ∈ c.run.workers.toList.map (·.live),
      n ≤ config.endpoints.length * max config.general.poolsize 1 := by
    intro n hn
    obtain ⟨w, hw, rfl⟩ := List.mem_map.1 hn
    exact (hc.worker w (Array.mem_toList_iff.1 hw)).live_le
  have hsum := List.sum_le_card_nsmul _ _ hworker
  rwa [List.length_map, Array.length_toList, hc.size_eq, smul_eq_mul] at hsum

/-- **The open files that a run is prepared for cover its connections.** They are the clients times
the connections in a pool times the endpoints, and 64 more, as far as that has 64 bits; and at any
time of a run the connections of all its workers, of which each pool keeps an exact account, are no
more than that product. -/
theorem live_within_descriptors (hconfig : config.Accepted) (hends : config.endpoints ≠ []) :
    config.requiredDescriptors =
        min (config.general.clients * config.general.poolsize * config.endpoints.length + 64)
          (2 ^ 64 - 1) ∧
      ∀ entropy events (c : Chronicle R), run? config entropy events = some c →
        (∀ w ∈ c.run.workers, ∀ i p, w.pools[i]? = some p →
          p.live = p.idle.length + heldBy (w.phase.acquiresAt i) + (w.phase.loansAt i).length ∧
            p.live ≤ config.general.poolsize) ∧
        c.run.live ≤
          config.general.clients * config.general.poolsize * config.endpoints.length := by
  have hpos : max config.general.poolsize 1 = config.general.poolsize :=
    Nat.max_eq_left hconfig.poolsize_pos
  refine ⟨Config.requiredDescriptors_eq hends, fun entropy events c hc => ?_⟩
  have hborrows : c.Borrows config :=
    of_run? (fun _ _ => borrows_start) (fun _ e hc => hc.step e) hc
  refine ⟨fun w hw i p hp => ?_, ?_⟩
  · obtain ⟨dropped, hsound⟩ := (hborrows.worker w hw).sound hp
    have hcapacity := (hborrows.worker w hw).capacity_eq hp
    rw [hpos] at hcapacity
    exact ⟨hsound.live_eq, hcapacity ▸ hsound.live_le⟩
  · have hlive := hborrows.live_le
    rwa [hpos, Nat.mul_comm config.endpoints.length, ← Nat.mul_assoc] at hlive

/-- One client has a connection, and the other one is about to get one. -/
def crowded : Chronicle ℚ :=
  (run? Trial.duo 0 (told 0 .zero [.resume, .resume, .acquire (.connected 0)] ++
    told 1 .zero [.resume, .resume])).get (by decide +kernel)

theorem live_within_descriptors_crowded :
    Trial.duo.requiredDescriptors = 66 ∧ crowded.run.live = 2 ∧
      crowded.run.live ≤ Trial.duo.general.clients * Trial.duo.general.poolsize *
        Trial.duo.endpoints.length := by
  obtain ⟨hfiles, hlive⟩ := live_within_descriptors Trial.accepted_duo (by decide +kernel)
  refine ⟨?_, by decide +kernel, (hlive 0 _ crowded (Option.some_get _).symm).2⟩
  rw [hfiles]
  decide +kernel

end Chronicle

end LoadGen
