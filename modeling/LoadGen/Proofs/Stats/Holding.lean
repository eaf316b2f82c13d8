import LoadGen.Proofs.Stats.Windowing

/-!
# What a collector holds

Between two flushes the buffers of a collector hold the entries recorded since the last one
(`Collector.Holds`). A flush that comes between two turns seals the window that counts these
entries, and leaves a collector that holds none (`Collector.Holds.flush`).
-/

namespace LoadGen.Stats

namespace WindowStats

/-- Counting entries and then others adds up. -/
theorem value_countAll_append (entries rest : List Entry) (c : Counter) :
    (empty.countAll (entries ++ rest)).value c =
      (empty.countAll entries).value c + (empty.countAll rest).value c := by
  rw [value_countAll, value_countAll, value_countAll, value_empty, Nat.zero_add, Nat.zero_add,
    Nat.zero_add, List.map_append, List.sum_append]

/-- The windows of two lists of entries, merged, are the window of both. -/
theorem merge_countAll (entries rest : List Entry) :
    (empty.countAll entries).merge (empty.countAll rest) = empty.countAll (entries ++ rest) := by
  have hrest : (empty.countAll rest).Proper := proper_empty.countAll rest
  refine ((proper_empty.countAll entries).merge hrest).ext (proper_empty.countAll _) fun c => ?_
  rw [value_merge hrest, value_countAll_append]

end WindowStats

/-- Flushed buffers are empty, and the window counts what was in them. -/
theorem Sealing.swapAll_spec {sealing : Sealing} {buffers : List WindowStats}
    (hspare : sealing.spare = .empty) (hmerged : sealing.merged.Proper)
    (hbuffers : ∀ b ∈ buffers, b.Proper) :
    (sealing.swapAll buffers).2 = buffers.map (fun _ => .empty) ∧
      (sealing.swapAll buffers).1.merged.Proper ∧
      ∀ c, (sealing.swapAll buffers).1.merged.value c =
        sealing.merged.value c + (buffers.map (·.value c)).sum := by
  induction buffers generalizing sealing with
  | nil => exact ⟨rfl, hmerged, fun _ => rfl⟩
  | cons buffer rest ih =>
    obtain ⟨hbuffer, hrest⟩ := List.forall_mem_cons.1 hbuffers
    have hswap : (sealing.swap buffer).1.spare = .empty := buffer.reset_eq_empty
    obtain ⟨hempty, hproper, hvalue⟩ := ih hswap (hmerged.merge hbuffer) hrest
    refine ⟨?_, hproper, fun c => ?_⟩
    · rw [swapAll, List.map_cons, ← hempty, ← hspare]
      rfl
    · rw [List.map_cons, List.sum_cons, ← Nat.add_assoc, ← WindowStats.value_merge hbuffer]
      exact hvalue c

namespace Collector

/-- The buffers hold some entries, and nothing else. -/
structure Holds (c : Collector) (entries : List Entry) : Prop where
  proper : ∀ b ∈ c.buffers, b.Proper
  sum_eq : ∀ counter, (c.buffers.map (·.value counter)).sum = (entries.map (·.value counter)).sum

namespace Holds

theorem empty : Holds .empty [] := ⟨nofun, fun _ => rfl⟩

variable {c : Collector} {entries : List Entry} (h : c.Holds entries)

include h

theorem register : c.register.Holds entries := by
  refine ⟨?_, fun counter => ?_⟩
  · exact List.forall_mem_append.2
      ⟨h.proper, List.forall_mem_singleton.2 WindowStats.proper_empty⟩
  · rw [Collector.register, Lists.sum_map_concat, h.sum_eq, WindowStats.value_empty, Nat.add_zero]

/-- A worker that has a buffer records. -/
theorem update {worker : Nat} (hworker : worker < c.buffers.length) (more : List Entry) :
    (c.update worker fun b => more.foldl WindowStats.count b).Holds (entries ++ more) := by
  have hget := List.getElem?_eq_getElem hworker
  have hset : (c.update worker fun b => more.foldl WindowStats.count b).buffers =
      c.buffers.set worker (c.buffers[worker].countAll more) :=
    Lists.modify_eq_set hget _
  refine ⟨?_, fun counter => ?_⟩
  · rw [hset]
    exact Lists.forall_mem_set h.proper ((h.proper _ (List.getElem_mem hworker)).countAll more)
  · have hsum := Lists.sum_map_set (·.value counter) hget (c.buffers[worker].countAll more)
    have hheld := h.sum_eq counter
    rw [WindowStats.value_countAll] at hsum
    rw [hset, List.map_append, List.sum_append]
    omega

/-- **A flush seals the window that counts the entries, and nothing is held any more.** -/
theorem flush : c.flush.1 = WindowStats.empty.countAll entries ∧ c.flush.2.Holds [] := by
  have hstart : Sealing.start.spare = .empty := rfl
  obtain ⟨hempty, hproper, hvalue⟩ :=
    Sealing.swapAll_spec hstart WindowStats.proper_empty h.proper
  refine ⟨hproper.ext (WindowStats.proper_empty.countAll entries) fun counter => ?_, ?_, ?_⟩
  · rw [hvalue, h.sum_eq, WindowStats.value_countAll]
    rfl
  · show ∀ b ∈ (Sealing.start.swapAll c.buffers).2, b.Proper
    rw [hempty]
    exact List.forall_mem_map.2 fun _ _ => WindowStats.proper_empty
  · intro counter
    show ((Sealing.start.swapAll c.buffers).2.map (·.value counter)).sum = 0
    rw [hempty, List.map_map]
    exact List.sum_eq_zero (by simp)

end Holds

/-- Workers that join bring nothing with them. -/
theorem Holds.registerAll {α : Type} (workers : List α) {c : Collector} {entries : List Entry}
    (h : c.Holds entries) : (workers.foldl (fun c _ => c.register) c).Holds entries := by
  induction workers generalizing c with
  | nil => exact h
  | cons w rest ih => exact ih h.register

theorem length_registerAll {α : Type} (workers : List α) (c : Collector) :
    (workers.foldl (fun c _ => c.register) c).buffers.length =
      c.buffers.length + workers.length := by
  induction workers generalizing c with
  | nil => rfl
  | cons w rest ih =>
    rw [List.foldl_cons, ih, register, List.length_append, List.length_singleton, List.length_cons,
      Nat.add_assoc, Nat.add_comm 1]

theorem length_flush (c : Collector) : c.flush.2.buffers.length = c.buffers.length :=
  Sealing.length_swapAll _ _

end Collector

end LoadGen.Stats
