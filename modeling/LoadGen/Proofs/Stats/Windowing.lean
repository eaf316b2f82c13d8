import LoadGen.Proofs.Lists.Places
import LoadGen.Proofs.Stats.Counters

/-!
# Windows add up

Workers record while windows are sealed. A `Session` is a collector at work: workers join it, record
into their buffers, and flushes take these buffers one after the other, each flush at its own pace
and any number of them at a time, so that records fall between two swaps of one flush.

Nothing is lost on the way. Whatever has been recorded is in one of the pieces of the session: the
windows that were flushed, the windows still being sealed, and the buffers (`Session.Sound`). Merged
in any order and grouping they are the window that counts all entries, and the steps of a flush
with nothing in between are `Collector.flush` (`windows_add_up`).
-/

namespace LoadGen.Stats

/-! ## Merging windows -/

/-- Windows that are merged, in some order and grouping. -/
inductive Grouping
  /-- No window. -/
  | nothing
  | window (w : WindowStats)
  | merge (g h : Grouping)

namespace Grouping

/-- The windows that are merged. -/
def windows : Grouping → List WindowStats
  | nothing => []
  | window w => [w]
  | merge g h => g.windows ++ h.windows

/-- What they are together. -/
def merged : Grouping → WindowStats
  | nothing => .empty
  | window w => w
  | merge g h => g.merged.merge h.merged

end Grouping

/-- Whether the histograms of a window can be added to those of another one. -/
def WindowStats.Accepts (w v : WindowStats) : Prop :=
  ∀ a, ((w.action a).latency.add? (v.action a).latency).isSome = true

/-- Whether no histogram is refused on the way. -/
def Grouping.Accepted : Grouping → Prop
  | nothing | window _ => True
  | merge g h => g.Accepted ∧ h.Accepted ∧ g.merged.Accepts h.merged

theorem WindowStats.Proper.accepts {v : WindowStats} (hv : v.Proper) (w : WindowStats) :
    w.Accepts v := fun a => by
  rw [(hv a).add?_eq, Option.isSome_some]

namespace Grouping

variable {g : Grouping}

theorem proper_merged (hg : ∀ w ∈ g.windows, w.Proper) : g.merged.Proper := by
  induction g with
  | nothing => exact WindowStats.proper_empty
  | window w => exact hg w List.mem_cons_self
  | merge g h ihg ihh =>
    obtain ⟨hg, hh⟩ := List.forall_mem_append.1 hg
    exact (ihg hg).merge (ihh hh)

theorem accepted (hg : ∀ w ∈ g.windows, w.Proper) : g.Accepted := by
  induction g with
  | nothing => trivial
  | window w => trivial
  | merge g h ihg ihh =>
    obtain ⟨hg, hh⟩ := List.forall_mem_append.1 hg
    exact ⟨ihg hg, ihh hh, (proper_merged hh).accepts _⟩

/-- Merged windows say the sum of what each of them says. -/
theorem value_merged (hg : ∀ w ∈ g.windows, w.Proper) (c : Counter) :
    g.merged.value c = (g.windows.map (·.value c)).sum := by
  induction g with
  | nothing => exact WindowStats.value_empty c
  | window w => simp [windows, merged]
  | merge g h ihg ihh =>
    obtain ⟨hg, hh⟩ := List.forall_mem_append.1 hg
    rw [merged, WindowStats.value_merge (proper_merged hh), ihg hg, ihh hh, windows,
      List.map_append, List.sum_append]

end Grouping

/-! ## Collectors at work -/

theorem Sealing.length_swapAll (sealing : Sealing) (buffers : List WindowStats) :
    (sealing.swapAll buffers).2.length = buffers.length := by
  induction buffers generalizing sealing with
  | nil => rfl
  | cons buffer rest ih => exact congrArg (· + 1) (ih _)

/-- A flush under way: the worker whose buffer it takes next, and the window so far. -/
structure Flush where
  next : Nat
  sealing : Sealing
  deriving Repr

/-- A collector at work, with the windows that were flushed, and with all entries that were
recorded, in order. -/
structure Session where
  collector : Collector
  flushes : List Flush
  windows : List WindowStats
  entries : List Entry
  deriving Repr

namespace Session

def start : Session := ⟨.empty, [], [], []⟩

/-- What can happen. -/
inductive Event
  /-- A worker joins. -/
  | register
  | record (worker : Nat) (e : Entry)
  | startFlush
  /-- A flush takes the buffer of its next worker. -/
  | swap (flush : Nat)
  /-- A flush that has taken all buffers ends. -/
  | endFlush (flush : Nat)
  deriving Repr

/-- What an event does; nothing if it cannot happen. Workers do not join during a flush. -/
def step? (s : Session) : Event → Option Session
  | .register =>
    if s.flushes.isEmpty then some { s with collector := s.collector.register } else none
  | .record worker e =>
    if worker < s.collector.buffers.length then
      some { s with
        collector := s.collector.update worker (·.count e)
        entries := s.entries ++ [e] }
    else none
  | .startFlush => some { s with flushes := s.flushes ++ [⟨0, .start⟩] }
  | .swap flush => do
    let f ← s.flushes[flush]?
    let buffer ← s.collector.buffers[f.next]?
    let (sealing, fresh) := f.sealing.swap buffer
    some { s with
      collector := ⟨s.collector.buffers.set f.next fresh⟩
      flushes := s.flushes.set flush ⟨f.next + 1, sealing⟩ }
  | .endFlush flush => do
    let f ← s.flushes[flush]?
    if f.next < s.collector.buffers.length then none
    else
      some { s with
        flushes := s.flushes.eraseIdx flush
        windows := s.windows ++ [f.sealing.merged] }

/-- What events do in order. -/
def steps? (s : Session) : List Event → Option Session
  | [] => some s
  | e :: events => do
    let s ← s.step? e
    s.steps? events

theorem steps?_append (s : Session) (events rest : List Event) :
    s.steps? (events ++ rest) = (s.steps? events).bind (·.steps? rest) := by
  induction events generalizing s with
  | nil => rfl
  | cons e events ih =>
    simp only [List.cons_append, steps?, ih]
    cases s.step? e <;> rfl

/-- A flush that is alone with the buffers takes those that it has not taken yet. -/
theorem steps?_swaps (c : Collector) (windows : List WindowStats) (entries : List Entry)
    (sealing : Sealing) (taken rest : List WindowStats) (hc : c.buffers = taken ++ rest) :
    steps? ⟨c, [⟨taken.length, sealing⟩], windows, entries⟩ (.replicate rest.length (.swap 0)) =
      some ⟨⟨taken ++ (sealing.swapAll rest).2⟩, [⟨c.buffers.length, (sealing.swapAll rest).1⟩],
        windows, entries⟩ := by
  obtain ⟨buffers⟩ := c
  obtain rfl : buffers = taken ++ rest := hc
  induction rest generalizing sealing taken with
  | nil => simp [steps?, Sealing.swapAll]
  | cons buffer rest ih =>
    have hstep : step? ⟨⟨taken ++ buffer :: rest⟩, [⟨taken.length, sealing⟩], windows, entries⟩
        (.swap 0) = some ⟨⟨(taken ++ [sealing.spare]) ++ rest⟩,
          [⟨(taken ++ [sealing.spare]).length, (sealing.swap buffer).1⟩], windows, entries⟩ := by
      simp [step?, Sealing.swap]
    rw [List.length_cons, List.replicate_succ, steps?, hstep]
    have := ih (sealing.swap buffer).1 (taken ++ [sealing.spare])
    simpa [Sealing.swapAll, Sealing.swap] using this

/-- **The steps of a flush with nothing in between are `Collector.flush`.** -/
theorem steps?_flush (c : Collector) (windows : List WindowStats) (entries : List Entry) :
    steps? ⟨c, [], windows, entries⟩
        (.startFlush :: .replicate c.buffers.length (.swap 0) ++ [.endFlush 0]) =
      some ⟨c.flush.2, [], windows ++ [c.flush.1], entries⟩ := by
  have hswaps := steps?_swaps c windows entries .start [] c.buffers rfl
  rw [List.cons_append, steps?]
  change (steps? ⟨c, [⟨0, .start⟩], windows, entries⟩ _) = _
  rw [steps?_append]
  simp only [List.length_nil] at hswaps
  rw [hswaps]
  simp [steps?, step?, Sealing.length_swapAll, Collector.flush]

/-- All windows there are: those that were flushed, those being sealed, and the buffers. -/
def pieces (s : Session) : List WindowStats :=
  s.windows ++ s.flushes.map (·.sealing.merged) ++ s.collector.buffers

/-- The windows merged so far are proper, and the spare buffer is empty. -/
structure Flush.Sound (f : Flush) : Prop where
  proper : f.sealing.merged.Proper
  spare_eq : f.sealing.spare = .empty

theorem Flush.sound_start : Flush.Sound ⟨0, .start⟩ := ⟨WindowStats.proper_empty, rfl⟩

/-- What the pieces of a session say adds up to what was recorded. -/
structure Sound (s : Session) : Prop where
  windows : ∀ w ∈ s.windows, w.Proper
  flushes : ∀ f ∈ s.flushes, Flush.Sound f
  buffers : ∀ w ∈ s.collector.buffers, w.Proper
  balanced : ∀ c, (s.windows.map (·.value c)).sum +
    (s.flushes.map fun f => f.sealing.merged.value c).sum +
    (s.collector.buffers.map (·.value c)).sum = (s.entries.map (·.value c)).sum

theorem sound_start : start.Sound := ⟨nofun, nofun, nofun, fun _ => rfl⟩

namespace Sound

variable {s s' : Session} (hs : s.Sound)

include hs

theorem proper_pieces : ∀ w ∈ s.pieces, w.Proper := by
  have hflushes : ∀ w ∈ s.flushes.map (·.sealing.merged), w.Proper :=
    List.forall_mem_map.2 fun f hf => (hs.flushes f hf).proper
  exact List.forall_mem_append.2 ⟨List.forall_mem_append.2 ⟨hs.windows, hflushes⟩, hs.buffers⟩

theorem sum_pieces (c : Counter) :
    (s.pieces.map (·.value c)).sum = (s.entries.map (·.value c)).sum := by
  rw [← hs.balanced c, pieces, List.map_append, List.map_append, List.sum_append, List.sum_append,
    List.map_map]
  rfl

theorem register (h : s.step? .register = some s') : s'.Sound := by
  simp only [step?] at h
  split at h
  · cases h
    refine ⟨hs.windows, hs.flushes, ?_, fun c => ?_⟩
    · exact List.forall_mem_append.2
        ⟨hs.buffers, List.forall_mem_singleton.2 WindowStats.proper_empty⟩
    · have := hs.balanced c
      simp only [Collector.register, Lists.sum_map_concat, WindowStats.value_empty]
      omega
  · cases h

theorem record {worker : Nat} {e : Entry} (h : s.step? (.record worker e) = some s') :
    s'.Sound := by
  simp only [step?] at h
  split at h
  · next hworker =>
    cases h
    have hget := List.getElem?_eq_getElem hworker
    have hset : (s.collector.update worker (·.count e)).buffers =
        s.collector.buffers.set worker (s.collector.buffers[worker].count e) :=
      Lists.modify_eq_set hget _
    refine ⟨hs.windows, hs.flushes, ?_, fun c => ?_⟩
    · have hproper := (hs.buffers _ (List.getElem_mem hworker)).count e
      rw [hset]
      exact Lists.forall_mem_set hs.buffers hproper
    · have hsum := Lists.sum_map_set (·.value c) hget (s.collector.buffers[worker].count e)
      have := hs.balanced c
      rw [WindowStats.value_count] at hsum
      simp only [hset, Lists.sum_map_concat]
      omega
  · cases h

theorem startFlush (h : s.step? .startFlush = some s') : s'.Sound := by
  cases h
  refine ⟨hs.windows, ?_, hs.buffers, fun c => ?_⟩
  · exact List.forall_mem_append.2 ⟨hs.flushes, List.forall_mem_singleton.2 Flush.sound_start⟩
  · have := hs.balanced c
    simp only [Lists.sum_map_concat, Sealing.start, WindowStats.value_empty]
    omega

theorem swap {flush : Nat} (h : s.step? (.swap flush) = some s') : s'.Sound := by
  obtain ⟨f, hf, h⟩ := Option.bind_eq_some_iff.1 h
  obtain ⟨buffer, hbuffer, h⟩ := Option.bind_eq_some_iff.1 h
  cases h
  have hproper := hs.buffers buffer (List.mem_of_getElem? hbuffer)
  have hsound := hs.flushes f (List.mem_of_getElem? hf)
  have hspare := hsound.spare_eq
  refine ⟨hs.windows, ?_, ?_, fun c => ?_⟩
  · exact Lists.forall_mem_set hs.flushes
      ⟨hsound.proper.merge hproper, WindowStats.reset_eq_empty buffer⟩
  · refine Lists.forall_mem_set hs.buffers ?_
    rw [hspare]
    exact WindowStats.proper_empty
  · -- what the buffer loses the window gains
    have hbuffers := Lists.sum_map_set (·.value c) hbuffer f.sealing.spare
    have hflushes := Lists.sum_map_set (fun f => f.sealing.merged.value c) hf
      ⟨f.next + 1, f.sealing.merged.merge buffer, buffer.reset⟩
    have := hs.balanced c
    rw [hspare, WindowStats.value_empty] at hbuffers
    rw [WindowStats.value_merge hproper] at hflushes
    simp only [hspare]
    omega

theorem endFlush {flush : Nat} (h : s.step? (.endFlush flush) = some s') : s'.Sound := by
  obtain ⟨f, hf, h⟩ := Option.bind_eq_some_iff.1 h
  split at h
  · cases h
  · cases h
    have hproper := (hs.flushes f (List.mem_of_getElem? hf)).proper
    refine ⟨?_, fun f' hf' => hs.flushes f' (List.mem_of_mem_eraseIdx hf'), hs.buffers,
      fun c => ?_⟩
    · exact List.forall_mem_append.2 ⟨hs.windows, List.forall_mem_singleton.2 hproper⟩
    · have hflushes := Lists.sum_map_eraseIdx (fun f => f.sealing.merged.value c) hf
      have := hs.balanced c
      simp only [Lists.sum_map_concat]
      omega

theorem step? {e : Event} (h : s.step? e = some s') : s'.Sound := by
  cases e with
  | register => exact hs.register h
  | record worker e => exact hs.record h
  | startFlush => exact hs.startFlush h
  | swap flush => exact hs.swap h
  | endFlush flush => exact hs.endFlush h

theorem steps? {events : List Event} (h : s.steps? events = some s') : s'.Sound := by
  induction events generalizing s with
  | nil =>
    cases h
    exact hs
  | cons e events ih =>
    obtain ⟨s₁, h₁, h⟩ := Option.bind_eq_some_iff.1 h
    exact ih (hs.step? h₁) h

end Sound

/-! ## What the windows say -/

/-- Merging the pieces in any order and grouping counts all entries, and is never refused. -/
theorem Sound.merged_eq {s : Session} (hs : s.Sound) {g : Grouping} {entries : List Entry}
    (hg : g.windows.Perm s.pieces) (hentries : entries.Perm s.entries) :
    g.merged = WindowStats.empty.countAll entries ∧ g.Accepted := by
  have hproper : ∀ w ∈ g.windows, w.Proper := fun w hw =>
    hs.proper_pieces w (hg.mem_iff.1 hw)
  have hvalue (c : Counter) : g.merged.value c = (WindowStats.empty.countAll entries).value c :=
    calc
      g.merged.value c = (g.windows.map (·.value c)).sum := Grouping.value_merged hproper c
      _ = (s.pieces.map (·.value c)).sum := (hg.map _).sum_eq
      _ = (s.entries.map (·.value c)).sum := hs.sum_pieces c
      _ = (entries.map (·.value c)).sum := (hentries.symm.map _).sum_eq
      _ = (WindowStats.empty.countAll entries).value c := by
        rw [WindowStats.value_countAll, WindowStats.value_empty, Nat.zero_add]
  exact ⟨(Grouping.proper_merged hproper).ext (WindowStats.proper_empty.countAll entries) hvalue,
    Grouping.accepted hproper⟩

/-- A swap can be made, is not refused, and leaves an empty buffer behind. -/
theorem Sound.exists_swap {s : Session} (hs : s.Sound) {flush : Nat} {f : Flush}
    {buffer : WindowStats} (hf : s.flushes[flush]? = some f)
    (hbuffer : s.collector.buffers[f.next]? = some buffer) :
    f.sealing.merged.Accepts buffer ∧ ∃ s', s.step? (.swap flush) = some s' ∧
      s'.collector.buffers = s.collector.buffers.set f.next .empty := by
  have hproper := hs.buffers buffer (List.mem_of_getElem? hbuffer)
  have hspare := (hs.flushes f (List.mem_of_getElem? hf)).spare_eq
  have hstep : s.step? (.swap flush) = some { s with
      collector := ⟨s.collector.buffers.set f.next f.sealing.spare⟩
      flushes := s.flushes.set flush ⟨f.next + 1, (f.sealing.swap buffer).1⟩ } := by
    simp [Session.step?, hf, hbuffer, Sealing.swap]
  exact ⟨hproper.accepts _, _, hstep, by rw [hspare]⟩

/-- **Windows add up.** However workers record while flushes take their buffers one by one, the
windows that were flushed, those being sealed and the buffers, merged in any order and grouping,
are the window that counts everything that was recorded, and no histogram is refused. Nor is one
when a flush takes a buffer, and the buffer that it leaves behind is empty. A flush with nothing in
between is that of the collector. -/
theorem windows_add_up {events : List Event} {s : Session} (h : start.steps? events = some s) :
    (∀ g : Grouping, ∀ entries : List Entry, g.windows.Perm s.pieces → entries.Perm s.entries →
      g.merged = WindowStats.empty.countAll entries ∧ g.Accepted) ∧
    (∀ flush f buffer, s.flushes[flush]? = some f → s.collector.buffers[f.next]? = some buffer →
      f.sealing.merged.Accepts buffer ∧ ∃ s', s.step? (.swap flush) = some s' ∧
        s'.collector.buffers = s.collector.buffers.set f.next .empty) ∧
    (s.flushes = [] →
      s.steps? (.startFlush :: .replicate s.collector.buffers.length (.swap 0) ++ [.endFlush 0]) =
        some { s with
          collector := s.collector.flush.2
          windows := s.windows ++ [s.collector.flush.1] }) := by
  have hs : s.Sound := sound_start.steps? h
  refine ⟨fun _ _ hg hentries => hs.merged_eq hg hentries,
    fun _ _ _ hf hbuffer => hs.exists_swap hf hbuffer, fun halone => ?_⟩
  obtain ⟨collector, flushes, windows, entries⟩ := s
  obtain rfl : flushes = [] := halone
  exact steps?_flush collector windows entries

/-- Two workers record while a flush takes their buffers: the entry that comes after the first swap
is left for the second flush, which is still under way. -/
def overlap : List Event :=
  [.register, .register, .record 0 ⟨.insert, .success, ⟨5000000⟩, 40, 5⟩, .startFlush, .swap 0,
    .record 0 ⟨.find, .expectedMiss, ⟨70000000000⟩, 30, 20⟩,
    .record 1 ⟨.find, .failure .timeout, ⟨3000000⟩, 0, 0⟩, .swap 0, .endFlush 0, .startFlush,
    .swap 0]

theorem windows_add_up_overlap :
    ∃ s, start.steps? overlap = some s ∧ s.pieces.length = 4 ∧ s.entries.length = 3 ∧
      (∀ g : Grouping, ∀ entries : List Entry, g.windows.Perm s.pieces → entries.Perm s.entries →
        g.merged = WindowStats.empty.countAll entries ∧ g.Accepted) ∧
      ∀ flush f buffer, s.flushes[flush]? = some f → s.collector.buffers[f.next]? = some buffer →
        f.sealing.merged.Accepts buffer ∧ ∃ s', s.step? (.swap flush) = some s' ∧
          s'.collector.buffers = s.collector.buffers.set f.next .empty := by
  obtain ⟨s, hs, hpieces, hentries⟩ : ∃ s, start.steps? overlap = some s ∧ s.pieces.length = 4 ∧
      s.entries.length = 3 := ⟨_, rfl, rfl, rfl⟩
  obtain ⟨hmerged, hswap, -⟩ := windows_add_up hs
  exact ⟨s, hs, hpieces, hentries, hmerged, hswap⟩

end Session

end LoadGen.Stats
