import LoadGen.Proofs.Random.Words
import LoadGen.Proofs.Run.Sights
import LoadGen.Proofs.Trial.Clients

/-!
# Draws under any schedule

What a client draws is made of its own random words, but the number of words that a selection takes
depends on what the others did: a delete in a tracked keyspace draws its structure only if there
are more than the low watermark, and a second word decides now and then (`Draw.words`). With these
numbers the source of a selection is known (`Config.sourceAt`), and so is its draw
(`Worker.Sound.drawn_eq_pick`). Two runs with one seed therefore agree on the draws of a client up
to the first delete that takes another number of words (`Chronicle.draws_agree`), and may disagree
after it (`Chronicle.draws_disagree`).
-/

namespace LoadGen

open Config (Keyspace Command Action)
open Time (Span)

variable {R : Type}

/-! ## Words -/

namespace Random.Source

/-- The number of words that `scaled` takes if `draw` takes one. -/
def scaledWords (width : Nat) (draw : Source → Nat × Source) (n : Nat) (s : Source) : Nat :=
  if Nat.pow 2 width - n < (draw s).1 * n % Nat.pow 2 width then 2 else 1

/-- The number of words that `position` takes. -/
def positionWords (n : Nat) (s : Source) : Nat :=
  if n < UInt32.size then scaledWords 32 nextHalf n s
  else scaledWords 64 (fun s => let (word, s) := s.next; (word.toNat, s)) n s

theorem scaled_source {width : Nat} {draw : Source → Nat × Source}
    (hdraw : ∀ s, (draw s).2 = s.next.2) (n : Nat) (s : Source) :
    (scaled width draw n s).2 = s.skip (scaledWords width draw n s) := by
  simp only [scaled, scaledWords]
  split
  · show (draw (draw s).2).2 = _
    rw [hdraw, hdraw]
    rfl
  · exact hdraw s

theorem position_source (n : Nat) (s : Source) :
    (position n s).2 = s.skip (positionWords n s) := by
  rw [position, positionWords]
  split
  · exact scaled_source (fun _ => rfl) n s
  · exact scaled_source (fun _ => rfl) n s

end Random.Source

/-! ## Draws -/

/-- What a selection draws. -/
structure Draw (R : Type) where
  keyspace : Keyspace R
  command : Command
  /-- How many words it takes to draw the structure that is to be deleted. -/
  words : Nat

namespace Config

variable [Weights.Weight R]

/-- The keyspace and the command that a selection draws from a source. -/
def pick (config : Config R) (source : Random.Source) : Keyspace R × Command :=
  let (keyspace, source) := config.keyspaces.sample source
  (keyspace, (keyspace.commands.sample source).1)

/-- The source after a selection and its request, with so many words for the structure of a
delete. -/
def resume (config : Config R) (source : Random.Source) (words : Nat) : Random.Source :=
  let (keyspace, source) := config.keyspaces.sample source
  let (command, source) := keyspace.commands.sample source
  if command.action = .delete ∧ keyspace.tracksLifecycle then source.skip words
  else
    let (_, source) := keyspace.drawIndex source
    match keyspace.values with
    | some values =>
      if command.action.carriesValue then
        let (spec, source) := values.sample source
        (Workload.drawValues spec (if command.action = .find then 1 else command.items) source).2
      else source
    | none => source

/-- The source after selections with so many words for their structures, in order. -/
def sourceAt (config : Config R) (source : Random.Source) : List Nat → Random.Source
  | [] => source
  | words :: rest => config.sourceAt (config.resume source words) rest

end Config

namespace Workload

/-- How many words a command takes to draw the structure that it deletes. A delete that the low
watermark forbids takes none. -/
def victimWords (w : Workload R) (k : Keyspace R) (action : Action) (source : Random.Source) :
    Nat :=
  match action, w.state? k.ordinal with
  | .delete, some s =>
    if s.existing ≤ s.watermarks.low then 0 else source.positionWords s.keys.size
  | _, _ => 0

/-- What the next selection draws. -/
def draw [Weights.Weight R] (w : Workload R) (source : Random.Source) : Draw R :=
  let (keyspace, source) := w.config.keyspaces.sample source
  let (command, source) := keyspace.commands.sample source
  ⟨keyspace, command, w.victimWords keyspace command.action source⟩

end Workload

/-- The source after a selection and its request. -/
def Selection.sourceAfter (selection : Selection R) (source : Random.Source) : Random.Source :=
  match selection with
  | .skipped .. => source
  | .dispatched o => (Worker.request o source).2

namespace Workload

variable [Weights.Weight R] {config : Config R} {w w' : Workload R}

/-- A delete draws a structure if the low watermark admits it. -/
theorem source_tryDelete {s s' : Lifecycle} {source source' : Random.Source} {t : Transition}
    (h : s.tryDelete source = .ok (t, s', source')) :
    source' = source.skip
      (if s.existing ≤ s.watermarks.low then 0 else source.positionWords s.keys.size) := by
  rw [Lifecycle.tryDelete] at h
  split at h
  · next hlow =>
    cases h
    rw [if_pos hlow]
    rfl
  · next hlow =>
    rw [if_neg hlow]
    split at h
    · cases h
    split at h
    · cases h
    cases h
    exact Random.Source.position_source _ _

omit [Weights.Weight R] in
/-- Other commands than deletes of tracked structures draw a key from the words that come next. -/
theorem source_claim {k : Keyspace R} {action : Action} {source source' : Random.Source}
    {claimed : Option (Nat × Option Bool)}
    (h : w.claim k action source = .ok (claimed, w', source')) :
    source' =
      if action = .delete ∧ (w.state? k.ordinal).isSome then
        source.skip (w.victimWords k action source)
      else (k.drawIndex source).2 := by
  by_cases hkey : (w.state? k.ordinal).isSome → action.isLifecycle = false
  · cases (claim_eq hkey source).symm.trans h
    rw [if_neg]
    rintro ⟨rfl, hstate⟩
    cases hkey hstate
  · rw [Classical.not_imp] at hkey
    obtain ⟨s, hs⟩ := Option.isSome_iff_exists.1 hkey.1
    cases action with
    | create =>
      simp only [claim, hs] at h
      rw [if_neg (by simp)]
      obtain ⟨⟨t, s'⟩, -, h⟩ := Config.bind_eq_ok.1 h
      cases t <;> cases h <;> rfl
    | delete =>
      simp only [claim, hs] at h
      rw [if_pos ⟨rfl, hkey.1⟩]
      simp only [victimWords, hs]
      obtain ⟨⟨t, s', source₁⟩, htry, h⟩ := Config.bind_eq_ok.1 h
      have hsource := source_tryDelete htry
      cases t <;> cases h <;> exact hsource
    | _ => exact absurd rfl hkey.2

omit [Weights.Weight R] in
/-- Only a create or a delete can claim nothing. -/
theorem isLifecycle_of_claim {k : Keyspace R} {action : Action} {source source' : Random.Source}
    (h : w.claim k action source = .ok (none, w', source')) : action.isLifecycle = true := by
  by_contra hother
  rw [claim_eq (fun _ => Bool.eq_false_iff.2 hother)] at h
  cases h

/-- **A selection leaves the source that its draw and the words for its structure tell.** -/
theorem Sound.source_select (hw : w.Sound config) {source source' : Random.Source}
    {selection : Selection R} (h : w.select source = .ok (selection, w', source')) :
    selection.sourceAfter source' = config.resume source (w.draw source).words := by
  have hmem : (config.keyspaces.sample source).1 ∈ config.keyspaces.items := List.getElem_mem _
  rw [select, hw.config_eq] at h
  rw [draw, hw.config_eq, Config.resume]
  generalize config.keyspaces.sample source = sampled at hmem h ⊢
  obtain ⟨k, source⟩ := sampled
  dsimp only at hmem h ⊢
  generalize k.commands.sample source = sampled at h ⊢
  obtain ⟨command, source⟩ := sampled
  dsimp only at h ⊢
  obtain ⟨⟨claimed, w₁, source₁⟩, hclaim, h⟩ := Config.bind_eq_ok.1 h
  have hsource := source_claim hclaim
  rw [hw.isSome_state? k hmem] at hsource
  cases claimed with
  | none =>
    cases h
    have hnone : command.action.carriesValue = false := by
      have hlifecycle := isLifecycle_of_claim hclaim
      cases haction : command.action <;> rw [haction] at hlifecycle <;>
        first | rfl | cases hlifecycle
    rw [Selection.sourceAfter, hsource]
    split
    · rfl
    · cases k.values with
      | none => rfl
      | some values => simp [hnone]
  | some claimed =>
    cases h
    rw [Selection.sourceAfter, Worker.request]
    split at hsource
    · next hdelete =>
      have hnone : command.action.carriesValue = false := by rw [hdelete.1]; rfl
      rw [if_pos hdelete]
      cases k.values with
      | none => exact hsource
      | some values => simp [hnone, hsource]
    · next hkey =>
      rw [if_neg hkey]
      cases k.values with
      | none => exact hsource
      | some values =>
        by_cases hcarries : command.action.carriesValue = true
        · simp only [hcarries, if_true, hsource]
          rfl
        · simp [hcarries, hsource]

end Workload

/-! ## Draws of a worker -/

namespace Worker

variable [Weights.Weight R] {config : Config R} {w : Worker R}

/-- What a worker draws at a sight. -/
def draws (w : Worker R) (x : Sight R) : List (Draw R) :=
  if w.begins x then [x.shared.workload.draw w.source] else []

/-- What a worker draws at what it sees, in order. -/
def drawn (w : Worker R) : List (Sight R) → List (Draw R)
  | [] => []
  | x :: xs => w.draws x ++ (w.turnAt x).worker.drawn xs

omit [Weights.Weight R] in
theorem source_afterAcquire (w : Worker R) (shared : Shared R) (now : Span) (job : Job R)
    (pool : Nat) (since : Span) (progress : Acquire.Progress) :
    (w.afterAcquire shared now job pool since progress).worker.source = w.source := by
  cases progress <;> rfl

omit [Weights.Weight R] in
theorem source_afterExchange (w : Worker R) (shared : Shared R) (now : Span) (job : Job R)
    (pool : Nat) (since : Span) (connection : Connection) (progress : Exchange.Progress) :
    (w.afterExchange shared now job pool since connection progress).worker.source = w.source := by
  cases progress with
  | reading => rfl
  | finished result =>
    rw [afterExchange]
    dsimp only
    split <;> rfl

/-- Only a worker that begins takes random words. -/
theorem source_turnAt {x : Sight R} (h : w.begins x = false) :
    (w.turnAt x).worker.source = w.source := by
  have hacts := w.acts x
  generalize w.turnAt x = turn at hacts ⊢
  cases hacts with
  | unchanged | started | stopped | cancelled => rfl
  | begun hbegins => cases h.symm.trans hbegins
  | acquired => exact source_afterAcquire ..
  | exchanged => exact source_afterExchange ..

theorem Sound.source_draw (hw : w.Sound config) {shared : Shared R}
    (hworkload : shared.workload.Sound config) (now : Span) :
    (w.draw shared now).worker.source =
      config.resume w.source (shared.workload.draw w.source).words := by
  obtain ⟨selection, workload, source, hselect, -⟩ := hworkload.select_spec w.source
  rw [draw, hselect, ← hworkload.source_select hselect]
  cases selection with
  | skipped keyspace action => rfl
  | dispatched o =>
    dsimp only
    rw [Array.getElem?_eq_getElem hw.nextPool_lt]
    exact source_afterAcquire ..

/-- **Draws are picked from sources** that the words for earlier ones tell. -/
theorem Sound.drawn_eq_pick (hw : w.Sound config) {xs : List (Sight R)}
    (hxs : ∀ x ∈ xs, x.shared.workload.Sound config) {i : Nat} {d : Draw R}
    (hd : (w.drawn xs)[i]? = some d) :
    (d.keyspace, d.command) =
      config.pick (config.sourceAt w.source (((w.drawn xs).take i).map (·.words))) := by
  induction xs generalizing w i with
  | nil => cases hd
  | cons x xs ih =>
    rw [List.forall_mem_cons] at hxs
    have hrest := @ih _ (hw.turnAt hxs.1) hxs.2
    rw [drawn, draws] at hd ⊢
    by_cases hbegins : w.begins x = true
    · rw [if_pos hbegins, List.singleton_append] at hd ⊢
      cases i with
      | zero =>
        cases hd
        rw [List.take_zero, Workload.draw, hxs.1.config_eq]
        rfl
      | succ i =>
        rw [List.take_succ_cons, List.map_cons, Config.sourceAt, ← hw.source_draw hxs.1 x.now,
          ← turnAt_of_begins hbegins]
        exact hrest hd
    · rw [if_neg hbegins, List.nil_append] at hd ⊢
      rw [← source_turnAt (Bool.eq_false_iff.2 hbegins)]
      exact hrest hd

end Worker

/-! ## Draws in runs -/

namespace Chronicle

variable [Weights.Weight R] {config : Config R}

/-- What a client draws in a run from its start, in order. -/
def drawn (config : Config R) (entropy : UInt64) (events : List Event) (client : Nat) :
    List (Draw R) :=
  match Run.start config entropy with
  | .error _ => []
  | .ok (r, _) =>
    match r.workers[client]? with
    | none => []
    | some w => w.drawn ((start r).sights client events)

/-- **Draws under any schedule.** Two runs of a configuration with a seed, whatever the clients and
the network do in either and in whatever order: as long as the deletes of a client took equally many
random words to draw their structures, it draws the same keyspaces and commands in both. -/
theorem draws_agree (hconfig : config.Accepted) (hseed : config.general.seed.isSome)
    {entropy entropy' : UInt64} {events events' : List Event} {client i : Nat} {d d' : Draw R}
    (hd : (drawn config entropy events client)[i]? = some d)
    (hd' : (drawn config entropy' events' client)[i]? = some d')
    (hwords : ∀ j < i, ((drawn config entropy events client)[j]?).map (·.words) =
      ((drawn config entropy' events' client)[j]?).map (·.words)) :
    d.keyspace = d'.keyspace ∧ d.command = d'.command := by
  -- the entropy makes no difference, so both runs begin alike
  rw [drawn, Run.start_of_seed hseed entropy' entropy] at hd'
  rw [drawn] at hd
  simp only [drawn, Run.start_of_seed hseed entropy' entropy] at hwords
  split at hd
  · cases hd
  next r log hr =>
  simp only [hr] at hd' hwords
  split at hd
  · cases hd
  next w hw =>
  simp only [hw] at hd' hwords
  have hsound := sound_start hconfig hr
  have hpick := (hsound.worker w (Array.mem_of_getElem? hw)).drawn_eq_pick
    (hsound.sights client events) hd
  have hpick' := (hsound.worker w (Array.mem_of_getElem? hw)).drawn_eq_pick
    (hsound.sights client events') hd'
  have hsame : ((w.drawn ((start r).sights client events)).take i).map (·.words) =
      ((w.drawn ((start r).sights client events')).take i).map (·.words) := by
    refine List.ext_getElem? fun j => ?_
    simp only [List.getElem?_map, List.getElem?_take]
    split
    · next hj => exact hwords j hj
    · rfl
  rw [hsame, ← hpick'] at hpick
  exact Prod.ext_iff.1 hpick

/-! ### A create and a delete -/

/-- The first client creates a structure. -/
def creates : List Event := told 0 .zero [.resume, .resume]

/-- The second client deletes a structure and then draws once more. -/
def deletes : List Event :=
  told 1 .zero [.resume, .resume, .acquire (.connected 0), .exchange .written,
    .exchange (.received (Wire.textBytes "+OK\r\n")), .resume]

/-- The same without a connection for the delete. -/
def deletesInVain : List Event := told 1 .zero [.resume, .resume, .acquire .timeUp, .resume]

theorem draws_agree_in_vain :
    ∃ d d', (drawn Trial.duo 0 (creates ++ deletes) 1)[1]? = some d ∧
      (drawn Trial.duo 1 (creates ++ deletesInVain) 1)[1]? = some d' ∧
      d.keyspace = d'.keyspace ∧ d.command = d'.command := by
  have hfirst : ((drawn Trial.duo 0 (creates ++ deletes) 1)[1]?).isSome := by decide +kernel
  have hsecond : ((drawn Trial.duo 1 (creates ++ deletesInVain) 1)[1]?).isSome := by decide +kernel
  obtain ⟨d, hd⟩ := Option.isSome_iff_exists.1 hfirst
  obtain ⟨d', hd'⟩ := Option.isSome_iff_exists.1 hsecond
  exact ⟨d, d', hd, hd', draws_agree Trial.accepted_duo (by decide +kernel) hd hd'
    (by decide +kernel)⟩

/-- The signals that a client gets, in order. -/
def signalsTo (client : Nat) (events : List Event) : List (Span × Signal) :=
  events.filterMap fun
    | .signal client' now s => if client' = client then some (now, s) else none
    | .wakeup .. => none

/-- **Draws depend on the schedule.** Whether the second client deletes before or after the first
one creates, each client gets the same signals. Yet the second client draws a create in one run and
a delete in the other: its first delete is held back, and takes no word, if nothing exists. -/
theorem draws_disagree :
    Trial.duo.Accepted ∧ Trial.duo.general.seed.isSome = true ∧
      (∀ client, signalsTo client (creates ++ deletes) = signalsTo client (deletes ++ creates)) ∧
      (drawn Trial.duo 0 (creates ++ deletes) 1).map (·.command.action) = [.delete, .create] ∧
      (drawn Trial.duo 0 (deletes ++ creates) 1).map (·.command.action) = [.delete, .delete] := by
  refine ⟨Trial.accepted_duo, by decide +kernel, fun client => ?_, by decide +kernel,
    by decide +kernel⟩
  match client with
  | 0 => rfl
  | 1 => rfl
  | _ + 2 => rfl

end Chronicle

end LoadGen
