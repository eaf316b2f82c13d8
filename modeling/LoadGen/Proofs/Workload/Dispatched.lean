import LoadGen.Proofs.Config.Exact
import LoadGen.Proofs.Run.Sights
import LoadGen.Proofs.Weights.Selection
import LoadGen.Proofs.Workload.Alternation
import LoadGen.Proofs.Workload.Values

/-!
# Dispatched operations are well formed

That no operation goes out without the values it needs rests on three places: the check of a
keyspace asks for values if a command that needs some has a positive weight, nothing of weight zero
is drawn (`Weights.DrawsPositive`), and a selection draws a value if the command carries some
(`drawn_of_select`). Together they say of every dispatched operation that it is what the
configuration means (`Operation.WellFormed`), and of the request for it that it carries the values
of the operation (`Job.CarriesValues`).
-/

namespace LoadGen

open Config
open Time (Span)
open Weights (Weight WeightedTable Weighable)

variable {R : Type} [Weight R]

/-! ## Draws -/

namespace Weights

/-- Nothing of weight zero is drawn, if the weights add up to something finite. -/
def DrawsPositive (R : Type) [Weight R] : Prop :=
  ∀ (α : Type) (t : WeightedTable R α) (weighted : List (α × R)), t.Weighs weighted →
    Weighable (weighted.map (·.2)) → Weight.isFinite t.total = true →
    ∀ s, ∃ p, weighted[(t.sampleIndex s).1.val]? = some p ∧ Weight.less 0 p.2 = true

theorem drawsPositive_rat : DrawsPositive ℚ := by
  intro α t weighted ht hw _ s
  have hnonneg := List.forall_mem_map.1 (weighable_iff.1 hw).1
  obtain ⟨p, hp, hpos⟩ := WeightedTable.pos_of_sampleIndex ht hnonneg s
  exact ⟨p, hp, less_iff.2 hpos⟩

theorem drawsPositive_float : DrawsPositive Float := fun _ _ _ ht hw hfinite s =>
  WeightedTable.less_weight_indexFor ht hw hfinite s.next.1

theorem DrawsPositive.sample (hR : DrawsPositive R) {α : Type} {t : WeightedTable R α}
    {weighted : List (α × R)} (ht : t.Weighs weighted) (hw : Weighable (weighted.map (·.2)))
    (hfinite : Weight.isFinite t.total = true) (s : Random.Source) :
    ∃ p ∈ weighted, (t.sample s).1 = p.1 ∧ Weight.less 0 p.2 = true := by
  obtain ⟨p, hp, hpos⟩ := hR α t weighted ht hw hfinite s
  refine ⟨p, List.mem_of_getElem? hp, ?_, hpos⟩
  have hitems (i : ℕ) : t.items[i]? = weighted[i]?.map Prod.fst := by
    rw [ht.items_eq, List.getElem?_map]
  have hitem := hitems (t.sampleIndex s).1
  rw [hp] at hitem
  exact (List.getElem?_eq_some_iff.1 hitem).2

/-- What is drawn is written, with a positive weight, where the weights are read from. -/
theorem DrawsPositive.exists_written (hR : DrawsPositive R) {δ α : Type} {weight : δ → R}
    {reads : δ → α × R → Prop} {written : List δ} {weighted : List (α × R)}
    (hreads : List.Forall₂ reads written weighted) (hweight : ∀ w p, reads w p → p.2 = weight w)
    {t : WeightedTable R α} (ht : t.Weighs weighted) (hw : Weighable (written.map weight))
    (hfinite : Weight.isFinite t.total = true) (s : Random.Source) :
    ∃ w ∈ written, reads w ((t.sample s).1, weight w) ∧ Weight.less 0 (weight w) = true := by
  rw [← Lists.map_eq_of_forall₂ hreads hweight] at hw
  obtain ⟨p, hp, heq, hpos⟩ := hR.sample ht hw hfinite s
  obtain ⟨w, hmem, hread⟩ := Lists.exists_mem_of_forall₂' hreads hp
  refine ⟨w, hmem, ?_, hweight w p hread ▸ hpos⟩
  rw [heq, ← hweight w p hread]
  exact hread

end Weights

/-- A draft gives a configuration: its checked form, perhaps with endpoints added. -/
def Config.Draft.Gives (d : Draft R) (config : Config R) : Prop :=
  ∃ (c : Config R) (endpoints : List String),
    Config.ofDraft d = .ok c ∧ c.withEndpoints endpoints = .ok config

theorem Config.Draft.Gives.accepted {d : Draft R} {config : Config R} (hd : d.Gives config) :
    config.Accepted := by
  obtain ⟨c, endpoints, hdraft, hends⟩ := hd
  exact ⟨d, c, endpoints, hdraft, hends⟩

theorem Config.gives_checked (d : Draft R) (h : (Config.ofDraft d).toOption.isSome = true) :
    d.Gives (Config.checked d h) :=
  ⟨_, [], eq_ok_of_toOption (Option.some_get h).symm, rfl⟩

/-- The weights that are added up have finite sums. -/
structure Config.SumsFinite (config : Config R) : Prop where
  keyspaces : Weight.isFinite config.keyspaces.total = true
  commands : ∀ k ∈ config.keyspaces.items, Weight.isFinite k.commands.total = true
  values : ∀ k ∈ config.keyspaces.items, ∀ t ∈ k.values, Weight.isFinite t.total = true

/-! ## Operations -/

/-- What is drawn for an operation has a positive weight where the configuration is written: its
keyspace, its command among those of the keyspace, and its value among those of the keyspace. -/
def Operation.Drawn (d : Draft R) (o : Operation R) : Prop :=
  ∃ kd, d.keyspaces[o.keyspace.ordinal]? = some kd ∧
    kd.Reads d.keyspaces.length o.keyspace.ordinal o.keyspace ∧ Weight.less 0 kd.weight = true ∧
    (∃ c ∈ kd.commands, c.Reads kd.count (o.command, c.weight) ∧ Weight.less 0 c.weight = true) ∧
    ∀ spec, o.value = some spec →
      ∃ v ∈ kd.values, v.Reads (spec, v.weight) ∧ Weight.less 0 v.weight = true

/-- An operation is one of a configuration. -/
structure Operation.WellFormed (d : Draft R) (config : Config R) (o : Operation R) : Prop where
  drawn : o.Drawn d
  mem_keyspaces : o.keyspace ∈ config.keyspaces.items
  mem_commands : o.command ∈ o.keyspace.commands.items
  keyIndex_lt : o.keyIndex < o.keyspace.count
  existed_eq_none_iff : o.existed = none ↔ o.keyspace.tracksLifecycle = false
  existed_of_create : o.keyspace.tracksLifecycle = true → o.action = .create →
    o.existed = some false
  existed_of_delete : o.keyspace.tracksLifecycle = true → o.action = .delete →
    o.existed = some true
  exists_value_iff : (∃ spec, o.value = some spec) ↔ o.action ∈ [.find, .insert, .remove]
  mem_values : ∀ spec, o.value = some spec → ∃ t, o.keyspace.values = some t ∧ spec ∈ t.items

/-- How many values a request of the action carries, of a command about `items` elements. -/
def Config.Action.valueCount (a : Action) (items : ℕ) : ℕ :=
  match a with
  | .find => 1
  | .insert | .remove => items
  | _ => 0

namespace Config

variable {a : Action}

theorem carriesValue_iff : a.carriesValue = true ↔ a ∈ [.find, .insert, .remove] := by
  cases a <;> decide

theorem needsValue_of_carriesValue (h : a.carriesValue = true) : a.needsValue = true := by
  cases a <;> first | rfl | cases h

theorem valueCount_of_carriesValue (h : a.carriesValue = true) (items : ℕ) :
    a.valueCount items = if a = .find then 1 else items := by
  cases a <;> first | rfl | cases h

theorem valueCount_eq_zero (h : ¬a.carriesValue = true) (items : ℕ) : a.valueCount items = 0 := by
  cases a <;> first | rfl | exact absurd rfl h

end Config

omit [Weight R] in
/-- The request of a job carries the values of its operation: one for a find, as many as the command
says for an insert or a remove, each as long as its shape says, and none for anything else. -/
structure Job.CarriesValues (job : Job R) : Prop where
  length_chunks : job.request.chunks.length =
    job.operation.action.valueCount job.operation.command.items
  length_of_mem : ∀ chunk ∈ job.request.chunks,
    ∃ spec, job.operation.value = some spec ∧ chunk.length = spec.length

namespace Workload

/-! ## What a selection draws -/

section Select

variable {w w' : Workload R} {source source' : Random.Source} {o : Operation R}

/-- A dispatched operation has the keyspace and the command that are drawn, and a value that is
drawn exactly if the keyspace has values and the command carries some. -/
theorem drawn_of_select (h : w.select source = .ok (.dispatched o, w', source')) :
    ∃ source₁ source₂, w.config.keyspaces.sample source = (o.keyspace, source₁) ∧
      o.keyspace.commands.sample source₁ = (o.command, source₂) ∧
      (o.value = none ∧ (o.keyspace.values = none ∨ o.action.carriesValue = false) ∨
        ∃ t source₃, o.keyspace.values = some t ∧ o.action.carriesValue = true ∧
          o.value = some (t.sample source₃).1) := by
  rw [select] at h
  generalize hk : w.config.keyspaces.sample source = drawn at h
  obtain ⟨k, source₁⟩ := drawn
  dsimp only at h
  generalize hc : k.commands.sample source₁ = drawn at h
  obtain ⟨c, source₂⟩ := drawn
  dsimp only at h
  obtain ⟨⟨r, w₁, source₃⟩, -, h⟩ := Config.bind_eq_ok.1 h
  cases r with
  | none => cases h
  | some r =>
    obtain ⟨i, existed⟩ := r
    dsimp only at h
    split at h
    · next t hvalues =>
      split at h
      · next hcarries =>
        cases h
        exact ⟨_, _, rfl, hc, .inr ⟨t, source₃, hvalues, hcarries, rfl⟩⟩
      · next hcarries =>
        cases h
        exact ⟨_, _, rfl, hc, .inl ⟨rfl, .inr (Bool.eq_false_iff.2 hcarries)⟩⟩
    · next hvalues =>
      cases h
      exact ⟨_, _, rfl, hc, .inl ⟨rfl, .inl hvalues⟩⟩

end Select

/-! ## What is drawn -/

section Drawn

variable {d : Draft R} {config : Config R}

theorem exists_draft_of_mem (hd : d.Gives config) {k : Keyspace R}
    (hk : k ∈ config.keyspaces.items) :
    ∃ kd, d.keyspaces[k.ordinal]? = some kd ∧ kd.Reads d.keyspaces.length k.ordinal k ∧
      kd.Valid d.keyspaces.length := by
  obtain ⟨c, endpoints, hdraft, hends⟩ := hd
  obtain ⟨hvalid, hreads⟩ := (decides_ofDraft d).of_eq_ok c hdraft
  rw [keyspaces_withEndpoints hends] at hk
  obtain ⟨⟨kd, i⟩, hkd, hread⟩ := Lists.exists_mem_of_forall₂' hreads.keyspaces hk
  obtain rfl := hread.ordinal_eq
  have hget := List.mem_zipIdx_iff_getElem?.1 hkd
  exact ⟨kd, hget, hread, hvalid.keyspaces kd (List.mem_of_getElem? hget)⟩

variable (hR : Weights.DrawsPositive R) (hfinite : config.SumsFinite)

include hR hfinite

theorem sample_keyspace (hd : d.Gives config) (s : Random.Source) :
    (config.keyspaces.sample s).1 ∈ config.keyspaces.items ∧
      Weight.less 0 (config.keyspaces.sample s).1.weight = true := by
  obtain ⟨c, endpoints, hdraft, hends⟩ := hd
  obtain ⟨hvalid, hreads⟩ := (decides_ofDraft d).of_eq_ok c hdraft
  have hsum := hfinite.keyspaces
  rw [keyspaces_withEndpoints hends] at hsum ⊢
  have hweighable : Weighable ((c.keyspaces.items.map fun k => (k, k.weight)).map (·.2)) := by
    rw [List.map_map]
    exact (map_eq_of_reads hreads.keyspaces fun _ _ _ h => h.weight_eq) ▸ hvalid.weighable
  obtain ⟨p, hp, heq, hpos⟩ := hR.sample hreads.weighs hweighable hsum s
  obtain ⟨k, hk, rfl⟩ := List.mem_map.1 hp
  exact ⟨heq ▸ hk, heq ▸ hpos⟩

variable {k : Keyspace R} (hk : k ∈ config.keyspaces.items) {kd : KeyspaceDraft R}
  {stride ordinal : ℕ} (hread : kd.Reads stride ordinal k) (hvalid : kd.Valid stride)

include hk hread hvalid

/-- The command that is drawn from a keyspace is written there with a positive weight. -/
theorem sample_command (s : Random.Source) :
    ∃ c ∈ kd.commands, c.Reads kd.count ((k.commands.sample s).1, c.weight) ∧
      Weight.less 0 c.weight = true := by
  obtain ⟨cs, hcs, hweighs⟩ := hread.commands
  exact hR.exists_written hcs (fun _ _ h => h.weight_eq) hweighs hvalid.weighable_commands
    (hfinite.commands k hk) s

/-- So is the shape that is drawn for a value. -/
theorem sample_value {t : WeightedTable R ValueSpec} (ht : k.values = some t)
    (s : Random.Source) :
    ∃ v ∈ kd.values, v.Reads ((t.sample s).1, v.weight) ∧ Weight.less 0 v.weight = true := by
  rcases hread.values with ⟨-, hnone⟩ | ⟨vs, t', hvs, hweighs, hsome⟩
  · cases hnone.symm.trans ht
  · cases hsome.symm.trans ht
    have hne : kd.values ≠ [] := by
      rintro hnil
      rw [hnil, List.forall₂_nil_left_iff] at hvs
      obtain ⟨p, hp, -⟩ := hweighs.less_lastPositive
      rw [hvs] at hp
      cases hp
    exact hR.exists_written hvs (fun _ _ h => h.weight_eq) hweighs (hvalid.weighable_values hne)
      (hfinite.values k hk t ht) s

/-- A keyspace of which a command is drawn that needs values has some. -/
theorem values_ne_none (s : Random.Source)
    (hneeds : (k.commands.sample s).1.action.needsValue = true) : k.values ≠ none := by
  obtain ⟨c, hc, hcread, hpos⟩ := sample_command hR hfinite hk hread hvalid s
  have hne : kd.values ≠ [] := hvalid.values_ne_nil
    ⟨c, hc, _, hcread.isNamed, needsValue_iff.1 hneeds, hpos⟩
  rcases hread.values with ⟨hnil, -⟩ | ⟨vs, t, -, -, hsome⟩
  · exact absurd hnil hne
  · exact hsome ▸ Option.some_ne_none t

end Drawn

/-! ## Dispatched operations -/

section Dispatched

variable {d : Draft R} {config : Config R} {w w' : Workload R} (hw : w.Sound config)

include hw

/-- A claim tells if a structure existed exactly where structures are tracked. -/
theorem Sound.claimed_eq_none_iff {k : Keyspace R} (hk : k ∈ config.keyspaces.items) {a : Action}
    {i : ℕ} {e : Option Bool} (h : Claims w k a (some (i, e)) w') :
    e = none ↔ k.tracksLifecycle = false := by
  rw [← hw.isSome_state? k hk]
  cases h with
  | created hs | deleted hs => simp [hs]
  | drawn => simp

/-- **A dispatched operation is well formed.** -/
theorem Sound.wellFormed (hd : d.Gives config) (hR : Weights.DrawsPositive R)
    (hfinite : config.SumsFinite) {source source' : Random.Source} {o : Operation R}
    (h : w.select source = .ok (.dispatched o, w', source')) : o.WellFormed d config := by
  obtain ⟨selection, w₁, source₁, hselect, hs⟩ := hw.select_spec source
  cases hselect.symm.trans h
  obtain ⟨s₁, s₂, hkeyspace, hcommand, hvalue⟩ := drawn_of_select h
  cases hs with
  | dispatched _ hclaims =>
  obtain ⟨hk, hkpos⟩ := sample_keyspace hR hfinite hd source
  rw [← hw.config_eq, hkeyspace] at hk hkpos
  rw [hw.config_eq] at hk
  obtain ⟨kd, hget, hread, hvalid⟩ := exists_draft_of_mem hd hk
  have hc := sample_command hR hfinite hk hread hvalid s₁
  have hne := values_ne_none hR hfinite hk hread hvalid s₁
  rw [hcommand] at hc hne
  have hmem : (o.keyspace.commands.sample s₁).1 ∈ o.keyspace.commands.items :=
    List.getElem_mem _
  rw [hcommand] at hmem
  have htold (ht : o.keyspace.tracksLifecycle = true) := hw.claimed_existed hk hclaims ht
  constructor
  case drawn =>
    refine ⟨kd, hget, hread, hread.weight_eq ▸ hkpos, hc, fun spec hspec => ?_⟩
    rcases hvalue with ⟨hnone, -⟩ | ⟨t, s₃, ht, -, hsome⟩
    · cases hnone.symm.trans hspec
    · cases hsome.symm.trans hspec
      exact sample_value hR hfinite hk hread hvalid ht s₃
  case mem_keyspaces => exact hk
  case mem_commands => exact hmem
  case keyIndex_lt => exact hw.claimed_lt hk hclaims
  case existed_eq_none_iff => exact hw.claimed_eq_none_iff hk hclaims
  case existed_of_create =>
    intro ht ha
    rw [(htold ht).1, (htold ht).2 (by rw [ha]; rfl), ha]
    rfl
  case existed_of_delete =>
    intro ht ha
    rw [(htold ht).1, (htold ht).2 (by rw [ha]; rfl), ha]
    rfl
  case exists_value_iff =>
    rw [← carriesValue_iff]
    rcases hvalue with ⟨hnone, hwhy⟩ | ⟨t, s₃, -, hcarries, hsome⟩
    · refine iff_of_false (fun ⟨spec, hspec⟩ => ?_) fun hcarries => ?_
      · cases hnone.symm.trans hspec
      · -- a command that carries a value needs one, so that its keyspace has some
        rcases hwhy with hnone | hnot
        · exact hne (needsValue_of_carriesValue hcarries) hnone
        · cases hnot.symm.trans hcarries
    · exact iff_of_true ⟨_, hsome⟩ hcarries
  case mem_values =>
    intro spec hspec
    rcases hvalue with ⟨hnone, -⟩ | ⟨t, s₃, ht, -, hsome⟩
    · cases hnone.symm.trans hspec
    · cases hsome.symm.trans hspec
      exact ⟨t, ht, List.getElem_mem _⟩

end Dispatched

end Workload

/-! ## Requests -/

namespace Operation.WellFormed

variable {d : Draft R} {config : Config R} {o : Operation R} (ho : o.WellFormed d config)
  (hd : d.Gives config)

include ho hd

theorem drawable {spec : ValueSpec} (hspec : o.value = some spec) : Workload.Drawable spec := by
  obtain ⟨kd, -, hread, hvalid⟩ := Workload.exists_draft_of_mem hd ho.mem_keyspaces
  obtain ⟨t, ht, hmem⟩ := ho.mem_values spec hspec
  exact (hread.ready hvalid).values t ht spec hmem

/-- **The request for a well-formed operation carries its values.** -/
theorem carriesValues (s : Random.Source) :
    Job.CarriesValues ⟨o, (Worker.request o s).1⟩ := by
  have hcarries := ho.exists_value_iff
  rw [← carriesValue_iff] at hcarries
  cases hvalue : o.value with
  | none =>
    have hchunks := Worker.chunks_request_of_none hvalue s
    have hnot : ¬o.action.carriesValue = true := fun h => by simpa [hvalue] using hcarries.2 h
    refine ⟨?_, by simp [hchunks]⟩
    rw [hchunks, valueCount_eq_zero hnot]
    rfl
  | some spec =>
    have hspec := ho.drawable hd hvalue
    have hchunks := Worker.chunks_request hvalue hspec s
    refine ⟨?_, fun chunk hmem => ⟨spec, hvalue, ?_⟩⟩
    · rw [hchunks, Workload.length_valuesFrom,
        valueCount_of_carriesValue (hcarries.1 ⟨spec, hvalue⟩)]
    · rw [hchunks] at hmem
      exact Workload.length_of_mem_valuesFrom hspec hmem

end Operation.WellFormed

namespace Worker

/-- A worker that has a job after a draw has drawn its operation and made the request. -/
theorem exists_select_of_draw {w : Worker R} {shared : Shared R} {now : Span} {job : Job R}
    (h : (w.draw shared now).worker.phase.job? = some job) :
    ∃ workload source,
      shared.workload.select w.source = .ok (.dispatched job.operation, workload, source) ∧
      job.request = (request job.operation source).1 := by
  rw [draw] at h
  split at h
  · cases h
  · cases h
  · next o workload source hselect =>
    generalize hrequest : request o source = made at h
    obtain ⟨made, source'⟩ := made
    dsimp only at h
    split at h
    · cases h
    · next pool _ =>
      generalize pool.acquire now = acquired at h
      obtain ⟨pool, progress⟩ := acquired
      cases progress with
      | pending | ready =>
        cases h
        exact ⟨workload, source, hselect, by rw [hrequest]⟩
      | failed => cases h

/-- A job that a worker has after a signal, and had not before, was drawn. -/
theorem exists_select_of_step {w : Worker R} {shared : Shared R} {now : Span} {signal : Signal}
    {job : Job R} (hidle : w.phase.job? = none)
    (h : (w.step shared now signal).worker.phase.job? = some job) :
    ∃ workload source,
      shared.workload.select w.source = .ok (.dispatched job.operation, workload, source) ∧
      job.request = (request job.operation source).1 := by
  have hacts := w.acts ⟨shared, now, signal⟩
  rw [turnAt] at hacts
  generalize w.step shared now signal = turn at hacts h
  cases hacts with
  | unchanged => cases hidle.symm.trans h
  | started | stopped | cancelled => cases h
  | begun => exact exists_select_of_draw h
  | acquired hphase | exchanged hphase =>
    rw [hphase] at hidle
    cases hidle

end Worker

namespace Workload

/-- Whatever was asked of the workload of a configuration before, the next selection has a result, and
if that is an operation it is well formed. A worker that gets a job from a signal has selected the
operation of it, and the request carries the values of the operation. -/
def DispatchesWellFormed (d : Draft R) (config : Config R) : Prop :=
  ∀ calls : List (Call R), ∃ h, (History.start config).steps calls = .ok h ∧
    (∀ source, ∃ selection w' source', h.workload.select source = .ok (selection, w', source') ∧
      ∀ o, selection = .dispatched o → o.WellFormed d config) ∧
    ∀ (worker : Worker R) (shared : Shared R) (now : Span) (signal : Signal) (job : Job R),
      shared.workload = h.workload → worker.phase.job? = none →
      (worker.step shared now signal).worker.phase.job? = some job →
      (∃ w' source', h.workload.select worker.source =
        .ok (.dispatched job.operation, w', source')) ∧
      job.operation.WellFormed d config ∧ job.CarriesValues

theorem dispatchesWellFormed (hR : Weights.DrawsPositive R) {d : Draft R} {config : Config R}
    (hd : d.Gives config) (hfinite : config.SumsFinite) : DispatchesWellFormed d config := by
  intro calls
  obtain ⟨h, hsteps, hh⟩ := (History.sound_start hd.accepted.regular).steps_spec calls
  refine ⟨h, hsteps, fun source => ?_, fun worker shared now signal job hshared hidle hjob => ?_⟩
  · obtain ⟨selection, w', source', hselect, -⟩ := hh.workload.select_spec source
    refine ⟨selection, w', source', hselect, ?_⟩
    rintro o rfl
    exact hh.workload.wellFormed hd hR hfinite hselect
  · obtain ⟨w', source', hselect, hrequest⟩ := Worker.exists_select_of_step hidle hjob
    rw [hshared] at hselect
    have ho := hh.workload.wellFormed hd hR hfinite hselect
    have hcarries := ho.carriesValues hd source'
    rw [← hrequest] at hcarries
    exact ⟨⟨w', source', hselect⟩, ho, hcarries⟩

/-- **Dispatched operations are well formed.** In exact arithmetic this is so for every configuration
that is accepted, in every state that selections and completions lead to and for every source of
random words; in binary arithmetic, for every one whose sums of weights are finite. -/
theorem dispatched_well_formed :
    (∀ (d : Draft ℚ) (config : Config ℚ), d.Gives config → DispatchesWellFormed d config) ∧
    ∀ (d : Draft Float) (config : Config Float), d.Gives config → config.SumsFinite →
      DispatchesWellFormed d config :=
  ⟨fun _ _ hd => dispatchesWellFormed Weights.drawsPositive_rat hd
      ⟨rfl, fun _ _ => rfl, fun _ _ _ _ => rfl⟩,
    fun _ _ hd hfinite => dispatchesWellFormed Weights.drawsPositive_float hd hfinite⟩

/-! ## Weights of zero -/

omit [Weight R] in
/-- Inserts of three values of two bytes, between a keyspace, a command and a value of weight zero. -/
def insertsDraft (zero one : R) : Draft R where
  general := (Trial.sampleDraft 1 0).general
  endpoints := ["localhost:1"]
  keyspaces :=
    [{ length := 1, count := 2, weight := zero, commands := [{ action := "len", weight := one }] },
      { length := 1
        count := 2
        weight := one
        commands := [{ action := "insert", weight := one, items := some 3 },
          { action := "find", weight := zero }]
        values := [{ length := 4, weight := zero }, { length := 2, weight := one }] }]

def exactInserts : Config ℚ := .checked (insertsDraft 0 1) (by decide +kernel)

def binaryInserts : Config Float := .checked (insertsDraft 0 1) (by decide +kernel)

/-- A worker that may draw its first operation. -/
def firstWorker (config : Config R) : Worker R :=
  { Worker.new config 0 (.ofSeed 7) with phase := .ready }

/-- The job that the worker gets. -/
def firstJob? (config : Config R) : Option (Job R) :=
  ((firstWorker config).step ⟨new config, .new 1, false⟩ .zero .resume).worker.phase.job?

/-- It is an insert of three values. -/
def InsertsFirst (config : Config R) : Prop :=
  (firstJob? config).any (fun job =>
    job.operation.action = .insert ∧ job.operation.command.items = 3) = true

instance (config : Config R) : Decidable (InsertsFirst config) :=
  inferInstanceAs (Decidable (_ = true))

theorem DispatchesWellFormed.first {d : Draft R} {config : Config R}
    (h : DispatchesWellFormed d config) (hfirst : InsertsFirst config) :
    ∃ job, firstJob? config = some job ∧ job.operation.WellFormed d config ∧
      job.operation.action = .insert ∧ job.request.chunks.length = 3 := by
  obtain ⟨h, hsteps, -, hjob⟩ := h []
  cases hsteps
  obtain ⟨job, hsome, hinsert⟩ := (Option.any_eq_true _ _).1 hfirst
  obtain ⟨hinsert, hitems⟩ := of_decide_eq_true hinsert
  obtain ⟨-, hformed, hcarries⟩ := hjob _ _ _ _ job rfl rfl hsome
  refine ⟨job, hsome, hformed, hinsert, ?_⟩
  rw [hcarries.length_chunks, hinsert, hitems]
  rfl

theorem dispatched_well_formed_inserts :
    (∃ job, firstJob? exactInserts = some job ∧
      job.operation.WellFormed (insertsDraft 0 1) exactInserts ∧
      job.operation.action = .insert ∧ job.request.chunks.length = 3) ∧
    ∃ job, firstJob? binaryInserts = some job ∧
      job.operation.WellFormed (insertsDraft 0 1) binaryInserts ∧
      job.operation.action = .insert ∧ job.request.chunks.length = 3 := by
  have hfinite : binaryInserts.SumsFinite :=
    ⟨by decide +kernel, by decide +kernel, by decide +kernel⟩
  exact ⟨(dispatched_well_formed.1 _ exactInserts (Config.gives_checked _ _)).first
      (by decide +kernel),
    (dispatched_well_formed.2 _ binaryInserts (Config.gives_checked _ _) hfinite).first
      (by decide +kernel)⟩

end Workload

end LoadGen
