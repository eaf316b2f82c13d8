import LoadGen.Proofs.Trial.Ledger
import LoadGen.Proofs.Trial.Turns

/-!
# Sound trials

Whatever the number of clients, a trial keeps account of two orders. The flags of the engine are
those of the operations in the order in which they were drawn, and the structures on the server
those of the same operations in the order in which their requests were served; for one client these
orders are the same, but for the operation that it has under way. `Sound` says this of a state of a
trial, `Sound.step?` that every event keeps it, and `sound_of_run?` that it holds of all that can be
reached from the start of a run.
-/

namespace LoadGen

open Config (Keyspace Action Regular)
open Server (Answer)
open Stats (Entry)
open Time (Span)

variable {R : Type}

namespace Trial

variable [Weights.Weight R]

/-- What is known of a trial of a configuration. -/
structure Sound (config : Config R) (t : Trial R) : Prop where
  size_workers : t.run.workers.size = config.general.clients
  workload : t.run.shared.workload.Sound config
  workers : ∀ w ∈ t.run.workers, w.Sound config
  exists?_eq : ∀ k ∈ config.keyspaces.items, k.tracksLifecycle = true → ∀ i,
    t.run.shared.workload.exists? k i =
      (lastChange? (t.drawn.map (·.operation)) k i == some .create)
  mem_store_iff : ∀ k ∈ config.keyspaces.items, ∀ i < k.count,
    k.key i ∈ t.store ↔ lastChange? (t.served.map (·.operation)) k i = some .create
  client_lt : ∀ n ∈ t.drawn, n.client < config.general.clients
  drawn_eq : ∀ client, t.drawn.filter (·.client == client) =
    pending client (t.run.job? client) (t.answers client) ++
      (t.served.map (·.toNote)).filter (·.client == client)
  drawn_eq_underway : ∀ client, t.drawn.filter (·.client == client) =
    underway client (t.run.job? client) ++
      (t.completed.map (·.toNote)).filter (·.client == client)
  answered : ∀ client answer, t.answers client = some answer →
    ∃ job, t.run.job? client = some job ∧ ⟨⟨client, job.operation⟩, answer⟩ ∈ t.served
  foretold : Foretold t.drawn
  faithful : Faithful t.served
  recorded : ∀ x ∈ t.completed, x.toServed ∈ t.served ∧ x.Recorded
  others_skipped : ∀ e ∈ t.others, e.outcome = .skipped

/-! ## The steps of a trial -/

namespace Sound

variable {config : Config R} {t : Trial R} (ht : t.Sound config)

include ht

/-- No violation arises. -/
theorem phase_ne_aborted {w : Worker R} (hw : w ∈ t.run.workers) (v : Workload.Violation) :
    w.phase ≠ .aborted v := by
  intro hphase
  have h := (ht.workers w hw).phase
  rw [hphase] at h
  exact h

/-- Only operations under way are answered. -/
theorem answers_eq_none {client : Nat} (h : t.run.job? client = none) : t.answers client = none := by
  cases hanswer : t.answers client with
  | none => rfl
  | some answer =>
    obtain ⟨job, hjob, -⟩ := ht.answered client answer hanswer
    rw [h] at hjob
    cases hjob

/-- The key of an operation is that of its structure only. -/
theorem key_eq_iff {job : Job R} (hfits : job.Fits config) {k : Keyspace R}
    (hk : k ∈ config.keyspaces.items) {i : Nat} (hi : i < k.count) :
    job.operation.keyspace.key job.operation.keyIndex = k.key i ↔
      job.operation.keyspace.ordinal = k.ordinal ∧ job.operation.keyIndex = i := by
  have hr := ht.workload.regular
  have hjob := hfits.mem_keyspaces
  refine ⟨fun h => ?_, fun ⟨hord, hindex⟩ => ?_⟩
  · exact (hr.fits _ hjob).key_inj (hr.fits k hk) (hr.alphabet_eq _ hjob k hk)
      ((hr.stride_eq _ hjob).trans (hr.stride_eq k hk).symm) hfits.keyIndex_lt hi h
  · rw [hr.eq_of_ordinal_eq hjob hk hord, hindex]

theorem others_append {entries : List Entry} (h : ∀ e ∈ entries, e.outcome = .skipped) :
    ∀ e ∈ entries ++ t.others, e.outcome = .skipped := fun e he =>
  (List.mem_append.1 he).elim (h e) (ht.others_skipped e)

variable {r : Run R} (hsize : r.workers.size = t.run.workers.size)
  (hworkload : r.shared.workload.Sound config) (hworkers : ∀ w ∈ r.workers, w.Sound config)
  {entries : List Entry} (hentries : ∀ e ∈ entries, e.outcome = .skipped)

include hsize hworkload hworkers

section Others

include hentries

/-- The run goes on, and nothing happens to the operations. -/
theorem going (hflags : ∀ k i, r.shared.workload.exists? k i = t.run.shared.workload.exists? k i)
    (hjob : ∀ client, r.job? client = t.run.job? client) :
    ({ t with run := r, others := entries ++ t.others } : Trial R).Sound config where
  size_workers := hsize.trans ht.size_workers
  workload := hworkload
  workers := hworkers
  exists?_eq k hk htracks i := by rw [hflags, ht.exists?_eq k hk htracks]
  mem_store_iff := ht.mem_store_iff
  client_lt := ht.client_lt
  drawn_eq client := by rw [ht.drawn_eq, hjob]
  drawn_eq_underway client := by rw [ht.drawn_eq_underway, hjob]
  answered client answer h := by
    rw [hjob]
    exact ht.answered client answer h
  foretold := ht.foretold
  faithful := ht.faithful
  recorded := ht.recorded
  others_skipped := ht.others_append hentries

/-- A client draws an operation. -/
theorem drawing {c : Nat} {job : Job R} (hbefore : t.run.job? c = none)
    (hafter : ∀ client, r.job? client = if c = client then some job else t.run.job? client)
    (h : t.run.shared.workload.Selects (.dispatched job.operation) r.shared.workload) :
    ({ t with
        run := r
        drawn := ⟨c, job.operation⟩ :: t.drawn
        others := entries ++ t.others } : Trial R).Sound config := by
  cases h with
  | dispatched hk hclaims =>
  rw [ht.workload.config_eq] at hk
  exact
  { size_workers := hsize.trans ht.size_workers
    workload := hworkload
    workers := hworkers
    exists?_eq := fun k hk' htracks i => by
      rw [ht.workload.exists?_claimed hclaims hk' htracks, List.map_cons, lastChange?_cons,
        ht.exists?_eq k hk' htracks]
      split <;> rfl
    mem_store_iff := ht.mem_store_iff
    client_lt := fun n hn => by
      rcases List.mem_cons.1 hn with rfl | hn
      · rw [← ht.size_workers, ← hsize]
        exact Run.lt_size_of_job? ((hafter c).trans (if_pos rfl))
      · exact ht.client_lt n hn
    drawn_eq := fun client => by
      dsimp only
      rw [hafter]
      by_cases hc : c = client
      · subst hc
        rw [List.filter_cons_of_pos (by simp), ht.drawn_eq, hbefore, ht.answers_eq_none hbefore,
          if_pos rfl]
        rfl
      · rw [List.filter_cons_of_neg (by simpa using hc), ht.drawn_eq, if_neg hc]
    drawn_eq_underway := fun client => by
      dsimp only
      rw [hafter]
      by_cases hc : c = client
      · subst hc
        rw [List.filter_cons_of_pos (by simp), ht.drawn_eq_underway, hbefore, if_pos rfl]
        rfl
      · rw [List.filter_cons_of_neg (by simpa using hc), ht.drawn_eq_underway, if_neg hc]
    answered := fun client answer hanswer => by
      obtain ⟨job', hjob, hserved⟩ := ht.answered client answer hanswer
      refine ⟨job', (hafter client).trans ?_, hserved⟩
      rw [if_neg, hjob]
      rintro rfl
      rw [hbefore] at hjob
      cases hjob
    foretold := by
      refine ⟨fun htracks => ?_, ht.foretold⟩
      rw [← ht.exists?_eq _ hk htracks]
      exact ht.workload.claimed_existed hk hclaims htracks
    faithful := ht.faithful
    recorded := ht.recorded
    others_skipped := ht.others_append hentries }

end Others

/-- The response to an operation comes. -/
theorem completing {c : Nat} {job : Job R} {answer : Answer} {entries : List Entry}
    (hanswer : t.answers c = some answer) (hbefore : t.run.job? c = some job)
    (hafter : ∀ client, r.job? client = if c = client then none else t.run.job? client)
    (hflags : ∀ k i, r.shared.workload.exists? k i = t.run.shared.workload.exists? k i)
    (hrecorded : Completed.Recorded ⟨⟨⟨c, job.operation⟩, answer⟩, entries⟩) :
    ({ t with
        run := r
        answers := Function.update t.answers c none
        completed := ⟨⟨⟨c, job.operation⟩, answer⟩, entries⟩ :: t.completed } : Trial R).Sound
      config where
  size_workers := hsize.trans ht.size_workers
  workload := hworkload
  workers := hworkers
  exists?_eq k hk htracks i := by rw [hflags, ht.exists?_eq k hk htracks]
  mem_store_iff := ht.mem_store_iff
  client_lt := ht.client_lt
  drawn_eq client := by
    dsimp only
    rw [ht.drawn_eq, hafter]
    by_cases hc : c = client
    · subst hc
      rw [hanswer, if_pos rfl, pending_some, pending_none]
    · rw [if_neg hc, Function.update_of_ne (Ne.symm hc)]
  drawn_eq_underway client := by
    dsimp only
    rw [ht.drawn_eq_underway, hafter, List.map_cons]
    by_cases hc : c = client
    · subst hc
      rw [hbefore, if_pos rfl, List.filter_cons_of_pos (by simp)]
      rfl
    · rw [if_neg hc, List.filter_cons_of_neg (by simpa using hc)]
  answered client answer' h := by
    dsimp only at h ⊢
    by_cases hc : c = client
    · subst hc
      rw [Function.update_self] at h
      cases h
    · rw [Function.update_of_ne (Ne.symm hc)] at h
      obtain ⟨job', hjob, hserved⟩ := ht.answered client answer' h
      exact ⟨job', ((hafter client).trans (if_neg hc)).trans hjob, hserved⟩
  foretold := ht.foretold
  faithful := ht.faithful
  recorded x hx := by
    rcases List.mem_cons.1 hx with rfl | hx
    · obtain ⟨job', hjob, hserved⟩ := ht.answered c answer hanswer
      rw [hbefore] at hjob
      cases hjob
      exact ⟨hserved, hrecorded⟩
    · exact ht.recorded x hx
  others_skipped := ht.others_skipped

omit hsize hworkload hworkers in
/-- The request of an operation arrives. -/
theorem arriving {c : Nat} {job : Job R} (hanswer : t.answers c = none)
    (hjob : t.run.job? c = some job) (hfits : job.Fits config) :
    ({ t with
        store := (Server.execute t.store job.request.encode).2
        answers := Function.update t.answers c
          (some (Server.execute t.store job.request.encode).1)
        served := ⟨⟨c, job.operation⟩, (Server.execute t.store job.request.encode).1⟩ ::
          t.served } : Trial R).Sound config where
  size_workers := ht.size_workers
  workload := ht.workload
  workers := ht.workers
  exists?_eq := ht.exists?_eq
  mem_store_iff k hk i hi := by
    rw [Server.execute_encode, Server.mem_perform, hfits.action_eq, hfits.key_eq, List.map_cons,
      lastChange?_cons, ht.mem_store_iff k hk i hi]
    simp only [ht.key_eq_iff hfits hk hi]
    split <;> simp
  client_lt := ht.client_lt
  drawn_eq client := by
    dsimp only
    rw [ht.drawn_eq, List.map_cons]
    by_cases hc : c = client
    · subst hc
      rw [hjob, hanswer, Function.update_self, pending_some, List.filter_cons_of_pos (by simp)]
      rfl
    · rw [Function.update_of_ne (Ne.symm hc), List.filter_cons_of_neg (by simpa using hc)]
  drawn_eq_underway := ht.drawn_eq_underway
  answered client answer' h := by
    dsimp only at h ⊢
    by_cases hc : c = client
    · subst hc
      rw [Function.update_self] at h
      cases h
      exact ⟨job, hjob, List.mem_cons_self⟩
    · rw [Function.update_of_ne (Ne.symm hc)] at h
      obtain ⟨job', hjob, hserved⟩ := ht.answered client answer' h
      exact ⟨job', hjob, List.mem_cons_of_mem _ hserved⟩
  foretold := ht.foretold
  faithful := by
    refine ⟨?_, ht.faithful⟩
    rw [Server.execute_encode, Server.answer_perform, hfits.action_eq, hfits.key_eq]
    simp only [ht.mem_store_iff _ hfits.mem_keyspaces _ hfits.keyIndex_lt]
  recorded x hx := ⟨List.mem_cons_of_mem _ (ht.recorded x hx).1, (ht.recorded x hx).2⟩
  others_skipped := ht.others_skipped

omit hsize hworkload hworkers

/-- The run goes on, and nothing happens to the workers. -/
theorem steering (h : r.shared.workload = t.run.shared.workload ∧ r.workers = t.run.workers) :
    ({ t with run := r } : Trial R).Sound config := by
  obtain ⟨hworkload, hworkers⟩ := h
  have hnone : ∀ e ∈ ([] : List Entry), e.outcome = .skipped := nofun
  refine ht.going (by rw [hworkers]) ?_ ?_ hnone (fun k i => ?_) fun c => ?_
  · rw [hworkload]
    exact ht.workload
  · rw [hworkers]
    exact ht.workers
  · rw [hworkload]
  · rw [Run.job?, hworkers, Run.job?]

theorem signal? {client : Nat} {now : Span} {s : Signal} {t' : Trial R}
    (h : t.signal? client now s = some t') : t'.Sound config := by
  rw [Trial.signal?, Option.bind_eq_bind, Option.bind_eq_some_iff] at h
  obtain ⟨w, hw, h⟩ := h
  obtain ⟨hturns, hturn⟩ :=
    (ht.workers w (Array.mem_of_getElem? hw)).step_spec t.run.shared now ht.workload s
  obtain ⟨hsize, hworkload, hmem, hafter⟩ := Run.signal_spec hw now s
  have hbefore : t.run.job? client = w.phase.job? := by rw [Run.job?, hw, Option.bind_some]
  dsimp only at h
  generalize (t.run.signal client now s).1 = r at hsize hworkload hmem hafter h
  generalize w.step t.run.shared now s = turn at hturns hturn hworkload hmem hafter h
  have hworkers : ∀ w' ∈ r.workers, w'.Sound config := fun w' hw' =>
    (hmem w' hw').elim (ht.workers w') fun heq => heq ▸ hturn
  cases hturns with
  | kept hjob hsame hentries =>
    rw [hjob] at h hafter
    have hgoing : ({ t with run := r, others := turn.entries ++ t.others } : Trial R).Sound
        config := by
      refine ht.going hsize ?_ hworkers hentries (fun k i => ?_) fun c => ?_
      · rw [hworkload, hsame]
        exact ht.workload
      · rw [hworkload, hsame]
      · rw [hafter]
        split
        · next hc => rw [← hc, hbefore]
        · rfl
    cases hphase : w.phase.job? with
    | none =>
      rw [hphase] at h
      cases h
      exact hgoing
    | some job =>
      rw [hphase] at h
      cases h
      exact hgoing
  | drawn hnone hsome hselects hentries =>
    rw [hnone, hsome] at h
    cases h
    rw [← hworkload] at hselects
    rw [hsome] at hafter
    exact ht.drawing hsize (ht.workload.selects hselects) hworkers (by simp [hentries])
      (hbefore.trans hnone) hafter hselects
  | dropped hsome hnone hno =>
    rw [hnone, hsome] at h
    obtain ⟨answer, -, h⟩ := Option.bind_eq_some_iff.1 h
    rw [hno answer] at h
    cases h
  | @completed job response entry hsome hnone hcomplete hentries houtcome hreceives =>
    rw [hnone, hsome] at h
    obtain ⟨answer, hanswer, h⟩ := Option.bind_eq_some_iff.1 h
    rw [hreceives] at h
    split at h
    · next hagrees =>
      cases h
      rw [hcomplete] at hworkload
      rw [hnone] at hafter
      have hfits := (ht.workers w (Array.mem_of_getElem? hw)).job_fits hsome
      refine ht.completing hsize ?_ hworkers hanswer (hbefore.trans hsome) hafter (fun k i => ?_)
        ⟨response, entry, hagrees, hentries, houtcome⟩
      · rw [hworkload]
        exact ht.workload.complete hfits.mem_keyspaces response
      · rw [hworkload, Workload.exists?_complete]
    · cases h

theorem arrive? {client : Nat} {t' : Trial R} (h : t.arrive? client = some t') :
    t'.Sound config := by
  rw [Trial.arrive?, Option.bind_eq_bind, Option.bind_eq_some_iff] at h
  obtain ⟨w, hw, h⟩ := h
  obtain ⟨job, hsending, h⟩ := Option.bind_eq_some_iff.1 h
  have hjob := Worker.Phase.job?_of_sending? hsending
  cases hanswer : t.answers client with
  | some answer =>
    rw [hanswer] at h
    cases h
  | none =>
    rw [hanswer] at h
    cases h
    refine ht.arriving hanswer ?_ ((ht.workers w (Array.mem_of_getElem? hw)).job_fits hjob)
    rw [Run.job?, hw, Option.bind_some, hjob]

/-- **Every event keeps a trial sound.** -/
theorem step? {e : Event} {t' : Trial R} (h : t.step? e = some t') : t'.Sound config := by
  cases e with
  | signal client now s => exact ht.signal? h
  | arrive client => exact ht.arrive? h
  | tick now =>
    cases h
    exact ht.steering (t.run.tick_frame now)
  | checkHealth now =>
    cases h
    exact ht.steering (t.run.checkHealth_frame now)
  | shutDown now =>
    cases h
    exact ht.steering ⟨rfl, rfl⟩

/-- **All that can be reached is sound.** -/
theorem steps? {events : List Event} {t' : Trial R} (h : t.steps? events = some t') :
    t'.Sound config := by
  induction events generalizing t with
  | nil =>
    cases h
    exact ht
  | cons e events ih =>
    obtain ⟨t₁, hstep, h⟩ := Option.bind_eq_some_iff.1 h
    exact ih (ht.step? hstep) h

end Sound

/-! ## The start of a trial -/

section Start

variable {config : Config R} {entropy : UInt64} {r : Run R} {log : List Log.Event}

theorem sound_start (hr : Regular config.keyspaces.items)
    (h : Run.start config entropy = .ok (r, log)) : (start r).Sound config := by
  obtain ⟨hworkload, hsize, hends, hworkers⟩ := Run.start_eq h
  exact
  { size_workers := hsize
    workload := by
      rw [start, hworkload]
      exact Workload.sound_new hr
    workers := fun w hw => by
      obtain ⟨id, source, rfl⟩ := hworkers w hw
      exact Worker.sound_new hends id source
    exists?_eq := fun k hk _ i => by
      rw [start, hworkload, Workload.exists?_new hr hk]
      rfl
    mem_store_iff := fun k _ i _ => by simp [start, lastChange?]
    client_lt := by simp [start]
    drawn_eq := fun client => by simp [start, Run.job?_start h]
    drawn_eq_underway := fun client => by simp [start, Run.job?_start h, underway]
    answered := by simp [start]
    foretold := trivial
    faithful := trivial
    recorded := by simp [start]
    others_skipped := by simp [start] }

/-- **Every trial of an accepted configuration is sound.** -/
theorem sound_of_run? {events : List Event} {t : Trial R} (hconfig : config.Accepted)
    (h : run? config entropy events = some t) : t.Sound config := by
  obtain ⟨⟨r, log⟩, hstart, hsteps⟩ := Option.bind_eq_some_iff.1 h
  exact (sound_start hconfig.regular (Config.eq_ok_of_toOption hstart)).steps? hsteps

end Start

end Trial

end LoadGen
