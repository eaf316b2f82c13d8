import LoadGen.Proofs.Connection.Dialogues
import LoadGen.Proofs.Worker.Lending

/-!
# Buffers of a worker's connections

What passes over the connections of a worker follows from what it sees (`Worker.traffic`). Numbers
of connections are not used twice, so that each connection of a pool has a dialogue of its own. As
long as the peers send one reply for each request (`Transfer.OneForOne`), the buffer of every
connection is in step with its dialogue (`Worker.InStep`): it has nothing in it while the connection
is idle. Whatever a worker sees keeps this so (`Worker.InStep.after`), since a connection whose
request failed is dropped.
-/

namespace LoadGen

open Dialogue (Leaves)
open Time (Span)
open Wire (Bytes OneReply)

/-! ## Connections that change hands -/

namespace Pool

variable {p : Pool}

/-- The connections that a pool has or has handed out after something are ones that it had, or new
ones. -/
structure Yields (p q : Pool) (loans : List Connection) : Prop where
  nextId_le : p.nextId ≤ q.nextId
  known : ∀ c ∈ q.idle ++ loans, c ∈ p.idle ∨ p.nextId ≤ c.id ∧ c.unread = []

theorem yields_of_eq {q : Pool} (hidle : q.idle = p.idle) (hnext : q.nextId = p.nextId) :
    p.Yields q [] where
  nextId_le := hnext.ge
  known c hc := by
    rw [List.append_nil, hidle] at hc
    exact .inl hc

theorem yields_enter (p : Pool) (a : Acquire) : p.Yields (p.enter a).1 (p.enter a).2.loans := by
  rcases p.enter_cases a with ⟨-, h⟩ | ⟨c, idle, -, hidle, h⟩ | ⟨-, -, h⟩
  · rw [h]
    exact yields_of_eq rfl rfl
  · rw [h]
    refine ⟨Nat.le_refl _, fun c' hc' => .inl ?_⟩
    rw [hidle]
    exact (List.perm_append_singleton c idle).mem_iff.1 hc'
  · rw [h]
    exact yields_of_eq rfl rfl

theorem yields_establish (p : Pool) (stream : Nat) :
    p.Yields (p.establish stream).1 [(p.establish stream).2.1] where
  nextId_le := Nat.le_succ _
  known c hc := by
    rcases List.mem_append.1 hc with hc | hc
    · exact .inl hc
    · cases List.mem_singleton.1 hc
      exact .inr ⟨Nat.le_refl _, rfl⟩

theorem yields_advance (p : Pool) (a : Acquire) (now : Span) (s : Acquire.Signal) :
    p.Yields (p.advance a now s).1 (p.advance a now s).2.1.loans := by
  rw [advance.eq_def]
  split
  · exact p.yields_enter a
  · exact yields_of_eq rfl rfl
  · exact p.yields_establish _
  · dsimp only
    split <;> exact yields_of_eq rfl rfl
  all_goals exact yields_of_eq rfl rfl

theorem yields_cancel (p : Pool) (a : Acquire) : p.Yields (p.cancel a) [] := by
  rw [cancel]
  split <;> exact yields_of_eq rfl rfl

/-- A connection on loan has a number of its own. -/
theorem Sound.loan_id {held : Nat} {c : Connection} {dropped : List Connection}
    (hp : p.Sound held [c] dropped) : c.id < p.nextId ∧ ∀ c' ∈ p.idle, c'.id ≠ c.id := by
  have hnumbered := hp.numbered
  refine ⟨List.mem_range.1 (hnumbered.subset (List.mem_map_of_mem (by simp))), fun c' hc' => ?_⟩
  have hnodup := hnumbered.nodup_iff.2 List.nodup_range
  rw [List.append_assoc, List.map_append] at hnodup
  exact (List.nodup_append.1 hnodup).2.2 _ (List.mem_map_of_mem hc') _ (by simp)

end Pool

/-! ## What passes between a worker and its peers -/

/-- Something passes over a connection of a pool. -/
structure Transfer where
  /-- The position of the pool. -/
  pool : Nat
  /-- The number of the connection in its pool. -/
  connection : Nat
  parcel : Parcel

namespace Transfer

/-- What passes over one connection. -/
def passed (ts : List Transfer) (i id : Nat) : List Parcel :=
  ts.filterMap fun t => if t.pool = i ∧ t.connection = id then some t.parcel else none

/-- All that has passed over one connection. -/
def dialogue (ts : List Transfer) (i id : Nat) : Dialogue := Dialogue.empty.addAll (passed ts i id)

/-- Every peer sends one reply for each request on a connection, and none before: at no time has
more come than that. -/
def OneForOne (reply : Nat → Nat → Nat → Bytes) (ts : List Transfer) : Prop :=
  ∀ ts', ts' <+: ts → ∀ i id, (dialogue ts' i id).Answered (reply i id)

variable {ts : List Transfer} {i id : Nat}

theorem dialogue_append_self (ts : List Transfer) (i id : Nat) (parcels : List Parcel) :
    dialogue (ts ++ parcels.map (⟨i, id, ·⟩)) i id = (dialogue ts i id).addAll parcels := by
  rw [dialogue, passed, List.filterMap_append, Dialogue.addAll_append, List.filterMap_map]
  simp only [Function.comp_def, and_self, if_true, List.filterMap_some]
  rfl

/-- Connections do not mix. -/
theorem dialogue_append_of_ne {j id' : Nat} (h : j = i → id' ≠ id) (ts : List Transfer)
    (parcels : List Parcel) :
    dialogue (ts ++ parcels.map (⟨i, id, ·⟩)) j id' = dialogue ts j id' := by
  have hnone : passed (parcels.map (⟨i, id, ·⟩)) j id' = [] := by
    rw [passed, List.filterMap_map, List.filterMap_eq_nil_iff]
    intro parcel _
    exact if_neg fun hsame => h hsame.1.symm hsame.2.symm
  rw [passed] at hnone
  rw [dialogue, passed, List.filterMap_append, hnone, List.append_nil]
  rfl

/-- Nothing needs to be said of connections over which nothing has passed. -/
theorem oneForOne_of_transfers {reply : Nat → Nat → Nat → Bytes}
    (h : ∀ ts' ∈ ts.inits, ∀ t ∈ ts',
      (dialogue ts' t.pool t.connection).Answered (reply t.pool t.connection)) :
    OneForOne reply ts := by
  intro ts' hts' i id
  cases hpassed : passed ts' i id with
  | nil =>
    rw [dialogue, hpassed]
    exact List.nil_prefix
  | cons parcel parcels =>
    have hmem : parcel ∈ passed ts' i id := hpassed ▸ List.mem_cons_self
    obtain ⟨t, ht, hsome⟩ := List.mem_filterMap.1 hmem
    split at hsome
    · next hsame =>
      obtain ⟨rfl, rfl⟩ := hsame
      exact h ts' ((List.mem_inits ts' ts).2 hts') t ht
    · cases hsome

end Transfer

open Transfer (dialogue OneForOne)

namespace Worker

variable {R : Type}

/-- What passes as a worker gets a signal. -/
def transfers (w : Worker R) (x : Sight R) : List Transfer :=
  match w.phase, x.signal with
  | .exchanging _ pool _ connection written, .exchange s =>
    (s.parcels written).map (⟨pool, connection.id, ·⟩)
  | _, _ => []

theorem transfers_of_exchanging {w : Worker R} {x : Sight R} {job : Job R} {i : Nat} {since : Span}
    {connection : Connection} {written : Bool} {s : Exchange.Signal}
    (hphase : w.phase = .exchanging job i since connection written)
    (hsignal : x.signal = .exchange s) :
    w.transfers x = (s.parcels written).map (⟨i, connection.id, ·⟩) := by
  rw [transfers, hphase, hsignal]

theorem transfers_of_quiet {w : Worker R} {x : Sight R}
    (h : ∀ s, x.signal = .exchange s → w.phase.sending? = none) : w.transfers x = [] := by
  rw [transfers.eq_def]
  split
  · next hphase hsignal =>
    have hnone := h _ hsignal
    rw [hphase] at hnone
    cases hnone
  · rfl

/-- All that passes between a worker and its peers. -/
def traffic [Weights.Weight R] (w : Worker R) : List (Sight R) → List Transfer
  | [] => []
  | x :: xs => w.transfers x ++ (w.turnAt x).worker.traffic xs

/-! ## Buffers in step with their peers -/

/-- The buffer of every connection that a worker has holds what the dialogue on it leaves there, and
nothing has passed under numbers that were not given out. -/
structure InStep (reply : Nat → Nat → Nat → Bytes) (ts : List Transfer) (w : Worker R) : Prop where
  unused : ∀ i p, w.pools[i]? = some p → ∀ id, p.nextId ≤ id → dialogue ts i id = .empty
  idle : ∀ i p, w.pools[i]? = some p → ∀ c ∈ p.idle,
    Leaves (reply i c.id) (dialogue ts i c.id) false c.unread
  loan : ∀ job i since c written, w.phase = .exchanging job i since c written →
    Leaves (reply i c.id) (dialogue ts i c.id) written c.unread

variable {config : Config R} {reply : Nat → Nat → Nat → Bytes} {ts : List Transfer}
  {w w' : Worker R}

theorem inStep_new (config : Config R) (id : Nat) (source : Random.Source)
    (reply : Nat → Nat → Nat → Bytes) : (new config id source).InStep reply [] where
  unused i p hp id _ := rfl
  idle i p hp c hc := by
    rw [new, List.getElem?_toArray, List.getElem?_map, Option.map_eq_some_iff] at hp
    obtain ⟨endpoint, -, rfl⟩ := hp
    cases hc
  loan job i since c written hphase := by cases hphase

namespace InStep

/-- A worker goes on to something that is no pool's business. -/
theorem keep (h : w.InStep reply ts) (hpools : w'.pools = w.pools)
    (hafter : w'.phase.position? = none) : w'.InStep reply ts where
  unused := by
    rw [hpools]
    exact h.unused
  idle := by
    rw [hpools]
    exact h.idle
  loan job i since c written hphase := by
    rw [hphase] at hafter
    cases hafter

/-- The connections that a pool has or has handed out after something are in step as well. -/
theorem of_yields (h : w.InStep reply ts) {i : Nat} {p q : Pool} {loans : List Connection}
    (hp : w.pools[i]? = some p) (hyields : p.Yields q loans) :
    ∀ c ∈ q.idle ++ loans, Leaves (reply i c.id) (dialogue ts i c.id) false c.unread := by
  intro c hc
  rcases hyields.known c hc with hidle | ⟨hnew, hunread⟩
  · exact h.idle i p hp c hidle
  · rw [h.unused i p hp c.id hnew, hunread]
    exact Dialogue.leaves_empty _

/-- A worker does something with one of its pools. -/
theorem replace (h : w.InStep reply ts) {i : Nat} {p q : Pool} {loans : List Connection}
    (hp : w.pools[i]? = some p) (hnext : p.nextId ≤ q.nextId)
    (hq : ∀ c ∈ q.idle ++ loans, Leaves (reply i c.id) (dialogue ts i c.id) false c.unread)
    (hpools : w'.pools = w.pools.setIfInBounds i q)
    (hloan : ∀ job j since c written, w'.phase = .exchanging job j since c written →
      j = i ∧ c ∈ loans ∧ written = false) : w'.InStep reply ts := by
  obtain ⟨hi, -⟩ := Array.getElem?_eq_some_iff.1 hp
  -- the pool at a position is the new one or an old one
  have hcases {j : Nat} {r : Pool} (hr : w'.pools[j]? = some r) :
      j = i ∧ r = q ∨ w.pools[j]? = some r := by
    rw [hpools] at hr
    by_cases hj : i = j
    · subst hj
      rw [Array.getElem?_setIfInBounds_self_of_lt hi] at hr
      exact .inl ⟨rfl, (Option.some.inj hr).symm⟩
    · rw [Array.getElem?_setIfInBounds_ne hj] at hr
      exact .inr hr
  refine ⟨fun j r hr id hid => ?_, fun j r hr c hc => ?_, fun job j since c written hphase => ?_⟩
  · rcases hcases hr with ⟨rfl, rfl⟩ | hr
    · exact h.unused j p hp id (hnext.trans hid)
    · exact h.unused j r hr id hid
  · rcases hcases hr with ⟨rfl, rfl⟩ | hr
    · exact hq c (List.mem_append_left _ hc)
    · exact h.idle j r hr c hc
  · obtain ⟨rfl, hc, rfl⟩ := hloan job j since c written hphase
    exact hq c (List.mem_append_right _ hc)

/-- A worker goes on with what its acquire on a pool has come to. -/
theorem afterAcquire (h : w.InStep reply ts) {i : Nat} {p q : Pool} (hp : w.pools[i]? = some p)
    {progress : Acquire.Progress} (hyields : p.Yields q progress.loans) {w₁ : Worker R}
    (hpools : w₁.pools = w.pools.setIfInBounds i q) (shared : Shared R) (now : Span) (job : Job R)
    (since : Span) : (w₁.afterAcquire shared now job i since progress).worker.InStep reply ts := by
  refine h.replace hp hyields.nextId_le (h.of_yields hp hyields) ?_ ?_
  · cases progress <;> exact hpools
  · intro job' j since' c written hphase
    cases progress with
    | ready connection =>
      cases hphase
      exact ⟨rfl, List.mem_singleton_self _, rfl⟩
    | pending | failed => cases hphase

variable [Weights.Weight R]

theorem draw (h : w.InStep reply ts) (shared : Shared R) (now : Span) :
    (w.draw shared now).worker.InStep reply ts := by
  rw [Worker.draw]
  split
  · exact h.keep rfl rfl
  · exact h.keep rfl rfl
  · dsimp only
    split
    · exact h.keep rfl rfl
    · next p hp => exact h.afterAcquire hp (p.yields_enter _) rfl ..

omit [Weights.Weight R] in
/-- What passes over the connection on loan is no other connection's business. -/
theorem pass (hw : w.Borrows config) (h : w.InStep reply ts) {job : Job R} {i : Nat} {since : Span}
    {c : Connection} {written : Bool} (hphase : w.phase = .exchanging job i since c written)
    (parcels : List Parcel) :
    ({ w with phase := .ready } : Worker R).InStep reply (ts ++ parcels.map (⟨i, c.id, ·⟩)) := by
  have hloan {p : Pool} (hp : w.pools[i]? = some p) :
      c.id < p.nextId ∧ ∀ c' ∈ p.idle, c'.id ≠ c.id := by
    obtain ⟨dropped, hsound⟩ := hw.sound hp
    rw [hphase, Phase.loansAt, if_pos rfl] at hsound
    exact hsound.loan_id
  refine ⟨fun j p hp id hid => ?_, fun j p hp c' hc' => ?_, fun _ _ _ _ _ hready => by cases hready⟩
  · rw [Transfer.dialogue_append_of_ne (fun hj => ?_), h.unused j p hp id hid]
    subst hj
    exact ((hloan hp).1.trans_le hid).ne'
  · rw [Transfer.dialogue_append_of_ne (fun hj => ?_)]
    · exact h.idle j p hp c' hc'
    · subst hj
      exact (hloan hp).2 c' hc'

omit [Weights.Weight R] in
/-- A worker gives back a connection, which is idle then, or dropped. -/
theorem giveBack (h : w.InStep reply ts) {i : Nat} {p : Pool}
    (hp : w.pools[i]? = some p) {c : Connection} (healthy : Bool)
    (hc : healthy = true → Leaves (reply i c.id) (dialogue ts i c.id) false c.unread)
    (hpools : w'.pools = w.pools.setIfInBounds i (p.release c healthy).1)
    (hready : w'.phase = .ready) : w'.InStep reply ts := by
  have hnext : p.nextId ≤ (p.release c healthy).1.nextId := by
    cases healthy <;> exact Nat.le_refl _
  have hidle : ∀ c' ∈ (p.release c healthy).1.idle ++ [],
      Leaves (reply i c'.id) (dialogue ts i c'.id) false c'.unread := by
    intro c' hc'
    rw [List.append_nil] at hc'
    cases healthy with
    | false => exact h.idle i p hp c' hc'
    | true =>
      rcases List.mem_append.1 hc' with hc' | hc'
      · exact h.idle i p hp c' hc'
      · rw [List.mem_singleton.1 hc']
        exact hc rfl
  refine h.replace hp hnext hidle hpools fun job j since c' written hphase => ?_
  rw [hready] at hphase
  cases hphase

omit [Weights.Weight R] in
/-- A worker goes on with a request; a connection that is given back to stay has its buffer
empty. -/
theorem afterExchange (hw : w.Borrows config) (h : w.InStep reply ts)
    (hreply : ∀ i id n, OneReply (reply i id n)) {job : Job R} {i : Nat} {since : Span}
    {c : Connection} {written : Bool} (hphase : w.phase = .exchanging job i since c written)
    (sent : Nat) (s : Exchange.Signal)
    (hpeers : OneForOne reply (ts ++ (s.parcels written).map (⟨i, c.id, ·⟩))) (shared : Shared R)
    (now : Span) :
    InStep reply (ts ++ (s.parcels written).map (⟨i, c.id, ·⟩))
      (w.afterExchange shared now job i since (c.exchange sent s).1
        (c.exchange sent s).2).worker := by
  have hgoes := (h.loan job i since c written hphase).exchange (hreply i c.id) sent s <| by
    rw [← Transfer.dialogue_append_self]
    exact hpeers _ List.prefix_rfl i c.id
  have hrest := h.pass hw hphase (s.parcels written)
  rw [← Transfer.dialogue_append_self] at hgoes
  generalize ts ++ (s.parcels written).map (⟨i, c.id, ·⟩) = ts' at hgoes hrest ⊢
  rw [← Tasks.exchange_id c sent s] at hgoes
  generalize (c.exchange sent s).1 = c' at hgoes ⊢
  cases hprogress : (c.exchange sent s).2 with
  | reading =>
    refine ⟨hrest.unused, hrest.idle, fun job' j since' c'' written' hphase' => ?_⟩
    cases hphase'
    exact hgoes.reading hprogress
  | finished result =>
    rw [Worker.afterExchange]
    split
    · exact hrest.keep rfl rfl
    · next p hp =>
      cases result with
      | ok exchange =>
        exact hrest.giveBack hp true (fun _ => hgoes.answered exchange hprogress) rfl rfl
      | error fault =>
        exact hrest.giveBack hp false (fun h => absurd h Bool.false_ne_true) rfl rfl

/-- **Every turn keeps the buffers in step.** -/
theorem turnAt (hw : w.Borrows config) (h : w.InStep reply ts)
    (hreply : ∀ i id n, OneReply (reply i id n)) {x : Sight R}
    (hpeers : OneForOne reply (ts ++ w.transfers x)) :
    (w.turnAt x).worker.InStep reply (ts ++ w.transfers x) := by
  have hquiet (hnone : ∀ s, x.signal = .exchange s → w.phase.sending? = none) :
      ts ++ w.transfers x = ts := by
    rw [transfers_of_quiet hnone, List.append_nil]
  have hacts := w.acts x
  generalize w.turnAt x = turn at hacts ⊢
  cases hacts with
  | unchanged hbegins hnone =>
    rw [hquiet hnone]
    exact h
  | started hphase =>
    rw [hquiet fun s _ => by rw [hphase]; rfl]
    exact h.keep rfl rfl
  | stopped hphase =>
    rw [hquiet fun s _ => by rcases hphase with hphase | hphase <;> rw [hphase] <;> rfl]
    exact h.keep rfl rfl
  | begun hbegins =>
    obtain ⟨-, hsignal, -⟩ := of_begins hbegins
    rw [hquiet fun s hs => by rw [hsignal] at hs; cases hs]
    exact h.draw ..
  | @acquired job pool since acquire s p events hphase hsignal hpool =>
    rw [hquiet fun s _ => by rw [hphase]; rfl]
    exact h.afterAcquire hpool (p.yields_advance acquire x.now s) rfl ..
  | @cancelled job pool since acquire p hphase hsignal hpool =>
    rw [hquiet fun s _ => by rw [hphase]; rfl]
    have hyields := p.yields_cancel acquire
    exact h.replace hpool hyields.nextId_le (h.of_yields hpool hyields) rfl
      fun job' j since' c written hphase' => by cases hphase'
  | exchanged hphase hsignal =>
    rw [transfers_of_exchanging hphase hsignal] at hpeers ⊢
    exact h.afterExchange hw hreply hphase _ _ hpeers ..

/-- **Whatever a worker sees, its buffers stay in step** with peers that send one reply for each
request. -/
theorem after (hw : w.Borrows config) (h : w.InStep reply ts)
    (hreply : ∀ i id n, OneReply (reply i id n)) {xs : List (Sight R)}
    (hpeers : OneForOne reply (ts ++ w.traffic xs)) :
    (w.after xs).InStep reply (ts ++ w.traffic xs) := by
  induction xs generalizing w ts with
  | nil =>
    rw [traffic, List.append_nil]
    exact h
  | cons x xs ih =>
    rw [traffic, ← List.append_assoc] at hpeers ⊢
    have hnow : OneForOne reply (ts ++ w.transfers x) := fun ts' hts' =>
      hpeers ts' (hts'.trans (List.prefix_append _ _))
    exact ih (hw.turnAt x) (h.turnAt hw hreply hnow) hpeers

end InStep

end Worker

end LoadGen
