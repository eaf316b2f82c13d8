import LoadGen.Proofs.Run.Sights
import LoadGen.Proofs.Trial.Clients
import LoadGen.Proofs.Workload.Alternation

/-!
# Operations that never went out

An operation is under way from its draw on, but its request is only written once there is a
connection. If the acquire fails, or the run is stopped before it ends, the request never goes out
(`Chronicle.Unsent`). Nothing that the client does for such an operation touches the flags and the
numbers of existing structures, unless it is a create or a delete in a tracked keyspace
(`Chronicle.workload_of_unsent`). The draw of one of these claims its structure at once, and the
claim is not taken back (`Chronicle.exists?_of_unsent`).
-/

namespace LoadGen

open Config (Keyspace)
open Time (Span)

variable {R : Type}

/-! ## Claims -/

namespace Workload

/-- Only the draw of a create or a delete in a tracked keyspace changes the workload. -/
theorem eq_of_not_claiming {w w' : Workload R} {o : Operation R}
    (hnot : ¬(o.action.isLifecycle = true ∧ (w.state? o.keyspace.ordinal).isSome = true))
    (h : Claims w o.keyspace o.action (some (o.keyIndex, o.existed)) w') : w' = w := by
  generalize some (o.keyIndex, o.existed) = claimed at h
  cases h with
  | held => rfl
  | created hs ha => exact absurd ⟨by rw [ha]; rfl, by rw [hs]; rfl⟩ hnot
  | deleted hs ha => exact absurd ⟨by rw [ha]; rfl, by rw [hs]; rfl⟩ hnot
  | drawn => rfl

end Workload

/-! ## Turns without a request -/

namespace Worker

/-- The operation that a worker wants a connection for. -/
def Phase.seeking? : Phase R → Option (Operation R)
  | .acquiring job .. => some job.operation
  | _ => none

variable [Weights.Weight R] {config : Config R} {w : Worker R} {x : Sight R}

/-- A worker that begins, and then wants a connection for an operation, has drawn that operation. -/
theorem selects_of_seeking {o : Operation R} (hx : x.shared.workload.Sound config)
    (hbegins : w.begins x = true) (h : (w.turnAt x).worker.phase.seeking? = some o) :
    o.keyspace ∈ config.keyspaces.items ∧
      Workload.Claims x.shared.workload o.keyspace o.action (some (o.keyIndex, o.existed))
        (w.turnAt x).shared.workload := by
  obtain ⟨selection, workload, source, hselect, hs⟩ := hx.select_spec w.source
  rw [turnAt_of_begins hbegins] at h ⊢
  rw [workload_draw hselect]
  rw [draw, hselect] at h
  cases hs with
  | skipped => cases h
  | @dispatched o' _ hk hclaims =>
    have ho : o' = o := by
      dsimp only at h
      split at h
      · cases h
      · revert h
        generalize (Pool.acquire _ _).2 = progress
        cases progress <;> rintro ⟨⟩
        rfl
    rw [← ho]
    exact ⟨hx.config_eq ▸ hk, hclaims⟩

/-- A worker that has nothing under way and then wants a connection has begun. -/
theorem begins_of_seeking {o : Operation R} (hidle : w.phase.job? = none)
    (h : (w.turnAt x).worker.phase.seeking? = some o) : w.begins x = true := by
  have hacts := w.acts x
  generalize w.turnAt x = turn at hacts h
  cases hacts with
  | begun hbegins => exact hbegins
  | unchanged =>
    cases hphase : w.phase with
    | acquiring => rw [hphase] at hidle; cases hidle
    | _ => rw [hphase] at h; cases h
  | started | stopped | cancelled => cases h
  | acquired hphase | exchanged hphase => rw [hphase] at hidle; cases hidle

/-- A worker that neither begins nor has a request on its way leaves the workload alone. -/
theorem workload_turnAt_eq (hbegins : w.begins x = false) (hsending : w.phase.sending? = none) :
    (w.turnAt x).shared.workload = x.shared.workload := by
  have hacts := w.acts x
  generalize w.turnAt x = turn at hacts ⊢
  cases hacts with
  | unchanged | started | stopped | cancelled => rfl
  | begun h => cases hbegins.symm.trans h
  | acquired => exact workload_afterAcquire ..
  | exchanged hphase =>
    rw [hphase] at hsending
    cases hsending

end Worker

/-! ## Runs -/

namespace Chronicle

variable [Weights.Weight R] {config : Config R} {c : Chronicle R}

/-- The operation that a client wants a connection for. -/
def seeking? (c : Chronicle R) (client : Nat) : Option (Operation R) :=
  (c.run.workers[client]?).bind (·.phase.seeking?)

/-- Events in which a client draws an operation, wants a connection for it all along, and has
nothing under way in the end: either the acquire failed, or the run was stopped before it ended. -/
structure Unsent (client : Nat) (o : Operation R) (c : Chronicle R) (events : List Event) :
    Prop where
  idle : c.run.job? client = none
  drawn : 1 < events.length
  seeking : ∀ n < events.length, 0 < n → (c.steps (events.take n)).seeking? client = some o
  dropped : (c.steps events).run.job? client = none

/-- Whether an event is a turn of a client. -/
def Event.isTurnOf (client : Nat) : Event → Bool
  | .signal client' .. => client' == client
  | .wakeup .. => false

/-- Whether an event is a turn of a client or of no one. -/
def Event.isTurnOfNoOther (client : Nat) : Event → Bool
  | .signal client' .. => client' == client
  | .wakeup .. => true

/-- The run loop leaves the workload alone. -/
theorem workload_wakeup (c : Chronicle R) (now : Span) (cause : Wakeup) :
    (c.step (.wakeup now cause)).run.shared.workload = c.run.shared.workload := by
  rw [Chronicle.step]
  split
  · exact (c.attend_frame now cause).2.2
  · rfl

theorem workload_signal {client : Nat} {w : Worker R} (hw : c.run.workers[client]? = some w)
    (now : Span) (s : Signal) :
    (c.step (.signal client now s)).run.shared.workload =
      (w.turnAt ⟨c.run.shared, now, s⟩).shared.workload := by
  rw [Chronicle.step, work, hw]
  dsimp only
  rw [Run.work_eq hw]
  rfl

/-- A client that has nothing under way and wants a connection after its turn has drawn an operation
in it. -/
theorem Sound.claims_of_seeking (hc : c.Sound config) {client : Nat} {o : Operation R} {now : Span}
    {s : Signal} (hidle : c.run.job? client = none)
    (h : (c.step (.signal client now s)).seeking? client = some o) :
    o.keyspace ∈ config.keyspaces.items ∧
      Workload.Claims c.run.shared.workload o.keyspace o.action (some (o.keyIndex, o.existed))
        (c.step (.signal client now s)).run.shared.workload := by
  rw [seeking?, getElem?_workers_step, sight, if_pos rfl] at h
  cases hw : c.run.workers[client]? with
  | none => rw [hw] at h; cases h
  | some w =>
    rw [Run.job?, hw, Option.bind_some] at hidle
    rw [hw, Option.map_some, Option.bind_some] at h
    rw [workload_signal hw]
    exact Worker.selects_of_seeking hc.workload (Worker.begins_of_seeking hidle h) h

/-- A client that wants a connection leaves the workload alone in its turn. -/
theorem workload_step_of_seeking {client : Nat} {o : Operation R} (h : c.seeking? client = some o)
    (now : Span) (s : Signal) :
    (c.step (.signal client now s)).run.shared.workload = c.run.shared.workload := by
  obtain ⟨w, hw, hseeking⟩ := Option.bind_eq_some_iff.1 h
  rw [workload_signal hw]
  cases hphase : w.phase with
  | acquiring job pool since acquire =>
    exact Worker.workload_turnAt_eq (by rw [Worker.begins, hphase]) (by rw [hphase]; rfl)
  | _ => rw [hphase] at hseeking; cases hseeking

theorem steps_take_succ {events : List Event} {n : Nat} (hn : n < events.length) :
    c.steps (events.take (n + 1)) = (c.steps (events.take n)).step events[n] := by
  rw [List.take_succ_eq_append_getElem hn, steps, List.foldl_append]
  rfl

omit [Weights.Weight R] in
theorem seeking?_of_idle {client : Nat} (hidle : c.run.job? client = none) :
    c.seeking? client = none := by
  refine Option.bind_eq_none_iff.2 fun w hw => ?_
  rw [Run.job?, hw, Option.bind_some] at hidle
  cases hphase : w.phase with
  | acquiring => rw [hphase] at hidle; cases hidle
  | _ => rfl

/-- What a client does not see leaves it alone. -/
theorem seeking?_of_sight {client : Nat} {e : Event} (hblind : c.sight client e = []) :
    (c.step e).seeking? client = c.seeking? client := by
  rw [seeking?, seeking?, getElem?_workers_step, hblind]
  cases c.run.workers[client]? <;> rfl

namespace Unsent

variable {client : Nat} {o : Operation R} {events : List Event} (h : c.Unsent client o events)

include h

theorem pos : 0 < events.length := Nat.lt_trans Nat.zero_lt_one h.drawn

/-- The first event is the draw, which may claim a structure. -/
theorem claims_first (hc : c.Sound config) :
    o.keyspace ∈ config.keyspaces.items ∧
      Workload.Claims c.run.shared.workload o.keyspace o.action (some (o.keyIndex, o.existed))
        (c.steps (events.take 1)).run.shared.workload := by
  have hpos := h.pos
  have hfirst : c.steps (events.take 1) = c.step events[0] := c.steps_take_succ hpos
  have hseeking := h.seeking 1 h.drawn Nat.zero_lt_one
  rw [hfirst] at hseeking ⊢
  cases he : events[0] with
  | signal client' now s =>
    rw [he] at hseeking
    by_cases hturn : client' = client
    · subst hturn
      exact hc.claims_of_seeking h.idle hseeking
    · have hblind : c.sight client (.signal client' now s) = [] := if_neg hturn
      rw [seeking?_of_sight hblind, seeking?_of_idle h.idle] at hseeking
      cases hseeking
  | wakeup now cause =>
    rw [he, seeking?_of_sight rfl, seeking?_of_idle h.idle] at hseeking
    cases hseeking

/-- Nothing else that the client does for its operation touches the workload. -/
theorem workload_turn {n : Nat} (hn : n < events.length) (hpos : 0 < n)
    (hturn : events[n].isTurnOf client = true) :
    (c.steps (events.take (n + 1))).run.shared.workload =
      (c.steps (events.take n)).run.shared.workload := by
  rw [c.steps_take_succ hn]
  cases he : events[n] with
  | wakeup => rw [he] at hturn; cases hturn
  | signal client' now s =>
    rw [he] at hturn
    obtain rfl := beq_iff_eq.1 hturn
    exact workload_step_of_seeking (h.seeking n hn hpos) now s

/-- With no turn of another client in between, nothing changes after the draw. -/
theorem workload_alone (halone : ∀ e ∈ events, e.isTurnOfNoOther client = true) :
    (c.steps events).run.shared.workload = (c.steps (events.take 1)).run.shared.workload := by
  have hkept (n : Nat) (hn : n < events.length) :
      (c.steps (events.take (n + 1))).run.shared.workload =
        (c.steps (events.take 1)).run.shared.workload := by
    induction n with
    | zero => rfl
    | succ n ih =>
      rw [← ih (Nat.lt_of_succ_lt hn)]
      have halone := halone _ (List.getElem_mem hn)
      cases he : events[n + 1] with
      | signal =>
        rw [he] at halone
        exact h.workload_turn hn (Nat.succ_pos n) (by rw [he]; exact halone)
      | wakeup now cause =>
        rw [c.steps_take_succ hn, he]
        exact workload_wakeup ..
  have hlast := hkept (events.length - 1) (Nat.sub_lt h.pos Nat.zero_lt_one)
  rwa [Nat.sub_add_cancel h.pos, List.take_length] at hlast

end Unsent

theorem Sound.of_run? (hconfig : config.Accepted) {entropy : UInt64} {events : List Event}
    (h : run? config entropy events = some c) : c.Sound config :=
  Chronicle.of_run? (fun _ _ => sound_start hconfig) (fun _ e hc => hc.step e) h

/-- **An operation that never went out leaves no trace** in the workload, unless it is a create or a
delete in a tracked keyspace. The client draws it and gives it up, because the acquire fails or
because the run is stopped. Each turn of the client for it leaves the workload as it is, with the
flags and numbers of structures; so does all of it, if no other client has a turn in between. -/
theorem workload_of_unsent (hconfig : config.Accepted) {entropy : UInt64} {events : List Event}
    (hrun : run? config entropy events = some c) {client : Nat} {o : Operation R}
    {later : List Event} (h : c.Unsent client o later)
    (hother : ¬(o.action.isLifecycle = true ∧ o.keyspace.tracksLifecycle = true)) :
    (∀ n (hn : n < later.length), later[n].isTurnOf client = true →
      (c.steps (later.take (n + 1))).run.shared.workload =
        (c.steps (later.take n)).run.shared.workload) ∧
    ((∀ e ∈ later, e.isTurnOfNoOther client = true) →
      (c.steps later).run.shared.workload = c.run.shared.workload) := by
  have hc := Sound.of_run? hconfig hrun
  obtain ⟨hk, hclaims⟩ := h.claims_first hc
  rw [← hc.workload.isSome_state? _ hk] at hother
  have hfirst := Workload.eq_of_not_claiming hother hclaims
  refine ⟨fun n hn hturn => ?_, fun halone => ?_⟩
  · rcases Nat.eq_zero_or_pos n with rfl | hpos
    · exact hfirst
    · exact h.workload_turn hn hpos hturn
  · rw [h.workload_alone halone, hfirst]

/-- **A create or a delete that never went out stays claimed.** -/
theorem exists?_of_unsent (hconfig : config.Accepted) {entropy : UInt64} {events : List Event}
    (hrun : run? config entropy events = some c) {client : Nat} {o : Operation R}
    {later : List Event} (h : c.Unsent client o later)
    (halone : ∀ e ∈ later, e.isTurnOfNoOther client = true) {k : Keyspace R}
    (hk : k ∈ config.keyspaces.items) (ht : k.tracksLifecycle = true) (i : Nat) :
    (c.steps later).run.shared.workload.exists? k i =
      if (o.keyspace.ordinal = k.ordinal ∧ o.keyIndex = i) ∧ o.action.isLifecycle = true then
        o.action == .create
      else c.run.shared.workload.exists? k i := by
  have hc := Sound.of_run? hconfig hrun
  rw [h.workload_alone halone]
  exact hc.workload.exists?_claimed (h.claims_first hc).2 hk ht i

/-! ### Without a connection -/

/-- The client draws an operation, and the run is stopped before there is a connection. -/
def cutShort : List Event :=
  [.signal 0 .zero .resume, .wakeup .zero .shutDown, .signal 0 .zero .stop]

/-- The client draws an operation, and no connection is made in time. -/
def outOfTime : List Event := told 0 .zero [.resume, .acquire .timeUp]

/-- The only client of a run would read. -/
def soloBegins : Chronicle ℚ := (run? Trial.solo 0 (told 0 .zero [.resume])).get (by decide +kernel)

/-- The first of two clients would create a structure. -/
def duoBegins : Chronicle ℚ := (run? Trial.duo 0 (told 0 .zero [.resume])).get (by decide +kernel)

def soloRead : Operation ℚ :=
  ((soloBegins.step (.signal 0 .zero .resume)).seeking? 0).get (by decide +kernel)

def duoCreate : Operation ℚ :=
  ((duoBegins.step (.signal 0 .zero .resume)).seeking? 0).get (by decide +kernel)

theorem unsent_solo : soloBegins.Unsent 0 soloRead cutShort where
  idle := Option.isNone_iff_eq_none.1 (by decide +kernel)
  drawn := by decide
  seeking n hn hpos := by
    have hdrawn : (soloBegins.step (.signal 0 .zero .resume)).seeking? 0 = some soloRead :=
      (Option.some_get _).symm
    match n with
    | 1 => exact hdrawn
    | 2 => exact (seeking?_of_sight (e := .wakeup .zero .shutDown) rfl).trans hdrawn
  dropped := Option.isNone_iff_eq_none.1 (by decide +kernel)

theorem unsent_duo : duoBegins.Unsent 0 duoCreate outOfTime where
  idle := Option.isNone_iff_eq_none.1 (by decide +kernel)
  drawn := by decide
  seeking n hn hpos := by
    match n with
    | 1 => exact (Option.some_get _).symm
  dropped := Option.isNone_iff_eq_none.1 (by decide +kernel)

theorem workload_of_unsent_read :
    run? Trial.solo 0 (told 0 .zero [.resume]) = some soloBegins ∧
      soloBegins.Unsent 0 soloRead cutShort ∧ soloRead.action = .get ∧
      (soloBegins.steps cutShort).run.shared.workload = soloBegins.run.shared.workload :=
  ⟨(Option.some_get _).symm, unsent_solo, by decide +kernel,
    (workload_of_unsent Trial.accepted_solo (Option.some_get _).symm unsent_solo
      (by decide +kernel)).2 (by decide +kernel)⟩

/-- **A create that never went out counts as done.** The client gives it up as no connection is
made in time, and one structure exists. -/
theorem existing_of_unsent_create :
    Trial.duo.Accepted ∧ run? Trial.duo 0 (told 0 .zero [.resume]) = some duoBegins ∧
      duoBegins.Unsent 0 duoCreate outOfTime ∧ duoCreate.action = .create ∧
      duoBegins.run.shared.workload.existing = [some 0] ∧
      (duoBegins.steps outOfTime).run.shared.workload.existing = [some 1] :=
  ⟨Trial.accepted_duo, (Option.some_get _).symm, unsent_duo, by decide +kernel, by decide +kernel,
    by decide +kernel⟩

end Chronicle

end LoadGen
