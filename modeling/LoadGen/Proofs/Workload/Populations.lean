import LoadGen.Proofs.Config.Accepted
import LoadGen.Proofs.Lists.Places
import LoadGen.Workload.Selection

/-!
# Populations are only kept

Responses change how many elements the structures are thought to have, and nothing else
(`Workload.bare_complete`). No selection looks at these populations: a workload selects what it
would select without them (`Workload.select_bare`). Nor does a selection change the configuration.
-/

namespace LoadGen.Workload

open Config (Keyspace Action)

/-! ## Lifecycles -/

namespace Lifecycle

/-- The store without the populations. -/
def bare (s : Lifecycle) : Lifecycle := { s with populations := #[] }

theorem bare_adjust (s : Lifecycle) (index : Nat) (change : Nat → Nat) :
    (s.adjust index change).bare = s.bare := by
  rw [adjust]
  split <;> rfl

theorem tryCreate_bare (s : Lifecycle) (index : Nat) :
    s.bare.tryCreate index = (s.tryCreate index).map fun (t, s) => (t, s.bare) := by
  rw [tryCreate, tryCreate, apply_ite (Except.map _)]
  refine ite_congr rfl (fun _ => rfl) fun _ => ?_
  have hfind : (probes s.bare.count index).find? (!s.bare.exists? ·) =
      (probes s.count index).find? (!s.exists? ·) := rfl
  rw [hfind]
  cases (probes s.count index).find? (!s.exists? ·) with
  | none => rfl
  | some i =>
    dsimp only
    rw [apply_ite (Except.map _)]
    exact ite_congr rfl (fun _ => rfl) fun _ => rfl

theorem tryDelete_bare (s : Lifecycle) (source : Random.Source) :
    s.bare.tryDelete source =
      (s.tryDelete source).map fun (t, s, source) => (t, s.bare, source) := by
  rw [tryDelete, tryDelete, apply_ite (Except.map _), apply_ite (Except.map _),
    apply_ite (Except.map _)]
  refine ite_congr rfl (fun _ => rfl) fun _ => ?_
  refine ite_congr rfl (fun _ => rfl) fun _ => ?_
  exact ite_congr rfl (fun _ => rfl) fun _ => rfl

end Lifecycle

/-! ## Workloads -/

variable {R : Type}

/-- The workload without the populations. -/
def bare (w : Workload R) : Workload R := { w with states := w.states.map (·.map (·.bare)) }

theorem state?_bare (w : Workload R) (keyspace : Nat) :
    w.bare.state? keyspace = (w.state? keyspace).map (·.bare) := by
  rw [state?, bare, Array.getElem?_map, state?]
  cases w.states[keyspace]? <;> rfl

theorem bare_setState (w : Workload R) (keyspace : Nat) (s : Lifecycle) :
    (w.setState keyspace s).bare = w.bare.setState keyspace s.bare := by
  simp [setState, bare, Array.map_setIfInBounds]

/-- A response leaves everything but the populations as it is. -/
theorem bare_complete (w : Workload R) (o : Operation R) (response : Wire.Response) :
    (w.complete o response).bare = w.bare := by
  have hset {s s' : Lifecycle} (hs : w.state? o.keyspace.ordinal = some s)
      (hbare : s'.bare = s.bare) : (w.setState o.keyspace.ordinal s').bare = w.bare := by
    have hget : w.states[o.keyspace.ordinal]? = some (some s) := Option.join_eq_some_iff.1 hs
    rw [bare, setState, bare]
    congr 1
    exact Lists.map_setIfInBounds_eq hget (congrArg some hbare)
  rw [complete.eq_def]
  split
  · next s hs =>
    dsimp only
    split
    · exact hset hs (s.bare_adjust _ _)
    · exact hset hs (s.bare_adjust _ _)
    · exact hset hs (s.bare_adjust _ _)
    · rfl
  · rfl

theorem claim_bare (w : Workload R) (k : Keyspace R) (action : Action) (source : Random.Source) :
    w.bare.claim k action source =
      (w.claim k action source).map fun (claimed, w, source) => (claimed, w.bare, source) := by
  rw [claim.eq_def, claim.eq_def, state?_bare]
  cases hs : w.state? k.ordinal with
  | none => cases action <;> rfl
  | some s =>
    cases action with
    | create =>
      dsimp only [Option.map_some]
      rw [Lifecycle.tryCreate_bare]
      cases s.tryCreate (k.drawIndex source).1 with
      | error v => rfl
      | ok claimed =>
        obtain ⟨t, s⟩ := claimed
        cases t <;> simp [Except.map, bind, Except.bind, pure, Except.pure, bare_setState]
    | delete =>
      dsimp only [Option.map_some]
      rw [Lifecycle.tryDelete_bare]
      cases s.tryDelete source with
      | error v => rfl
      | ok claimed =>
        obtain ⟨t, s, source⟩ := claimed
        cases t <;> simp [Except.map, bind, Except.bind, pure, Except.pure, bare_setState]
    | _ => rfl

/-- **A selection does not look at the populations.** -/
theorem select_bare [Weights.Weight R] (w : Workload R) (source : Random.Source) :
    w.bare.select source =
      (w.select source).map fun (selection, w, source) => (selection, w.bare, source) := by
  have hconfig : w.bare.config = w.config := rfl
  rw [select, select, hconfig]
  dsimp only
  rw [claim_bare]
  cases w.claim _ _ _ with
  | error v => rfl
  | ok claimed =>
    obtain ⟨claimed, w, source⟩ := claimed
    cases claimed <;> rfl

/-! ## The configuration -/

theorem config_claim {w w' : Workload R} {k : Keyspace R} {action : Action}
    {source source' : Random.Source} {claimed : Option (Nat × Option Bool)}
    (h : w.claim k action source = .ok (claimed, w', source')) : w'.config = w.config := by
  rw [claim.eq_def] at h
  split at h
  · obtain ⟨⟨t, s⟩, -, h⟩ := Config.bind_eq_ok.1 h
    cases t <;> (cases h; rfl)
  · obtain ⟨⟨t, s, source⟩, -, h⟩ := Config.bind_eq_ok.1 h
    cases t <;> (cases h; rfl)
  · cases h
    rfl

/-- No selection changes the configuration. -/
theorem config_select [Weights.Weight R] {w w' : Workload R} {source source' : Random.Source}
    {selection : Selection R} (h : w.select source = .ok (selection, w', source')) :
    w'.config = w.config := by
  rw [select] at h
  obtain ⟨⟨claimed, w₁, source₁⟩, hclaim, h⟩ := Config.bind_eq_ok.1 h
  rw [← config_claim hclaim]
  cases claimed <;> (cases h; rfl)

end LoadGen.Workload
