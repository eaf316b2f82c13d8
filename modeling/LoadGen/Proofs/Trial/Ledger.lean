import LoadGen.Proofs.Trial.Basic

/-!
# The notes of a trial

Operations that are noted in some order, the last one first, say which structures exist after them:
those that were created last and not deleted since (`lastChange?`). `Foretold` says that operations
were drawn with knowledge of this, and `Faithful` that they were answered so.
-/

namespace LoadGen

open Config (Keyspace Action)
open Server (Answer)

variable {R : Type}

/-- Whether an operation is about a structure. -/
def Operation.isOn (o : Operation R) (k : Keyspace R) (index : Nat) : Bool :=
  o.keyspace.ordinal == k.ordinal && o.keyIndex == index

/-- The last create or delete of a structure, of operations that have the last one first. -/
def lastChange? (os : List (Operation R)) (k : Keyspace R) (index : Nat) : Option Action :=
  (os.find? fun o => o.isOn k index && o.action.isLifecycle).map (·.action)

theorem lastChange?_cons (o : Operation R) (os : List (Operation R)) (k : Keyspace R)
    (index : Nat) :
    lastChange? (o :: os) k index =
      if (o.keyspace.ordinal = k.ordinal ∧ o.keyIndex = index) ∧ o.action.isLifecycle = true
      then some o.action else lastChange? os k index := by
  rw [lastChange?, List.find?_cons]
  by_cases h : (o.isOn k index && o.action.isLifecycle) = true
  · rw [h, if_pos (by simpa [Operation.isOn] using h)]
    rfl
  · rw [Bool.not_eq_true] at h
    rw [h, if_neg (by simpa [Operation.isOn] using h)]
    rfl

theorem lastChange?_eq_none_iff {os : List (Operation R)} {k : Keyspace R} {i : Nat} :
    lastChange? os k i = none ↔ ∀ o ∈ os, (o.isOn k i && o.action.isLifecycle) = false := by
  rw [lastChange?, Option.map_eq_none_iff, List.find?_eq_none]
  simp only [Bool.not_eq_true]

theorem isLifecycle_of_lastChange? {os : List (Operation R)} {k : Keyspace R} {i : Nat}
    {a : Action} (h : lastChange? os k i = some a) : a.isLifecycle = true := by
  obtain ⟨o, ho, rfl⟩ := Option.map_eq_some_iff.1 h
  have hfound := List.find?_some ho
  exact (Bool.and_eq_true_iff.1 hfound).2

/-- Two changes of which either both or none are there are the same if both or none are creates. -/
theorem changes_eq_iff {a b : Option Action} (ha : ∀ x, a = some x → x.isLifecycle = true)
    (hb : ∀ x, b = some x → x.isLifecycle = true) (hnone : a = none ↔ b = none) :
    (a = some .create ↔ b = some .create) ↔ a = b := by
  refine ⟨fun h => ?_, fun h => h ▸ Iff.rfl⟩
  cases a with
  | none => exact (hnone.1 rfl).symm
  | some x =>
    cases b with
    | none => cases hnone.2 rfl
    | some y =>
      have hx := ha x rfl
      have hy := hb y rfl
      cases x <;> cases y <;> simp_all [Action.isLifecycle]

namespace Trial

/-- The operation of a client that is not completed yet. -/
def underway (client : Nat) (job : Option (Job R)) : List (Note R) :=
  (job.map fun job => ⟨client, job.operation⟩).toList

/-- The operation of a client that is not served yet. -/
def pending (client : Nat) : Option (Job R) → Option Answer → List (Note R)
  | some job, none => [⟨client, job.operation⟩]
  | _, _ => []

@[simp]
theorem pending_none (client : Nat) (answer : Option Answer) :
    pending client (none : Option (Job R)) answer = [] := by
  cases answer <;> rfl

@[simp]
theorem pending_some (client : Nat) (job : Option (Job R)) (answer : Answer) :
    pending client job (some answer) = [] := by
  cases job <;> rfl

/-- Every operation was drawn with knowledge of those before it: it says whether its structure
existed, and changes that if it can. -/
def Foretold [Weights.Weight R] : List (Note R) → Prop
  | [] => True
  | ⟨_, o⟩ :: earlier =>
    (o.keyspace.tracksLifecycle = true →
      o.existed = some (lastChange? (earlier.map (·.operation)) o.keyspace o.keyIndex ==
        some .create) ∧
      (o.action.isLifecycle = true →
        (lastChange? (earlier.map (·.operation)) o.keyspace o.keyIndex == some .create) =
          (o.action == .delete))) ∧
    Foretold earlier

theorem Foretold.of_append [Weights.Weight R] {ns earlier : List (Note R)}
    (h : Foretold (ns ++ earlier)) : Foretold earlier := by
  induction ns with
  | nil => exact h
  | cons n ns ih => exact ih h.2

/-- Every operation was answered according to those before it. -/
def Faithful : List (Served R) → Prop
  | [] => True
  | ⟨⟨_, o⟩, answer⟩ :: earlier =>
    (answer =
      if lastChange? (earlier.map (·.operation)) o.keyspace o.keyIndex = some .create ↔
        o.action = .create then .refused else .accepted) ∧
    Faithful earlier

/-- What was recorded for an operation is how its response counts. -/
def Completed.Recorded (x : Completed R) : Prop :=
  ∃ response entry, x.answer.agrees response = true ∧ x.entries = [entry] ∧
    entry.outcome = (Worker.outcomeOf x.operation response).1

theorem Completed.Recorded.entries_of_accepted {x : Completed R} (h : x.Recorded)
    (ha : x.answer = .accepted) : ∃ e, x.entries = [e] ∧ e.outcome = .success := by
  obtain ⟨response, entry, hagrees, hentries, houtcome⟩ := h
  rw [ha] at hagrees
  cases response with
  | success => exact ⟨entry, hentries, houtcome⟩
  | rejected reason => cases hagrees

theorem Completed.Recorded.entries_of_refused {x : Completed R} (h : x.Recorded)
    (ha : x.answer = .refused) :
    ∃ e, x.entries = [e] ∧
      e.outcome = if x.operation.expectsMiss then .expectedMiss else .failure .protocol := by
  obtain ⟨response, entry, hagrees, hentries, houtcome⟩ := h
  rw [ha] at hagrees
  cases response with
  | success => cases hagrees
  | rejected reason =>
    refine ⟨entry, hentries, houtcome.trans ?_⟩
    rw [Worker.outcomeOf]
    split <;> rfl

end Trial

end LoadGen
