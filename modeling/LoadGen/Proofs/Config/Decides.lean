import LoadGen.Proofs.Config.Accepted
import LoadGen.Proofs.Lists.Places
import Mathlib

/-!
# Checks that decide

A check takes something as written and gives its checked form, or a fault. It decides a property if
it gives a result exactly when the property holds, and then a result of a certain kind (`Decides`).
A check that is made of others decides what those decide together: one rule for each way in which
checks are put together.
-/

namespace LoadGen.Config

variable {ε α β δ : Type}

/-- A check has a result exactly if `valid` holds, and then `result` holds of it. -/
structure Decides (x : Except ε α) (valid : Prop) (result : α → Prop) : Prop where
  of_eq_ok : ∀ a, x = .ok a → valid ∧ result a
  exists_ok : valid → ∃ a, x = .ok a

namespace Decides

variable {x : Except ε α} {valid valid' : Prop} {result : α → Prop}

theorem ok {a : α} (hv : valid) (hr : result a) : Decides (.ok a : Except ε α) valid result where
  of_eq_ok _ ha := by
    cases ha
    exact ⟨hv, hr⟩
  exists_ok _ := ⟨a, rfl⟩

theorem error {e : ε} (h : ¬valid) : Decides (.error e) valid result where
  of_eq_ok _ := nofun
  exists_ok hv := absurd hv h

theorem congr (h : Decides x valid result) (hvalid : valid ↔ valid') : Decides x valid' result where
  of_eq_ok a ha := by
    obtain ⟨hv, hr⟩ := h.of_eq_ok a ha
    exact ⟨hvalid.1 hv, hr⟩
  exists_ok hv := h.exists_ok (hvalid.2 hv)

/-- A check after another one, whose result it may use. -/
theorem bind {f : α → Except ε β} {next : Prop} {result' : β → Prop} (h : Decides x valid result)
    (hnext : ∀ a, valid → result a → Decides (f a) next result') :
    Decides (x >>= f) (valid ∧ next) result' where
  of_eq_ok b hb := by
    obtain ⟨a, ha, hb⟩ := bind_eq_ok.1 hb
    obtain ⟨hv, hr⟩ := h.of_eq_ok a ha
    obtain ⟨hn, hr'⟩ := (hnext a hv hr).of_eq_ok b hb
    exact ⟨⟨hv, hn⟩, hr'⟩
  exists_ok := by
    rintro ⟨hv, hn⟩
    obtain ⟨a, ha⟩ := h.exists_ok hv
    obtain ⟨b, hb⟩ := (hnext a hv (h.of_eq_ok a ha).2).exists_ok hn
    exact ⟨b, bind_eq_ok.2 ⟨a, ha, hb⟩⟩

/-- Something is refused, and the rest is checked. -/
theorem refuse {p : Prop} [Decidable p] {e : ε} (h : Decides x valid result) :
    Decides (if p then .error e else x) (¬p ∧ valid) result := by
  split
  · next hp => exact ⟨fun _ => nofun, fun hv => absurd hp hv.1⟩
  · next hp => exact h.congr ⟨fun hv => ⟨hp, hv⟩, And.right⟩

/-- All elements of a list are checked. -/
theorem mapM {f : δ → Except ε α} {valid : δ → Prop} {result : δ → α → Prop} {ds : List δ}
    (h : ∀ d ∈ ds, Decides (f d) (valid d) (result d)) :
    Decides (ds.mapM f) (∀ d ∈ ds, valid d) (List.Forall₂ result ds) := by
  induction ds with
  | nil =>
    rw [List.mapM_nil]
    exact ok (List.forall_mem_nil _) .nil
  | cons d ds ih =>
    obtain ⟨hd, hds⟩ := List.forall_mem_cons.1 h
    rw [List.mapM_cons]
    refine (hd.bind fun a _ ha => (ih hds).bind fun as _ has => ok trivial (.cons ha has)).congr ?_
    rw [List.forall_mem_cons, and_true]

end Decides

end LoadGen.Config
