import Mathlib

/-!
# Places of a list

A list whose element at a place is replaced or taken out, or which gets one more at its end: up to
order it is that element and the others, from which sums over the list follow. Of two lists that are
related place by place, what is said of one can be said of the other.
-/

namespace LoadGen.Lists

variable {α : Type} {l : List α} {i : Nat} {a : α}

theorem perm_of_getElem? (h : l[i]? = some a) : l.Perm (a :: l.eraseIdx i) := by
  obtain ⟨hi, rfl⟩ := List.getElem?_eq_some_iff.1 h
  exact (List.getElem_cons_eraseIdx_perm hi).symm

theorem set_perm (h : l[i]? = some a) (b : α) : (l.set i b).Perm (b :: l.eraseIdx i) :=
  List.set_perm_cons_eraseIdx (List.getElem?_eq_some_iff.1 h).1 b

theorem modify_eq_set (h : l[i]? = some a) (f : α → α) : l.modify i f = l.set i (f a) := by
  rw [List.modify_eq_set_getElem?, h]
  rfl

theorem set_eq_self (h : l[i]? = some a) : l.set i a = l := by
  obtain ⟨hi, rfl⟩ := List.getElem?_eq_some_iff.1 h
  exact List.set_getElem_self hi

theorem forall_mem_set {p : α → Prop} (hl : ∀ x ∈ l, p x) {b : α} (hb : p b) :
    ∀ x ∈ l.set i b, p x := fun x hx => by
  rcases List.mem_or_eq_of_mem_set hx with hx | rfl
  · exact hl x hx
  · exact hb

/-- What holds of all elements at their places, and of one more at the next place. -/
theorem forall_getElem?_concat {p : Nat → α → Prop} (hl : ∀ i x, l[i]? = some x → p i x)
    (ha : p l.length a) : ∀ i x, (l ++ [a])[i]? = some x → p i x := by
  intro i x hx
  rcases Nat.lt_trichotomy i l.length with hi | rfl | hi
  · rw [List.getElem?_append_left hi] at hx
    exact hl i x hx
  · rw [List.getElem?_concat_length] at hx
    cases hx
    exact ha
  · rw [List.getElem?_eq_none (by simp; omega)] at hx
    cases hx

/-- What is the same of an old and a new element is the same of the arrays. -/
theorem map_setIfInBounds_eq {β : Type} {v : Array α} (h : v[i]? = some a) {b : α} {g : α → β}
    (hg : g b = g a) : (v.setIfInBounds i b).map g = v.map g := by
  obtain ⟨hi, rfl⟩ := Array.getElem?_eq_some_iff.1 h
  refine Array.ext (by simp) fun j hj hj' => ?_
  rw [Array.getElem_map, Array.getElem_map, Array.getElem_setIfInBounds (by simpa using hj')]
  split
  · next hij =>
    subst hij
    exact hg
  · rfl

/-! ## Related lists -/

section Related

variable {β γ : Type} {r : α → β → Prop} {bs : List β}

theorem exists_getElem?_of_forall₂ (h : List.Forall₂ r l bs) (ha : l[i]? = some a) :
    ∃ b, bs[i]? = some b ∧ r a b := by
  induction h generalizing i with
  | nil => cases ha
  | @cons a' b _ _ hab _ ih =>
    cases i with
    | zero =>
      cases ha
      exact ⟨b, rfl, hab⟩
    | succ i => exact ih ha

theorem exists_getElem?_of_forall₂' {b : β} (h : List.Forall₂ r l bs) (hb : bs[i]? = some b) :
    ∃ a, l[i]? = some a ∧ r a b :=
  exists_getElem?_of_forall₂ h.flip hb

theorem exists_mem_of_forall₂ (h : List.Forall₂ r l bs) (ha : a ∈ l) : ∃ b ∈ bs, r a b := by
  obtain ⟨i, hi⟩ := List.getElem?_of_mem ha
  obtain ⟨b, hb, hab⟩ := exists_getElem?_of_forall₂ h hi
  exact ⟨b, List.mem_of_getElem? hb, hab⟩

theorem exists_mem_of_forall₂' {b : β} (h : List.Forall₂ r l bs) (hb : b ∈ bs) : ∃ a ∈ l, r a b :=
  exists_mem_of_forall₂ h.flip hb

theorem map_eq_of_forall₂ {f : α → γ} {g : β → γ} (h : List.Forall₂ r l bs)
    (hr : ∀ a b, r a b → g b = f a) : bs.map g = l.map f := by
  induction h with
  | nil => rfl
  | cons hab _ ih => rw [List.map_cons, List.map_cons, hr _ _ hab, ih]

end Related

/-! ## Sums -/

variable (f : α → Nat)

theorem sum_map_concat (l : List α) (a : α) : ((l ++ [a]).map f).sum = (l.map f).sum + f a := by
  rw [List.map_append, List.sum_append, List.map_singleton, List.sum_singleton]

theorem sum_map_eraseIdx (h : l[i]? = some a) :
    (l.map f).sum = f a + ((l.eraseIdx i).map f).sum := by
  rw [((perm_of_getElem? h).map f).sum_eq, List.map_cons, List.sum_cons]

theorem sum_map_set (h : l[i]? = some a) (b : α) :
    ((l.set i b).map f).sum + f a = (l.map f).sum + f b := by
  rw [((set_perm h b).map f).sum_eq, sum_map_eraseIdx f h, List.map_cons, List.sum_cons]
  omega

end LoadGen.Lists
