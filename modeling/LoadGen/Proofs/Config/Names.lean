import LoadGen.Proofs.Config.Decides
import LoadGen.Proofs.Config.Valid
import LoadGen.Proofs.Wire.Texts
import Mathlib

/-!
# Names, numerals and endpoints

The texts of a configuration mean what they say: a name is found exactly for the texts that say it
(`Action.ofName?_eq_some_iff`, `ValueClass.ofName?_eq_some_iff`), and a text is taken for an endpoint
exactly if it is a host and a port (`isEndpoint_iff`).
-/

namespace LoadGen.Config

/-! ## Names -/

theorem Action.find?_name_eq_some_iff {name : List Char} {a : Action} :
    (all.find? fun a => a.name.toList == name) = some a ↔ a.name.toList = name := by
  constructor
  · intro h
    have hname := List.find?_some h
    exact eq_of_beq hname
  · rintro rfl
    cases a <;> decide

/-- No name of an action starts with the command family. -/
theorem Action.isPrefixOf_family (a : Action) :
    "sarray_".toList.isPrefixOf a.name.toList = false := by
  cases a <;> decide

theorem Action.ofName?_eq_some_iff {s : String} {a : Action} :
    ofName? s = some a ↔ a.IsNamed s := by
  rw [ofName?, find?_name_eq_some_iff, IsNamed, Says, Says]
  generalize Text.foldCase (Text.trim s) = name
  have htext (t : String) : name = t ↔ name.toList = t.toList := String.toList_inj.symm
  rw [htext, htext, String.toList_append]
  constructor
  · intro h
    split at h
    · next hprefix =>
      obtain ⟨rest, hrest⟩ := List.isPrefixOf_iff_prefix.1 hprefix
      rw [← hrest, List.drop_left] at h
      exact .inr (by rw [← hrest, h])
    · exact .inl h.symm
  · rintro (h | h)
    · rw [h, a.isPrefixOf_family]
      rfl
    · rw [h, if_pos (List.isPrefixOf_iff_prefix.2 (List.prefix_append _ _)), List.drop_left]

/-- A text names one action at most. -/
theorem Action.IsNamed.unique {s : String} {a a' : Action} (h : a.IsNamed s) (h' : a'.IsNamed s) :
    a = a' :=
  Option.some.inj ((ofName?_eq_some_iff.2 h).symm.trans (ofName?_eq_some_iff.2 h'))

theorem ValueClass.ofName?_eq_some_iff {s : String} {k : ValueClass} :
    ofName? s = some k ↔ k.IsNamed s := by
  rw [ofName?]
  constructor
  · intro h
    split at h
    · next hname => cases h; exact .inl hname
    · next hname => cases h; exact .inr hname
    · next hname => cases h; exact .inl hname
    · next hname => cases h; exact .inr hname
    · cases h
  · intro h
    cases k with
    | bytes => rcases h with h | h <;> rw [h] <;> rfl
    | integer => rcases h with h | h <;> rw [h] <;> rfl

theorem ValueClass.IsNamed.unique {s : String} {k k' : ValueClass} (h : k.IsNamed s)
    (h' : k'.IsNamed s) : k = k' :=
  Option.some.inj ((ofName?_eq_some_iff.2 h).symm.trans (ofName?_eq_some_iff.2 h'))

theorem Protocol.ofName?_eq_some_iff {s : String} : ofName? s = some .rds ↔ Says s "rds" := by
  rw [ofName?, Says]
  split
  · next h => exact ⟨fun _ => h, fun _ => rfl⟩
  · next h => exact ⟨nofun, fun h' => absurd h' h⟩

/-! ## Numerals -/

theorem isDigit_of_digit? {c : Char} {n : Nat} (h : Text.digit? c = some n) :
    c.isDigit = true := by
  rw [Text.digit?] at h
  split at h
  · next hc => simpa [Char.isDigit, Char.le_def] using hc
  · cases h

theorem forall_isDigit_of_foldlM {cs : List Char} {n m : Nat}
    (h : cs.foldlM (fun n c => (Text.digit? c).map (10 * n + ·)) n = some m) :
    ∀ c ∈ cs, c.isDigit = true := by
  induction cs generalizing n with
  | nil => exact List.forall_mem_nil _
  | cons c cs ih =>
    rw [List.foldlM_cons, Option.bind_eq_bind, Option.bind_eq_some_iff] at h
    obtain ⟨n', hc, h⟩ := h
    obtain ⟨v, hv, -⟩ := Option.map_eq_some_iff.1 hc
    exact List.forall_mem_cons.2 ⟨isDigit_of_digit? hv, ih h⟩

theorem digits?_eq_some_iff {cs : List Char} {n : Nat} :
    Text.digits? cs = some n ↔
      cs ≠ [] ∧ (∀ c ∈ cs, c.isDigit = true) ∧ Nat.ofDigitChars 10 cs 0 = n := by
  rw [Text.digits?]
  split
  · next hempty =>
    exact iff_of_false (fun h => by cases h) fun h => h.1 (List.isEmpty_iff.1 hempty)
  · next hne =>
    constructor
    · intro h
      have hdigits := forall_isDigit_of_foldlM h
      rw [Wire.foldlM_digits hdigits] at h
      exact ⟨fun hnil => hne (List.isEmpty_iff.2 hnil), hdigits, Option.some.inj h⟩
    · rintro ⟨-, hdigits, hn⟩
      rw [Wire.foldlM_digits hdigits, hn]

theorem natural?_eq_some_iff {max n : Nat} {cs : List Char} :
    Text.natural? max cs = some n ↔ IsNumeral cs n ∧ n ≤ max := by
  have hplus : '+'.isDigit = false := by decide
  unfold Text.natural?
  rw [Option.filter_eq_some_iff, decide_eq_true_iff]
  refine and_congr_left' ?_
  constructor
  · intro h
    split at h
    · next rest => exact ⟨rest, .inr rfl, digits?_eq_some_iff.1 h⟩
    · exact ⟨cs, .inl rfl, digits?_eq_some_iff.1 h⟩
  · rintro ⟨digits, rfl | rfl, hdigits⟩
    · split
      · rw [hdigits.2.1 '+' List.mem_cons_self] at hplus
        cases hplus
      · exact digits?_eq_some_iff.2 hdigits
    · exact digits?_eq_some_iff.2 hdigits

theorem isSome_natural?_iff {max : Nat} {cs : List Char} :
    (Text.natural? max cs).isSome = true ↔ ∃ n, IsNumeral cs n ∧ n ≤ max := by
  rw [Option.isSome_iff_exists]
  exact exists_congr fun n => natural?_eq_some_iff

/-! ## Endpoints -/

/-- A list is cut at its last element of a kind: behind it there are none. -/
theorem eq_append_of_dropWhile_reverse {α : Type} {p : α → Bool} {cs before : List α} {a : α}
    (h : cs.reverse.dropWhile p = a :: before) :
    cs = before.reverse ++ a :: (cs.reverse.takeWhile p).reverse := by
  have hcut : cs.reverse.takeWhile p ++ a :: before = cs.reverse := by
    rw [← h, List.takeWhile_append_dropWhile]
  calc cs
      = cs.reverse.reverse := cs.reverse_reverse.symm
    _ = (cs.reverse.takeWhile p ++ a :: before).reverse := by rw [hcut]
    _ = before.reverse ++ a :: (cs.reverse.takeWhile p).reverse := by simp

theorem isEndpoint_iff {s : String} : isEndpoint s = true ↔ IsHostPort s := by
  rw [isEndpoint]
  constructor
  · intro h
    split at h
    · next host hcut =>
      rw [Bool.and_eq_true, isSome_natural?_iff] at h
      obtain ⟨hhost, n, hn, hmax⟩ := h
      refine ⟨_, _, n, eq_append_of_dropWhile_reverse hcut, ?_, ?_, hn, Nat.lt_succ_of_le hmax⟩
      · intro hcolon
        simpa using List.mem_takeWhile_imp (List.mem_reverse.1 hcolon)
      · simpa using hhost
    · cases h
  · rintro ⟨host, port, n, hs, hcolon, hhost, hn, hmax⟩
    have hport : ∀ c ∈ port.reverse, (c != ':') = true := by
      intro c hc
      exact bne_iff_ne.2 fun heq => hcolon (heq ▸ List.mem_reverse.1 hc)
    have hrev : s.toList.reverse = port.reverse ++ ':' :: host.reverse := by
      rw [hs]
      simp
    rw [hrev, List.dropWhile_append_of_pos hport, List.takeWhile_append_of_pos hport,
      List.dropWhile_cons_of_neg (by decide), List.takeWhile_cons_of_neg (by decide),
      List.append_nil, List.reverse_reverse]
    exact Bool.and_eq_true_iff.2 ⟨by simpa using hhost,
      isSome_natural?_iff.2 ⟨n, hn, Nat.le_of_lt_succ hmax⟩⟩

example : ["::1:+0080", ":80", "host:", "host:65536"].map isEndpoint =
    [true, false, false, false] := by decide +kernel

end LoadGen.Config
