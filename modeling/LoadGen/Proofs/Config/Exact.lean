import LoadGen.Proofs.Config.Accepted
import LoadGen.Proofs.Config.Names
import Mathlib

/-!
# Exactly the valid configurations are accepted

Each check decides what is said of its part of a valid configuration, and its result reads that part.
Commands are checked with the bounds seen so far in hand; what is kept in the course of it is that
these are the first of all bounds up to there (`decides_checkCommands`).
-/

namespace LoadGen.Config

open Weights Keys

variable {R : Type}

/-! ## Settings and endpoints -/

theorem decides_positive (setting : Setting) (value : Nat) :
    Decides (positive (R := R) setting value) (0 < value) (· = value) := by
  rw [positive]
  split
  · next h => exact .error (by omega)
  · next h => exact .ok (Nat.pos_of_ne_zero h) rfl

theorem decides_checkGeneral (d : GeneralDraft) :
    Decides (checkGeneral (R := R) d) d.Valid (· = d.read) := by
  rw [checkGeneral]
  split
  · next protocol hprotocol =>
    cases protocol
    refine ((decides_positive .interval _).bind fun _ _ hinterval =>
      (decides_positive .windows _).bind fun _ _ hwindows =>
      (decides_positive .clients _).bind fun _ _ hclients =>
      (decides_positive .poolsize _).bind fun _ _ hpoolsize =>
      (decides_positive .requestTimeout _).bind fun _ _ hrequest =>
      (decides_positive .connectTimeout _).bind fun _ _ hconnect => .ok trivial ?_).congr ?_
    · rw [hinterval, hwindows, hclients, hpoolsize, hrequest, hconnect]
      rfl
    · have hspelled := Protocol.ofName?_eq_some_iff.1 hprotocol
      constructor
      · rintro ⟨hi, hw, hc, hp, hr, hn, -⟩
        exact ⟨hspelled, hi, hw, hc, hp, hr, hn⟩
      · rintro ⟨-, hi, hw, hc, hp, hr, hn⟩
        exact ⟨hi, hw, hc, hp, hr, hn, trivial⟩
  · next hnone =>
    refine .error fun h => ?_
    cases hnone.symm.trans (Protocol.ofName?_eq_some_iff.2 h.protocol)

theorem decides_checkEndpoint (s : String) :
    Decides (checkEndpoint (R := R) s) (IsHostPort s) (· = s) := by
  rw [checkEndpoint]
  split
  · next h => exact .ok (isEndpoint_iff.1 h) rfl
  · next h => exact .error fun hs => h (isEndpoint_iff.2 hs)

/-! ## Commands -/

theorem decides_checkItems (ordinal : Nat) (a : Action) (items : Option Nat) :
    Decides (checkItems (R := R) ordinal a items) (ItemsValid items) (· = items.getD 1) := by
  unfold checkItems
  split
  · exact .ok nofun rfl
  · exact .error fun h => absurd (h 0 rfl).1 (by decide)
  · next n hzero =>
    have hn : 1 ≤ n := Nat.pos_of_ne_zero hzero
    split
    · next hlt =>
      refine .ok ?_ rfl
      rintro _ ⟨rfl⟩
      exact ⟨hn, hlt⟩
    · next hge => exact .error fun h => hge (h n rfl).2

theorem CommandDraft.marks?_eq_none {count : Nat} {d : CommandDraft R} (hlow : d.low = none)
    (hhigh : d.high = none) : d.marks? count = none := by
  rw [marks?, if_pos ⟨Option.isNone_iff_eq_none.2 hlow, Option.isNone_iff_eq_none.2 hhigh⟩]

theorem CommandDraft.marks?_eq_some {count : Nat} {d : CommandDraft R}
    (h : d.low = none → d.high = none → False) :
    d.marks? count = some ⟨d.low.getD 0, d.high.getD (max count (d.low.getD 0))⟩ := by
  rw [marks?, if_neg]
  exact fun hnone => h (Option.isNone_iff_eq_none.1 hnone.1) (Option.isNone_iff_eq_none.1 hnone.2)

theorem isLifecycle_iff {a : Action} : a.isLifecycle = true ↔ a = .create ∨ a = .delete := by
  cases a <;> decide

theorem decides_checkWatermarks (ordinal count : Nat) (a : Action) (d : CommandDraft R) :
    Decides (checkWatermarks (R := R) ordinal count a d.low d.high) (d.MarksValid count a)
      (· = d.marks? count) := by
  unfold checkWatermarks CommandDraft.MarksValid
  split
  · next hlow hhigh =>
    rw [CommandDraft.marks?_eq_none hlow hhigh]
    exact .ok nofun rfl
  · next hsome =>
    rw [CommandDraft.marks?_eq_some hsome]
    split
    · next ha =>
      dsimp only
      split
      · next hlt => exact .error fun h => absurd (h _ rfl).2 (Nat.not_le_of_lt hlt)
      · next hle =>
        refine .ok ?_ rfl
        rintro _ ⟨rfl⟩
        exact ⟨isLifecycle_iff.1 ha, Nat.le_of_not_lt hle⟩
    · next ha => exact .error fun h => ha (isLifecycle_iff.2 (h _ rfl).1)

theorem CommandDraft.valid_iff {count : Nat} {d : CommandDraft R} {a : Action}
    (ha : a.IsNamed d.action) :
    d.Valid count ↔ ItemsValid d.items ∧ d.MarksValid count a := by
  constructor
  · intro h
    exact ⟨h.items, h.marks a ha⟩
  · rintro ⟨hitems, hmarks⟩
    exact ⟨⟨a, ha⟩, hitems, fun a' ha' => ha'.unique ha ▸ hmarks⟩

theorem agree_cons {α : Type} {a : α} {as : List α} : Agree (a :: as) ↔ ∀ b ∈ as, b = a := by
  constructor
  · intro h b hb
    exact h b (List.mem_cons_of_mem _ hb) a List.mem_cons_self
  · intro h
    have hall : ∀ b ∈ a :: as, b = a := List.forall_mem_cons.2 ⟨rfl, h⟩
    exact fun b hb c hc => (hall b hb).trans (hall c hc).symm

theorem agree_toList {α : Type} (o : Option α) : Agree o.toList := by
  cases o with
  | none => exact List.forall_mem_nil _
  | some a => exact agree_cons.2 (List.forall_mem_nil _)

theorem Agree.headD_eq {α : Type} {as : List α} (h : Agree as) {a : α} (ha : a ∈ as) (b : α) :
    as.headD b = a := by
  cases as with
  | nil => cases ha
  | cons a' as => exact h a' List.mem_cons_self a ha

/-- Commands are valid one by one, and no two of the bounds seen before and given by them differ; the
first of these is what is seen at the end. -/
theorem decides_checkCommands (ordinal count : Nat) (seen : Option Watermarks)
    (ds : List (CommandDraft R)) :
    Decides (checkCommands ordinal count seen ds)
      ((∀ d ∈ ds, d.Valid count) ∧ Agree (seen.toList ++ ds.filterMap (·.marks? count)))
      (fun p => List.Forall₂ (CommandDraft.Reads count) ds p.1 ∧
        p.2 = (seen.toList ++ ds.filterMap (·.marks? count)).head?) := by
  induction ds generalizing seen with
  | nil =>
    rw [checkCommands, List.filterMap_nil, List.append_nil]
    exact .ok ⟨List.forall_mem_nil _, agree_toList seen⟩ ⟨.nil, by cases seen <;> rfl⟩
  | cons d ds ih =>
    rw [checkCommands]
    split
    · next a hname =>
      have ha := Action.ofName?_eq_some_iff.1 hname
      have hvalid : (ItemsValid d.items ∧ d.MarksValid count a ∧ (∀ d ∈ ds, d.Valid count) ∧
            Agree (seen.toList ++ (d :: ds).filterMap (·.marks? count))) ↔
          (∀ d' ∈ d :: ds, d'.Valid count) ∧
            Agree (seen.toList ++ (d :: ds).filterMap (·.marks? count)) := by
        rw [List.forall_mem_cons, CommandDraft.valid_iff ha, and_assoc, and_assoc]
      refine Decides.congr ?_ hvalid
      refine (decides_checkItems ordinal a d.items).bind fun items _ hitems => ?_
      refine (decides_checkWatermarks ordinal count a d).bind fun marks _ hmarks => ?_
      -- the other commands, once it is known which bounds were seen up to here
      have hrest (seen' : Option Watermarks) :
          Decides (checkCommands ordinal count seen' ds >>= fun p =>
              .ok ((⟨a, marks, items⟩, d.weight) :: p.1, p.2))
            ((∀ d ∈ ds, d.Valid count) ∧ Agree (seen'.toList ++ ds.filterMap (·.marks? count)))
            (fun p => List.Forall₂ (CommandDraft.Reads count) (d :: ds) p.1 ∧
              p.2 = (seen'.toList ++ ds.filterMap (·.marks? count)).head?) := by
        refine ((ih seen').bind fun p _ hp => .ok trivial ?_).congr (and_iff_left trivial)
        exact ⟨.cons ⟨ha, hmarks, hitems, rfl⟩ hp.1, hp.2⟩
      cases marks with
      | none =>
        rw [List.filterMap_cons_none hmarks.symm]
        exact hrest seen
      | some m =>
        rw [List.filterMap_cons_some hmarks.symm]
        cases seen with
        | none => exact hrest (some m)
        | some first =>
          dsimp only
          split
          · next heq =>
            subst heq
            exact (hrest (some m)).congr (by simp [agree_cons])
          · next hne => exact .error fun h => hne (agree_cons.1 h.2 m List.mem_cons_self)
    · next hnone =>
      refine .error fun h => ?_
      obtain ⟨a, ha⟩ := (h.1 d List.mem_cons_self).exists_action
      cases hnone.symm.trans (Action.ofName?_eq_some_iff.2 ha)

theorem CommandDraft.Reads.items_bounds {count : Nat} {c : CommandDraft R} {p : Command × R}
    (h : c.Reads count p) (hvalid : c.Valid count) : 1 ≤ p.1.items ∧ p.1.items < 2 ^ 32 := by
  rw [h.items_eq]
  cases hitems : c.items with
  | none => decide
  | some n => exact hvalid.items n hitems

/-! ## Values -/

theorem decides_checkValue (ordinal : Nat) (d : ValueDraft R) :
    Decides (checkValue ordinal d) d.Valid d.Reads := by
  rw [checkValue]
  split
  · next k hname =>
    have hk := ValueClass.ofName?_eq_some_iff.1 hname
    refine Decides.congr (.refuse (.refuse (.ok trivial ⟨rfl, hk, rfl⟩))) ?_
    constructor
    · rintro ⟨hlength, hwide, -⟩
      refine ⟨⟨k, hk⟩, Nat.pos_of_ne_zero hlength, fun hint => ?_⟩
      exact Nat.le_of_not_lt fun hlt => hwide ⟨hk.unique hint, hlt⟩
    · rintro ⟨-, hlength, hwide⟩
      refine ⟨hlength.ne', ?_, trivial⟩
      rintro ⟨rfl, hlt⟩
      exact Nat.not_le_of_lt hlt (hwide hk)
  · next hnone =>
    refine .error fun h => ?_
    obtain ⟨k, hk⟩ := h.exists_kind
    cases hnone.symm.trans (ValueClass.ofName?_eq_some_iff.2 hk)

section Weighing

variable [Weight R]

theorem decides_weigh {α : Type} (list : WeightedList) (weighted : List (α × R)) :
    Decides (weigh list weighted) (Weighable (weighted.map (·.2))) (·.Weighs weighted) := by
  have h := WeightedTable.decides_ofList weighted
  rw [weigh]
  split
  · next t ht =>
    obtain ⟨hv, hr⟩ := h.of_eq_ok t ht
    exact .ok hv hr
  · next e he =>
    refine .error fun hv => ?_
    obtain ⟨t, ht⟩ := h.exists_ok hv
    cases he.symm.trans ht

/-- Values are needed only for commands that ask for them, and only weighed if there are some. -/
theorem decides_checkValues (ordinal : Nat) (needed : Bool) (ds : List (ValueDraft R)) :
    Decides (checkValues ordinal needed ds)
      ((∀ v ∈ ds, v.Valid) ∧ (ds ≠ [] → Weighable (ds.map (·.weight))) ∧
        (needed = true → ds ≠ []))
      (fun values => (ds = [] ∧ values = none) ∨
        ∃ vs t, List.Forall₂ ValueDraft.Reads ds vs ∧ t.Weighs vs ∧ values = some t) := by
  rw [checkValues]
  split
  · next hempty =>
    cases List.isEmpty_iff.1 hempty
    split
    · next hneeded => exact .error fun h => h.2.2 hneeded rfl
    · next hneeded =>
      exact .ok ⟨List.forall_mem_nil _, absurd rfl, fun h => absurd h hneeded⟩ (.inl ⟨rfl, rfl⟩)
  · next hne =>
    have hne : ds ≠ [] := fun h => hne (List.isEmpty_iff.2 h)
    have hvalid : ((∀ v ∈ ds, v.Valid) ∧ Weighable (ds.map (·.weight)) ∧ True) ↔
        (∀ v ∈ ds, v.Valid) ∧ (ds ≠ [] → Weighable (ds.map (·.weight))) ∧
          (needed = true → ds ≠ []) := by
      simp [hne]
    refine Decides.congr ?_ hvalid
    refine (Decides.mapM fun v _ => decides_checkValue ordinal v).bind fun vs _ hvs => ?_
    rw [← Lists.map_eq_of_forall₂ hvs fun _ _ h => h.weight_eq]
    exact (decides_weigh _ vs).bind fun t _ ht => .ok trivial (.inr ⟨vs, t, hvs, ht, rfl⟩)

/-! ## Keyspaces -/

variable {d : KeyspaceDraft R} {cs : List (Command × R)}

theorem needsValue_iff {a : Action} :
    a.needsValue = true ↔ a ∈ [Action.create, .find, .insert, .remove] := by
  cases a <;> decide

theorem needsValues_iff (h : List.Forall₂ (CommandDraft.Reads d.count) d.commands cs) :
    (cs.any fun (command, weight) => Weight.less 0 weight && command.action.needsValue) = true ↔
      d.NeedsValues := by
  simp only [List.any_eq_true, Bool.and_eq_true, needsValue_iff]
  constructor
  · rintro ⟨p, hp, hless, haction⟩
    obtain ⟨c, hc, hreads⟩ := Lists.exists_mem_of_forall₂' h hp
    exact ⟨c, hc, p.1.action, hreads.isNamed, haction, hreads.weight_eq ▸ hless⟩
  · rintro ⟨c, hc, a, ha, haction, hless⟩
    obtain ⟨p, hp, hreads⟩ := Lists.exists_mem_of_forall₂ h hc
    exact ⟨p, hp, hreads.weight_eq.symm ▸ hless, ha.unique hreads.isNamed ▸ haction⟩

theorem tracksLifecycle_iff {k : Keyspace R}
    (h : List.Forall₂ (CommandDraft.Reads d.count) d.commands cs) (hweighs : k.commands.Weighs cs) :
    k.tracksLifecycle = true ↔ d.DrawsLifecycle := by
  have hweights : cs.map (·.2) = d.commands.map (·.weight) :=
    Lists.map_eq_of_forall₂ h fun _ _ h => h.weight_eq
  have hshare {i : Nat} {p : Command × R} (hp : cs[i]? = some p) :
      k.commands.share i = shareOf (d.commands.map (·.weight)) i := by
    rw [hweighs.share_eq (List.getElem?_eq_some_iff.1 hp).1, hweights]
  rw [Keyspace.tracksLifecycle, List.any_eq_true]
  simp only [Bool.and_eq_true, List.mem_zipIdx_iff_getElem?, hweighs.items_eq, List.getElem?_map,
    Option.map_eq_some_iff, isLifecycle_iff]
  constructor
  · rintro ⟨⟨_, i⟩, ⟨p, hp, rfl⟩, haction, hless⟩
    obtain ⟨c, hc, hreads⟩ := Lists.exists_getElem?_of_forall₂' h hp
    exact ⟨i, c, p.1.action, hc, hreads.isNamed, haction, hshare hp ▸ hless⟩
  · rintro ⟨i, c, a, hc, ha, haction, hless⟩
    obtain ⟨p, hp, hreads⟩ := Lists.exists_getElem?_of_forall₂ h hc
    exact ⟨(p.1, i), ⟨p, hp, rfl⟩, ha.unique hreads.isNamed ▸ haction, (hshare hp).symm ▸ hless⟩

/-- What is valid about a keyspace, in the order in which it is checked. -/
theorem KeyspaceDraft.valid_iff {stride : Nat} :
    (¬d.length = 0 ∧ ¬d.count = 0 ∧
        ¬(!Alphabet.binary.holds d.length (d.count * stride)) = true ∧
        ¬d.commands.isEmpty = true ∧
        ((∀ c ∈ d.commands, c.Valid d.count) ∧ Agree d.marks) ∧
        Weighable (d.commands.map (·.weight)) ∧
        ((∀ v ∈ d.values, v.Valid) ∧ (d.values ≠ [] → Weighable (d.values.map (·.weight))) ∧
          (d.NeedsValues → d.values ≠ [])) ∧
        (d.DrawsLifecycle → d.count ≤ 2 ^ 27)) ↔
      d.Valid stride := by
  have hholds : ¬(!Alphabet.binary.holds d.length (d.count * stride)) = true ↔
      d.count * stride ≤ 256 ^ d.length := by
    rw [Bool.not_eq_true', Bool.not_eq_false, Alphabet.holds_iff_le_pow]
    rfl
  rw [hholds]
  constructor
  · rintro ⟨hlength, hcount, hfit, -, ⟨hcommands, hagree⟩, hweigh, ⟨hvalues, hvweigh, hneeds⟩, hle⟩
    exact ⟨Nat.pos_of_ne_zero hlength, Nat.pos_of_ne_zero hcount, hfit, hcommands, hagree, hweigh,
      hvalues, hvweigh, hneeds, hle⟩
  · intro h
    refine ⟨h.length_pos.ne', h.count_pos.ne', h.keys_fit, fun hempty => ?_,
      ⟨h.commands, h.marks_agree⟩, h.weighable_commands,
      ⟨h.values, h.weighable_values, h.values_ne_nil⟩, h.count_le⟩
    obtain ⟨w, hw, -⟩ := h.weighable_commands.positive
    rw [List.isEmpty_iff.1 hempty] at hw
    cases hw

theorem decides_checkKeyspace (stride ordinal : Nat) (d : KeyspaceDraft R) :
    Decides (checkKeyspace stride ordinal d) (d.Valid stride)
      (fun k => d.Reads stride ordinal k ∧ k.alphabet = .printable) := by
  rw [checkKeyspace]
  refine Decides.congr (.refuse (.refuse (.refuse (.refuse ?_)))) KeyspaceDraft.valid_iff
  refine (decides_checkCommands ordinal d.count none d.commands).bind ?_
  rintro ⟨cs, marks⟩ - ⟨hcs, hmarks⟩
  rw [← Lists.map_eq_of_forall₂ hcs fun _ _ h => h.weight_eq]
  refine (decides_weigh _ cs).bind fun table _ htable => ?_
  have hvalues := decides_checkValues ordinal (cs.any fun (command, weight) =>
    Weight.less 0 weight && command.action.needsValue) d.values
  rw [needsValues_iff hcs] at hvalues
  refine hvalues.bind fun values _ hvalues => ?_
  dsimp only
  split
  · next htracked =>
    rw [Bool.and_eq_true, decide_eq_true_iff, tracksLifecycle_iff hcs htable] at htracked
    exact .error fun h => Nat.not_le_of_lt htracked.2 (h htracked.1)
  · next huntracked =>
    rw [Bool.and_eq_true, decide_eq_true_iff, tracksLifecycle_iff hcs htable] at huntracked
    refine .ok (fun h => Nat.le_of_not_lt fun hlt => huntracked ⟨h, hlt⟩) ⟨?_, rfl⟩
    have hmarks : marks = d.marks.head? := hmarks
    refine ⟨rfl, rfl, rfl, rfl, rfl, ⟨cs, hcs, htable⟩, hvalues, ?_⟩
    rw [hmarks, List.headD_eq_head?_getD]

theorem decides_checkKeyspaces (stride ordinal : Nat) (ds : List (KeyspaceDraft R)) :
    Decides (checkKeyspaces stride ordinal ds) (∀ d ∈ ds, d.Valid stride)
      (List.Forall₂ (fun x k => x.1.Reads stride x.2 k ∧ k.alphabet = .printable)
        (ds.zipIdx ordinal)) := by
  induction ds generalizing ordinal with
  | nil => exact .ok (List.forall_mem_nil _) .nil
  | cons d ds ih =>
    rw [checkKeyspaces, List.forall_mem_cons, List.zipIdx_cons]
    refine Decides.congr ?_ (and_congr_right fun _ => and_iff_left trivial)
    refine (decides_checkKeyspace stride ordinal d).bind fun k _ hk => ?_
    exact (ih (ordinal + 1)).bind fun ks _ hks => .ok trivial (.cons hk hks)

/-! ## The whole configuration -/

section Choice

variable {ds : List (KeyspaceDraft R)} {ks : List (Keyspace R)} {n : Nat}

/-- What is read of the keyspaces one by one is the same for all. -/
theorem map_eq_of_reads {β : Type} {f : KeyspaceDraft R → β} {g : Keyspace R → β}
    (h : List.Forall₂ (fun x k => x.1.Reads n x.2 k) ds.zipIdx ks)
    (hfg : ∀ d i k, d.Reads n i k → g k = f d) : ks.map g = ds.map f := by
  calc ks.map g
      = ds.zipIdx.map (f ∘ Prod.fst) :=
        Lists.map_eq_of_forall₂ h fun x k hx => hfg x.1 x.2 k hx
    _ = (ds.zipIdx.map Prod.fst).map f := List.map_map.symm
    _ = ds.map f := by rw [List.zipIdx_map_fst]

variable (h : List.Forall₂ (fun x k => x.1.Reads n x.2 k ∧ k.alphabet = .printable) ds.zipIdx ks)

include h

theorem fitsPrintable_iff :
    fitsPrintable ks = true ↔ ∀ d ∈ ds, d.count * n ≤ 62 ^ d.length := by
  have hmap : ks.map (fun k => Alphabet.printable.holds k.length (k.count * k.stride)) =
      ds.map fun d => Alphabet.printable.holds d.length (d.count * n) := by
    refine map_eq_of_reads (h.imp fun _ _ hx => hx.1) fun d i k hk => ?_
    rw [hk.length_eq, hk.count_eq, hk.stride_eq]
  calc fitsPrintable ks = true
      ↔ ∀ b ∈ ks.map (fun k => Alphabet.printable.holds k.length (k.count * k.stride)),
          b = true := by
        rw [fitsPrintable, List.all_eq_true, List.forall_mem_map]
    _ ↔ ∀ d ∈ ds, d.count * n ≤ 62 ^ d.length := by
        rw [hmap, List.forall_mem_map]
        exact forall₂_congr fun _ _ => Alphabet.holds_iff_le_pow

theorem reads_chooseAlphabet :
    List.Forall₂ (fun x k => x.1.Reads n x.2 k) ds.zipIdx (chooseAlphabet ks) ∧
      ∀ k ∈ chooseAlphabet ks, k.alphabet = .printable ↔
        ∀ d ∈ ds, d.count * n ≤ 62 ^ d.length := by
  rw [chooseAlphabet, ← fitsPrintable_iff h]
  split
  · next hfits =>
    refine ⟨h.imp fun _ _ hx => hx.1, fun k hk => ?_⟩
    obtain ⟨x, -, -, hprintable⟩ := Lists.exists_mem_of_forall₂' h hk
    exact iff_of_true hprintable hfits
  · next hfits =>
    refine ⟨List.forall₂_map_right_iff.2 (h.imp fun _ _ hx => ?_), ?_⟩
    · obtain ⟨ho, hs, hl, hc, hw, hcommands, hvalues, hmarks⟩ := hx.1
      exact ⟨ho, hs, hl, hc, hw, hcommands, hvalues, hmarks⟩
    · rw [List.forall_mem_map]
      exact fun _ _ => iff_of_false (fun hbinary => by cases hbinary) hfits

end Choice

/-- Everything but the weights of the keyspaces. -/
theorem decides_checkParts (d : Draft R) :
    Decides (checkParts d)
      (d.general.Valid ∧ (∀ e ∈ d.endpoints, IsHostPort e) ∧ d.keyspaces ≠ [] ∧
        ∀ k ∈ d.keyspaces, k.Valid d.keyspaces.length)
      (fun p => p.1 = d.general.read ∧ p.2.1 = d.endpoints ∧
        List.Forall₂ (fun x k => x.1.Reads d.keyspaces.length x.2 k ∧ k.alphabet = .printable)
          d.keyspaces.zipIdx p.2.2) := by
  rw [checkParts]
  refine (decides_checkGeneral d.general).bind fun general _ hgeneral => ?_
  refine (Decides.mapM fun e _ => decides_checkEndpoint e).bind fun endpoints _ hendpoints => ?_
  have hendpoints : endpoints = d.endpoints := by
    simpa using Lists.map_eq_of_forall₂ (f := id) (g := id) hendpoints fun _ _ h => h
  have hnil : ¬d.keyspaces.isEmpty = true ↔ d.keyspaces ≠ [] := by rw [List.isEmpty_iff]
  refine Decides.congr (.refuse ?_) (and_congr_left' hnil)
  refine Decides.congr ?_ (and_iff_left trivial)
  exact (decides_checkKeyspaces _ 0 d.keyspaces).bind fun ks _ hks =>
    .ok trivial ⟨hgeneral, hendpoints, hks⟩

theorem decides_ofDraft (d : Draft R) : Decides (Config.ofDraft d) d.Valid d.Reads := by
  have hvalid : ((d.general.Valid ∧ (∀ e ∈ d.endpoints, IsHostPort e) ∧ d.keyspaces ≠ [] ∧
        ∀ k ∈ d.keyspaces, k.Valid d.keyspaces.length) ∧
        Weighable (d.keyspaces.map (·.weight)) ∧ True) ↔ d.Valid := by
    constructor
    · rintro ⟨⟨hgeneral, hendpoints, hnil, hkeyspaces⟩, hweigh, -⟩
      exact ⟨hgeneral, hendpoints, hnil, hkeyspaces, hweigh⟩
    · intro h
      exact ⟨⟨h.general, h.endpoints, h.keyspaces_ne_nil, h.keyspaces⟩, h.weighable, trivial⟩
  rw [Config.ofDraft]
  refine Decides.congr ?_ hvalid
  refine (decides_checkParts d).bind ?_
  rintro ⟨general, endpoints, ks⟩ - ⟨hgeneral, hendpoints, hks⟩
  obtain ⟨hreads, halphabet⟩ := reads_chooseAlphabet hks
  have hweights : d.keyspaces.map (·.weight) =
      ((chooseAlphabet ks).map fun k => (k, k.weight)).map (·.2) := by
    rw [List.map_map]
    exact (map_eq_of_reads hreads fun _ _ _ hk => hk.weight_eq).symm
  rw [hweights]
  refine (decides_weigh .keyspaces _).bind fun table _ htable => .ok trivial ?_
  have hitems : table.items = chooseAlphabet ks := by
    rw [htable.items_eq, List.map_map]
    exact List.map_id' _
  refine ⟨hgeneral, hendpoints, ?_, ?_, ?_⟩
  · rw [hitems]
    exact hreads
  · rw [hitems]
    exact htable
  · rw [hitems]
    exact halphabet

/-! ## What a run relies on -/

theorem KeyspaceDraft.marks_le {stride : Nat} (hvalid : d.Valid stride) :
    ∀ m ∈ d.marks, m.low ≤ m.high := by
  intro m hm
  obtain ⟨c, hc, hmarks⟩ := List.mem_filterMap.1 hm
  obtain ⟨a, ha⟩ := (hvalid.commands c hc).exists_action
  exact ((hvalid.commands c hc).marks a ha m hmarks).2

/-- What is read of a valid keyspace is what a run relies on. -/
theorem KeyspaceDraft.Reads.ready {stride ordinal : Nat} {k : Keyspace R}
    (h : d.Reads stride ordinal k) (hvalid : d.Valid stride) : k.Ready := by
  obtain ⟨cs, hcs, hweighs⟩ := h.commands
  have hread : ∀ c ∈ k.commands.items, ∃ p : Command × R, p.1 = c ∧
      ∃ c' ∈ d.commands, c'.Reads d.count p := by
    rw [hweighs.items_eq, List.forall_mem_map]
    intro p hp
    obtain ⟨c', hc', hp'⟩ := Lists.exists_mem_of_forall₂' hcs hp
    exact ⟨p, rfl, c', hc', hp'⟩
  constructor
  case low_le_high =>
    rw [h.watermarks_eq]
    cases hmarks : d.marks with
    | nil => exact Nat.zero_le _
    | cons m ms => exact d.marks_le hvalid m (hmarks ▸ List.mem_cons_self)
  case watermarks_eq =>
    intro c hc m hm
    obtain ⟨p, rfl, c', hc', hp⟩ := hread c hc
    rw [h.watermarks_eq]
    exact hvalid.marks_agree.headD_eq
      (List.mem_filterMap.2 ⟨c', hc', hp.watermarks_eq.symm.trans hm⟩) _
  case items =>
    intro c hc
    obtain ⟨p, rfl, c', hc', hp⟩ := hread c hc
    exact hp.items_bounds (hvalid.commands c' hc')
  case values_ne_none =>
    refine ⟨cs, hweighs, fun p hp hneeds hless => ?_⟩
    have hneeded : d.NeedsValues := by
      rw [← needsValues_iff hcs, List.any_eq_true]
      exact ⟨p, hp, Bool.and_eq_true_iff.2 ⟨hless, hneeds⟩⟩
    rcases h.values with ⟨hnil, -⟩ | ⟨vs, t, -, -, ht⟩
    · exact absurd hnil (hvalid.values_ne_nil hneeded)
    · rw [ht]
      exact Option.some_ne_none t
  case values =>
    intro t ht
    rcases h.values with ⟨-, hnone⟩ | ⟨vs, t', hvs, hweighs, ht'⟩
    · cases hnone.symm.trans ht
    · cases ht'.symm.trans ht
      rw [hweighs.items_eq, List.forall_mem_map]
      intro p hp
      obtain ⟨v, hv, hp'⟩ := Lists.exists_mem_of_forall₂' hvs hp
      rw [hp'.length_eq]
      exact ⟨(hvalid.values v hv).length_pos, fun hint =>
        (hvalid.values v hv).length_le (hint ▸ hp'.isNamed)⟩
  case count_le =>
    intro htracks
    rw [h.count_eq]
    exact hvalid.count_le ((tracksLifecycle_iff hcs hweighs).1 htracks)

/-- **Exactly the valid configurations are accepted**: there is a checked form if and only if the
configuration is valid, and it reads the configuration and is what a run relies on. -/
theorem ofDraft_exact (d : Draft R) :
    ((∃ c, Config.ofDraft d = .ok c) ↔ d.Valid) ∧
      ∀ c, Config.ofDraft d = .ok c →
        d.Reads c ∧ Regular c.keyspaces.items ∧ ∀ k ∈ c.keyspaces.items, k.Ready := by
  have h := decides_ofDraft d
  refine ⟨⟨fun ⟨c, hc⟩ => (h.of_eq_ok c hc).1, h.exists_ok⟩, fun c hc => ?_⟩
  obtain ⟨hvalid, hreads⟩ := h.of_eq_ok c hc
  refine ⟨hreads, regular_of_ofDraft hc, fun k hk => ?_⟩
  obtain ⟨⟨kd, i⟩, hkd, hk'⟩ := Lists.exists_mem_of_forall₂' hreads.keyspaces hk
  have hmem : kd ∈ d.keyspaces :=
    List.mem_of_getElem? (List.mem_zipIdx_iff_getElem?.1 hkd)
  exact hk'.ready (hvalid.keyspaces kd hmem)

end Weighing

end LoadGen.Config
