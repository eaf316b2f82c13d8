import LoadGen.Proofs.Lists.Places
import LoadGen.Worker.Health
import Mathlib

/-!
# Watching over the health of the workers

`Health.degrade` lowers a number and then may leave a notice. Between the two, and between what the
run loop does when it looks for the notice, other workers may have their turn. A `Watch` takes these
calls apart: a worker whose standing changes has a call under way until it has gone through its
steps, and the run loop (the watcher) waits for a notice, is woken by one, and then reads the
number, in steps of their own. While nobody waits one notice is kept, and a watcher that was woken
and is dropped passes the notice on.

With nothing in between the steps come to those of `Standing` and `Health`, for the health that the
program would keep (`Watch.kept`): an acquire does what the standing of the worker says
(`run_acquired_proceed`), and a turn of the run loop is `Health.takeNotice` (`run_turn`). In every
interleaving the number is that of the workers that count as healthy (`Sound.counted`), and once it
is zero for good the watcher finds that out (`exhaustion_noticed`).
-/

namespace LoadGen

theorem Health.degrade_eq (h : Health) :
    h.degrade = if h.lose.2 = true then h.lose.1.leaveNotice else h.lose.1 := by
  rw [degrade]
  split
  · next hlose => rw [hlose, if_pos rfl]
  · next hlose => rw [hlose, if_neg Bool.false_ne_true]

theorem Health.takeNotice_eq (h : Health) :
    h.takeNotice = (h.dropNotice, h.notice && h.healthy == 0) := by
  obtain ⟨healthy, notice⟩ := h
  cases notice <;> rfl

namespace Standing

variable (s : Standing) (h : Health) (worker : Nat)

/-- Notes how an acquire ended. -/
def note : Option AcquireFault → Standing × Health × List Log.Event
  | none => s.onConnected h worker
  | some fault => s.onFault h worker fault

theorem note_none : (s.note h worker none).1 = ⟨0, false⟩ := by
  rw [note, onConnected]
  split <;> rfl

theorem note_some (fault : AcquireFault) :
    (s.note h worker (some fault)).1 =
      ⟨min (s.failures + 1) maxFailures,
        s.degraded || decide (tolerance ≤ min (s.failures + 1) maxFailures)⟩ := by
  rw [note, onFault]
  cases s.degraded with
  | true => rfl
  | false => by_cases hmany : tolerance ≤ min (s.failures + 1) maxFailures <;> simp [hmany]

/-- How an acquire ended tells all that becomes of the standing. -/
theorem note_standing (h' : Health) (fault : Option AcquireFault) :
    (s.note h worker fault).1 = (s.note h' worker fault).1 := by
  cases fault with
  | none => rw [note_none, note_none]
  | some fault => rw [note_some, note_some]

/-- The health of the workers changes with the flag of the worker. -/
theorem note_health (fault : Option AcquireFault) :
    (s.note h worker fault).2.1 =
      match s.degraded, (s.note h worker fault).1.degraded with
      | true, false => h.recover
      | false, true => h.degrade
      | _, _ => h := by
  cases fault with
  | none =>
    rw [note_none, note, onConnected]
    cases s.degraded <;> rfl
  | some fault =>
    rw [note_some, note, onFault]
    cases s.degraded with
    | true => rfl
    | false => by_cases hmany : tolerance ≤ min (s.failures + 1) maxFailures <;> simp [hmany]

end Standing

/-- A call on the health of the workers that is under way. -/
inductive Member.Call
  /-- There is none. -/
  | idle
  /-- A worker that became degraded is to be taken off the number. -/
  | leaving
  /-- It was the last one, and is to leave a notice. -/
  | noticing
  /-- A worker that recovered is to be added to the number. -/
  | returning
  deriving Repr, DecidableEq

/-- A worker under watch. -/
structure Member where
  standing : Standing
  /-- Which of its acquires succeeded, the last one first. -/
  outcomes : List Bool
  call : Member.Call
  deriving Repr, DecidableEq

/-- Where the run loop is in waiting for the notice. -/
inductive Watcher
  /-- It does not wait. -/
  | away
  /-- It is going to wait, and has not looked yet. -/
  | begun
  /-- It looks for a notice. -/
  | looking
  /-- It waits for one. -/
  | waiting
  /-- It was woken by one, and does not know it yet. -/
  | woken
  /-- It has taken a notice and is to read the number of healthy workers. -/
  | checking
  /-- It has found that nobody is healthy. -/
  | done
  deriving Repr, DecidableEq

/-- Workers, their health, and who watches over it. -/
structure Watch where
  members : List Member
  health : Health
  watcher : Watcher
  deriving Repr, DecidableEq

/-- What happens under watch. -/
inductive Watch.Event
  /-- An acquire of a worker ends, perhaps with a fault. -/
  | acquired (member : Nat) (fault : Option AcquireFault)
  /-- A worker takes the next step of its call. -/
  | proceed (member : Nat)
  /-- The run loop begins to wait. -/
  | watch
  /-- It asks how waiting goes. -/
  | poll
  | look
  | check
  /-- It gives up waiting. -/
  | drop

/-! ## Workers -/

namespace Member

/-- The acquires that failed since the last one that succeeded. -/
def streak (m : Member) : Nat := (m.outcomes.takeWhile (! ·)).length

/-- What a worker adds to the number of healthy workers. While a call is under way that is what it
added before. -/
def share (m : Member) : Nat :=
  match m.call with
  | .leaving => 1
  | .returning => 0
  | .idle | .noticing => if m.standing.degraded then 0 else 1

/-- A worker after an acquire. If its flag changed, a call is under way. -/
def acquired (m : Member) (h : Health) (id : Nat) (fault : Option AcquireFault) : Member :=
  let standing := (m.standing.note h id fault).1
  { standing
    outcomes := fault.isNone :: m.outcomes
    call := match m.standing.degraded, standing.degraded with
      | true, false => .returning
      | false, true => .leaving
      | _, _ => .idle }

/-- The standing of a worker tells how its acquires went. -/
structure Sound (m : Member) : Prop where
  failures_eq : m.standing.failures = min m.streak Standing.maxFailures
  degraded_iff : m.standing.degraded = true ↔ Standing.tolerance ≤ m.streak
  degraded_of_leaving : m.call = .leaving → m.standing.degraded = true
  degraded_of_returning : m.call = .returning → m.standing.degraded = false

theorem share_le (m : Member) : m.share ≤ 1 := by
  rw [share]
  split
  · exact le_rfl
  · exact Nat.zero_le _
  · split <;> omega
  · split <;> omega

theorem share_of_call {m : Member} (h : m.call = .idle ∨ m.call = .noticing) :
    m.share = if m.standing.degraded then 0 else 1 := by
  rw [share]
  rcases h with h | h <;> rw [h]

/-- An acquire does not change the number of healthy workers yet. -/
theorem share_acquired {m : Member} (hidle : m.call = .idle) (h : Health) (id : Nat)
    (fault : Option AcquireFault) : (m.acquired h id fault).share = m.share := by
  rw [share_of_call (.inl hidle), acquired, share]
  dsimp only
  cases m.standing.degraded <;> cases (m.standing.note h id fault).1.degraded <;> rfl

section Acquired

variable (m : Member) (h : Health) (id : Nat)

theorem standing_acquired (fault : Option AcquireFault) :
    (m.acquired h id fault).standing = (m.standing.note h id fault).1 := rfl

theorem call_acquired (fault : Option AcquireFault) :
    (m.acquired h id fault).call =
      match m.standing.degraded, (m.standing.note h id fault).1.degraded with
      | true, false => .returning
      | false, true => .leaving
      | _, _ => .idle := rfl

theorem streak_connected : (m.acquired h id none).streak = 0 := rfl

theorem streak_fault (fault : AcquireFault) :
    (m.acquired h id (some fault)).streak = m.streak + 1 := by
  rw [streak, acquired, List.takeWhile_cons_of_pos rfl, List.length_cons, streak]

end Acquired

theorem sound_new : Sound ⟨.new, [], .idle⟩ where
  failures_eq := rfl
  degraded_iff := by decide
  degraded_of_leaving := nofun
  degraded_of_returning := nofun

namespace Sound

variable {m : Member} (hm : m.Sound) {h : Health} {id : Nat}

include hm

theorem acquired (h : Health) (id : Nat) (fault : Option AcquireFault) :
    (m.acquired h id fault).Sound := by
  have hfailures := hm.failures_eq
  have hdegraded := hm.degraded_iff
  refine ⟨?_, ?_, ?_, ?_⟩
  · cases fault with
    | none =>
      rw [standing_acquired, Standing.note_none, streak_connected]
      rfl
    | some fault =>
      rw [standing_acquired, Standing.note_some, streak_fault, hfailures]
      dsimp only
      omega
  · cases fault with
    | none =>
      rw [standing_acquired, Standing.note_none, streak_connected]
      decide
    | some fault =>
      rw [standing_acquired, Standing.note_some, streak_fault, hfailures, Bool.or_eq_true,
        hdegraded, decide_eq_true_iff]
      simp only [Standing.tolerance, Standing.maxFailures, UInt32.size]
      omega
  -- what a call is about to do to the number is what happened to the flag
  · rw [call_acquired, standing_acquired]
    cases m.standing.degraded <;> cases (m.standing.note h id fault).1.degraded <;> simp
  · rw [call_acquired, standing_acquired]
    cases m.standing.degraded <;> cases (m.standing.note h id fault).1.degraded <;> simp

/-- A call ends, or goes on to leave a notice. -/
theorem withCall {c : Call} (hc : c = .idle ∨ c = .noticing) : Sound { m with call := c } where
  failures_eq := hm.failures_eq
  degraded_iff := hm.degraded_iff
  degraded_of_leaving := by rcases hc with rfl | rfl <;> exact nofun
  degraded_of_returning := by rcases hc with rfl | rfl <;> exact nofun

end Sound

theorem sum_share_le (ms : List Member) : (ms.map share).sum ≤ ms.length := by
  have h := List.sum_le_card_nsmul (ms.map share) 1 (by
    simp only [List.forall_mem_map]
    exact fun m _ => m.share_le)
  rwa [List.length_map, nsmul_one, Nat.cast_id] at h

end Member

/-! ## Steps -/

namespace Watch

/-- Workers that have not acquired anything, and a run loop that does not wait. -/
def start (workers : UInt64) : Watch where
  members := List.replicate workers.toNat ⟨.new, [], .idle⟩
  health := .new workers.toNat
  watcher := .away

def setMember (w : Watch) (i : Nat) (m : Member) : Watch := { w with members := w.members.set i m }

/-- Leaves a notice: a waiting watcher is woken by it, otherwise it is kept. -/
def notify (w : Watch) : Watch :=
  match w.watcher with
  | .waiting => { w with watcher := .woken }
  | _ => { w with health := w.health.leaveNotice }

/-- The next step of a worker's call. -/
def proceed (w : Watch) (i : Nat) (m : Member) : Watch :=
  match m.call with
  | .idle => w
  | .leaving =>
    { w with health := w.health.lose.1 }.setMember i
      { m with call := if w.health.lose.2 then .noticing else .idle }
  | .noticing => w.notify.setMember i { m with call := .idle }
  | .returning => { w with health := w.health.recover }.setMember i { m with call := .idle }

/-- What an event does; events that do not fit do nothing. A worker acquires nothing while it has a
call under way. -/
def step (w : Watch) : Event → Watch
  | .acquired i fault =>
    match w.members[i]? with
    | some m => if m.call = .idle then w.setMember i (m.acquired w.health i fault) else w
    | none => w
  | .proceed i =>
    match w.members[i]? with
    | some m => w.proceed i m
    | none => w
  | .watch =>
    match w.watcher with
    | .away => { w with watcher := .begun }
    | _ => w
  | .poll =>
    match w.watcher with
    | .begun => { w with watcher := .looking }
    | .woken => { w with watcher := .checking }
    | _ => w
  | .look =>
    match w.watcher with
    | .looking =>
      if w.health.notice then { w with health := w.health.dropNotice, watcher := .checking }
      else { w with watcher := .waiting }
    | _ => w
  | .check =>
    match w.watcher with
    | .checking => { w with watcher := if w.health.healthy = 0 then .done else .looking }
    | _ => w
  | .drop =>
    match w.watcher with
    | .begun | .waiting => { w with watcher := .away }
    | .woken => { w with health := w.health.leaveNotice, watcher := .away }
    | _ => w

/-- The events in order. -/
def run (w : Watch) (events : List Event) : Watch := events.foldl step w

@[simp]
theorem run_nil (w : Watch) : w.run [] = w := rfl

@[simp]
theorem run_cons (w : Watch) (e : Event) (events : List Event) :
    w.run (e :: events) = (w.step e).run events := rfl

/-! ## The invariant -/

/-- The number of healthy workers is right in every state, and no notice is lost. -/
structure Sound (workers : UInt64) (w : Watch) : Prop where
  length_eq : w.members.length = workers.toNat
  member : ∀ m ∈ w.members, m.Sound
  counted : w.health.healthy.toNat = (w.members.map Member.share).sum
  /-- If nobody of them is healthy, there is a notice or the watcher has taken it. -/
  noticed : 0 < workers → w.health.healthy = 0 → (∀ m ∈ w.members, m.call ≠ .noticing) →
    w.health.notice = true ∨ w.watcher = .woken ∨ w.watcher = .checking ∨ w.watcher = .done
  notice_of_waiting : w.watcher = .waiting → w.health.notice = false

theorem sound_start (workers : UInt64) : (start workers).Sound workers where
  length_eq := List.length_replicate
  member m hm := by
    rw [List.eq_of_mem_replicate hm]
    exact Member.sound_new
  counted := by
    rw [start, List.map_replicate, List.sum_replicate]
    simp [Health.new, Member.share, Standing.new]
  noticed hpos hzero _ := by
    have hhealthy : (start workers).health.healthy = workers := UInt64.ofNat_toNat
    rw [hhealthy] at hzero
    exact absurd (hzero ▸ hpos) (UInt64.lt_irrefl 0)
  notice_of_waiting := nofun

namespace Sound

variable {workers : UInt64} {w : Watch} (hw : w.Sound workers)

include hw

/-- A worker that is to be taken off the number is among those that are counted. -/
theorem healthy_pos {i : Nat} {m : Member} (hi : w.members[i]? = some m) (hm : m.call = .leaving) :
    0 < w.health.healthy.toNat := by
  have hshare : m.share = 1 := by rw [Member.share, hm]
  rw [hw.counted, Lists.sum_map_eraseIdx Member.share hi]
  omega

section SetMember

variable {i : Nat} {m m' : Member} (hi : w.members[i]? = some m) (hm' : m'.Sound)

include hi hm'

/-- A worker changes, and with it what it adds to the number of healthy workers. -/
theorem setMember {h : Health} {v : Watcher}
    (hcount : h.healthy.toNat + m.share = w.health.healthy.toNat + m'.share)
    (hnoticed : 0 < workers → h.healthy = 0 → (∀ x ∈ w.members.set i m', x.call ≠ .noticing) →
      h.notice = true ∨ v = .woken ∨ v = .checking ∨ v = .done)
    (hwaiting : v = .waiting → h.notice = false) :
    Sound workers ⟨w.members.set i m', h, v⟩ where
  length_eq := List.length_set.trans hw.length_eq
  member := Lists.forall_mem_set hw.member hm'
  counted := by
    have hsum := Lists.sum_map_set Member.share hi m'
    have hcounted := hw.counted
    dsimp only
    omega
  noticed := hnoticed
  notice_of_waiting := hwaiting

omit hw hm' in
/-- A worker without a notice to leave is not missed among those that have one. -/
theorem forall_call_ne (hm : m.call ≠ .noticing)
    (h : ∀ x ∈ w.members.set i m', x.call ≠ .noticing) :
    ∀ x ∈ w.members, x.call ≠ .noticing := by
  intro x hx
  obtain ⟨j, hj⟩ := List.getElem?_of_mem hx
  by_cases hij : i = j
  · subst hij
    cases hi.symm.trans hj
    exact hm
  · refine h x (List.mem_of_getElem? (i := j) ?_)
    rwa [List.getElem?_set_ne hij]

end SetMember

theorem acquired {i : Nat} {m : Member} (hi : w.members[i]? = some m) (hidle : m.call = .idle)
    (fault : Option AcquireFault) :
    (w.setMember i (m.acquired w.health i fault)).Sound workers := by
  have hm := hw.member m (List.mem_of_getElem? hi)
  refine hw.setMember hi (hm.acquired _ _ _) ?_ (fun hpos hzero hnone => ?_) hw.notice_of_waiting
  · rw [m.share_acquired hidle]
  · exact hw.noticed hpos hzero (forall_call_ne hi (by simp [hidle]) hnone)

theorem proceed {i : Nat} {m : Member} (hi : w.members[i]? = some m) :
    (w.proceed i m).Sound workers := by
  have hm := hw.member m (List.mem_of_getElem? hi)
  rw [Watch.proceed]
  split
  case h_1 => exact hw
  case h_2 hcall =>
    -- a worker that is to leave the number is still counted, so that the number does not wrap
    have hpos := hw.healthy_pos hi hcall
    have hnext : ∀ last : Bool, (if last = true then Member.Call.noticing else .idle) = .idle ∨
        (if last = true then Member.Call.noticing else .idle) = .noticing := by decide
    have hle : (1 : UInt64) ≤ w.health.healthy := UInt64.le_iff_toNat_le.2 hpos
    have hlose : w.health.lose.1.healthy.toNat + 1 = w.health.healthy.toNat := by
      rw [Health.lose, UInt64.toNat_sub_of_le _ _ hle]
      exact Nat.sub_add_cancel hpos
    have hshare : m.share = 1 := by rw [Member.share, hcall]
    have hshare' : Member.share { m with call := if w.health.lose.2 then .noticing else .idle } =
        0 := by
      rw [Member.share_of_call (hnext _), if_pos (hm.degraded_of_leaving hcall)]
    refine hw.setMember hi (hm.withCall (hnext _)) ?_ (fun _ hzero hnone => ?_)
      hw.notice_of_waiting
    · rw [hshare, hshare']
      exact hlose
    · have hone : w.health.healthy.toNat = 1 := by
        rw [← hlose, hzero]
        rfl
      have hlast : w.health.lose.2 = true := beq_iff_eq.2 (UInt64.toNat_inj.1 hone)
      have hlt := (List.getElem?_eq_some_iff.1 hi).1
      exact absurd (by rw [hlast]; rfl) (hnone _ (List.mem_set hlt _))
  case h_3 hcall =>
    have hshare := Member.share_of_call (.inr hcall)
    have hidle := Member.share_of_call (m := { m with call := .idle }) (.inl rfl)
    rw [notify]
    split
    · exact hw.setMember hi (hm.withCall (.inl rfl)) (by rw [hshare, hidle])
        (fun _ _ _ => .inr (.inl rfl)) nofun
    · next hwaiting =>
      exact hw.setMember hi (hm.withCall (.inl rfl)) (by rw [hshare, hidle]; rfl)
        (fun _ _ _ => .inl rfl) (fun h => absurd h hwaiting)
  case h_4 hcall =>
    have hm' := hm.withCall (c := .idle) (.inl rfl)
    have hshare : ({ m with call := .idle } : Member).share = m.share + 1 := by
      rw [Member.share_of_call (.inl rfl), if_neg (by simp [hm.degraded_of_returning hcall]),
        Member.share, hcall]
    -- with this worker no more are counted than there are, so that the number does not wrap
    have hlt : w.health.healthy.toNat + 1 < 2 ^ 64 := by
      have hsum := Lists.sum_map_set Member.share hi { m with call := .idle }
      have hle := Member.sum_share_le (w.members.set i { m with call := .idle })
      rw [List.length_set, hw.length_eq] at hle
      have := hw.counted
      have := workers.toNat_lt
      omega
    have hnumber : w.health.recover.healthy.toNat = w.health.healthy.toNat + 1 := by
      rw [Health.recover, UInt64.toNat_add]
      exact Nat.mod_eq_of_lt hlt
    refine hw.setMember hi hm' (by dsimp only; omega) (fun _ hzero _ => ?_) hw.notice_of_waiting
    rw [hzero] at hnumber
    cases hnumber

/-- The watcher goes on, and nothing happens to the workers and their number. -/
theorem withWatcher {h : Health} {v : Watcher} (hsame : h.healthy = w.health.healthy)
    (hnoticed : w.health.healthy = 0 →
      (w.health.notice = true ∨ w.watcher = .woken ∨ w.watcher = .checking ∨ w.watcher = .done) →
      h.notice = true ∨ v = .woken ∨ v = .checking ∨ v = .done)
    (hwaiting : v = .waiting → h.notice = false) : Sound workers ⟨w.members, h, v⟩ where
  length_eq := hw.length_eq
  member := hw.member
  counted := (congrArg UInt64.toNat hsame).trans hw.counted
  noticed hpos hzero hnone := by
    have hzero := hsame.symm.trans hzero
    exact hnoticed hzero (hw.noticed hpos hzero hnone)
  notice_of_waiting := hwaiting

/-- **Every event keeps the number right and loses no notice.** -/
theorem step (e : Event) : (w.step e).Sound workers := by
  cases e with
  | acquired i fault =>
    rw [Watch.step]
    split
    · next m hi =>
      split
      · next hidle => exact hw.acquired hi hidle fault
      · exact hw
    · exact hw
  | proceed i =>
    rw [Watch.step]
    split
    · next m hi => exact hw.proceed hi
    · exact hw
  | watch =>
    rw [Watch.step]
    split
    · next h => exact hw.withWatcher rfl (fun _ => by simp [h]) nofun
    · exact hw
  | poll =>
    rw [Watch.step]
    split
    · next h => exact hw.withWatcher rfl (fun _ => by simp [h]) nofun
    · next h => exact hw.withWatcher rfl (fun _ _ => .inr (.inr (.inl rfl))) nofun
    · exact hw
  | look =>
    rw [Watch.step]
    split
    · next h =>
      split
      · exact hw.withWatcher rfl (fun _ _ => .inr (.inr (.inl rfl))) nofun
      · next hnotice =>
        exact hw.withWatcher rfl (fun _ => by simp [h, hnotice]) fun _ => by simpa using hnotice
    · exact hw
  | check =>
    rw [Watch.step]
    split
    · next h =>
      refine hw.withWatcher rfl (fun hzero _ => .inr (.inr (.inr (if_pos hzero)))) ?_
      split <;> exact nofun
    · exact hw
  | drop =>
    rw [Watch.step]
    split
    · next h => exact hw.withWatcher rfl (fun _ => by simp [h]) nofun
    · next h => exact hw.withWatcher rfl (fun _ => by simp [h]) nofun
    · next h => exact hw.withWatcher rfl (fun _ _ => .inl rfl) nofun
    · exact hw

theorem run (events : List Event) : (w.run events).Sound workers := by
  induction events generalizing w with
  | nil => exact hw
  | cons e events ih => exact ih (hw.step e)

end Sound

/-- With no call under way the number is that of the workers that are not degraded. -/
theorem Sound.healthy_eq {workers : UInt64} {w : Watch} (hw : w.Sound workers)
    (hidle : ∀ m ∈ w.members, m.call = .idle) :
    w.health.healthy.toNat = w.members.countP (!·.standing.degraded) := by
  rw [hw.counted]
  generalize w.members = ms at hidle
  induction ms with
  | nil => rfl
  | cons m ms ih =>
    rw [List.forall_mem_cons] at hidle
    rw [List.map_cons, List.sum_cons, List.countP_cons, ih hidle.2, Nat.add_comm,
      Member.share_of_call (.inl hidle.1)]
    cases m.standing.degraded <;> rfl

theorem Sound.healthy_le {workers : UInt64} {w : Watch} (hw : w.Sound workers) :
    w.health.healthy ≤ workers := by
  rw [UInt64.le_iff_toNat_le, hw.counted, ← hw.length_eq]
  exact Member.sum_share_le w.members

/-! ## With nothing in between -/

/-- The run loop begins to wait if it does not, and sees how waiting goes; events that do not fit
are left out. -/
def turn : List Event := [.watch, .poll, .look, .check, .look, .check, .look]

/-- The health that the program would keep. There a notice stays until the run loop takes it and
reads the number at once. -/
def kept (w : Watch) : Health :=
  { w.health with
    notice := w.health.notice || decide (w.watcher = .woken ∨ w.watcher = .checking) }

theorem kept_notify (w : Watch) : w.notify.kept = w.kept.leaveNotice := by
  obtain ⟨members, ⟨healthy, notice⟩, watcher⟩ := w
  cases watcher <;> simp [notify, kept, Health.leaveNotice]

theorem members_notify (w : Watch) : w.notify.members = w.members := by
  rw [notify]
  split <;> rfl

section Proceed

variable {w : Watch} {i : Nat} {m : Member} (hi : w.members[i]? = some m)

include hi

theorem step_proceed : w.step (.proceed i) = w.proceed i m := by
  rw [step, hi]

theorem step_proceed_of_idle (hidle : m.call = .idle) : w.step (.proceed i) = w := by
  rw [step_proceed hi, Watch.proceed, hidle]

/-- **A call with nothing in between is that of the program.** -/
theorem run_proceed :
    (w.run [.proceed i, .proceed i]).members = w.members.set i { m with call := .idle } ∧
      (w.run [.proceed i, .proceed i]).kept =
        match m.call with
        | .idle => w.kept
        | .leaving => w.kept.degrade
        | .noticing => w.kept.leaveNotice
        | .returning => w.kept.recover := by
  have hlt := (List.getElem?_eq_some_iff.1 hi).1
  rw [run_cons, step_proceed hi, run_cons, run_nil]
  cases hcall : m.call with
  | idle =>
    have hsame : ({ m with call := .idle } : Member) = m := by rw [← hcall]
    rw [Watch.proceed, hcall]
    dsimp only
    rw [step_proceed_of_idle hi hcall, hsame, Lists.set_eq_self hi]
    exact ⟨rfl, rfl⟩
  | leaving =>
    rw [Watch.proceed, hcall]
    dsimp only
    have hlose : w.kept.lose.2 = w.health.lose.2 := rfl
    rw [Health.degrade_eq, hlose]
    cases hlast : w.health.lose.2 with
    | true =>
      rw [step_proceed (List.getElem?_set_self hlt), Watch.proceed, if_pos rfl, if_pos rfl]
      dsimp only
      refine ⟨?_, kept_notify _⟩
      rw [setMember, members_notify]
      exact List.set_set ..
    | false =>
      rw [step_proceed_of_idle (List.getElem?_set_self hlt) rfl]
      exact ⟨rfl, rfl⟩
  | noticing =>
    rw [Watch.proceed, hcall]
    dsimp only
    rw [step_proceed_of_idle (List.getElem?_set_self (w.members_notify ▸ hlt)) rfl]
    exact ⟨by rw [setMember, members_notify], w.kept_notify⟩
  | returning =>
    rw [Watch.proceed, hcall]
    dsimp only
    rw [step_proceed_of_idle (List.getElem?_set_self hlt) rfl]
    exact ⟨rfl, rfl⟩

/-- **An acquire does what the standing of the worker says**, with nothing in between. -/
theorem run_acquired_proceed (hidle : m.call = .idle) (fault : Option AcquireFault) :
    (w.run [.acquired i fault, .proceed i, .proceed i]).members =
        w.members.set i
          ⟨(m.standing.note w.kept i fault).1, fault.isNone :: m.outcomes, .idle⟩ ∧
      (w.run [.acquired i fault, .proceed i, .proceed i]).kept =
        (m.standing.note w.kept i fault).2.1 := by
  have hlt := (List.getElem?_eq_some_iff.1 hi).1
  have hacquired : w.step (.acquired i fault) = w.setMember i (m.acquired w.health i fault) := by
    rw [step, hi]
    exact if_pos hidle
  obtain ⟨hmembers, hkept⟩ := run_proceed (w := w.setMember i (m.acquired w.health i fault))
    (List.getElem?_set_self hlt)
  rw [run_cons, hacquired, hmembers, hkept, Standing.note_health, Member.call_acquired,
    m.standing.note_standing w.kept i w.health]
  refine ⟨List.set_set .., ?_⟩
  cases m.standing.degraded <;> cases (m.standing.note w.health i fault).1.degraded <;> rfl

end Proceed

/-- **A turn of the run loop takes the notice**, if there is one, and ends the wait if nobody is
healthy. -/
theorem run_turn {w : Watch} (hgoing : w.watcher ≠ .done)
    (hwaiting : w.watcher = .waiting → w.health.notice = false) :
    (w.run turn).members = w.members ∧
      ((w.run turn).watcher = .done ↔ w.kept.takeNotice.2 = true) ∧
      ((w.run turn).watcher ≠ .done → (w.run turn).kept = w.kept.takeNotice.1) := by
  obtain ⟨members, ⟨healthy, notice⟩, watcher⟩ := w
  by_cases hzero : healthy = 0
  · subst hzero
    cases watcher with
    | done => exact absurd rfl hgoing
    | waiting =>
      obtain rfl := hwaiting rfl
      exact ⟨rfl, ⟨nofun, nofun⟩, fun _ => rfl⟩
    | woken | checking =>
      cases notice <;> exact ⟨rfl, ⟨fun _ => rfl, fun _ => rfl⟩, fun h => absurd rfl h⟩
    | away | begun | looking =>
      cases notice with
      | false => exact ⟨rfl, ⟨nofun, nofun⟩, fun _ => rfl⟩
      | true => exact ⟨rfl, ⟨fun _ => rfl, fun _ => rfl⟩, fun h => absurd rfl h⟩
  · -- a notice is stale: the watcher drops it and waits on
    have hturn : run ⟨members, ⟨healthy, notice⟩, watcher⟩ turn =
        ⟨members, ⟨healthy, false⟩, .waiting⟩ := by
      cases watcher with
      | done => exact absurd rfl hgoing
      | waiting =>
        obtain rfl := hwaiting rfl
        rfl
      | _ => cases notice <;> simp [run, turn, step, hzero, Health.dropNotice]
    have hlost : (healthy == 0) = false := beq_eq_false_iff_ne.2 hzero
    rw [hturn, Health.takeNotice_eq, kept, hlost, Bool.and_false]
    exact ⟨rfl, ⟨nofun, nofun⟩, fun _ => rfl⟩

/-! ## What the watcher finds out -/

/-- The watcher ends only by reading that nobody is healthy. -/
theorem healthy_eq_of_done {w : Watch} {e : Event} (h : (w.step e).watcher = .done)
    (hbefore : w.watcher ≠ .done) :
    e = .check ∧ w.watcher = .checking ∧ w.health.healthy = 0 := by
  cases e with
  | check =>
    rw [step] at h
    split at h
    · next hchecking =>
      split at h
      · next hzero => exact ⟨rfl, hchecking, hzero⟩
      · cases h
    · exact absurd h hbefore
  | acquired i fault =>
    rw [step] at h
    split at h
    · split at h <;> exact absurd h hbefore
    · exact absurd h hbefore
  | proceed i =>
    rw [step] at h
    split at h
    · rw [Watch.proceed] at h
      split at h
      case h_3 =>
        rw [notify] at h
        split at h
        · cases h
        · exact absurd h hbefore
      all_goals exact absurd h hbefore
    · exact absurd h hbefore
  | look =>
    rw [step] at h
    split at h
    · split at h <;> cases h
    · exact absurd h hbefore
  | _ =>
    rw [step] at h
    split at h <;> first | cases h | exact absurd h hbefore

/-- Whether an acquire succeeds. -/
def Event.succeeds : Event → Bool
  | .acquired _ none => true
  | _ => false

/-- Nobody is healthy, and no call is under way. -/
structure Lost (workers : UInt64) (w : Watch) : Prop where
  sound : w.Sound workers
  healthy_eq : w.health.healthy = 0
  idle : ∀ m ∈ w.members, m.call = .idle

namespace Lost

variable {workers : UInt64} {w : Watch} (hw : w.Lost workers)

include hw

theorem degraded {m : Member} (hm : m ∈ w.members) : m.standing.degraded = true := by
  have hnone := hw.sound.healthy_eq hw.idle
  rw [hw.healthy_eq] at hnone
  simpa using List.countP_eq_zero.1 hnone.symm m hm

/-- Nobody is healthy until an acquire succeeds. -/
theorem step {e : Event} (he : e.succeeds = false) : (w.step e).Lost workers := by
  have hsound := hw.sound.step e
  cases e with
  | acquired i fault =>
    cases fault with
    | none => cases he
    | some fault =>
      rw [Watch.step] at hsound ⊢
      split at hsound
      · next m hi =>
        have hm := List.mem_of_getElem? hi
        rw [if_pos (hw.idle m hm)] at hsound ⊢
        refine ⟨hsound, hw.healthy_eq, Lists.forall_mem_set hw.idle ?_⟩
        rw [Member.call_acquired, Standing.note_some, hw.degraded hm]
        rfl
      · exact hw
  | proceed i =>
    rw [Watch.step]
    split
    · next m hi =>
      rw [Watch.proceed, hw.idle m (List.mem_of_getElem? hi)]
      exact hw
    · exact hw
  | _ =>
    refine ⟨hsound, ?_, ?_⟩
    · rw [← hw.healthy_eq, Watch.step]
      repeat' split <;> try rfl
    · rw [Watch.step]
      repeat' split <;> try exact hw.idle

theorem run {events : List Event} (hnone : ∀ e ∈ events, e.succeeds = false) :
    (w.run events).Lost workers := by
  induction events generalizing w with
  | nil => exact hw
  | cons e events ih =>
    rw [List.forall_mem_cons] at hnone
    exact ih (hw.step hnone.1) hnone.2

/-- **The watcher finds out when it looks next.** -/
theorem done_of_turn (hpos : 0 < workers) : (w.run turn).watcher = .done := by
  have hnoticed := hw.sound.noticed hpos hw.healthy_eq fun m hm => by simp [hw.idle m hm]
  by_cases hdone : w.watcher = .done
  · obtain ⟨members, health, watcher⟩ := w
    obtain rfl : watcher = .done := hdone
    rfl
  · refine (run_turn hdone hw.sound.notice_of_waiting).2.1.2 ?_
    have hkept : w.kept.notice = true := by
      simpa [kept, hdone] using hnoticed
    rw [Health.takeNotice_eq, hkept, Bool.true_and]
    exact beq_iff_eq.2 hw.healthy_eq

end Lost

/-! ## Every interleaving -/

/-- **The number of healthy workers is exact, and no exhaustion is lost.** In every interleaving:

* a worker is degraded exactly if so many acquires in a row failed;
* the number of healthy workers is never more than that of all workers, and positive whenever a
  worker is to be taken off it; with no call under way it is that of the workers that are not
  degraded;
* the watcher ends only by reading that nobody is healthy;
* once nobody of the workers is healthy and no worker is being degraded, there is a notice, or the
  watcher has been woken by one and has yet to read the number, or has ended. As long as no acquire
  succeeds, the watcher ends when it looks next, whatever happens until then: it may be dropped and
  begin again any number of times;
* an acquire with nothing in between does to the standing of the worker and to the health what
  `Standing.onConnected` and `Standing.onFault` do;
* a turn of the run loop with nothing in between takes the notice and ends the wait as
  `Health.takeNotice` does. -/
theorem exhaustion_noticed {workers : UInt64} {events : List Event} {w : Watch}
    (h : (start workers).run events = w) :
    (∀ m ∈ w.members, m.standing.degraded = true ↔ Standing.tolerance ≤ m.streak) ∧
    w.health.healthy ≤ workers ∧
    (∀ m ∈ w.members, m.call = .leaving → 0 < w.health.healthy) ∧
    ((∀ m ∈ w.members, m.call = .idle) →
      w.health.healthy.toNat = w.members.countP (!·.standing.degraded)) ∧
    (∀ e, (w.step e).watcher = .done → w.watcher ≠ .done →
      e = .check ∧ w.watcher = .checking ∧ w.health.healthy = 0) ∧
    (0 < workers → w.health.healthy = 0 →
      ((∀ m ∈ w.members, m.call ≠ .leaving ∧ m.call ≠ .noticing) →
        w.health.notice = true ∨ w.watcher = .woken ∨ w.watcher = .checking ∨
          w.watcher = .done) ∧
      ((∀ m ∈ w.members, m.call = .idle) → ∀ later : List Event,
        (∀ e ∈ later, e.succeeds = false) → ((w.run later).run turn).watcher = .done)) ∧
    (∀ i m fault, w.members[i]? = some m → m.call = .idle →
      (w.run [.acquired i fault, .proceed i, .proceed i]).members =
          w.members.set i
            ⟨(m.standing.note w.kept i fault).1, fault.isNone :: m.outcomes, .idle⟩ ∧
        (w.run [.acquired i fault, .proceed i, .proceed i]).kept =
          (m.standing.note w.kept i fault).2.1) ∧
    (w.watcher ≠ .done →
      (w.run turn).members = w.members ∧
        ((w.run turn).watcher = .done ↔ w.kept.takeNotice.2 = true) ∧
        ((w.run turn).watcher ≠ .done → (w.run turn).kept = w.kept.takeNotice.1)) := by
  have hw : w.Sound workers := h ▸ (sound_start workers).run events
  refine ⟨fun m hm => (hw.member m hm).degraded_iff, hw.healthy_le, fun m hm hcall => ?_,
    hw.healthy_eq, fun e => healthy_eq_of_done, fun hpos hzero => ⟨fun hnone => ?_, ?_⟩,
    fun i m fault hi hidle => run_acquired_proceed hi hidle fault,
    fun hgoing => run_turn hgoing hw.notice_of_waiting⟩
  · obtain ⟨i, hi⟩ := List.getElem?_of_mem hm
    exact UInt64.lt_iff_toNat_lt.2 (hw.healthy_pos hi hcall)
  · exact hw.noticed hpos hzero fun m hm => (hnone m hm).2
  · intro hidle later hlater
    have hlost : w.Lost workers := ⟨hw, hzero, hidle⟩
    exact (hlost.run hlater).done_of_turn hpos

/-- So many acquires of a worker fail that it is degraded. -/
def outage (member : Nat) : List Event :=
  List.replicate Standing.tolerance (.acquired member (some (.timedOut "localhost:1")))

/-- A worker is degraded, and leaves a notice before the run loop waits; it recovers, so that the
run loop finds the notice to be stale and waits on; then it is degraded for good, and wakes the run
loop, which is dropped before it finds out. -/
def sampleEvents : List Event :=
  outage 0 ++ [.proceed 0, .proceed 0, .acquired 0 none, .proceed 0] ++
    [.watch, .poll, .look, .check, .look] ++ outage 0 ++ [.proceed 0, .proceed 0, .drop]

def sampleWatch : Watch := (start 1).run sampleEvents

theorem exhaustion_noticed_dropped :
    sampleWatch.health = ⟨0, true⟩ ∧ sampleWatch.watcher = .away ∧
      ((sampleWatch.run (outage 0)).run turn).watcher = .done := by
  have hrun : (start 1).run sampleEvents = sampleWatch := rfl
  obtain ⟨-, -, -, -, -, hlost, -, -⟩ := exhaustion_noticed hrun
  obtain ⟨-, hdone⟩ := hlost (by decide) (by decide +kernel)
  exact ⟨by decide +kernel, by decide +kernel,
    hdone (by decide +kernel) (outage 0) (by decide +kernel)⟩

end Watch

end LoadGen
