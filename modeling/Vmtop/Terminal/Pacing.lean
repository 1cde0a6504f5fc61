/-
# The time between two samples

`print_domain_field` turns the growth of a counter into a rate by dividing it by the
delay time.  The counter was read by two refreshes, and what lies between them is one
wait for a key: the delay time where no key comes, the part of it that has passed where
one does, and more where the key opens the field filter (`Turned.seconds`).  The rates
of a run are those over the time that has passed exactly when every key that counts
leaves the wait as long as the delay time (`ratesPaced_iff`).

Everything but the wait takes no time here.
-/

import Mathlib.Algebra.BigOperators.Group.Finset.Basic
import Vmtop.Terminal.Turns

namespace Vmtop

open CText CArray Sampled Runs

variable {input : FrameInput} {m : Main} {t : Turn} {g : Globals}

/-! ### The wait -/

/-- The seconds that the field filter stays open: it waits for a key again and again, until
that is `q`. -/
def filterSeconds (delayTime : ℤ) : List (Option KeyPress) → ℚ
  | [] => 0
  | press :: rest =>
      waited delayTime press +
        if press.map KeyPress.key = some (.char 'q') then 0 else filterSeconds delayTime rest

theorem showFilter_seconds {delayTime : ℤ} {presses : List (Option KeyPress)} {highLight : ℕ}
    {fields : List Fid} {r : List Fid × ℚ}
    (h : showFilter delayTime presses highLight fields = some r) :
    r.2 = filterSeconds delayTime presses := by
  induction presses generalizing highLight fields r with
  | nil => cases h
  | cons press rest ih =>
      simp only [showFilter] at h
      rw [filterSeconds]
      split at h
      case h_4 hkey =>
        cases h
        rw [hkey, if_pos rfl, add_zero]
      all_goals
        rename_i hkey
        obtain ⟨r', hr', rfl⟩ := Option.map_eq_some_iff.1 h
        rw [ih hr', if_neg]
      case h_5 => exact hkey
      all_goals
        rw [hkey]
        decide

theorem parseKeys_seconds {filter : List (Option KeyPress)} {key : Key} {g' : Globals}
    {seconds : ℚ} (h : parseKeys filter key g = some (g', seconds)) :
    seconds = if key = .char 'f' then filterSeconds g.delayTime filter else 0 := by
  unfold parseKeys at h
  split at h
  case h_1 =>
    obtain ⟨r, hr, h⟩ := Option.map_eq_some_iff.1 h
    cases h
    rw [if_pos rfl]
    exact showFilter_seconds hr
  case h_10 hf _ _ _ _ _ _ _ _ =>
    cases h
    exact (if_neg hf).symm
  all_goals
    cases h
    rfl

/-- The seconds that a turn waits. -/
def turnSeconds (delayTime : ℤ) (input : FrameInput) : ℚ :=
  waited delayTime input.press +
    if input.press.map KeyPress.key = some (.char 'f') then filterSeconds delayTime input.filter
    else 0

/-- **What a turn takes is its wait.** -/
theorem Turned.seconds (h : Turned input m t) (hmode : m.g.scrMode = .term) :
    t.seconds = turnSeconds t.frame.delayTime input := by
  obtain ⟨⟨keyed, more⟩, hkeyed, hend⟩ := Option.map_eq_some_iff.1 h.ended
  have hseconds : waited t.frame.delayTime (Vmtop.pressed t.frame input) + more = t.seconds :=
    congrArg Prod.snd hend
  rw [h.pressed hmode] at hseconds hkeyed
  rw [← hseconds, turnSeconds]
  cases hpress : input.press with
  | none =>
      rw [hpress] at hkeyed
      cases hkeyed
      rfl
  | some press =>
      rw [hpress] at hkeyed
      rw [parseKeys_seconds hkeyed]
      simp

/-! ### The moments of the samples -/

/-- The moment of the refresh of turn `j`. -/
def ScreenRun.clock (r : ScreenRun) (j : ℕ) : ℚ :=
  ∑ i ∈ Finset.range j, (turn (r.input i) (r.state i)).toOption.elim 0 Turn.seconds

/-- The moment at which the records of state `k` were sampled: by the turn before. -/
def ScreenRun.sampledAt (r : ScreenRun) (k : ℕ) : ℚ := r.clock (k - 1)

/-- What passes between the samples of two turns is the wait of the first. -/
theorem ScreenRun.sampledAt_sub (r : ScreenRun) {i : ℕ} (hi : i < r.len) :
    r.sampledAt (i + 2) - r.sampledAt (i + 1) =
      turnSeconds (r.state 0).g.delayTime (r.input i) := by
  obtain ⟨t, ht, -⟩ := r.exists_turn hi
  have h := turn_turned ht
  have hdelay : t.frame.delayTime = (r.state 0).g.delayTime :=
    congrArg Settings.delayTime (h.settings.1.trans (r.settings hi.le))
  have hclock : r.clock (i + 1) = r.clock i + t.seconds := by
    rw [ScreenRun.clock, Finset.sum_range_succ, ht]
    rfl
  change r.clock (i + 1) - r.clock i = _
  rw [hclock, add_sub_cancel_left, h.seconds (r.scrMode hi.le), hdelay]

/-! ### The rates -/

/-- The counters that the rates are made of.  Of a domain `utime` and `stime` are its own
readings, and the others sums over its vCPUs. -/
def rateCounters : List Dfx := [.utime, .stime, .steal, .gtime, .vcpuUtime, .vcpuStime]

/-- What a record shows is the difference of the readings it is made of. -/
theorem ThreadRecord.delta_of_madeOf {c : Config} {r : FrameRun c} {v : Dfx}
    {x a b : ThreadRecord r}
    (h : MadeOf (ThreadRecord.ComparedWith v) (fun y : ThreadRecord r => y.task.dfx v) x a b) :
    x.task.delta v = a.task.dfx v - b.task.dfx v :=
  h.delta_eq (fun y => y.task.delta v) fun _ _ ho => ho.delta_eq

theorem DomainRecord.delta_of_madeOf {c : Config} {r : FrameRun c} {v : Dfx}
    (hv : v = .utime ∨ v = .stime) {x a b : DomainRecord r}
    (h : MadeOf DomainRecord.Prev (fun y : DomainRecord r => y.dom.dfx v) x a b) :
    x.dom.delta v = a.dom.dfx v - b.dom.dfx v :=
  h.delta_eq (fun y => y.dom.delta v) fun _ _ ho => ho.delta_eq hv

/-- The rates of turn `j`, displayed or not, are those over the time that passed: the growth
of every counter they are made of is the difference of two readings, and these lie as far
apart as the seconds that `print_domain_field` divides by. -/
structure RatesPaced (r : ScreenRun) (j : ℕ) (t : Turn) : Prop where
  domains : ∀ v, v = .utime ∨ v = .stime → ∀ x a b : DomainRecord r.lists, x.time = j + 1 →
    MadeOf DomainRecord.Prev (fun y : DomainRecord r.lists => y.dom.dfx v) x a b →
    x.dom.delta v = a.dom.dfx v - b.dom.dfx v ∧
      (t.frame.delayTime : ℚ) = r.sampledAt a.time - r.sampledAt b.time
  threads : ∀ v ∈ rateCounters, ∀ x a b : ThreadRecord r.lists, x.time = j + 1 →
    MadeOf (ThreadRecord.ComparedWith v) (fun y : ThreadRecord r.lists => y.task.dfx v) x a b →
    x.task.delta v = a.task.dfx v - b.task.dfx v ∧
      (t.frame.delayTime : ℚ) = r.sampledAt a.time - r.sampledAt b.time

/-- Turn `i + 1` subtracts a reading of turn `i`: a counter that rates are made of is read
in both, and did not go back. -/
def Subtracts (r : ScreenRun) (i : ℕ) : Prop :=
  (∃ v, (v = .utime ∨ v = .stime) ∧ ∃ x o : DomainRecord r.lists, o.time = i + 1 ∧ x.Prev o ∧
    o.dom.dfx v ≤ x.dom.dfx v) ∨
  ∃ v ∈ rateCounters, ∃ x o : ThreadRecord r.lists, o.time = i + 1 ∧ x.ComparedWith v o ∧
    o.task.dfx v ≤ x.task.dfx v

/-- The key of a turn, if there is one, is pressed when the delay time is over, or keeps the
filter open for the rest of it. -/
def OnTime (delayTime : ℤ) (input : FrameInput) : Prop :=
  ∀ press, input.press = some press →
    press.part * delayTime +
      (if press.key = .char 'f' then filterSeconds delayTime input.filter else 0) = delayTime

theorem onTime_iff {delayTime : ℤ} :
    OnTime delayTime input ↔ turnSeconds delayTime input = delayTime := by
  unfold OnTime turnSeconds
  cases input.press with
  | none => simp [waited]
  | some press => simp [waited]

/-- Two readings of consecutive turns lie the delay time apart when the key is on time. -/
theorem ScreenRun.delayTime_eq_iff (r : ScreenRun) {i j : ℕ} (hi : i < r.len) (hj : j < r.len)
    (ht : turn (r.input j) (r.state j) = .ok t) :
    (t.frame.delayTime : ℚ) = r.sampledAt (i + 2) - r.sampledAt (i + 1) ↔
      OnTime (r.state i).g.delayTime (r.input i) := by
  have hframe : t.frame.delayTime = (r.state 0).g.delayTime :=
    congrArg Settings.delayTime ((turn_turned ht).settings.1.trans (r.settings hj.le))
  have hstate : (r.state i).g.delayTime = (r.state 0).g.delayTime :=
    congrArg Settings.delayTime (r.settings hi.le)
  rw [r.sampledAt_sub hi, hframe, hstate, onTime_iff, eq_comm]

/-- **The readings of one counter**: those that are subtracted lie the delay time apart
exactly when the key between them is on time.  `Prev` links the records of the counter,
which stand in the states `time`. -/
theorem ScreenRun.readings_paced_iff (r : ScreenRun) {R : Type*} {time : R → ℕ}
    {Prev : R → R → Prop} (value : R → U64) (hlink : ∀ x o, Prev x o → time o + 1 = time x)
    (htime : ∀ x, ∃ i, time x = i + 1 ∧ i < r.len) :
    (∀ j t, j < r.len → turn (r.input j) (r.state j) = .ok t → ∀ x a b, time x = j + 1 →
      MadeOf Prev value x a b →
      (t.frame.delayTime : ℚ) = r.sampledAt (time a) - r.sampledAt (time b)) ↔
    ∀ i < r.len, (∃ x o, time o = i + 1 ∧ Prev x o ∧ value o ≤ value x) →
      OnTime (r.state i).g.delayTime (r.input i) := by
  constructor
  · rintro h i hi ⟨x, o, ho, hprev, hle⟩
    obtain ⟨j, hx, hj⟩ := htime x
    have hnext : j = i + 1 := by
      have := hlink x o hprev
      omega
    subst hnext
    obtain ⟨t, ht, -⟩ := r.exists_turn hj
    have hpaced := h (i + 1) t hj ht x x o hx (.here hprev hle)
    rw [hx, ho] at hpaced
    exact (r.delayTime_eq_iff hi hj ht).1 hpaced
  · intro h j t hj ht x a b _ hmade
    obtain ⟨hprev, hle⟩ := hmade.consecutive
    obtain ⟨i, hb, hi⟩ := htime b
    rw [← hlink a b hprev, hb]
    exact (r.delayTime_eq_iff hi hj ht).2 (h i hi ⟨a, b, hb, hprev, hle⟩)

/-- **The rates of a run are those over the time that passed exactly when every key between
two readings that are subtracted is on time.** -/
theorem ratesPaced_iff (r : ScreenRun) :
    (∀ j t, j < r.len → turn (r.input j) (r.state j) = .ok t → RatesPaced r j t) ↔
      ∀ i < r.len, Subtracts r i → OnTime (r.state i).g.delayTime (r.input i) := by
  have hdomains (v : Dfx) := r.readings_paced_iff (fun y : DomainRecord r.lists => y.dom.dfx v)
    (fun x o (h : x.Prev o) => h.time) fun x => r.lists.exists_succ x.le x.mem
  have hthreads (v : Dfx) := r.readings_paced_iff (fun y : ThreadRecord r.lists => y.task.dfx v)
    (fun x o (h : x.ComparedWith v o) => h.2.time) fun x => r.lists.exists_succ x.le x.mem.dom
  constructor
  · rintro h i hi (⟨v, hv, hread⟩ | ⟨v, hv, hread⟩)
    · refine (hdomains v).1 (fun j t hj ht x a b hx hmade => ?_) i hi hread
      exact ((h j t hj ht).domains v hv x a b hx hmade).2
    · refine (hthreads v).1 (fun j t hj ht x a b hx hmade => ?_) i hi hread
      exact ((h j t hj ht).threads v hv x a b hx hmade).2
  · intro h j t hj ht
    constructor
    · intro v hv x a b hx hmade
      have hpaced := (hdomains v).2 fun i hi hread => h i hi (Or.inl ⟨v, hv, hread⟩)
      exact ⟨DomainRecord.delta_of_madeOf hv hmade, hpaced j t hj ht x a b hx hmade⟩
    · intro v hv x a b hx hmade
      have hpaced := (hthreads v).2 fun i hi hread => h i hi (Or.inr ⟨v, hv, hread⟩)
      exact ⟨ThreadRecord.delta_of_madeOf hmade, hpaced j t hj ht x a b hx hmade⟩

/-- What two turns show of the user time of a small host. -/
def keyRows : ℕ → List DomainRow
  | 0 => [⟨0, 3, 0, [⟨1, 3, 0⟩]⟩]
  | _ => [⟨0, 10, 7, [⟨1, 10, 7⟩]⟩]

/-- **A key that comes early makes the rates wrong**: the second sample is taken one second
behind the first, and its growth divided by three. -/
theorem ratesPaced_early : ¬ ∀ (r : ScreenRun) (j : ℕ) (t : Turn), j < r.len →
    turn (r.input j) (r.state j) = .ok t → RatesPaced r j t := by
  intro h
  let inputs := [terminalTurn (hostFrame 5 3) 24 (some (earlyKey .other)),
    terminalTurn (hostFrame 8 10) 24 none]
  obtain ⟨r, hlen, hstart, hinput, hturns⟩ := exists_screenRun inputs
    (m := ⟨zeroGlobals, false⟩) ⟨rfl, rfl, .other, fun _ => Task.zero, [], rfl⟩ (by decide +kernel)
  have hshown : ∀ j : Fin 2, (turnAt inputs ⟨zeroGlobals, false⟩ j).map
      (fun t => shown .utime t.next.g.lists) = some (keyRows j) := by decide +kernel
  have hrow (j : Fin 2) : shown .utime (r.state (j + 1)).g.lists = keyRows j := by
    obtain ⟨t, hturn, hat⟩ := hturns j j.isLt
    rw [r.next_eq (hlen ▸ j.isLt) hturn]
    exact Option.some.inj ((congrArg _ hat).symm.trans (hshown j))
  obtain ⟨o, _, hdoms, -, ho, hid, hvalue, -⟩ := exists_of_shown (hrow 0) rfl
  obtain ⟨d, _, -, -, hd, hid', hvalue', -⟩ := exists_of_shown (hrow 1) rfl
  have hdoms : (r.state 1).g.lists.now.domains = [o] := hdoms
  let old : DomainRecord r.lists := ⟨1, hlen.ge.trans' (by decide), o, ho.dom⟩
  let new : DomainRecord r.lists := ⟨2, hlen.ge.trans' (by decide), d, hd.dom⟩
  have hprev : new.Prev old := by
    refine ⟨rfl, ?_⟩
    change getDomainFromId d.domainId (r.state 1).g.lists.now = some o
    simp [getDomainFromId, hdoms, hid, hid']
  have hle : old.dom.dfx .utime ≤ new.dom.dfx .utime := by
    rw [UInt64.le_iff_toNat_le]
    change (o.dfx .utime).toNat ≤ (d.dfx .utime).toNat
    rw [hvalue, hvalue']
    decide
  obtain ⟨t, hturn, -⟩ := hturns 1 (by decide)
  obtain ⟨-, hpaced⟩ := (h r 1 t (hlen ▸ by decide) hturn).domains .utime (Or.inl rfl)
    new new old rfl (.here hprev hle)
  have htime := (r.delayTime_eq_iff (i := 0) (hlen ▸ by decide) (hlen ▸ by decide) hturn).1 hpaced
  rw [hstart, hinput] at htime
  have hsecond : (1 / 3 : ℚ) * (3 : ℤ) + 0 = (3 : ℤ) := htime (earlyKey .other) rfl
  exact absurd hsecond (by decide +kernel)

end Vmtop
