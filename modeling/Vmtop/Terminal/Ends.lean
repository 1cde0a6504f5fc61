/-
# When a run ends

The main loop counts its turns down from the number of `-n` and stops at `0`, behind the turn
that reaches it; without `-n` the count is `-1`, which no turn changes.  A `q` that the main
loop reads ends it too, and one that the field filter reads does not.  So a run ends behind the
first `q`, or behind turn `n`, and one turn is always taken, also for `-n 0` (`ended_iff`).
-/

import Vmtop.Terminal.CommandLine

namespace Vmtop

open CText CArray Runs

variable {arch : Arch} {input : FrameInput} {m : Main} {t : Turn} {g g' : Globals}

/-- The key `q`, where the main loop reads keys. -/
def Quits (mode : ScrMode) (input : FrameInput) : Prop :=
  mode = .term ∧ input.press.map KeyPress.key = some (.char 'q')

/-! ### One turn -/

/-- A key does not change the count of turns, and `q` alone asks to quit. -/
theorem parseKeys_counts {filter : List (Option KeyPress)} {key : Key} {seconds : ℚ}
    (h : parseKeys filter key g = some (g', seconds)) :
    g'.displayLoop = g.displayLoop ∧
      g'.quitFlag = if key = .char 'q' then !g.quitFlag else g.quitFlag := by
  unfold parseKeys at h
  split at h
  case h_1 =>
    obtain ⟨r, -, h⟩ := Option.map_eq_some_iff.1 h
    cases h
    exact ⟨rfl, rfl⟩
  all_goals cases h
  case h_10 hq _ _ _ _ _ _ _ =>
    exact ⟨rfl, (if_neg hq).symm⟩
  all_goals exact ⟨rfl, rfl⟩

/-- What a turn does to the count and to the flag. -/
theorem endFrame_counts {seconds : ℚ} (h : endFrame g input = some (g', seconds))
    (hquit : g.quitFlag = false) :
    g'.displayLoop = (if 0 < g.displayLoop then g.displayLoop - 1 else g.displayLoop) ∧
      (g'.quitFlag = true ↔ Quits g.scrMode input) := by
  obtain ⟨⟨keyed, more⟩, hkeyed, h⟩ := Option.map_eq_some_iff.1 h
  cases h
  dsimp only
  cases hpress : pressed g input with
  | none =>
      rw [hpress] at hkeyed
      cases hkeyed
      refine ⟨rfl, iff_of_false (by rw [hquit]; exact Bool.false_ne_true) ?_⟩
      rintro ⟨hmode, hkey⟩
      rw [pressed, hmode] at hpress
      dsimp only at hpress
      rw [hpress] at hkey
      cases hkey
  | some press =>
      rw [hpress] at hkeyed
      obtain ⟨hloop, hflag⟩ := parseKeys_counts hkeyed
      have hterm : g.scrMode = .term ∧ input.press = some press := by
        unfold pressed at hpress
        cases hmode : g.scrMode with
        | term =>
            rw [hmode] at hpress
            exact ⟨rfl, hpress⟩
        | text =>
            rw [hmode] at hpress
            cases hpress
      refine ⟨by rw [hloop], ?_⟩
      rw [hflag, hquit, Quits, hterm.2, Option.map_some, Option.some_inj]
      by_cases hkey : press.key = .char 'q'
      · rw [if_pos hkey]
        exact iff_of_true rfl ⟨hterm.1, hkey⟩
      · rw [if_neg hkey]
        exact iff_of_false Bool.false_ne_true fun hq => hkey hq.2

/-- The loop ends behind a turn that leaves the flag set or the count at `0`. -/
theorem turn_ended (h : turn input m = .ok t) :
    m.ended = false ∧ t.next.ended = (t.next.g.quitFlag || decide (t.next.g.displayLoop = 0)) := by
  unfold turn at h
  split_ifs at h with hended
  refine ⟨Bool.eq_false_iff.2 hended, ?_⟩
  split at h
  · cases h
  · split at h
    · cases h
    · split at h
      · cases h
      · cases h
        rfl

/-- The loop goes on, `j` turns after it began with the count `k`. -/
structure CountsDown (k : ℤ) (j : ℕ) (g : Globals) : Prop where
  quitFlag : g.quitFlag = false
  displayLoop : g.displayLoop = if 0 < k then k - j else k
  goesOn : j = 0 ∨ k = -1 ∨ j < k

/-- **One turn counts down by one.** -/
theorem turn_counts {k : ℤ} {j : ℕ} (h : turn input m = .ok t) (hm : CountsDown k j m.g)
    (hk : -1 ≤ k) :
    (t.next.ended = true ↔ Quits m.g.scrMode input ∨ (0 ≤ k ∧ (j : ℤ) + 1 = max 1 k)) ∧
      (t.next.ended = false → CountsDown k (j + 1) t.next.g) := by
  have hturned := turn_turned h
  have hflag : t.frame.quitFlag = false := by
    rw [hturned.framed]
    exact hm.quitFlag
  have hmode : t.frame.scrMode = m.g.scrMode := by
    rw [hturned.framed]
  have hcount : t.frame.displayLoop = if 0 < k then k - j else k := by
    rw [hturned.framed]
    exact hm.displayLoop
  obtain ⟨hloop, hquit⟩ := endFrame_counts hturned.ended hflag
  rw [hmode] at hquit
  have hgoes := hm.goesOn
  have hnext : t.next.g.displayLoop = if 0 < k then k - (j + 1 : ℕ) else k := by
    rw [hloop, hcount]
    push_cast
    split_ifs <;> omega
  have hzero : t.next.g.displayLoop = 0 ↔ 0 ≤ k ∧ (j : ℤ) + 1 = max 1 k := by
    rw [hnext]
    push_cast
    split_ifs <;> omega
  rw [(turn_ended h).2]
  constructor
  · rw [Bool.or_eq_true, decide_eq_true_eq, hquit, hzero]
  · intro hnot
    rw [Bool.or_eq_false_iff, decide_eq_false_iff_not, hzero] at hnot
    refine ⟨hnot.1, hnext, ?_⟩
    push_cast
    omega

/-! ### A run -/

/-- The turn that the last `-n` of a command line ends the run behind. -/
def lastTurn (opts : List Opt) : Option ℕ :=
  (opts.filterMap Opt.countArg).getLast?.map fun optarg => max 1 (strToInt optarg).toNat

/-- The count that options ask for is not negative, and `-1` without one. -/
theorem settled_displayLoop {opts : List Opt} {rows : Arr maxVcpuNum Task}
    (h : parseArgs opts (initParameter arch rows) = .ok g) : -1 ≤ g.displayLoop ∧
      ∀ n : ℕ, lastTurn opts = some n ↔ 0 ≤ g.displayLoop ∧ (n : ℤ) = max 1 g.displayLoop := by
  obtain ⟨haccepted, rfl⟩ := parseArgs_ok_iff.1 h
  change -1 ≤ lastValue Opt.countArg opts (-1) ∧ ∀ n : ℕ, _ ↔
    0 ≤ lastValue Opt.countArg opts (-1) ∧ (n : ℤ) = max 1 (lastValue Opt.countArg opts (-1))
  rw [lastTurn, lastValue]
  cases hlast : (opts.filterMap Opt.countArg).getLast? with
  | none => simp
  | some optarg =>
      obtain ⟨opt, hopt, harg⟩ := List.mem_filterMap.1 (List.mem_of_getLast? hlast)
      have hpos : 0 ≤ strToInt optarg := by
        have hopt := haccepted opt hopt
        cases opt <;> cases harg
        exact of_decide_eq_true hopt
      rw [Option.elim_some]
      refine ⟨by omega, fun n => ?_⟩
      rw [Option.map_some, Option.some_inj]
      omega

/-- While a run goes on, it counts down. -/
theorem MainRun.countsDown (r : MainRun) {j : ℕ} (hj : j < r.len) :
    CountsDown (r.state 0).g.displayLoop j (r.state j).g := by
  obtain ⟨-, arch, rows, opts, hargs⟩ := r.start
  have hk := (settled_displayLoop hargs).1
  induction j with
  | zero =>
      refine ⟨?_, ?_, .inl rfl⟩
      · rw [parseArgs_other hargs]
        rfl
      · split_ifs <;> simp
  | succ j ih =>
      have hbefore := Nat.lt_of_succ_lt hj
      obtain ⟨t, ht, hnext⟩ := mainStep_eq_ok (r.next j hbefore)
      obtain ⟨t', ht', -⟩ := mainStep_eq_ok (r.next (j + 1) hj)
      have hgoes := (turn_ended ht').1
      rw [← hnext] at hgoes ⊢
      exact (turn_counts ht (ih hbefore) hk).2 hgoes

/-- **A run ends behind the first `q` of the main loop or behind the turn that `-n` asks
for**, whichever comes first, and it does not end before. -/
theorem ended_iff {opts : List Opt} {rows : Arr maxVcpuNum Task} (r : MainRun)
    (hargs : parseArgs opts (initParameter arch rows) = .ok (r.state 0).g) :
    (∀ j < r.len, (r.state (j + 1)).ended = true ↔
      Quits (r.state 0).g.scrMode (r.input j) ∨ lastTurn opts = some (j + 1)) ∧
    ∀ n, lastTurn opts = some n → r.len ≤ n := by
  obtain ⟨hk, hlast⟩ := settled_displayLoop hargs
  refine ⟨fun j hj => ?_, fun n hn => ?_⟩
  · obtain ⟨t, ht, hnext⟩ := mainStep_eq_ok (r.next j hj)
    have hmode : (r.state j).g.scrMode = (r.state 0).g.scrMode :=
      congrArg Settings.scrMode (r.settings hj.le)
    rw [← hnext, (turn_counts ht (r.countsDown hj) hk).1, hmode, hlast (j + 1)]
    push_cast
    exact Iff.rfl
  · -- behind turn `n` the loop counts no further
    rw [hlast] at hn
    by_contra hlen
    have hgoes := (r.countsDown (Nat.not_le.1 hlen)).goesOn
    omega

/-- Two turns in text mode, of the two that are asked for. -/
theorem ended_iff_twice : ∃ r : MainRun, r.len = 2 ∧
    parseArgs [.b, .n "2".toList] (initParameter .other fun _ => Task.zero) =
      .ok (r.state 0).g ∧
    ((∀ j < r.len, (r.state (j + 1)).ended = true ↔
      Quits (r.state 0).g.scrMode (r.input j) ∨
        lastTurn [.b, .n "2".toList] = some (j + 1)) ∧
    ∀ n, lastTurn [.b, .n "2".toList] = some n → r.len ≤ n) := by
  have hrun : (runAll mainStep [terminalTurn idleFrame 24 none, terminalTurn idleFrame 24 none]
      ⟨{ textGlobals with displayLoop := 2 }, false⟩).toOption.isSome := by decide +kernel
  have hargs : parseArgs [.b, .n "2".toList] (initParameter .other fun _ => Task.zero) =
      .ok { textGlobals with displayLoop := 2 } := rfl
  obtain ⟨m', hm'⟩ := Option.isSome_iff_exists.1 hrun
  obtain ⟨r, hlen, -, hstate⟩ : ∃ r : MainRun, r.len = 2 ∧ (∀ j, r.input j = _) ∧
      ∀ j, runAll mainStep (_ : List FrameInput) _ = .ok (r.state j) :=
    exists_run (toOption_eq_some.1 hm') ⟨rfl, .other, _, _, hargs⟩
  have hstart : r.state 0 = ⟨{ textGlobals with displayLoop := 2 }, false⟩ :=
    (Except.ok.inj (hstate 0)).symm
  have hargs : parseArgs [.b, .n "2".toList] (initParameter .other fun _ => Task.zero) =
      .ok (r.state 0).g := by rw [hstart]; exact hargs
  exact ⟨r, hlen, hargs, ended_iff r hargs⟩

end Vmtop
