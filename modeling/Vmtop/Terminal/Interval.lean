/-
# The interval between frames

The delay time is an `int` of seconds, of which `parse_args` only asks that it is not
negative.  `main` passes it to `wtimeout` as milliseconds, and in text mode to `usleep` as
microseconds, and both products are made in `int`.  So the loop waits as long as it was
told exactly while the product fits: up to 2147483 seconds on a terminal and up to 2147
in text mode (`waitsOut_iff`).
-/

import Vmtop.Terminal.Percentages
import Vmtop.Terminal.TextMode

namespace Vmtop

open CText CArray Runs

variable {arch : Arch} {input : FrameInput} {m : Main} {t : Turn} {g g' : Globals}

/-! ### What is waited -/

/-- `x * y` of two `int`; `none` where it overflows, which C leaves undefined and the secure
build traps. -/
def intMul (x y : ℤ) : Option ℤ := if -2 ^ 31 ≤ x * y ∧ x * y < 2 ^ 31 then some (x * y) else none

/-- The argument of `wtimeout`, in milliseconds. -/
def wtimeoutArg (delayTime : ℤ) : Option ℤ := intMul delayTime 1000

/-- The argument of `usleep`, in microseconds. -/
def usleepArg (delayTime : ℤ) : Option ℤ := intMul delayTime 1000000

/-- The seconds that `main` makes the turns of its mode wait. -/
def intervalSeconds (g : Globals) : Option ℚ :=
  match g.scrMode with
  | .term => (wtimeoutArg g.delayTime).map fun delay : ℤ => (delay : ℚ) / 1000
  | .text => (usleepArg g.delayTime).map fun usec : ℤ => (usec : ℚ) / 1000000

/-- A turn without a key waits the delay time: the product that says how long is an `int`, and
is that time. -/
def WaitsOut (t : Turn) : Prop := intervalSeconds t.frame = some (waited t.frame.delayTime none)

/-- A time that is not negative is waited exactly when it fits into an `int` in the smaller
unit. -/
theorem map_intMul_eq_some_iff {delayTime : ℤ} (hdelay : 0 ≤ delayTime) (unit : ℕ)
    (hunit : 0 < unit) :
    (intMul delayTime unit).map (fun z : ℤ => (z : ℚ) / unit) = some (delayTime : ℚ) ↔
      delayTime * unit < 2 ^ 31 := by
  have hne : (unit : ℚ) ≠ 0 := Nat.cast_ne_zero.2 hunit.ne'
  have hpos : 0 ≤ delayTime * unit := Int.mul_nonneg hdelay (Int.natCast_nonneg unit)
  unfold intMul
  split_ifs with hfits
  · rw [Option.map_some, Int.cast_mul, Int.cast_natCast, mul_div_cancel_right₀ _ hne]
    exact iff_of_true rfl hfits.2
  · rw [Option.map_none]
    refine iff_of_false nofun fun hlt => hfits ⟨?_, hlt⟩
    omega

/-- **The longest interval of each mode.** -/
theorem intervalSeconds_iff (hdelay : 0 ≤ g.delayTime) :
    intervalSeconds g = some (waited g.delayTime none) ↔
      g.delayTime ≤ if g.scrMode = .text then 2147 else 2147483 := by
  have hterm := map_intMul_eq_some_iff hdelay 1000 (by decide)
  have htext := map_intMul_eq_some_iff hdelay 1000000 (by decide)
  unfold intervalSeconds
  cases g.scrMode with
  | term =>
      refine hterm.trans ?_
      rw [if_neg (by decide)]
      omega
  | text =>
      refine htext.trans ?_
      rw [if_pos rfl]
      omega

/-! ### What is asked for -/

/-- The option `-b`. -/
def Opt.isText : Opt → Bool
  | .b => true
  | _ => false

/-- The mode is that of text when `-b` is among the options. -/
theorem parseArgs_scrMode {opts : List Opt} (h : parseArgs opts g = .ok g') :
    g'.scrMode = if opts.any Opt.isText then .text else g.scrMode := by
  induction opts generalizing g with
  | nil =>
      cases h
      rfl
  | cons opt opts ih =>
      cases opt with
      | b =>
          refine (ih h).trans ?_
          simp [Opt.isText]
      | h | v | unknown => cases h
      | threads | G =>
          have hrest := ih h
          exact hrest
      | d | n | p =>
          simp only [parseArgs] at h
          split_ifs at h
          have hrest := ih h
          exact hrest

/-- The last `-d` of a command line, if there is one, asks for no more seconds than the unit of
its mode leaves room for. -/
def IntervalFits (opts : List Opt) : Prop :=
  ∀ optarg, (delayArgs opts).getLast? = some optarg →
    strToInt optarg ≤ if opts.any Opt.isText then 2147 else 2147483

theorem delayTime_le_iff {opts : List Opt} {rows : Arr maxVcpuNum Task}
    (h : parseArgs opts (initParameter arch rows) = .ok g) :
    0 ≤ g.delayTime ∧
      ((g.delayTime ≤ if g.scrMode = .text then 2147 else 2147483) ↔ IntervalFits opts) := by
  have hstart : 0 ≤ (initParameter arch rows).delayTime := (by decide : (0 : ℤ) ≤ 3)
  obtain ⟨hdelay, hpos⟩ := parseArgs_delayTime h hstart
  refine ⟨hpos, ?_⟩
  have hmode : (if g.scrMode = .text then (2147 : ℤ) else 2147483) =
      if opts.any Opt.isText then 2147 else 2147483 := by
    rw [parseArgs_scrMode h]
    cases opts.any Opt.isText <;> rfl
  rw [hmode, hdelay, IntervalFits]
  cases (delayArgs opts).getLast? with
  | none =>
      refine iff_of_true ?_ nofun
      change (3 : ℤ) ≤ _
      split_ifs <;> decide
  | some optarg => simp

/-! ### The turns of a run -/

/-- No turn of either mode changes the options. -/
theorem MainRun.settings (r : MainRun) {j : ℕ} (hj : j ≤ r.len) :
    (r.state j).g.settings = (r.state 0).g.settings := by
  refine r.constant (fun m => m.g.settings) (fun m input m' hstep => ?_) j hj
  obtain ⟨t, hturn, rfl⟩ := mainStep_eq_ok hstep
  exact (turn_turned hturn).settings.2

/-- What a turn waits is decided when the run begins. -/
theorem MainRun.waitsOut_iff_le (r : MainRun) (hdelay : 0 ≤ (r.state 0).g.delayTime) {j : ℕ}
    (hj : j < r.len) (ht : turn (r.input j) (r.state j) = .ok t) :
    WaitsOut t ↔
      (r.state 0).g.delayTime ≤ if (r.state 0).g.scrMode = .text then 2147 else 2147483 := by
  have hsettings := (turn_turned ht).settings.1.trans (r.settings hj.le)
  have hframe : t.frame.delayTime = (r.state 0).g.delayTime :=
    congrArg Settings.delayTime hsettings
  have hmode : t.frame.scrMode = (r.state 0).g.scrMode := congrArg Settings.scrMode hsettings
  rw [WaitsOut, intervalSeconds_iff (hframe ▸ hdelay), hframe, hmode]

/-- **Every turn waits the delay time exactly when the last `-d` is short enough**: below 2148
seconds in text mode, and below 2147484 on a terminal. -/
theorem waitsOut_iff (r : MainRun) {opts : List Opt} {rows : Arr maxVcpuNum Task}
    (hargs : parseArgs opts (initParameter arch rows) = .ok (r.state 0).g) {j : ℕ} (hj : j < r.len)
    (ht : turn (r.input j) (r.state j) = .ok t) : WaitsOut t ↔ IntervalFits opts := by
  obtain ⟨hpos, hfits⟩ := delayTime_le_iff hargs
  rw [r.waitsOut_iff_le hpos hj ht, hfits]

/-- The command line `-b -d seconds`. -/
def delayOpts (seconds : Text) : List Opt := [.b, .d seconds]

/-- The globals that it leads to. -/
def delayGlobals (seconds : Text) : Globals := { textGlobals with delayTime := strToInt seconds }

theorem parseArgs_delayOpts {seconds : Text} (h : 0 ≤ strToInt seconds) :
    parseArgs (delayOpts seconds) zeroGlobals = .ok (delayGlobals seconds) := by
  simp only [delayOpts, parseArgs, if_neg (Int.not_lt.2 h)]
  rfl

/-- A run of one turn that it begins, on a host without virtual machines. -/
theorem exists_delayRun {seconds : Text} (h : 0 ≤ strToInt seconds) :
    ∃ (r : MainRun) (t : Turn), 0 < r.len ∧
      parseArgs (delayOpts seconds) (initParameter .other fun _ => Task.zero) =
        .ok (r.state 0).g ∧
      turn (r.input 0) (r.state 0) = .ok t := by
  let input := terminalTurn idleFrame 24 none
  let m : Main := ⟨delayGlobals seconds, false⟩
  have hargs := parseArgs_delayOpts h
  have hm : Begins m := ⟨rfl, .other, fun _ => Task.zero, delayOpts seconds, hargs⟩
  obtain ⟨s, hs⟩ : ∃ s, sampleFrame m.g.config input.env m.g.lists = .ok s := by
    have hok : (sampleFrame zeroGlobals.config idleFrame zeroGlobals.lists).toOption.isSome := by
      decide +kernel
    obtain ⟨s, hs⟩ := Option.isSome_iff_exists.1 hok
    exact ⟨s, toOption_eq_some.1 hs⟩
  obtain ⟨t, ht⟩ := exists_textTurn input hm.inBounds rfl rfl hs
  have hrun : runAll mainStep [input] m = .ok t.next := by
    rw [runAll, mainStep, ht]
    rfl
  obtain ⟨r, hlen, hinput, hstate⟩ : ∃ r : MainRun, r.len = [input].length ∧
      (∀ j, r.input j = [input][j]?.getD default) ∧
      ∀ j, runAll mainStep ([input].take j) m = .ok (r.state j) := exists_run hrun hm
  have hstart : r.state 0 = m := (Except.ok.inj (hstate 0)).symm
  have hfirst : r.input 0 = input := hinput 0
  exact ⟨r, t, hlen ▸ Nat.zero_lt_one, by rw [hstart]; exact hargs, by rw [hstart, hfirst, ht]⟩

/-- The longest interval of text mode is waited. -/
theorem waitsOut_iff_longest : ∃ (r : MainRun) (t : Turn),
    turn (r.input 0) (r.state 0) = .ok t ∧ WaitsOut t := by
  have hvalue : strToInt "2147".toList = 2147 := by decide +kernel
  have hpos : 0 ≤ strToInt "2147".toList := by rw [hvalue]; decide
  obtain ⟨r, t, hlen, hargs, ht⟩ := exists_delayRun hpos
  refine ⟨r, t, ht, (waitsOut_iff r hargs hlen ht).2 ?_⟩
  intro optarg h
  have h : some "2147".toList = some optarg := h
  rw [← Option.some.inj h, hvalue]
  decide

/-- **`-b -d 2148` is accepted, and overflows.** -/
theorem waitsOut_overflow : ¬ ∀ (arch : Arch) (opts : List Opt) (rows : Arr maxVcpuNum Task)
    (r : MainRun), parseArgs opts (initParameter arch rows) = .ok (r.state 0).g →
    ∀ j t, j < r.len → turn (r.input j) (r.state j) = .ok t → WaitsOut t := by
  intro h
  have hvalue : strToInt "2148".toList = 2148 := by decide +kernel
  have hpos : 0 ≤ strToInt "2148".toList := by rw [hvalue]; decide
  obtain ⟨r, t, hlen, hargs, ht⟩ := exists_delayRun hpos
  have hwaits := h .other _ _ r hargs 0 t hlen ht
  have hstart := hargs.symm.trans (parseArgs_delayOpts hpos)
  have hdelay : (r.state 0).g.delayTime = 2148 := by
    rw [Except.ok.inj hstart]
    exact hvalue
  have hmode : (r.state 0).g.scrMode = .text := by
    rw [Except.ok.inj hstart]
    rfl
  have hle := (r.waitsOut_iff_le (by rw [hdelay]; decide) hlen ht).1 hwaits
  rw [hdelay, if_pos hmode] at hle
  exact absurd hle (by decide)

end Vmtop
