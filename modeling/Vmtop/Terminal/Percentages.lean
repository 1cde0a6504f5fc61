/-
# What the percentages are

`print_domain_field` divides what a counter grew by by the delay time, and `justify_usage`
cuts the result at `100` for every vCPU.  The record of a domain counts its vCPUs and
that of a thread counts itself (`FrameRun.counts`), and a counter never grows by less than
nothing, so a percentage is within its range as soon as it is one: the delay time must not be
zero, which `parse_args` lets it be (`percentageShown_iff`).
-/

import Vmtop.Refresh.Entries
import Vmtop.Terminal.Turns

namespace Vmtop

open CText CArray Runs

variable {arch : Arch} {monitorId : ℤ} {sys : Sys} {l : VcpuList} {c : Config}

/-! ### The vCPUs of a record -/

/-- A record that counts no fewer vCPUs than none, and whose threads do so. -/
structure Counts (d : Domain) : Prop where
  dom : 0 ≤ d.smpVcpus
  threads : ∀ t ∈ d.threads, 0 ≤ t.smpVcpus

theorem countThread_smpVcpus (t : Task) : (countThread arch l t).smpVcpus = 1 := by
  unfold countThread
  split_ifs <;> rfl

/-- `get_child_pid` counts the vCPUs among the threads that it reads. -/
theorem getChildPid_counts {dom d : Domain} {r : ℤ} (h : getChildPid arch sys l dom = .ok (r, d))
    (hr : 0 ≤ r) (hdom : 0 ≤ dom.smpVcpus) : Counts d := by
  obtain ⟨-, entries, -, hdir, -⟩ := getChildPid_eq_ok h hr
  obtain ⟨i, hfilled, -, -⟩ := getChildPid_filled hdir h hr
  obtain ⟨rest, hthreads, hrest⟩ := hfilled.slots
  constructor
  · have hsmp : d.smpVcpus = _ := hfilled.smpVcpus
    rw [hsmp]
    positivity
  · intro t ht
    dsimp only at hthreads
    rw [hthreads] at ht
    rcases List.mem_append.1 ht with hread | hunread
    · obtain ⟨dirt, -, hdirt⟩ := List.mem_filterMap.1 (List.mem_of_mem_take hread)
      unfold readThread at hdirt
      split_ifs at hdirt
      split at hdirt
      · split_ifs at hdirt
        cases hdirt
        rw [countThread_smpVcpus]
        exact zero_le_one
      · cases hdirt
    · rw [(hrest t hunread).cleared]
      exact le_refl 0

/-- Every record of a listing counts its vCPUs. -/
theorem scanned_counts {entries : List (Dirent × Sys)} {d : Domain}
    (hd : d ∈ scanned arch monitorId l entries) : Counts d := by
  obtain ⟨⟨dirent, sys⟩, -, he⟩ := List.mem_filterMap.1 hd
  obtain ⟨dom, r, d', hread, hchild, hr, -, rfl⟩ := readEntry_eq_some.1 he
  have hcounts := getChildPid_counts hchild hr (readProcess_cleared hread).1.ge
  exact ⟨hcounts.dom, hcounts.threads⟩

/-- Comparing a record leaves the counts. -/
theorem Counts.refreshDomain {d : Domain} (h : Counts d) (hfresh : Fresh arch l d)
    (pre : DomainList) : Counts (refreshDomain arch pre d) := by
  cases hold : getDomainFromId d.domainId pre with
  | none =>
      rw [Vmtop.refreshDomain, hold]
      exact h
  | some old =>
      rw [refreshDomain_of_some hfresh.length hold]
      constructor
      · dsimp only
        rw [threadsLoop_frame, refreshDeltaStat_frame]
        exact h.dom
      · intro t' ht'
        obtain ⟨t, ht, rfl⟩ := List.mem_map.1 ht'
        rw [refreshThread_frame]
        exact h.threads t ht

/-- **Every record of a run counts its vCPUs.** -/
theorem FrameRun.counts (r : FrameRun c) {j : ℕ} (hj : j ≤ r.len) {d : Domain}
    (hd : d ∈ (r.state j).now.domains) : Counts d := by
  obtain ⟨i, rfl, hi⟩ := r.exists_succ hj hd
  obtain ⟨_, mid, hframed⟩ := sampleFrame_framed (r.next i hi)
  obtain ⟨entries, d₀, hd₀, hsame⟩ := hframed.exists_scanned hd
  have hcounts := (scanned_counts hd₀).refreshDomain (scanned_fresh hd₀) mid.pre
  rw [hsame]
  exact ⟨hcounts.dom, hcounts.threads⟩

/-! ### The delay time -/

/-- The argument of an option `-d`. -/
def Opt.delayArg : Opt → Option Text
  | .d optarg => some optarg
  | _ => none

/-- The arguments of the options `-d` of a command line. -/
def delayArgs (opts : List Opt) : List Text := opts.filterMap Opt.delayArg

/-- The delay time is that of the last `-d`, and it is not negative. -/
theorem parseArgs_delayTime {opts : List Opt} {g g' : Globals}
    (h : parseArgs opts g = .ok g') (hg : 0 ≤ g.delayTime) :
    g'.delayTime = (delayArgs opts).getLast?.elim g.delayTime strToInt ∧ 0 ≤ g'.delayTime := by
  induction opts generalizing g with
  | nil =>
      cases h
      exact ⟨rfl, hg⟩
  | cons opt opts ih =>
      cases opt with
      | d optarg =>
          simp only [parseArgs] at h
          split_ifs at h with hneg
          obtain ⟨hlast, hpos⟩ := ih h (Int.not_lt.1 hneg)
          have hargs : delayArgs (.d optarg :: opts) = optarg :: delayArgs opts := rfl
          refine ⟨?_, hpos⟩
          rw [hlast, hargs, List.getLast?_cons]
          cases (delayArgs opts).getLast? <;> rfl
      | h | v | unknown => cases h
      | threads | b | G =>
          have hrest := ih h hg
          exact hrest
      | n | p =>
          simp only [parseArgs] at h
          split_ifs at h
          have hrest := ih h hg
          exact hrest

/-- The last `-d` of a command line, if there is one, is not `0`. -/
def DelayNonzero (opts : List Opt) : Prop :=
  ∀ optarg, (delayArgs opts).getLast? = some optarg → strToInt optarg ≠ 0

theorem delayTime_ne_zero_iff {opts : List Opt} {rows : Arr maxVcpuNum Task} {g : Globals}
    (h : parseArgs opts (initParameter arch rows) = .ok g) :
    g.delayTime ≠ 0 ↔ DelayNonzero opts := by
  have hstart : 0 ≤ (initParameter arch rows).delayTime := (by decide : (0 : ℤ) ≤ 3)
  rw [(parseArgs_delayTime h hstart).1, DelayNonzero]
  cases (delayArgs opts).getLast? with
  | none => simp [initParameter]
  | some optarg => simp

/-! ### The percentages -/

/-- A number from `0` to `100` for every vCPU. -/
def InRange (task : Task) (x : Double) : Prop :=
  ∃ q, x = .num q ∧ 0 ≤ q ∧ q ≤ 100 * task.smpVcpus

/-- What column `f` shows of a task is a percentage: nothing is divided by zero, the number that
is computed is in range, and so is the one that the rounding of each operation makes of it, which
is printed. -/
def PercentageShown (clkTck : ℕ) (delayTime : ℤ) (task : Task) (f : Fid) : Prop :=
  ∃ n unit, rate clkTck task f.fd = some (n, unit) ∧ unit * delayTime ≠ 0 ∧
    InRange task (justifyUsage (usagePercent id n unit delayTime) task) ∧
    ∃ x, InRange task x ∧ x = justifyUsage (usagePercent toDouble n unit delayTime) task ∧
      cell clkTck delayTime task f = printDouble 1 x

/-- The fields that show a percentage. -/
def percentages : List Fd := [.cpu, .st, .gue, .hyp]

/-- A percentage is made of a counter and its unit, and cut by `justify_usage`. -/
theorem exists_rate {clkTck : ℕ} (hclk : 0 < clkTck) (delayTime : ℤ) (task : Task) {f : Fid}
    (hf : f.fd ∈ percentages) : ∃ n unit, rate clkTck task f.fd = some (n, unit) ∧ 0 < unit ∧
      cell clkTck delayTime task f =
        printDouble 1 (justifyUsage (usagePercent toDouble n unit delayTime) task) := by
  have hnano : (0 : ℚ) < 10 ^ 9 := by positivity
  simp only [percentages, List.mem_cons, List.not_mem_nil, or_false] at hf
  rcases hf with hfd | hfd | hfd | hfd <;> simp only [cell, hfd, rate]
  · exact ⟨_, _, rfl, Nat.cast_pos.2 hclk, rfl⟩
  all_goals exact ⟨_, _, rfl, hnano, rfl⟩

/-- However it is rounded, `justify_usage` brings a percentage into its range. -/
theorem inRange_justifyUsage {round : ℚ → ℚ} (hround : ∀ q, 0 ≤ q → 0 ≤ round q)
    {unit delayTime : ℚ} (hunit : 0 < round unit) (hdelay : 0 < delayTime) {task : Task}
    (hsmp : 0 ≤ task.smpVcpus) (n : U64) :
    InRange task (justifyUsage (usagePercent round n unit delayTime) task) := by
  have hmost : (0 : ℚ) ≤ 100 * task.smpVcpus :=
    mul_nonneg (by decide +kernel) (Int.cast_nonneg hsmp)
  have hcount : 0 ≤ round (round n.toNat * 100) :=
    hround _ (mul_nonneg (hround _ (Nat.cast_nonneg _)) (by norm_num))
  have husage : 0 ≤ round (round (round (round n.toNat * 100) / round unit) / delayTime) :=
    hround _ (div_nonneg (hround _ (div_nonneg hcount hunit.le)) hdelay.le)
  have hjustified : justifyUsage (usagePercent round n unit delayTime) task =
      .num (min (100 * task.smpVcpus)
        (round (round (round (round n.toNat * 100) / round unit) / delayTime))) := by
    simp only [usagePercent, Double.div, if_neg hunit.ne', if_neg hdelay.ne', justifyUsage, min_def]
  exact ⟨_, hjustified, le_min hmost husage, min_le_left _ _⟩

/-- **A percentage is shown exactly when the delay time is not zero.** -/
theorem percentageShown_iff {clkTck : ℕ} (hclk : 0 < clkTck) {delayTime : ℤ}
    (hdelay : 0 ≤ delayTime) {task : Task} (hsmp : 0 ≤ task.smpVcpus) {f : Fid}
    (hf : f.fd ∈ percentages) : PercentageShown clkTck delayTime task f ↔ delayTime ≠ 0 := by
  constructor
  · rintro ⟨n, unit, -, hne, -⟩ rfl
    exact hne (by rw [Int.cast_zero, mul_zero])
  · intro hne
    obtain ⟨n, unit, hrate, hunit, hcell⟩ := exists_rate hclk delayTime task hf
    have hcast : (0 : ℚ) < delayTime := Int.cast_pos.2 (lt_of_le_of_ne hdelay hne.symm)
    refine ⟨n, unit, hrate, mul_ne_zero hunit.ne' hcast.ne', ?_, _, ?_, rfl, hcell⟩
    · exact inRange_justifyUsage (fun _ hq => hq) hunit hcast hsmp n
    · exact inRange_justifyUsage (fun _ => toDouble_nonneg) (toDouble_pos hunit) hcast hsmp n

/-- The tasks that a frame can display. -/
def Listed (s : Lists) (task : Task) : Prop :=
  ∃ d ∈ s.now.domains, task = d.toTask ∨ task ∈ d.lwps

/-- **Every percentage of a run is one exactly when the last `-d` of its command line is not
`0`.** -/
theorem percentages_iff {opts : List Opt} {rows : Arr maxVcpuNum Task} {g : Globals}
    (hargs : parseArgs opts (initParameter arch rows) = .ok g) {clkTck : ℕ} (hclk : 0 < clkTck)
    (r : FrameRun g.config) {j : ℕ} (hj : j ≤ r.len) {task : Task} (htask : Listed (r.state j) task)
    {f : Fid} (hf : f.fd ∈ percentages) :
    PercentageShown clkTck g.delayTime task f ↔ DelayNonzero opts := by
  have hstart : 0 ≤ (initParameter arch rows).delayTime := (by decide : (0 : ℤ) ≤ 3)
  obtain ⟨d, hd, htask⟩ := htask
  have hcounts := r.counts hj hd
  have hsmp : 0 ≤ task.smpVcpus := by
    rcases htask with rfl | hthread
    · exact hcounts.dom
    · exact hcounts.threads task (List.mem_of_mem_take hthread)
  rw [percentageShown_iff hclk (parseArgs_delayTime hargs hstart).2 hsmp hf,
    delayTime_ne_zero_iff hargs]

/-! ### Delay times of two and of zero -/

/-- What two frames show of the user time of a vCPU. -/
def ticksRows : ℕ → List DomainRow
  | 1 => [⟨0, 3, 0, [⟨1, 3, 0⟩]⟩]
  | _ => [⟨0, 10, 7, [⟨1, 10, 7⟩]⟩]

/-- A run of two frames that lists a task which has run in between. -/
theorem exists_listed : ∃ (r : FrameRun hostConfig) (task : Task), 2 ≤ r.len ∧
    Listed (r.state 2) task ∧ (task.delta .utime).toNat = 7 := by
  obtain ⟨r, hlen, -, hshown⟩ := exists_frameRun [hostFrame 5 3, hostFrame 8 10] .utime ticksRows
    (by decide +kernel)
  obtain ⟨d, t, -, -, hof, -, -, -, -, -, hdelta⟩ :=
    exists_of_shown (hshown 2 (by decide) (by decide)) rfl
  exact ⟨r, t, hlen.ge, ⟨d, hof.dom, Or.inr hof.thread⟩, hdelta⟩

/-- The settings that `-d` gives. -/
theorem parseArgs_delay {optarg : Text} (h : 0 ≤ strToInt optarg) :
    parseArgs [.d optarg] zeroGlobals = .ok { zeroGlobals with delayTime := strToInt optarg } := by
  simp only [parseArgs]
  rw [if_neg (Int.not_lt.2 h)]

/-- With `-d 2` all percentages of a thread that has run for seven ticks are percentages. -/
theorem percentages_iff_two : ∃ (g : Globals) (r : FrameRun g.config) (task : Task),
    parseArgs [.d "2".toList] zeroGlobals = .ok g ∧ g.delayTime = 2 ∧ Listed (r.state 2) task ∧
      (task.delta .utime).toNat = 7 ∧
      ∀ f : Fid, f.fd ∈ percentages → PercentageShown 100 g.delayTime task f := by
  obtain ⟨r, task, hlen, hlisted, hdelta⟩ := exists_listed
  have htwo : strToInt "2".toList = 2 := by decide +kernel
  have hargs : parseArgs [.d "2".toList] zeroGlobals =
      .ok { zeroGlobals with delayTime := strToInt "2".toList } :=
    parseArgs_delay (by rw [htwo]; decide)
  refine ⟨{ zeroGlobals with delayTime := strToInt "2".toList }, r, task, hargs, htwo, hlisted,
    hdelta, fun f hf => ?_⟩
  refine (@percentages_iff .other [.d "2".toList] (fun _ => Task.zero) _ hargs 100 (by decide) r 2
    hlen task hlisted f hf).2 ?_
  intro optarg hlast
  obtain rfl : "2".toList = optarg := Option.some.inj hlast
  rw [htwo]
  decide

/-- **`-d 0` is accepted, and divides by zero.** -/
theorem percentages_zero : ¬ ∀ (arch : Arch) (opts : List Opt) (rows : Arr maxVcpuNum Task)
    (g : Globals) (clkTck : ℕ), parseArgs opts (initParameter arch rows) = .ok g → 0 < clkTck →
    ∀ (r : FrameRun g.config) (j : ℕ) (task : Task) (f : Fid), j ≤ r.len →
      Listed (r.state j) task → f.fd ∈ percentages → PercentageShown clkTck g.delayTime task f := by
  intro h
  obtain ⟨r, task, hlen, hlisted, -⟩ := exists_listed
  have hzero : strToInt "0".toList = 0 := by decide +kernel
  obtain ⟨n, unit, -, hne, -⟩ := h .other [.d "0".toList] (fun _ => Task.zero)
    { zeroGlobals with delayTime := strToInt "0".toList } 100
    (parseArgs_delay (by rw [hzero])) (by decide) r 2 task
    (.display "%CPU" 8 .cpu) hlen hlisted List.mem_cons_self
  exact hne (by rw [hzero, Int.cast_zero, mul_zero])

end Vmtop
