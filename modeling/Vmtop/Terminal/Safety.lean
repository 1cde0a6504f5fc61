/-
# Hosts on which vmtop does not fault

A run of the main loop may meet two faults: the name of a process that has only one of its
parentheses, and the array of the sample counts.  Everything else that a turn does ends, also
the drawing, whatever the files hold.  And two calls may read on behind a buffer: `strtoul`
where the pid file is empty, and `sscanf`, which starts two characters behind the `)` of a stat
file.  So on a host whose pid and stat files are not empty, whose stat files name their process
as those of the kernel do, and where bandwidth is sampled for no more than `MAX_VM_TASKS_NUM`
pid files, no run faults, with any keys and any terminal, and every string ends in its buffer
(`main_safe`).
-/

import Vmtop.Refresh.Malformed
import Vmtop.Terminal.Nodes

namespace Vmtop

open CText CArray Runs

variable {sys : Sys} {c : Config} {input : FrameInput} {m : Main} {E : Fault → Prop}

/-! ### Stat files -/

/-- A stat file with both parentheses in what is read of it, and the scan behind them, which
starts two characters behind the last `)`, still in it. -/
structure NamedStat (s : Text) : Prop where
  opened : '(' ∈ cstr (s.take (bufSize - 1))
  closed : ∃ j, strrchr ')' (cstr (s.take (bufSize - 1))) = some j ∧
    j + 2 ≤ (cstr (s.take (bufSize - 1))).length

/-- What is there is found. -/
theorem exists_strrchr {ch : Char} {s : Text} (h : ch ∈ s) : ∃ i, strrchr ch s = some i := by
  obtain ⟨a, b, rfl, hb⟩ := exists_last_of_mem h
  exact ⟨_, strrchr_append hb a⟩

/-- The buffer of a file that names its process is parsed. -/
theorem parseStat_named {base : ℤ} {mem : Text} {j : ℕ} (hopen : '(' ∈ cstr mem)
    (hj : strrchr ')' (cstr mem) = some j) (t : Task) :
    Ends (parseStat base mem t) (fun _ => True) E := by
  obtain ⟨i, hi⟩ := exists_strrchr hopen
  by_cases hrej : Rejected (nameLength base (cstr mem))
  · rw [parseStat_of_rejected hrej]
    trivial
  · rw [parseStat_of_accepted hrej hi hj]
    trivial

/-- A named file is not empty. -/
theorem NamedStat.ne_nil {s : Text} (h : NamedStat s) : s.take (bufSize - 1) ≠ [] := by
  intro hnil
  have hopen := h.opened
  rw [hnil] at hopen
  cases hopen

/-- **A file that names its process is no fault**, and neither is one that cannot be read. -/
theorem getProcStat_named (t : Task)
    (h : ∀ s, sys.file (statPath t) = some s → NamedStat s) :
    Ends (getProcStat sys t) (fun _ => True) E := by
  simp only [getProcStat]
  split_ifs with hread
  · trivial
  · cases hfile : sys.file (statPath t) with
    | none =>
        rw [hfile] at hread
        exact absurd (Int.negSucc_lt_zero 0) hread
    | some s =>
        have hnamed := h s hfile
        obtain ⟨j, hj, -⟩ := hnamed.closed
        rw [readFile_of_ne_nil hnamed.ne_nil]
        refine parseStat_named (j := j) ?_ ?_ t
        · rw [cstr_append]
          exact hnamed.opened
        · rw [cstr_append]
          exact hj

/-! ### Strings -/

/-- The strings of an entry end in their buffers: the pid file's, and that of every stat file,
where the scan behind the name starts at the NUL at the latest. -/
structure StringsEnd (e : Dirent × Sys) : Prop where
  pid : 0 ≤ (readFile (e.2.file (pidPath e.1.name)) pidStringMax (e.2.stale (pidPath e.1.name))).1 →
    nul ∈ (readFile (e.2.file (pidPath e.1.name)) pidStringMax
      (e.2.stale (pidPath e.1.name))).2.take pidStringMax
  stat : ∀ t, 0 ≤ (readFile (e.2.file (statPath t)) bufSize (e.2.stale (statPath t))).1 →
    ∃ mem, (readFile (e.2.file (statPath t)) bufSize (e.2.stale (statPath t))).2 = mem ∧
      nul ∈ mem.take bufSize ∧
      ∃ j, strrchr ')' (cstr mem) = some j ∧ j + 2 ≤ (cstr mem).length

/-- What is read of a file that is not empty ends in the buffer. -/
theorem nul_mem_readFile {s : Text} {size : ℕ} (hs : s.take (size - 1) ≠ []) (buf : Text) :
    nul ∈ (readFile (some s) size buf).2.take size := by
  have hpos : 0 < size - 1 := by
    refine Nat.pos_of_ne_zero fun hzero => hs ?_
    rw [hzero, List.take_zero]
  rw [readFile_of_ne_nil hs, List.take_append]
  refine List.mem_append_right _ ?_
  have hle : (s.take (size - 1)).length ≤ size - 1 := List.length_take_le _ _
  obtain ⟨k, hk⟩ := Nat.exists_eq_add_of_lt (show (s.take (size - 1)).length < size by omega)
  rw [show size - (s.take (size - 1)).length = k + 1 by omega, List.take_succ_cons]
  exact List.mem_cons_self

/-- **Files that are not empty end in their buffers.** -/
theorem stringsEnd_of_named {e : Dirent × Sys} (hpid : e.2.file (pidPath e.1.name) ≠ some [])
    (hstat : ∀ t s, e.2.file (statPath t) = some s → NamedStat s) : StringsEnd e where
  pid hread := by
    cases hfile : e.2.file (pidPath e.1.name) with
    | none =>
        rw [hfile] at hread
        exact absurd hread (Int.not_le.2 (Int.negSucc_lt_zero 0))
    | some s =>
        refine nul_mem_readFile (fun hnil => hpid ?_) _
        rw [hfile, (List.take_eq_nil_iff.1 hnil).resolve_left (by decide)]
  stat t hread := by
    cases hfile : e.2.file (statPath t) with
    | none =>
        rw [hfile] at hread
        exact absurd hread (Int.not_le.2 (Int.negSucc_lt_zero 0))
    | some s =>
        have hnamed := hstat t s hfile
        refine ⟨_, rfl, nul_mem_readFile hnamed.ne_nil _, ?_⟩
        rw [readFile_of_ne_nil hnamed.ne_nil, cstr_append]
        exact hnamed.closed

/-! ### The snapshot -/

/-- What a turn may find without a fault. -/
structure SoundInput (c : Config) (input : FrameInput) : Prop where
  pids : ∀ entries, input.env.refresh.qemuDir = some entries → ∀ e ∈ entries,
    isPidFile e = true → e.2.file (pidPath e.1.name) ≠ some []
  stats : ∀ entries, input.env.refresh.qemuDir = some entries → ∀ e ∈ entries, ∀ t s,
    e.2.file (statPath t) = some s → NamedStat s
  room : resctrlEnable c input.env = true → ∀ entries,
    input.env.refresh.qemuDir = some entries → entries.countP isPidFile ≤ maxVmTasksNum

/-- There are no more records than pid files. -/
theorem length_snapshot_le {arch : Arch} {monitorId : ℤ} {env : Env} {l : VcpuList} {n : ℕ}
    (h : ∀ entries, env.qemuDir = some entries → entries.countP isPidFile ≤ n) :
    (snapshot arch monitorId env l).length ≤ n := by
  unfold snapshot
  split
  · rename_i entries _ hdir
    have hcount := h entries hdir
    rw [List.countP_eq_length_filter] at hcount
    exact (List.length_filterMap_le _ _).trans
      ((List.takeWhile_sublist _).length_le.trans hcount)
  · exact Nat.zero_le n

/-- **The snapshot of such a turn is no fault.** -/
theorem sampleFrame_sound (h : SoundInput c input) (s : Lists) :
    Ends (sampleFrame c input.env s) (fun _ => True) E := by
  have hrefresh : Ends (refreshDomains c.arch c.monitorId input.env.refresh s) (fun _ => True) E :=
    refreshDomains_ends_of (fun entries hdir e he t =>
      getProcStat_named t (h.stats entries hdir e he t)) _ _ s
  unfold sampleFrame
  refine hrefresh.with_eq.bind fun ⟨r, mid⟩ ⟨hmid, _⟩ => ?_
  dsimp only
  split_ifs with hon
  · refine Ends.bind (P := fun _ => True) ?_ fun _ _ => trivial
    refine (refreshDomainsBandwidth_ends input.env.bandwidth mid.now).mono (fun _ _ => trivial) ?_
    rintro e ⟨-, hcrowded, -⟩
    have hnum : mid.now.num ≤ maxVmTasksNum := by
      rw [DomainList.num, (refreshDomains_rotated hmid).now, List.length_map]
      exact length_snapshot_le (h.room hon)
    exact absurd hcrowded (Nat.not_lt.2 hnum)
  · trivial

/-! ### The turns -/

/-- **A turn faults in its snapshot, if at all.** -/
theorem mainStep_ends (hm : NodesInBounds m.g)
    (hsample : Ends (sampleFrame m.g.config input.env m.g.lists) (fun _ => True) E) {e : Fault}
    (hstep : mainStep input m = .error (.fault e)) : E e := by
  have hbegin : Ends (beginFrame m.g input) (fun _ => True) E := by
    unfold beginFrame
    dsimp only
    split <;> exact hsample.bind fun _ _ => trivial
  have hbounds := beginFrame_inBounds hm input
  unfold mainStep turn at hstep
  split_ifs at hstep
  · cases hstep
  · cases hframe : beginFrame m.g input with
    | error e' =>
        rw [hframe] at hstep hbegin
        cases hstep
        exact hbegin
    | ok g =>
        rw [hframe] at hstep hbounds
        have hdraw := drawFrame_ends (E := fun _ => False) hbounds input.tm input.clkTck
        obtain ⟨⟨frame, screen⟩, hok, -⟩ := hdraw.exists_ok
        simp only [hok] at hstep
        cases hend : endFrame frame input with
        | none =>
            rw [hend] at hstep
            cases hstep
        | some p =>
            rw [hend] at hstep
            cases hstep

/-- The turns of a sound host do not fault. -/
theorem runAll_sound {inputs : List FrameInput} (hm : NodesInBounds m.g)
    (hconfig : m.g.config = c) (h : ∀ input ∈ inputs, SoundInput c input) (e : Fault) :
    runAll mainStep inputs m ≠ .error (.fault e) := by
  induction inputs generalizing m with
  | nil => exact nofun
  | cons input inputs ih =>
      rw [List.forall_mem_cons] at h
      intro hrun
      rw [runAll] at hrun
      cases hstep : mainStep input m with
      | error halt =>
          rw [hstep] at hrun
          cases hrun
          exact mainStep_ends (E := fun _ => False) hm (sampleFrame_sound (hconfig ▸ h.1) _) hstep
      | ok m' =>
          rw [hstep] at hrun
          obtain ⟨t, hturn, hnext⟩ := mainStep_eq_ok hstep
          have hsettings := (turn_turned hturn).settings.2
          refine ih ((mainStep_inBounds hm).1 m' hstep) ?_ h.2 hrun
          rw [← hnext, ← hconfig]
          exact congrArg Settings.config hsettings

/-- **No run of vmtop faults on a sound host**, with any options, keys and terminal, and every
string that it is handed ends in its buffer. -/
theorem main_safe (hm : Begins m) {inputs : List FrameInput}
    (h : ∀ input ∈ inputs, SoundInput m.g.config input) :
    (∀ e, runAll mainStep inputs m ≠ .error (.fault e)) ∧
      ∀ input ∈ inputs, ∀ entries, input.env.refresh.qemuDir = some entries →
        ∀ e ∈ entries, isPidFile e = true → StringsEnd e := by
  refine ⟨runAll_sound hm.inBounds rfl h, fun input hinput entries hdir e he hpid => ?_⟩
  have hsound := h input hinput
  exact stringsEnd_of_named (hsound.pids entries hdir e he hpid) (hsound.stats entries hdir e he)

/-- An idle virtual machine is sound. -/
theorem soundInput_host (c : Config) (rows : ℤ) (press : Option KeyPress) :
    SoundInput c (terminalTurn (crowdedEnv 1) rows press) where
  pids := by
    rintro _ ⟨⟩ e he -
    obtain ⟨k, -, rfl⟩ := List.mem_map.1 he
    have hlast : (pidPath (decimal k ++ ".pid".toList)).getLast? = some 'd' :=
      getLast?_path (varRunQemuPath ++ '/' :: decimal k) (a := ".pid".toList) (by decide +kernel)
    have hfile : (hostSys (k + 1) k idleStat).file (pidPath (decimal k ++ ".pid".toList)) =
        some (decimal (k + 1)) := by
      simp only [hostSys, hlast]
      rfl
    intro hempty
    exact Nat.toDigits_ne_nil (Option.some.inj (hfile.symm.trans hempty))
  stats := by
    rintro _ ⟨⟩ e he t s hfile
    obtain ⟨k, -, rfl⟩ := List.mem_map.1 he
    cases (hostSys_file_statPath (k + 1) k idleStat t).symm.trans hfile
    exact ⟨by decide +kernel, 11, by decide +kernel, by decide +kernel⟩
  room := by
    rintro - _ ⟨⟩
    decide +kernel

/-- A run that samples an idle virtual machine twice. -/
theorem main_safe_host : Begins ⟨meteredGlobals, false⟩ ∧ (∀ e, runAll mainStep
    [terminalTurn (crowdedEnv 1) 24 none, terminalTurn (crowdedEnv 1) 24 (some (earlyKey .down))]
    ⟨meteredGlobals, false⟩ ≠ .error (.fault e)) ∧ StringsEnd (hostEntry 1 0 idleStat) := by
  have hbegins : Begins ⟨meteredGlobals, false⟩ := ⟨rfl, .other, fun _ => Task.zero, [.G], rfl⟩
  have hsound : ∀ input ∈ [terminalTurn (crowdedEnv 1) 24 none,
      terminalTurn (crowdedEnv 1) 24 (some (earlyKey .down))],
      SoundInput meteredGlobals.config input := by
    simp only [List.forall_mem_cons, List.not_mem_nil, false_imp_iff, implies_true, and_true]
    exact ⟨soundInput_host _ _ _, soundInput_host _ _ _⟩
  obtain ⟨hsafe, hstrings⟩ := main_safe hbegins hsound
  exact ⟨hbegins, hsafe, hstrings _ List.mem_cons_self _ rfl _ List.mem_cons_self
    (isPidFile_hostEntry _ _ _)⟩

end Vmtop
