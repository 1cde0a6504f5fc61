/-
# A host that runs virtual machines

The files a libvirt host shows for a qemu process, as inputs of the model: the pid
file that libvirt writes, and the cgroup, stat and task entries of `/proc` for a
process of one thread.  `get_qemu_id` accepts every such process
(`hostEntry_accepted`), so a host can put any number of records in the list
(`scanned_host`): nothing in the scan bounds it.
-/

import Mathlib.Data.List.TakeWhile
import Vmtop.Refresh.Fresh

namespace Vmtop

open CText CArray

/-- A stat line of a process of `nlwp` threads with a given name and times. -/
def statLine (comm : Text) (utime stime nlwp : ℕ) : Text :=
  "1 (".toList ++ comm ++ ") S 1 1 1 0 -1 4194560 10 0 0 0 ".toList ++ decimal utime ++ ' ' ::
    decimal stime ++ " 0 0 20 0 ".toList ++ decimal nlwp ++
      " 0 500 4096 300 18446744073709551615 1 1 0 0 0 0 0 0 65536 1 0 0 17 2 0\n".toList

/-- The cgroup line of a qemu process in front of the id of its domain. -/
def cgroupHead : Text := "4:cpuset:/machine.slice/machine-qemu\\x2d".toList

/-- The cgroup line of a qemu process behind the id of its domain. -/
def cgroupTail : Text := "\\x2dvm.scope".toList

/-- The cgroup line of the qemu process of the domain `id`. -/
def cgroupLine (id : ℕ) : Text := cgroupHead ++ decimal id ++ cgroupTail

/-- What is found for a qemu process of one thread.  The files of one process differ in
the last letter of their paths, which is all that `file` looks at. -/
def hostSys (pid id : ℕ) (stat : Text) : Sys where
  file path :=
    if path.getLast? = some 'd' then some (decimal pid)
    else if path.getLast? = some 'p' then some (cgroupLine id ++ ['\n'])
    else some stat
  stale _ := []
  base _ := 0
  taskDir _ := some [⟨decimal pid, .dir⟩]
  mallocDomains := true
  mallocThreads := true

/-- The entry of the qemu directory for that process, with what is found for it. -/
def hostEntry (pid id : ℕ) (stat : Text) : Dirent × Sys :=
  (⟨decimal id ++ ".pid".toList, .reg⟩, hostSys pid id stat)

/-- The stat line of an idle qemu process of one thread. -/
def idleStat : Text := statLine "qemu-kvm".toList 7 3 1

variable {arch : Arch} {l : VcpuList}

/-- The last letter of a path. -/
theorem getLast?_path (dir : Text) {a : Text} {c : Char} (h : a.getLast? = some c) :
    (dir ++ a).getLast? = some c := by
  rw [List.getLast?_append, h]
  rfl

/-- The number of digits of an `int`. -/
theorem decimal_length {n : ℕ} (hn : n < 2 ^ 31) : (decimal n).length ≤ 10 :=
  (Nat.length_toDigits_le_iff (by decide) (by decide)).2 (by omega)

/-- A control character does not occur in a cgroup line. -/
theorem notMem_cgroupLine {id : ℕ} {c : Char} (hc : c.isDigit = false) (hhead : c ∉ cgroupHead)
    (htail : c ∉ cgroupTail) : c ∉ cgroupLine id := by
  simp only [cgroupLine, List.mem_append, not_or]
  exact ⟨⟨hhead, notMem_decimal hc⟩, htail⟩

/-- The id in the cgroup file is the one read from it. -/
theorem getIdFromCgroup_host (pid : ℤ) (p : ℕ) {id : ℕ} (hid : id < 2 ^ 31) (stat : Text) :
    getIdFromCgroup (hostSys p id stat) pid = id := by
  have hnl : '\n' ∉ cgroupLine id :=
    notMem_cgroupLine rfl (by decide +kernel) (by decide +kernel)
  have hnul : nul ∉ cgroupLine id ++ ['\n'] := by
    rw [List.mem_append, not_or]
    exact ⟨notMem_cgroupLine rfl (by decide +kernel) (by decide +kernel), by decide⟩
  have hfile : (hostSys p id stat).file (cgroupPath pid) = some (cgroupLine id ++ ['\n']) := by
    have hlast : (cgroupPath pid).getLast? = some 'p' := getLast?_path _ (by decide +kernel)
    simp only [hostSys, hlast]
    rfl
  have hlen : (cgroupLine id).length < 1022 := by
    have h := decimal_length hid
    have hhead : cgroupHead.length = 40 := by decide +kernel
    have htail : cgroupTail.length = 12 := by decide +kernel
    simp only [cgroupLine, List.length_append]
    omega
  have hchunks : chunks (bufSize - 2) (cgroupLine id ++ ['\n']) = [cgroupLine id ++ ['\n']] :=
    chunks_line hnl hlen
  have hline : cgroupLine id ++ ['\n'] = cgroupHead ++ (decimal id ++ (cgroupTail ++ ['\n'])) := by
    simp only [cgroupLine, List.append_assoc]
  have hhead : (cgroupTail ++ ['\n']).head? = some '\\' := by decide +kernel
  have hcpuset : strstr "cpuset:".toList cgroupHead = some (cgroupHead.drop 2) := by
    decide +kernel
  have hqemu : strstr "machine-qemu\\x2d".toList cgroupHead = some "machine-qemu\\x2d".toList := by
    decide +kernel
  simp only [getIdFromCgroup, hfile, hchunks, cgroupLoop, cstr_of_notMem hnul]
  rw [hline, strstr_append hcpuset, if_neg nofun, strstr_append hqemu]
  simp only [List.drop_left]
  refine atoi_decimal hid fun c hc => ?_
  rw [hhead] at hc
  cases hc
  rfl

/-- The thread count that is scanned does not depend on the record it is stored in. -/
theorem sscanf_statFormat_nlwp {t t' : Task} (h : t.nlwp = t'.nlwp) (s : Text) :
    (sscanf statFormat s t).nlwp = (sscanf statFormat s t').nlwp := by
  refine sscanf_congr (R := fun r r' : Task => r.nlwp = r'.nlwp) ?_ s h
  simp only [statFormat, List.intersperse, List.forall_mem_cons, Directive.Respects, true_and]
  simp

/-- An idle process has one thread. -/
theorem sscanf_idleStat {t : Task} (ht : t.nlwp = 0) :
    (sscanf statFormat (cstr ((idleStat ++ [nul]).drop 13)) t).nlwp = 1 := by
  rw [sscanf_statFormat_nlwp (show t.nlwp = Task.zero.nlwp from ht)]
  decide +kernel

/-- The stat line of an idle process is accepted. -/
theorem parseStat_idleStat {t : Task} (ht : t.nlwp = 0) :
    ∃ t', parseStat 0 (idleStat ++ [nul]) t = .ok (1, t') ∧ t'.nlwp = 1 := by
  have hopen : strrchr '(' (cstr (idleStat ++ [nul])) = some 2 := by decide +kernel
  have hclose : strrchr ')' (cstr (idleStat ++ [nul])) = some 11 := by decide +kernel
  have hlen : toInt32 (0 + (11 : ℕ) - (0 + (2 : ℕ) + 1)) = 8 := by decide +kernel
  simp only [parseStat, hopen, hclose, pointer, Option.elim_some, hlen]
  rw [if_neg (by decide)]
  exact ⟨_, rfl, sscanf_idleStat ht⟩

theorem getLast?_statPath (t : Task) : (statPath t).getLast? = some 't' := by
  unfold statPath
  split_ifs
  · exact getLast?_path _ (by decide +kernel)
  · exact getLast?_path _ (by decide +kernel)

/-- The stat files of the process are all one. -/
theorem hostSys_file_statPath (p id : ℕ) (stat : Text) (t : Task) :
    (hostSys p id stat).file (statPath t) = some stat := by
  simp only [hostSys, getLast?_statPath]
  rfl

/-- The stat file of an idle process and of its thread is accepted. -/
theorem getProcStat_host (p id : ℕ) {t : Task} (ht : t.nlwp = 0) :
    ∃ t', getProcStat (hostSys p id idleStat) t = .ok (1, t') ∧ t'.nlwp = 1 ∧
      StatFrame t t' := by
  have hfile := hostSys_file_statPath p id idleStat t
  have hread : readFile (some idleStat) bufSize [] =
      ((idleStat.length : ℤ), idleStat ++ [nul]) := by
    decide +kernel
  obtain ⟨t', hparse, hn⟩ := parseStat_idleStat ht
  have hstat : getProcStat (hostSys p id idleStat) t = .ok (1, t') := by
    have hbase : (hostSys p id idleStat).base (statPath t) = 0 := rfl
    have hstale : (hostSys p id idleStat).stale (statPath t) = [] := rfl
    simp only [getProcStat, hfile, hstale, hbase, hread]
    rw [if_neg (Int.not_lt.2 (Int.natCast_nonneg _))]
    exact hparse
  exact ⟨t', hstat, hn, getProcStat_frame hstat⟩

/-- A number is none of the entries `.` and `..`. -/
theorem decimal_ne_dot (n : ℕ) : ¬ (decimal n = ".".toList ∨ decimal n = "..".toList) := by
  have hmem : '.' ∉ decimal n := notMem_decimal rfl
  rintro (h | h) <;> exact hmem (by rw [h]; decide)

/-- The pid in a text that starts with a number. -/
theorem readPid_of_strtoul {s rest : Text} {p : ℕ} (h : strtoul s = some (p, rest)) :
    readPid s = toInt32 p := by
  rw [readPid, h, Option.elim_some]

/-- A pid in a file of its own, or as the name of a directory. -/
theorem readPid_decimal {p : ℕ} (hp : p < 2 ^ 31) (rest : Text) :
    readPid (cstr (decimal p ++ nul :: rest)) = p ∧ readPid (cstr (decimal p)) = p := by
  have hnul : nul ∉ decimal p := notMem_decimal rfl
  have hscan : strtoul (decimal p) = some (p, []) := by
    simpa using strtoul_decimal (by omega) (by simp : ∀ c ∈ ([] : Text).head?, c.isDigit = false)
  have hval : readPid (decimal p) = p := by
    rw [readPid_of_strtoul hscan, toInt32_of_lt hp]
  rw [cstr_append_nul hnul, cstr_of_notMem hnul]
  exact ⟨hval, hval⟩

variable (arch l)

/-- The task directory of an idle process is read to its end. -/
theorem getChildPid_host {p : ℕ} (hp : 0 < p ∧ p < 2 ^ 31) (id : ℕ) (dom : Domain)
    (hn : dom.nlwp = 1) :
    ∃ d, getChildPid arch (hostSys p id idleStat) l dom = .ok (1, d) ∧
      d.domainId = dom.domainId := by
  have hdir : (hostSys p id idleStat).taskDir (taskPath dom.pid) =
      some [⟨decimal p, .dir⟩] := rfl
  have hmalloc : (hostSys p id idleStat).mallocThreads = true := rfl
  have hdot : ¬ (decimal p = ".".toList ∨ decimal p = "..".toList) := decimal_ne_dot p
  have hpid : readPid (cstr (decimal p)) = p := (readPid_decimal hp.2 []).2
  have hpos : ¬ ((p : ℤ) < 1) := by omega
  obtain ⟨t, hstat, -⟩ := getProcStat_host p id
    (t := { Task.zero with pid := p, type := .isThread, ppid := dom.pid }) rfl
  have hstep : ∃ st, childStep arch (hostSys p id idleStat) l dom ⟨decimal p, .dir⟩
      ⟨[Task.zero], 0, dom.smpVcpus⟩ = .ok st := by
    simp only [childStep, hdot, hpid, hpos, if_false, ne_eq, not_true_eq_false,
      ChildState.thread, List.getD_cons_zero, hstat, ok_bind]
    split_ifs <;> exact ⟨_, rfl⟩
  obtain ⟨st, hstep⟩ := hstep
  have hloop : childLoop arch (hostSys p id idleStat) l dom [⟨decimal p, .dir⟩]
      ⟨[Task.zero], 0, dom.smpVcpus⟩ = .ok st := by
    rw [childLoop, if_pos (by simp [hn]), hstep, ok_bind, childLoop]
  refine ⟨{ dom with threads := st.threads, smpVcpus := st.smpVcpus }, ?_, rfl⟩
  have hcells : List.replicate (1 : ℤ).toNat Task.zero = [Task.zero] := rfl
  simp only [getChildPid, hdir, hmalloc, hn, hcells, hloop, ok_bind, Bool.true_eq_false, if_false]
  rw [if_neg (by decide)]

/-- The pid file is read whole. -/
theorem readFile_decimal {p : ℕ} (hp : p < 2 ^ 31) :
    readFile (some (decimal p)) pidStringMax [] =
      (((decimal p).length : ℤ), decimal p ++ [nul]) := by
  have htake : (decimal p).take (pidStringMax - 1) = decimal p :=
    List.take_of_length_le ((decimal_length hp).trans (by decide))
  simp [readFile, htake, decimal_isEmpty]

/-- The rest of the record is read, once the id is accepted. -/
theorem loadDomain_host {p id : ℕ} (hp : 0 < p ∧ p < 2 ^ 31) (hid : id < 2 ^ 31) (dom : Domain)
    (hn : dom.nlwp = 0) :
    ∃ d, loadDomain arch (hostSys p id idleStat) l (decimal id ++ ".pid".toList) dom =
      .ok (1, d) ∧ d.domainId = dom.domainId := by
  obtain ⟨t, hstat, ht, hframe⟩ :=
    getProcStat_host p id (t := { dom.toTask with type := .isDomain }) hn
  obtain ⟨d, hchild, hd⟩ := getChildPid_host arch l hp id { dom with toTask := t } ht
  have hlen : ¬ domainNameMax - 1 ≤ (decimal id ++ ".pid".toList).length := by
    have h := decimal_length hid
    have hext : ".pid".toList.length = 4 := by decide
    rw [List.length_append, hext]
    unfold domainNameMax
    omega
  let name := decimal id ++ ".pid".toList
  refine ⟨{ d with vmname := name.take (name.length - ".pid".toList.length) }, ?_,
    hd.trans hframe.domainId⟩
  simp only [loadDomain, hstat, hchild, ok_bind, hlen, if_false]
  rfl

/-- **A qemu process is accepted**, whatever its pid and the id of its domain. -/
theorem hostEntry_accepted (p id : ℕ) (hp : 0 < p ∧ p < 2 ^ 31) (hid : id < 2 ^ 31) :
    ∃ d, readEntry arch (-1) l (hostEntry p id idleStat) = some d ∧ d.domainId = id := by
  let name := decimal id ++ ".pid".toList
  have hlast : (varRunQemuPath ++ '/' :: name).getLast? = some 'd' :=
    getLast?_path (varRunQemuPath ++ '/' :: decimal id) (a := ".pid".toList) (by decide +kernel)
  have hfile : (hostSys p id idleStat).file (varRunQemuPath ++ '/' :: name) = some (decimal p) := by
    simp only [hostSys, hlast]
    rfl
  have hstale : (hostSys p id idleStat).stale (varRunQemuPath ++ '/' :: name) = [] := rfl
  have hpid : readPid (cstr (decimal p ++ [nul])) = p := (readPid_decimal hp.2 []).1
  have hpos : ¬ ((p : ℤ) < 1) := by omega
  have hneg (n : ℕ) : ¬ ((n : ℤ) < 0) := by omega
  obtain ⟨d, hload, hd⟩ :=
    loadDomain_host arch l hp hid { Domain.zero with pid := p, domainId := id } rfl
  have hset : setDomain arch (-1) (hostSys p id idleStat) l name Domain.zero = .ok (1, d) := by
    simp only [setDomain, hfile, hstale, readFile_decimal hp.2, hpid, getIdFromCgroup_host _ p hid,
      hpos, hneg, if_false]
    rw [if_neg fun h => absurd h.1 (by decide)]
    exact hload
  refine ⟨d, ?_, hd⟩
  simp only [name] at hset
  simp only [readEntry, hostEntry, hset]
  rfl

/-- The entry of a qemu process is the pid file of a virtual machine. -/
theorem isPidFile_hostEntry (p id : ℕ) (stat : Text) : isPidFile (hostEntry p id stat) = true := by
  have hdot : '.' ∉ decimal id := notMem_decimal rfl
  have hlen : ".pid".toList.length = 4 := by decide
  have hne : decimal id ≠ [] := Nat.toDigits_ne_nil
  have hcheck : checkPidFile (decimal id ++ ".pid".toList) = 0 := by
    simp only [checkPidFile, List.length_append, Nat.add_sub_cancel, List.drop_left, if_true]
    rw [if_neg]
    simpa [hlen] using hne
  have hname : ∀ name : Text, name.length ≤ 2 → decimal id ++ ".pid".toList ≠ name := by
    rintro name hn rfl
    rw [List.length_append, hlen] at hn
    omega
  simp only [isPidFile, hostEntry, Bool.and_eq_true]
  exact ⟨⟨⟨decide_eq_true (hname ".".toList (by decide)),
    decide_eq_true (hname "..".toList (by decide))⟩, rfl⟩, decide_eq_true hcheck⟩

/-- **Every process of a host gets a record**: nothing bounds how many. -/
theorem scanned_host {n : ℕ} (hn : n < 2 ^ 31) :
    (scanned arch (-1) l
      ((List.range n).map fun k => hostEntry (k + 1) k idleStat)).length = n := by
  have hfilter : ((List.range n).map fun k => hostEntry (k + 1) k idleStat).filter isPidFile =
      (List.range n).map fun k => hostEntry (k + 1) k idleStat :=
    List.filter_eq_self.2 fun e he => by
      obtain ⟨k, -, rfl⟩ := List.mem_map.1 he
      exact isPidFile_hostEntry _ _ _
  have htake : ((List.range n).map fun k => hostEntry (k + 1) k idleStat).takeWhile
      (fun e => e.2.mallocDomains) = (List.range n).map fun k => hostEntry (k + 1) k idleStat :=
    List.takeWhile_eq_self_iff.2 fun e he => by
      obtain ⟨k, -, rfl⟩ := List.mem_map.1 he
      rfl
  rw [scanned, hfilter, htake, List.filterMap_map, List.filterMap_length_eq_length.2,
    List.length_range]
  intro k hk
  obtain ⟨d, hd, -⟩ := hostEntry_accepted arch l (k + 1) k
    (by have := List.mem_range.1 hk; omega) ((List.mem_range.1 hk).trans hn)
  simp [hd]

/-! ### A virtual machine of one vCPU -/

/-- The line of the `vcpu_stat` table of a thread that shows `n` in every column. -/
def vcpuLine (arch : Arch) (pid n : ℕ) : Text :=
  decimal pid ++ ((vcpuStatStab arch).tail.flatMap fun _ => ' ' :: decimal n) ++ ['\n']

/-- A host with one virtual machine, whose one thread is a vCPU that has run for
`ticks`. -/
def hostEnv (table : Text) (ticks : ℕ) : Env where
  vcpuStat := some table
  qemuDir := some [hostEntry 1 0 (statLine "CPU 0/KVM".toList ticks 0 1)]

/-- The lists at the start, with a table that happens to be zero. -/
def zeroLists : Lists := .start fun _ => Task.zero

/-- The lists after a refresh that saw this virtual machine with all its counters at
`5`. -/
def oneVcpuLists : Lists where
  now :=
    { DomainList.empty with
      domains := [{ Domain.zero with
        nlwp := 1
        dfx := fun _ => 5
        threads := [{ Task.zero with type := .isVcpu, pid := 1, nlwp := 1, dfx := fun _ => 5 }] }] }
  pre := .empty
  vcpuList := zeroLists.vcpuList

end Vmtop
