/-
# The machines of a host, and their files

What vmtop is for, in terms of the host: a virtual machine (`Machine`) has an id, a name, a
process and threads (`Thread`), of which those are vCPUs that are named so.  The kernel and
libvirt show it in a pid file, a cgroup file, the stat files and one table (`ShowsMachine`,
`ShowsTable`).  From files like these `refresh_domains` reads back what they were written from:
one record for each machine, in the order of the listing, with the pid, the name, the counters
and the times of every thread (`ShowsHost.snapshot`).
-/

import Vmtop.Refresh.Cgroups
import Vmtop.Refresh.Decode
import Vmtop.Refresh.Listings
import Vmtop.Refresh.Table

namespace Vmtop

open CText CArray Reordered

variable {arch : Arch} {monitorId : ℤ} {l : VcpuList} {sys : Sys} {dom : Domain}

/-! ### Machines -/

/-- The times of a stat line. -/
def StatFields.time (f : StatFields) (v : Dfx) : U64 :=
  if v = .stime then f.stime else if v = .utime then f.utime else 0

/-- They are all the counters that are read of it. -/
theorem StatFields.decoded_dfx (f : StatFields) {t : Task} (h : ∀ v, t.dfx v = 0) :
    (f.decoded t).dfx = f.time := by
  funext v
  simp only [StatFields.decoded, StatFields.time, Function.update_apply, h]

/-- A thread of a process: its stat line, and what is counted for it if it is a vCPU. -/
structure Thread where
  stat : StatFields
  counters : Dfx → U64
  stMax : U64
  pid_pos : 0 < stat.pid.toNat
  pid_lt : stat.pid.toNat < 2 ^ 31
  plain : '(' ∉ stat.comm

namespace Thread

variable (t : Thread)

def pid : ℕ := t.stat.pid.toNat

theorem pid_bounds : 0 < t.pid ∧ t.pid < 2 ^ 31 := ⟨t.pid_pos, t.pid_lt⟩

/-- A vCPU is a thread with the name of one. -/
def IsVcpu : Prop := "CPU".toList <:+: t.stat.comm

instance : Decidable t.IsVcpu := by
  unfold IsVcpu
  infer_instance

/-- The counter `v` of a thread: its times, and the columns of the table if it is a vCPU. -/
def counter (arch : Arch) (v : Dfx) : U64 :=
  if t.IsVcpu ∧ v ∈ vcpuCounters arch then t.counters v else t.stat.time v

/-- The record of a thread, with what is reported on it. -/
def record (arch : Arch) (delta : Dfx → U64) : Task :=
  { t.stat.decoded Task.zero with
    type := if t.IsVcpu then .isVcpu else .isThread
    pid := t.pid
    dfx := t.counter arch
    delta := delta
    stMax := if t.IsVcpu then t.stMax else 0
    smpVcpus := 1 }

end Thread

/-- A virtual machine, whose process says how many threads it has. -/
structure Machine where
  id : ℕ
  name : Text
  process : StatFields
  threads : List Thread
  id_lt : id < 2 ^ 31
  name_ne : name ≠ []
  name_fits : name.length + ".pid".toList.length < domainNameMax - 1
  pid_pos : 0 < process.pid.toNat
  pid_lt : process.pid.toNat < 2 ^ 31
  threads_ne : threads ≠ []
  counted : process.numThreads.toInt = threads.length

namespace Machine

variable (m : Machine)

def pid : ℕ := m.process.pid.toNat

theorem pid_bounds : 0 < m.pid ∧ m.pid < 2 ^ 31 := ⟨m.pid_pos, m.pid_lt⟩

/-- The record of a machine and its threads, with what is reported on them. -/
def record (arch : Arch) (deltas : Thread → Dfx → U64) (delta : Dfx → U64) : Domain :=
  { m.process.decoded Task.zero with
    domainId := m.id
    vmname := m.name
    pid := m.pid
    delta := delta
    smpVcpus := m.threads.countP fun t => t.IsVcpu
    threads := m.threads.map fun t => t.record arch (deltas t) }

/-- The record of a machine that nothing has been reported on yet. -/
def fresh (arch : Arch) : Domain := m.record arch (fun _ _ => 0) fun _ => 0

variable {m}

theorem fresh_threads : (m.fresh arch).threads = m.threads.map fun t => t.record arch fun _ => 0 :=
  rfl

/-- It has as many threads as it counts. -/
theorem fresh_length : (m.fresh arch).threads.length = (m.fresh arch).nlwp.toNat := by
  have hnlwp : (m.fresh arch).nlwp = m.threads.length := m.counted
  rw [hnlwp, fresh_threads, List.length_map, Int.toNat_natCast]

theorem fresh_dfx : (m.fresh arch).dfx = m.process.time := m.process.decoded_dfx fun _ => rfl

theorem fresh_delta (v : Dfx) : (m.fresh arch).delta v = 0 := rfl

theorem fresh_thread_delta : ∀ t ∈ (m.fresh arch).threads, ∀ v, t.delta v = 0 := by
  intro t ht v
  obtain ⟨t, -, rfl⟩ := List.mem_map.1 ht
  rfl

end Machine

/-! ### Their files -/

/-- A table whose row of a vCPU shows its counters. -/
def ShowsThread (rows : List (TableRow arch)) (t : Thread) : Prop :=
  ∃ row, (rows.take maxVcpuNum).find? (fun row => row.pid = t.pid) = some row ∧
    Held { Task.zero with dfx := t.counters, stMax := t.stMax } (vcpuStatStab arch).tail
      row.cells.tail

/-- A `vcpu_stat` file with a row for every vCPU of the machines. -/
def ShowsTable (arch : Arch) (ms : List Machine) (s : Text) : Prop :=
  ∃ rows : List (TableRow arch), s = tableText rows ∧
    ∀ m ∈ ms, ∀ t ∈ m.threads, t.IsVcpu → ShowsThread rows t

/-- A cgroup file that has the mark of qemu, on its first line with it, in front of the id. -/
def ShowsId (id : ℕ) (s : Text) : Prop :=
  ∃ before line after rest, s = (before ++ line :: after).flatMap (· ++ ['\n']) ∧
    (∀ line' ∈ before ++ line :: after,
      '\n' ∉ line' ∧ nul ∉ line' ∧ line'.length < bufSize - 2) ∧
    (∀ line' ∈ before, markedText line' = none) ∧ markedText line = some (decimal id ++ rest) ∧
    ∀ c ∈ rest.head?, c.isDigit = false

/-- The pid file of a machine, and what is found for it. -/
structure ShowsMachine (m : Machine) (e : Dirent × Sys) : Prop where
  dirent : e.1 = ⟨m.name ++ ".pid".toList, .reg⟩
  pidFile : ∃ rest, e.2.file (varRunQemuPath ++ '/' :: (m.name ++ ".pid".toList)) =
    some (decimal m.pid ++ rest) ∧ ∀ c ∈ rest.head?, c.isDigit = false
  cgroup : ∃ s, e.2.file (cgroupPath m.pid) = some s ∧ ShowsId m.id s
  stat : e.2.file (procStatPath m.pid) = some m.process.text
  tasks : ∃ tasks, e.2.taskDir (taskPath m.pid) = some tasks ∧
    tasks.filter isTask = m.threads.map fun t => ⟨decimal t.pid, .dir⟩
  threads : ∀ t ∈ m.threads, e.2.file (taskStatPath m.pid t.pid) = some t.stat.text
  mallocDomains : e.2.mallocDomains = true
  mallocThreads : e.2.mallocThreads = true

/-- What a refresh finds on a host with these machines. -/
structure ShowsHost (arch : Arch) (ms : List Machine) (env : Env) : Prop where
  table : ∃ s, env.vcpuStat = some s ∧ ShowsTable arch ms s
  listing : ∃ entries, env.qemuDir = some entries ∧
    List.Forall₂ ShowsMachine ms (entries.filter isPidFile)

/-! ### One file -/

/-- The id is read back. -/
theorem ShowsId.getIdFromCgroup {id : ℕ} {s : Text} (h : ShowsId id s) (hid : id < 2 ^ 31)
    {pid : ℤ} (hfile : sys.file (cgroupPath pid) = some s) : getIdFromCgroup sys pid = id := by
  obtain ⟨before, line, after, rest, rfl, hlines, hbefore, hline, hrest⟩ := h
  have hmarked (line' : Text) (hmem : line' ∈ before ++ line :: after) :
      markedText (line' ++ ['\n']) = (markedText line').map (· ++ ['\n']) :=
    markedText_newline (hlines line' hmem).2.1
  have hchunks : chunks (bufSize - 2) ((before ++ line :: after).flatMap (· ++ ['\n'])) =
      (before ++ line :: after).map (· ++ ['\n']) :=
    chunks_lines _ fun line' hmem => ⟨(hlines line' hmem).1, (hlines line' hmem).2.2⟩
  have hfirst : firstMarked ((before ++ line :: after).flatMap (· ++ ['\n'])) =
      some (decimal id ++ (rest ++ ['\n'])) := by
    rw [firstMarked, hchunks, List.map_append, List.findSome?_append, List.map_cons]
    have hnone : (before.map (· ++ ['\n'])).findSome? markedText = none := by
      rw [List.findSome?_eq_none_iff]
      intro buf hbuf
      obtain ⟨line', hline', rfl⟩ := List.mem_map.1 hbuf
      rw [hmarked line' (List.mem_append_left _ hline'), hbefore line' hline', Option.map_none]
    rw [hnone, Option.none_or, List.findSome?_cons, hmarked line (by simp), hline]
    simp only [Option.map_some, List.append_assoc]
  rw [getIdFromCgroup_eq hfile, hfirst, Option.elim_some]
  refine atoi_decimal hid fun c hc => ?_
  cases rest with
  | nil =>
      cases hc
      rfl
  | cons d rest => exact hrest c hc

/-- What a read buffer holds behind a number, cut where it ends, starts with no digit either. -/
theorem not_isDigit_behind {rest : Text} (hrest : ∀ c ∈ rest.head?, c.isDigit = false) (k : ℕ)
    (stale : Text) : ∀ c ∈ (cstr (rest.take k ++ nul :: stale)).head?, c.isDigit = false := by
  intro c hc
  have hhead := head?_of_cstr hc
  rcases rest with - | ⟨d, rest⟩
  · rw [List.take_nil] at hhead
    cases hhead
    rfl
  · cases k with
    | zero =>
        cases hhead
        rfl
    | succ k =>
        cases hhead
        exact hrest _ rfl

/-- The pid is read back, whatever stands behind it. -/
theorem readFile_pid {p : ℕ} (hp : p < 2 ^ 31) {rest : Text}
    (hrest : ∀ c ∈ rest.head?, c.isDigit = false) (stale : Text) :
    0 ≤ (readFile (some (decimal p ++ rest)) pidStringMax stale).1 ∧
      readPid (cstr (readFile (some (decimal p ++ rest)) pidStringMax stale).2) = p := by
  have hlength := decimal_length hp
  have htake : (decimal p ++ rest).take (pidStringMax - 1) =
      decimal p ++ rest.take (pidStringMax - 1 - (decimal p).length) := by
    rw [List.take_append, List.take_of_length_le (hlength.trans (by decide))]
  have hempty : (decimal p ++ rest.take (pidStringMax - 1 - (decimal p).length)).isEmpty =
      false := by
    have hne := decimal_isEmpty p
    rw [List.isEmpty_eq_false_iff] at hne ⊢
    exact List.append_ne_nil_of_left_ne_nil hne _
  simp only [readFile, htake, hempty, Bool.false_eq_true, if_false]
  refine ⟨Int.natCast_nonneg _, ?_⟩
  rw [List.append_assoc, cstr_append_of_notMem (notMem_decimal rfl)]
  have hscan := strtoul_decimal (by omega : p < 2 ^ 64) (not_isDigit_behind hrest
    (pidStringMax - 1 - (decimal p).length)
    (stale.drop ((decimal p ++ rest.take (pidStringMax - 1 - (decimal p).length)).length + 1)))
  rw [readPid_of_strtoul hscan, toInt32_of_lt hp]

/-- A stat line is read back with the name that has no parenthesis. -/
theorem getProcStat_plain {f : StatFields} {t : Task} (hfile : sys.file (statPath t) = some f.text)
    (hplain : '(' ∉ f.comm) : getProcStat sys t = .ok (1, f.decoded t) := by
  obtain ⟨before, name, hname, -, hread⟩ := getProcStat_text hfile
  cases before with
  | nil =>
      rw [hread, ← (List.cons.inj hname).2]
      rfl
  | cons c before =>
      refine absurd ?_ hplain
      rw [(List.cons.inj hname).2]
      exact List.mem_append_right _ List.mem_cons_self

/-! ### The threads -/

variable {rows : List (TableRow arch)} {t : Thread}

/-- What a vCPU is given of the table. -/
theorem getVcpuStat_shown (h : ShowsThread rows t) (x : Task) (hpid : x.pid = t.pid) :
    getVcpuStat arch x (getVcpuList arch (some (tableText rows)) l).2 = (1, { x with
      dfx := fun v => if v ∈ vcpuCounters arch then t.counters v else x.dfx v
      stMax := t.stMax }) := by
  obtain ⟨row, hrow, hheld⟩ := h
  have hrel := row_held rows l t.pid
  simp only [Nat.cast_inj, hrow] at hrel
  obtain ⟨vcpu, hvcpu, hcells⟩ := exists_of_rel_some hrel
  rw [← hpid] at hvcpu
  obtain ⟨y, hy, hcopied⟩ := copied_of_row _ hvcpu hcells
  -- both hold the numbers of the row
  have hload : ∀ slot ∈ (vcpuStatStab arch).tail.filterMap FileItem.getFun,
      slot.load y = slot.load { Task.zero with dfx := t.counters, stMax := t.stMax } := by
    intro slot hslot
    obtain ⟨item, hitem, hget⟩ := List.mem_filterMap.1 hslot
    obtain ⟨k, hk, rfl⟩ := List.mem_iff_getElem.1 hitem
    have hleft := List.forall₂_iff_get.1 hcopied.counters
    have hright := List.forall₂_iff_get.1 hheld
    have hk' : k < row.cells.tail.length := hleft.1 ▸ hk
    obtain ⟨left, hgetLeft, hloadLeft⟩ := hleft.2 k hk hk'
    obtain ⟨right, hgetRight, hloadRight⟩ := hright.2 k hk hk'
    obtain rfl : slot = left := Option.some.inj (hget.symm.trans hgetLeft)
    obtain rfl : slot = right := Option.some.inj (hget.symm.trans hgetRight)
    exact hloadLeft.trans hloadRight.symm
  have hdfx : y.dfx = fun v => if v ∈ vcpuCounters arch then t.counters v else x.dfx v := by
    funext v
    split_ifs with hv
    · have := hload (.dfx v) (mem_vcpuCounters_iff.1 hv)
      exact UInt64.toNat_inj.1 (Int.ofNat_inj.1 this)
    · have hslots : slots (vcpuStatStab arch) =
          .pid :: (vcpuStatStab arch).tail.filterMap FileItem.getFun := rfl
      refine hcopied.others v ?_
      rw [mem_vcpuCounters_iff] at hv
      rw [hslots, List.mem_cons, not_or]
      exact ⟨by simp, hv⟩
  have hmax : y.stMax = t.stMax :=
    UInt64.toNat_inj.1 (Int.ofNat_inj.1 (hload .stMax (by cases arch <;> decide)))
  rw [hy, hcopied.frame, hdfx, hmax]

/-- **The record of a thread is read back** from its stat file and its row. -/
theorem readThread_shown (hfile : sys.file (taskStatPath dom.pid t.pid) = some t.stat.text)
    (hrow : t.IsVcpu → ShowsThread rows t) :
    readThread arch sys (getVcpuList arch (some (tableText rows)) l).2 dom
      ⟨decimal t.pid, .dir⟩ = some (t.record arch fun _ => 0) := by
  have hpid : readPid (cstr (decimal t.pid)) = t.pid := (readPid_decimal t.pid_bounds.2 []).2
  have htask : isTask ⟨decimal t.pid, .dir⟩ = true := by
    have hpos := t.pid_bounds.1
    rw [isTask_iff]
    refine ⟨decimal_ne_dot _, rfl, ?_⟩
    rw [hpid]
    omega
  have hstat : getProcStat sys (taskSlot dom.pid t.pid) =
      .ok (1, t.stat.decoded (taskSlot dom.pid t.pid)) := getProcStat_plain hfile t.plain
  have htimes := t.stat.decoded_dfx (t := taskSlot dom.pid t.pid) fun _ => rfl
  rw [readThread, if_pos htask, hpid, hstat]
  dsimp only
  rw [if_neg (by decide), Option.some.injEq, countThread]
  by_cases hcpu : t.IsVcpu
  · have hname : (strstr "CPU".toList (t.stat.decoded (taskSlot dom.pid t.pid)).vmname).isSome :=
      strstr_isSome_iff.2 hcpu
    have hcounter : t.counter arch = fun v => if v ∈ vcpuCounters arch then t.counters v
        else (t.stat.decoded (taskSlot dom.pid t.pid)).dfx v := by
      funext v
      simp only [Thread.counter, hcpu, true_and, htimes]
    rw [if_pos hname, getVcpuStat_shown (hrow hcpu) _ rfl, Thread.record, hcounter, if_pos hcpu,
      if_pos hcpu]
    rfl
  · have hname : ¬ (strstr "CPU".toList (t.stat.decoded (taskSlot dom.pid t.pid)).vmname).isSome :=
      fun h => hcpu (strstr_isSome_iff.1 h)
    have hcounter : t.counter arch = (t.stat.decoded (taskSlot dom.pid t.pid)).dfx := by
      funext v
      simp only [Thread.counter, hcpu, false_and, if_false, htimes]
    rw [if_neg hname, Thread.record, hcounter, if_neg hcpu, if_neg hcpu]
    rfl

/-! ### A machine -/

variable {m : Machine} {e : Dirent × Sys}

/-- A machine passes the checks, unless another one is watched. -/
theorem checkedEntry_shown (h : ShowsMachine m e) : checkedEntry monitorId e.2 e.1.name =
    if 0 ≤ monitorId ∧ (m.id : ℤ) ≠ monitorId then none
    else some { Domain.zero with pid := m.pid, domainId := m.id } := by
  obtain ⟨rest, hpid, hrest⟩ := h.pidFile
  obtain ⟨s, hfile, hshows⟩ := h.cgroup
  obtain ⟨hpos, hlt⟩ := m.pid_bounds
  obtain ⟨hread, hvalue⟩ := readFile_pid hlt hrest
    (e.2.stale (varRunQemuPath ++ '/' :: (m.name ++ ".pid".toList)))
  have hid := hshows.getIdFromCgroup m.id_lt hfile
  have hname : e.1.name = m.name ++ ".pid".toList := by rw [h.dirent]
  simp only [checkedEntry, hname, hpid, hvalue, hid]
  have hrejected : ((readFile (some (decimal m.pid ++ rest)) pidStringMax
      (e.2.stale (varRunQemuPath ++ '/' :: (m.name ++ ".pid".toList)))).1 < 0 ∨ (m.pid : ℤ) < 1 ∨
        (m.id : ℤ) < 0 ∨ 0 ≤ monitorId ∧ (m.id : ℤ) ≠ monitorId) ↔
      0 ≤ monitorId ∧ (m.id : ℤ) ≠ monitorId := by
    rw [or_iff_right (Int.not_lt.2 hread), or_iff_right (by omega), or_iff_right (by omega)]
  simp only [hrejected]

/-- The process of a machine is read back: its name is overwritten later. -/
theorem readProcess_shown (h : ShowsMachine m e)
    (hwatched : ¬ (0 ≤ monitorId ∧ (m.id : ℤ) ≠ monitorId)) :
    ∃ name, readProcess monitorId e.2 e.1.name = some
      { m.process.decoded Task.zero with
        domainId := m.id, vmname := name, pid := m.pid, threads := [] } := by
  have hfile : e.2.file (statPath
      { ({ Domain.zero with pid := m.pid, domainId := m.id } : Domain).toTask with
        type := .isDomain }) = some m.process.text := h.stat
  obtain ⟨before, name, -, -, hstat⟩ := getProcStat_text hfile
  refine ⟨name, ?_⟩
  rw [readProcess, checkedEntry_shown h, if_neg hwatched, Option.bind_some, hstat]
  rfl

/-- Its task directory lists its threads, among what is no thread. -/
theorem readThreads_shown (h : ShowsMachine m e) (hpid : dom.pid = m.pid)
    (hrows : ∀ t ∈ m.threads, t.IsVcpu → ShowsThread rows t) {tasks : List Dirent}
    (htasks : tasks.filter isTask = m.threads.map fun t => ⟨decimal t.pid, .dir⟩) :
    tasks.filterMap (readThread arch e.2 (getVcpuList arch (some (tableText rows)) l).2 dom) =
      m.threads.map fun t => t.record arch fun _ => 0 := by
  have honly : readThread arch e.2 (getVcpuList arch (some (tableText rows)) l).2 dom =
      fun dirt => if isTask dirt = true then
        readThread arch e.2 (getVcpuList arch (some (tableText rows)) l).2 dom dirt else none := by
    funext dirt
    split_ifs with htask
    · rfl
    · rw [readThread, if_neg htask]
  rw [honly, ← List.filterMap_filter, htasks, List.filterMap_map, ← List.filterMap_eq_map]
  refine List.filterMap_congr fun t ht => readThread_shown ?_ (hrows t ht)
  rw [hpid]
  exact h.threads t ht

/-- **A machine is read back** from its files: one record with all its threads. -/
theorem readEntry_shown (h : ShowsMachine m e)
    (hrows : ∀ t ∈ m.threads, t.IsVcpu → ShowsThread rows t)
    (hwatched : ¬ (0 ≤ monitorId ∧ (m.id : ℤ) ≠ monitorId)) :
    readEntry arch monitorId (getVcpuList arch (some (tableText rows)) l).2 e =
      some (m.fresh arch) := by
  obtain ⟨name, hprocess⟩ := readProcess_shown h hwatched
  obtain ⟨tasks, hdir, htasks⟩ := h.tasks
  generalize hdom : ({ m.process.decoded Task.zero with
    domainId := m.id, vmname := name, pid := m.pid, threads := [] } : Domain) = dom at hprocess
  have hpid : dom.pid = m.pid := by rw [← hdom]
  have hnlwp : dom.nlwp = m.threads.length := by
    rw [← hdom]
    exact m.counted
  have hread := readThreads_shown (l := l) h hpid hrows htasks
  have hlists : ListsThreads e.2 dom tasks := by
    refine ⟨?_, fun dirt hdirt htask => ?_⟩
    · rw [← length_readThreads arch _ (getVcpuList arch (some (tableText rows)) l).2, hread,
        List.length_map, hnlwp]
    · have hmem := List.mem_filter.2 ⟨hdirt, htask⟩
      rw [htasks] at hmem
      obtain ⟨t, ht, rfl⟩ := List.mem_map.1 hmem
      refine ⟨_, getProcStat_plain ?_ t.plain⟩
      rw [(readPid_decimal t.pid_bounds.2 []).2, hpid]
      exact h.threads t ht
  have hpos : 0 < dom.nlwp := by
    have := List.length_pos_iff.2 m.threads_ne
    omega
  rw [← hpid] at hdir
  have hchild : getChildPid arch e.2 (getVcpuList arch (some (tableText rows)) l).2 dom = _ :=
    getChildPid_listed hdir hlists h.mallocThreads hpos
  rw [hread] at hchild
  refine readEntry_eq_some.2 ⟨dom, _, _, hprocess, hchild, hpos.le, ?_, ?_⟩
  · have hfits := m.name_fits
    rw [h.dirent, List.length_append]
    exact hfits
  · have hname : e.1.name.take (e.1.name.length - ".pid".toList.length) = m.name := by
      rw [h.dirent, List.length_append, Nat.add_sub_cancel, List.take_left]
    have hvcpus : (m.threads.map fun t => t.record arch fun _ => 0).countP
        (fun t => t.type = .isVcpu) = m.threads.countP fun t => t.IsVcpu := by
      rw [List.countP_map]
      refine List.countP_congr fun t _ => ?_
      by_cases hcpu : t.IsVcpu <;> simp [Thread.record, hcpu]
    have hnone : dom.smpVcpus = 0 := by rw [← hdom]; rfl
    rw [hname, withThreads, hvcpus, hnone, zero_add, ← hdom]
    rfl

/-! ### The host -/

/-- The machines that `-p` leaves. -/
def watched (monitorId : ℤ) (ms : List Machine) : List Machine :=
  ms.filter fun m => ¬ (0 ≤ monitorId ∧ (m.id : ℤ) ≠ monitorId)

variable {ms : List Machine} {env : Env} {entries : List (Dirent × Sys)}

/-- A pid file of a machine makes its record, or none where another machine is watched. -/
theorem filterMap_shown (h : List.Forall₂ ShowsMachine ms entries)
    (hrows : ∀ m ∈ ms, ∀ t ∈ m.threads, t.IsVcpu → ShowsThread rows t) :
    entries.filterMap (readEntry arch monitorId (getVcpuList arch (some (tableText rows)) l).2) =
      (watched monitorId ms).map fun m => m.fresh arch := by
  induction h with
  | nil => rfl
  | @cons m e ms entries he _ ih =>
      rw [List.forall_mem_cons] at hrows
      have hrest := ih hrows.2
      by_cases hother : 0 ≤ monitorId ∧ (m.id : ℤ) ≠ monitorId
      · have hnone : readEntry arch monitorId (getVcpuList arch (some (tableText rows)) l).2 e =
            none := by
          obtain ⟨d, hset⟩ := setDomain_of_none arch
            (getVcpuList arch (some (tableText rows)) l).2
            ((checkedEntry_shown he).trans (if_pos hother))
          rw [readEntry, hset]
          rfl
        rw [List.filterMap_cons_none hnone, hrest, watched, watched,
          List.filter_cons_of_neg (by rwa [decide_eq_true_iff, not_not])]
      · rw [List.filterMap_cons_some (readEntry_shown he hrows.1 hother), hrest, watched, watched,
          List.filter_cons_of_pos (by exact decide_eq_true hother), List.map_cons]

/-- **A refresh finds the machines that are watched**, whatever the table held before. -/
theorem ShowsHost.snapshot (h : ShowsHost arch ms env) (monitorId : ℤ) (l : VcpuList) :
    snapshot arch monitorId env (getVcpuList arch env.vcpuStat l).2 =
      (watched monitorId ms).map fun m => m.fresh arch := by
  obtain ⟨s, hs, rows, rfl, hrows⟩ := h.table
  obtain ⟨entries, hdir, hentries⟩ := h.listing
  have hmalloc : (entries.filter isPidFile).takeWhile (fun e => e.2.mallocDomains) =
      entries.filter isPidFile := by
    rw [List.takeWhile_eq_self_iff]
    intro e he
    obtain ⟨m, -, hm⟩ := (UpToOrder.of_forall₂ hentries).exists_left he
    exact hm.mallocDomains
  rw [Vmtop.snapshot, hs, hdir]
  dsimp only
  rw [scanned, hmalloc]
  exact filterMap_shown hentries hrows

/-- Nor is it a fault. -/
theorem ShowsHost.refreshDomains_ok (h : ShowsHost arch ms env) (monitorId : ℤ) (s : Lists) :
    ∃ x, refreshDomains arch monitorId env s = .ok x := by
  obtain ⟨text, hs, rows, rfl, hrows⟩ := h.table
  obtain ⟨entries, hdir, hentries⟩ := h.listing
  have hset : ∀ e ∈ entries, isPidFile e = true → ∃ p, setDomain arch monitorId e.2
      (getVcpuList arch (some (tableText rows)) s.vcpuList).2 e.1.name Domain.zero = .ok p := by
    intro e he hpid
    obtain ⟨m, hm, hshown⟩ :=
      (UpToOrder.of_forall₂ hentries).exists_left (List.mem_filter.2 ⟨he, hpid⟩)
    by_cases hother : 0 ≤ monitorId ∧ (m.id : ℤ) ≠ monitorId
    · obtain ⟨d, hd⟩ := setDomain_of_none arch
        (getVcpuList arch (some (tableText rows)) s.vcpuList).2
        ((checkedEntry_shown hshown).trans (if_pos hother))
      exact ⟨_, hd⟩
    · have hread := readEntry_shown (l := s.vcpuList) hshown (hrows m hm) hother
      rw [readEntry] at hread
      cases hd : setDomain arch monitorId e.2
        (getVcpuList arch (some (tableText rows)) s.vcpuList).2 e.1.name Domain.zero with
      | ok p => exact ⟨p, rfl⟩
      | error fault =>
          rw [hd] at hread
          cases hread
  simp only [refreshDomains, hs, hdir]
  split_ifs
  · exact ⟨_, rfl⟩
  · obtain ⟨q, hq⟩ := qemuLoop_ok hset (initDomains s.now)
    simp only [getQemuId, hq]
    exact ⟨_, rfl⟩

end Vmtop
