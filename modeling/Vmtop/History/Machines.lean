/-
# What vmtop reports on the machines of a host

The snapshots of a run hold what the files of the host showed, and what is reported on it.
Told in terms of the machines (`reported`), a report is made of the history of the host alone:
by the three-way rule from the times and the counters that the machine, or the thread of it, of
the same id and pid had in the frames before.  `refresh_domains` finds these among its records,
whose reports are all that it keeps of what came before the last frame, and after every run the
records are those that the history makes (`runAll_reported`).
-/

import Vmtop.History.Past
import Vmtop.Refresh.Machines
import Vmtop.Refresh.Waits

namespace Vmtop

open CText CArray Sampled Runs Reordered

variable {arch : Arch} {c : Config} {ms : List Machine} {past : List (List Machine)}
  {m m₀ : Machine} {t t₀ : Thread} {pre : DomainList} {d old : Domain}

/-! ### What a history makes -/

/-- The machine of a host with an id. -/
def machine? (id : ℕ) (ms : List Machine) : Option Machine := ms.find? fun m => m.id = id

/-- The thread of a machine with a pid. -/
def thread? (pid : ℕ) (m : Machine) : Option Thread := m.threads.find? fun t => t.pid = pid

theorem machine?_id {id : ℕ} (h : machine? id ms = some m) : m.id = id := by
  simpa using List.find?_some h

theorem thread?_pid {pid : ℕ} (h : thread? pid m = some t) : t.pid = pid := by
  simpa using List.find?_some h

/-- What is reported on a thread: nothing on a counter that is not compared. -/
def threadReport (arch : Arch) (past : List (List Machine)) (m : Machine) (t : Thread)
    (v : Dfx) : U64 :=
  if v = .utime ∨ v = .stime ∨ t.IsVcpu ∧ v ∈ vcpuCounters arch then
    report (fun ms => ((machine? m.id ms).bind (thread? t.pid)).map fun t => t.counter arch v) past
      (t.counter arch v)
  else 0

/-- What is reported on a machine: on its times, and, for a counter of the table, what is
reported on its vCPUs together. -/
def machineReport (arch : Arch) (past : List (List Machine)) (m : Machine) (v : Dfx) : U64 :=
  if v ∈ vcpuCounters arch then
    ((m.threads.filter fun t => t.IsVcpu).map fun t => threadReport arch past m t v).sum
  else if v = .utime ∨ v = .stime then
    report (fun ms => (machine? m.id ms).map fun m => m.process.time v) past (m.process.time v)
  else 0

/-- The last frame showed the thread. -/
def Known (past : List (List Machine)) (m : Machine) (t : Thread) : Prop :=
  (past.head?.bind fun ms => (machine? m.id ms).bind (thread? t.pid)).isSome

instance : Decidable (Known past m t) := by
  unfold Known
  infer_instance

/-- The delay of the vCPUs of a machine that the last frame showed. -/
def machineWait (past : List (List Machine)) (m : Machine) : U64 :=
  ((m.threads.filter fun t => t.IsVcpu ∧ Known past m t).map fun t => t.stMax).sum

/-- The record of a machine that has a history. -/
def Machine.reported (arch : Arch) (past : List (List Machine)) (m : Machine) : Domain :=
  { m.record arch (threadReport arch past m) (machineReport arch past m) with
    stMax := machineWait past m }

/-- The records that a history, the last frame of it first, leaves. -/
def reported (arch : Arch) : List (List Machine) → List Domain
  | [] => []
  | ms :: past => ms.map (Machine.reported arch past)

/-! ### Old records -/

theorem Machine.reported_lwps (h : SameSample (m.reported arch past) d) :
    d.lwps = m.threads.map fun t => t.record arch (threadReport arch past m t) := by
  have hthreads : d.threads =
      m.threads.map fun t => t.record arch (threadReport arch past m t) := by
    rw [h]
    rfl
  have hnlwp : d.nlwp = m.threads.length := by
    rw [h]
    exact m.counted
  rw [Domain.lwps, hnlwp, hthreads, Int.toNat_natCast, List.take_of_length_le]
  rw [List.length_map]

/-- The records of a history have the ids of its machines. -/
theorem getDomainFromId_reported (h : SameSamples (reported arch (ms :: past)) pre.domains)
    (id : ℕ) : (machine? id ms).Rel (fun m d => SameSample (m.reported arch past) d)
      (getDomainFromId id pre) := by
  rw [reported, SameSamples, List.forall₂_map_left_iff] at h
  refine rel_find? h fun m d hd => ?_
  have hid : d.domainId = m.id := by
    rw [hd]
    rfl
  rw [hid]
  exact decide_eq_decide.2 Nat.cast_inj.symm

/-- So do their threads have the pids. -/
theorem getThreadFromPid_reported (h : SameSample (m.reported arch past) d) (pid : ℕ) :
    getThreadFromPid pid d =
      (thread? pid m).map fun t => t.record arch (threadReport arch past m t) := by
  rw [getThreadFromPid, Machine.reported_lwps h, List.find?_map, thread?]
  congr 2
  funext t
  exact decide_eq_decide.2 Nat.cast_inj

/-! ### One refresh -/

/-- A thread that is not compared on a counter has none of it. -/
theorem Thread.counter_eq_zero {v : Dfx}
    (h : ¬ (v = .utime ∨ v = .stime ∨ t.IsVcpu ∧ v ∈ vcpuCounters arch)) :
    t.counter arch v = 0 := by
  simp only [not_or] at h
  rw [counter, if_neg h.2.2, StatFields.time, if_neg h.2.1, if_neg h.1]

/-- **The last record of a thread stands for its history.** -/
theorem threeWay_reported (hid : m₀.id = m.id) (hpid : t₀.pid = t.pid) (v : Dfx) (w : U64) :
    threeWay (some (t₀.counter arch v, threadReport arch past m₀ t₀ v)) w =
      threeWay (some (t₀.counter arch v, report
        (fun ms => ((machine? m.id ms).bind (thread? t.pid)).map fun t => t.counter arch v) past
        (t₀.counter arch v))) w := by
  rw [threadReport, hid, hpid]
  split_ifs with hv
  · rfl
  · -- it was no vCPU, and now it may be one, that starts from nothing
    refine threeWay_congr rfl ?_
    rintro _ ⟨⟩
    rw [Thread.counter_eq_zero hv]
    exact UInt64.zero_le

/-- A thread of the new snapshot, compared with an old record. -/
theorem refreshThread_reported (hold : SameSample (m₀.reported arch past) old)
    (hmachine : machine? m.id ms = some m₀) (t : Thread) :
    refreshThread arch old (t.record arch fun _ => 0) =
      t.record arch (threadReport arch (ms :: past) m t) := by
  have hpid : (t.record arch fun _ => 0).pid = t.pid := rfl
  have hdfx : (t.record arch fun _ => 0).dfx = t.counter arch := rfl
  have htype (v : Dfx) : Compared arch (t.record arch fun _ => 0).type v ↔
      v = .utime ∨ v = .stime ∨ t.IsVcpu ∧ v ∈ vcpuCounters arch := by
    unfold Compared
    by_cases hcpu : t.IsVcpu <;> simp [Thread.record, hcpu]
  have hdelta : (refreshThread arch old (t.record arch fun _ => 0)).delta =
      threadReport arch (ms :: past) m t := by
    funext v
    have hrule := @refreshThread_delta arch old (t.record arch fun _ => 0) (fun _ => rfl) v
    rw [htype, hpid, hdfx, getThreadFromPid_reported hold] at hrule
    rw [threadReport]
    split_ifs with hv
    · rw [hrule.1 hv, report, hmachine, Option.bind_some, Option.map_map, Option.map_map]
      cases hthread : thread? t.pid m₀ with
      | none => rfl
      | some t₀ =>
          exact threeWay_reported (machine?_id hmachine) (thread?_pid hthread) v _
    · exact hrule.2 hv
  rw [refreshThread_frame, hdelta]
  rfl

/-- The loop over the threads adds up what the threads show that have an old record. -/
theorem threadsLoop_stMax_known (oldDom : Domain) (ts : List Task) (dom : Task) :
    (threadsLoop arch oldDom ts dom).1.stMax =
      dom.stMax + vcpuWait (ts.filter fun t => (getThreadFromPid t.pid oldDom).isSome) := by
  rw [threadsLoop_collect]
  induction ts generalizing dom with
  | nil => exact (add_zero _).symm
  | cons t rest ih =>
      rw [List.foldl_cons, ih, collect_stMax]
      by_cases hsome : (getThreadFromPid t.pid oldDom).isSome = true
      · rw [if_pos hsome, List.filter_cons, if_pos hsome, vcpuWait_cons, add_assoc]
      · rw [if_neg hsome, List.filter_cons, if_neg hsome, add_zero]

/-- What the vCPUs of a machine report together. -/
theorem vcpuSum_record (ts : List Thread) (deltas : Thread → Dfx → U64) (v : Dfx) :
    vcpuSum (ts.map fun t => t.record arch (deltas t)) v =
      ((ts.filter fun t => t.IsVcpu).map fun t => deltas t v).sum := by
  rw [vcpuSum, List.filter_map, List.map_map]
  congr 2
  refine List.filter_congr fun t _ => ?_
  by_cases hcpu : t.IsVcpu <;> simp [Thread.record, hcpu]

/-- And what they show of their delay. -/
theorem vcpuWait_record (ts : List Thread) (deltas : Thread → Dfx → U64) :
    vcpuWait (ts.map fun t => t.record arch (deltas t)) =
      ((ts.filter fun t => t.IsVcpu).map fun t => t.stMax).sum := by
  rw [vcpuWait, List.filter_map, List.map_map]
  have hvcpus : (ts.filter ((fun t : Task => decide (t.type = .isVcpu)) ∘
      fun t => t.record arch (deltas t))) = ts.filter fun t => t.IsVcpu := by
    refine List.filter_congr fun t _ => ?_
    by_cases hcpu : t.IsVcpu <;> simp [Thread.record, hcpu]
  rw [hvcpus]
  congr 1
  refine List.map_congr_left fun t ht => ?_
  have hcpu : t.IsVcpu := by simpa using (List.mem_filter.1 ht).2
  exact if_pos hcpu

/-- A machine that the last frame did not show has no history. -/
theorem Machine.reported_of_none (h : past.head?.bind (machine? m.id) = none) :
    m.reported arch past = m.fresh arch := by
  have hnone {β : Type} (f : Machine → Option β) :
      past.head?.bind (fun ms => (machine? m.id ms).bind f) = none := by
    rw [← Option.bind_assoc, h, Option.bind_none]
  have hthreads : threadReport arch past m = fun _ _ => 0 := by
    funext t v
    rw [threadReport]
    split_ifs
    · refine report_of_none ?_ _
      simp only [Option.map_bind]
      exact hnone _
    · rfl
  have hmachine : machineReport arch past m = fun _ => 0 := by
    funext v
    rw [machineReport, hthreads]
    split_ifs
    · simp
    · refine report_of_none ?_ _
      simp only [Option.map_eq_bind]
      exact hnone _
    · rfl
  have hwait : machineWait past m = 0 := by
    have hknown (t : Thread) : ¬ Known past m t := by
      rw [Known, hnone]
      exact Bool.false_ne_true
    rw [machineWait, List.filter_eq_nil_iff.2 fun t _ => by simp [hknown t]]
    rfl
  rw [reported, hthreads, hmachine, hwait]
  rfl

/-- What the loop over the threads collects for a machine, compared with the record of the last
frame. -/
theorem collected_delta (hsame : SameSample (m₀.reported arch past) old)
    (hmachine : machine? m.id ms = some m₀) :
    (threadsLoop arch old (m.fresh arch).threads
        (refreshDeltaStat (m.fresh arch).toTask old.toTask)).1.delta =
      machineReport arch (ms :: past) m := by
  have hthreads : (m.fresh arch).threads.map (refreshThread arch old) =
      m.threads.map fun t => t.record arch (threadReport arch (ms :: past) m t) := by
    rw [Machine.fresh_threads, List.map_map]
    exact List.map_congr_left fun t _ => refreshThread_reported hsame hmachine t
  funext v
  have htime : old.dfx v = m₀.process.time v := by
    have hdfx : old.dfx = (m₀.fresh arch).dfx := by rw [hsame]; rfl
    rw [hdfx, Machine.fresh_dfx]
  have hreport : old.delta v = machineReport arch past m₀ v := by
    rw [hsame]
    rfl
  rw [threadsLoop_delta old _ Machine.fresh_thread_delta, refreshDeltaStat_delta, hthreads,
    vcpuSum_record, machineReport]
  by_cases hv : v ∈ vcpuCounters arch
  · rw [if_pos hv, if_pos hv, if_neg (not_or.2 (ne_stat_of_mem_vcpuCounters hv)),
      Machine.fresh_delta, zero_add]
  · rw [if_neg hv, if_neg hv, Machine.fresh_dfx, htime, hreport, Machine.fresh_delta,
      machineReport, if_neg hv, machine?_id hmachine]
    split_ifs
    · rw [report, hmachine]
      rfl
    · rfl

theorem collected_stMax (hsame : SameSample (m₀.reported arch past) old)
    (hmachine : machine? m.id ms = some m₀) :
    (threadsLoop arch old (m.fresh arch).threads
        (refreshDeltaStat (m.fresh arch).toTask old.toTask)).1.stMax =
      machineWait (ms :: past) m := by
  have hzero : (refreshDeltaStat (m.fresh arch).toTask old.toTask).stMax = 0 := by
    rw [refreshDeltaStat_frame]
    rfl
  rw [threadsLoop_stMax_known, hzero, zero_add, Machine.fresh_threads, List.filter_map,
    vcpuWait_record, List.filter_filter, machineWait]
  congr 2
  refine List.filter_congr fun t _ => ?_
  have hpid : (t.record arch fun _ => 0).pid = t.pid := rfl
  have hsome : (getThreadFromPid (t.record arch fun _ => 0).pid old).isSome =
      (thread? t.pid m₀).isSome := by
    rw [hpid, getThreadFromPid_reported hsame, Option.isSome_map]
  have hknown : Known (ms :: past) m t ↔ (thread? t.pid m₀).isSome = true := by
    rw [Known, List.head?_cons, Option.bind_some, hmachine, Option.bind_some]
  rw [Function.comp, hsome, Bool.decide_and, decide_eq_decide.2 hknown, Bool.decide_coe]

/-- **A machine of the new snapshot** gets the record that its history makes. -/
theorem refreshDomain_reported (h : SameSamples (reported arch past) pre.domains) (m : Machine) :
    refreshDomain arch pre (m.fresh arch) = m.reported arch past := by
  cases past with
  | nil =>
      have hnone : getDomainFromId (m.fresh arch).domainId pre = none := by
        rw [getDomainFromId, List.forall₂_nil_left_iff.1 h]
        rfl
      rw [Machine.reported_of_none rfl, refreshDomain, hnone]
  | cons ms past =>
      have hrel := getDomainFromId_reported h m.id
      cases hmachine : machine? m.id ms with
      | none =>
          rw [hmachine] at hrel
          have hnone : getDomainFromId (m.fresh arch).domainId pre = none :=
            eq_none_of_rel_none hrel
          have hunknown : (ms :: past).head?.bind (machine? m.id) = none := hmachine
          rw [Machine.reported_of_none hunknown, refreshDomain, hnone]
      | some m₀ =>
          rw [hmachine] at hrel
          obtain ⟨old, hold, hsame⟩ := exists_of_rel_some hrel
          have hthreads : (m.fresh arch).threads.map (refreshThread arch old) =
              (m.reported arch (ms :: past)).threads := by
            rw [Machine.fresh_threads, List.map_map]
            exact List.map_congr_left fun t _ => refreshThread_reported hsame hmachine t
          rw [refreshDomain_of_some Machine.fresh_length hold, hthreads, threadsLoop_frame,
            collected_delta hsame hmachine, collected_stMax hsame hmachine, refreshDeltaStat_frame]
          rfl

/-! ### A run -/

/-- What a turn finds on a host with these machines: where it samples bandwidth, there is room
for the machines that are watched. -/
structure ShowsFrame (c : Config) (ms : List Machine) (env : FrameEnv) : Prop where
  host : ShowsHost c.arch ms env.refresh
  room : resctrlEnable c env = true → (watched c.monitorId ms).length ≤ maxVmTasksNum

variable {env : FrameEnv} {s : Lists}

/-- **One refresh**: it is no fault, and leaves what the longer history makes. -/
theorem refreshDomains_reported {env : Env} (h : ShowsHost arch ms env) (monitorId : ℤ)
    (hs : SameSamples (reported arch past) s.now.domains) :
    ∃ r s', refreshDomains arch monitorId env s = .ok (r, s') ∧
      s'.now.domains = reported arch (watched monitorId ms :: past) ∧
      s'.now.nodeNum = s.now.nodeNum := by
  obtain ⟨⟨r, s'⟩, hrefresh⟩ := h.refreshDomains_ok monitorId s
  have hrot := refreshDomains_rotated hrefresh
  refine ⟨r, s', hrefresh, ?_, hrot.nodeNum⟩
  rw [hrot.now, hrot.vcpuList, h.snapshot, List.map_map, reported]
  refine List.map_congr_left fun m _ => refreshDomain_reported ?_ m
  rwa [hrot.pre]

/-- **One frame**, up to the bandwidth that it may sample. -/
theorem sampleFrame_reported (h : ShowsFrame c ms env)
    (hs : SameSamples (reported c.arch past) s.now.domains) :
    ∃ s', sampleFrame c env s = .ok s' ∧
      SameSamples (reported c.arch (watched c.monitorId ms :: past)) s'.now.domains := by
  obtain ⟨r, mid, hrefresh, hmid, -⟩ := refreshDomains_reported h.host c.monitorId hs
  have hok : ∃ s', sampleFrame c env s = .ok s' := by
    unfold sampleFrame
    rw [hrefresh, ok_bind]
    dsimp only
    split_ifs with hon
    · have hends := refreshDomainsBandwidth_ends env.bandwidth mid.now
      cases hnow : refreshDomainsBandwidth env.bandwidth mid.now with
      | ok now => exact ⟨_, rfl⟩
      | error e =>
          rw [hnow] at hends
          have hnum : mid.now.num ≤ maxVmTasksNum := by
            rw [DomainList.num, hmid, reported, List.length_map]
            exact h.room hon
          exact absurd hends.2.1 (Nat.not_lt.2 hnum)
    · exact ⟨_, rfl⟩
  obtain ⟨s', hs'⟩ := hok
  obtain ⟨r', mid', hframed⟩ := sampleFrame_framed hs'
  have hsame : mid' = mid := by
    have hboth := hframed.refreshed
    rw [hrefresh] at hboth
    cases hboth
    rfl
  refine ⟨s', hs', ?_⟩
  rw [← hmid, ← hsame]
  exact hframed.sampled

/-- **vmtop reports what happens on the host.**  However many frames, and whatever machines come
and go between them: a run does not fault, and leaves one record for each machine that the last
frame showed and that is watched, in their order, with what was read of it, and with the reports
that the history of these machines makes. -/
theorem runAll_reported {hosts : List (List Machine)} {envs : List FrameEnv}
    (h : List.Forall₂ (ShowsFrame c) hosts envs) (rows : Arr maxVcpuNum Task) :
    ∃ s, runAll (sampleFrame c) envs (.start rows) = .ok s ∧
      SameSamples (reported c.arch (hosts.map (watched c.monitorId)).reverse) s.now.domains := by
  have hstep (past : List (List Machine)) (ms : List Machine) (env : FrameEnv) (s : Lists)
      (hshown : ∃ ms', watched c.monitorId ms' = ms ∧ ShowsFrame c ms' env)
      (hs : SameSamples (reported c.arch past) s.now.domains) : ∃ s', sampleFrame c env s = .ok s' ∧
        SameSamples (reported c.arch (ms :: past)) s'.now.domains := by
    obtain ⟨ms', rfl, hframe⟩ := hshown
    exact sampleFrame_reported hframe hs
  have hhosts : List.Forall₂ (fun ms env => ∃ ms', watched c.monitorId ms' = ms ∧
      ShowsFrame c ms' env) (hosts.map (watched c.monitorId)) envs := by
    rw [List.forall₂_map_left_iff]
    exact h.imp fun ms env hframe => ⟨ms, rfl, hframe⟩
  have hstart : SameSamples (reported c.arch []) (Lists.start rows).now.domains := .nil
  obtain ⟨s, hs, hreported⟩ := runAll_history hstep hhosts hstart
  rw [List.append_nil] at hreported
  exact ⟨s, hs, hreported⟩

/-- The stat line of a vCPU that has run for some ticks. -/
def cpuStat (ticks : U64) : StatFields :=
  { namedStat "CPU 0/KVM".toList (by decide) (by decide) with pid := 5, utime := ticks }

/-- A machine of this thread. -/
def cpuMachine (ticks : U64) : Machine where
  id := 7
  name := decimal 7
  process := cpuStat ticks
  threads := [⟨cpuStat ticks, fun _ => 5, 5, (by decide : 0 < (5 : UInt32).toNat),
    (by decide : (5 : UInt32).toNat < 2 ^ 31), (by decide : '(' ∉ "CPU 0/KVM".toList)⟩]
  id_lt := by decide
  name_ne := by decide
  name_fits := by decide
  pid_pos := (by decide : 0 < (5 : UInt32).toNat)
  pid_lt := (by decide : (5 : UInt32).toNat < 2 ^ 31)
  threads_ne := List.cons_ne_nil _ _
  counted := rfl

/-- What is found on a host with this machine. -/
def cpuFrame (ticks : U64) : FrameEnv :=
  { (default : FrameEnv) with
    refresh := ⟨some (tableText [fiveRow .other]), some [hostEntry 5 7 (cpuStat ticks).text]⟩ }

/-- The row of the table shows the counters of the vCPU. -/
theorem showsTable_cpu (ticks : U64) :
    ShowsTable .other [cpuMachine ticks] (tableText [fiveRow .other]) := by
  refine ⟨[fiveRow .other], rfl, ?_⟩
  simp only [List.mem_singleton, forall_eq]
  intro t ht _
  obtain rfl := List.mem_singleton.1 ht
  refine ⟨fiveRow .other, rfl, ?_⟩
  have hcells : (fiveRow .other).cells.tail =
      (vcpuStatStab .other).tail.map fun _ => (" \t".toList, "5".toList) := rfl
  rw [Held, hcells, List.forall₂_map_right_iff, List.forall₂_same]
  intro item hitem
  obtain ⟨slot, hget⟩ := exists_getFun (List.mem_of_mem_tail hitem)
  refine ⟨slot, hget, ?_⟩
  have hne : slot ≠ .pid := by
    rintro rfl
    exact absurd (List.mem_filterMap.2 ⟨item, hitem, hget⟩) (by decide)
  cases slot with
  | pid => exact absurd rfl hne
  | stMax => rfl
  | dfx v => rfl

/-- So do the files of the machine. -/
theorem showsMachine_cpu (ticks : U64) :
    ShowsMachine (cpuMachine ticks) (hostEntry 5 7 (cpuStat ticks).text) where
  dirent := rfl
  pidFile := by
    have hlast : (varRunQemuPath ++ '/' :: (decimal 7 ++ ".pid".toList)).getLast? = some 'd' := by
      decide +kernel
    have hpid : (cpuMachine ticks).pid = 5 := rfl
    refine ⟨[], ?_, fun _ hc => absurd hc (Option.not_mem_none _)⟩
    change (hostSys 5 7 _).file (varRunQemuPath ++ '/' :: (decimal 7 ++ ".pid".toList)) = _
    rw [hpid, List.append_nil]
    simp only [hostSys, hlast, if_true]
  cgroup := by
    have hmarked : markedText (cgroupLine 7) = some (decimal 7 ++ cgroupTail) := by decide +kernel
    have hhead : cgroupTail.head? = some '\\' := by decide +kernel
    have hlast : (cgroupPath (cpuMachine ticks).pid).getLast? = some 'p' :=
      getLast?_path _ (by decide +kernel)
    refine ⟨cgroupLine 7 ++ ['\n'], ?_, [], cgroupLine 7, [], cgroupTail, ?_, ?_,
      fun _ h => absurd h List.not_mem_nil, hmarked, ?_⟩
    · simp only [hostEntry, hostSys, hlast]
      rfl
    · rw [List.nil_append, List.flatMap_singleton]
    · intro line hline
      obtain rfl := List.mem_singleton.1 hline
      exact ⟨notMem_cgroupLine rfl (by decide +kernel) (by decide +kernel),
        notMem_cgroupLine rfl (by decide +kernel) (by decide +kernel), by decide +kernel⟩
    · intro ch hch
      rw [hhead] at hch
      cases hch
      rfl
  stat := by
    have hlast : (procStatPath (cpuMachine ticks).pid).getLast? = some 't' :=
      getLast?_path _ (by decide +kernel)
    simp only [hostEntry, hostSys, hlast]
    rfl
  tasks := ⟨_, rfl, rfl⟩
  threads := by
    intro t ht
    have hlast : (taskStatPath (cpuMachine ticks).pid t.pid).getLast? = some 't' :=
      getLast?_path _ (by decide +kernel)
    obtain rfl := List.mem_singleton.1 ht
    simp only [hostEntry, hostSys, hlast]
    rfl
  mallocDomains := rfl
  mallocThreads := rfl

theorem showsFrame_cpu (ticks : U64) :
    ShowsFrame hostConfig [cpuMachine ticks] (cpuFrame ticks) where
  host :=
    { table := ⟨_, rfl, showsTable_cpu ticks⟩
      listing := ⟨_, rfl, .cons (showsMachine_cpu ticks) .nil⟩ }
  room := nofun

/-- A vCPU that has run for seven ticks and then for ten. -/
theorem runAll_reported_host : ∃ s,
    runAll (sampleFrame hostConfig) [cpuFrame 7, cpuFrame 10] (.start fun _ => Task.zero) = .ok s ∧
      SameSamples (reported .other [[cpuMachine 10], [cpuMachine 7]]) s.now.domains ∧
      (reported .other [[cpuMachine 10], [cpuMachine 7]]).map (fun d => d.delta .utime) = [3] := by
  obtain ⟨s, hs, hreported⟩ := runAll_reported (c := hostConfig)
    (.cons (showsFrame_cpu 7) (.cons (showsFrame_cpu 10) .nil)) fun _ => Task.zero
  exact ⟨s, hs, hreported, by decide +kernel⟩

end Vmtop
