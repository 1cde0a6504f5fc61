/-
# The threads that are walked

`get_child_pid` returns `nlwp`, not the number of threads it has read, and a stat file it accepts
need not say much: an empty one is what the buffer held before.  So every entry of the array is
a thread with the name and the counters of its own stat line exactly when the directory still
has `nlwp` threads that can be read, and the files of the first of them hold whole lines
(`getChildPid_threads_iff`).
-/

import Vmtop.Refresh.Malformed

namespace Vmtop

open CText CArray

variable {arch : Arch} {sys : Sys} {l : VcpuList} {dom d : Domain} {dirt : Dirent}
  {entries : List Dirent} {t : Task} {r : ℤ} {got : Text} {f : ScannedFields} {i j : ℕ}

/-! ### Stat lines -/

/-- The name in a stat line stands between the last `(` and the last `)`, and fits. -/
structure NameAt (got : Text) (i j : ℕ) : Prop where
  opened : strrchr '(' (cstr got) = some i
  closed : strrchr ')' (cstr got) = some j
  name : i < j ∧ j ≤ i + domainNameMax

/-- A stat line that has a name and, behind it, a value for every field. -/
def FullLine (got : Text) : Prop :=
  ∃ i j, NameAt got i j ∧ (scanValues statFormat (cstr (got.drop (j + 2)))).isSome = true

/-- What a full line says: its name, and its values in the order of the fields. -/
def Says (got : Text) (f : ScannedFields) : Prop :=
  ∃ i j vs, NameAt got i j ∧ scanValues statFormat (cstr (got.drop (j + 2))) = some vs ∧
    f = (storeAll statFormat vs { Task.zero with
      vmname := ((cstr got).drop (i + 1)).take (j - (i + 1)) }).scannedFields

/-- What `get_proc_stat` reads of the stat file of `t`. -/
def statText (sys : Sys) (t : Task) : Option Text :=
  (sys.file (statPath t)).map fun s => s.take (bufSize - 1)

theorem Says.fullLine (h : Says got f) : FullLine got := by
  obtain ⟨i, j, vs, hname, hscan, -⟩ := h
  exact ⟨i, j, hname, by rw [hscan]; rfl⟩

/-- **A full line is read as what it says**, whatever the buffer held before. -/
theorem FullLine.getProcStat_eq (h : FullLine got) (hfile : statText sys t = some got) :
    ∃ u f, getProcStat sys t = .ok (1, u) ∧ Says got f ∧ u.scannedFields = f := by
  obtain ⟨i, j, hname, hscan⟩ := h
  obtain ⟨vs, hvs⟩ := Option.isSome_iff_exists.1 hscan
  obtain ⟨s, hs, rfl⟩ := Option.map_eq_some_iff.1 hfile
  have hne : s.take (bufSize - 1) ≠ [] := by
    intro hnil
    rw [hnil] at hvs
    cases hvs
  have hlen : (cstr (s.take (bufSize - 1))).length < 2 ^ 31 :=
    ((length_cstr_le _).trans (List.length_take_le _ _)).trans_lt (by decide)
  have hrej :=
    (not_rejected_iff (sys.base (statPath t)) hname.opened hname.closed hlen).2 hname.name
  have hlength : (nameLength (sys.base (statPath t)) (cstr (s.take (bufSize - 1)))).toNat =
      j - (i + 1) := by
    rw [nameLength_eq _ hname.opened hname.closed hlen]
    omega
  obtain ⟨u, hu, hfields⟩ := parseStat_complete hrej hname.opened hname.closed hvs
    ((sys.stale (statPath t)).drop ((s.take (bufSize - 1)).length + 1)) t
  rw [hlength] at hfields
  refine ⟨u, _, ?_, ⟨i, j, vs, hname, hvs, rfl⟩, hfields⟩
  have hread := getProcStat_of_some hs (sys.stale (statPath t)) rfl
  rw [withStale_self, readFile_of_ne_nil hne] at hread
  exact hread.trans hu

/-! ### The entries that are walked -/

/-- `t` is the thread of an entry, read from its own stat file: its pid is the number of the
entry, and its name and counters are those of the line in that file. -/
structure OwnThread (sys : Sys) (dom : Domain) (dirt : Dirent) (t : Task) : Prop where
  task : isTask dirt = true
  pid : t.pid = readPid (cstr dirt.name)
  stat : ∃ got, statText sys (taskSlot dom.pid t.pid) = some got ∧ Says got t.scannedFields

/-- A listing of `/proc/<pid>/task`: the names are distinct, and a thread's is its number. -/
structure TaskListing (entries : List Dirent) : Prop where
  names : (entries.map fun e => e.name).Nodup
  numbers : ∀ e ∈ entries, isTask e = true → ∃ n < 2 ^ 31, e.name = decimal n

/-- Every entry that is walked is a thread whose stat file was read, and no two are the
same thread. -/
structure ReadThreads (sys : Sys) (dom : Domain) (entries : List Dirent) (d : Domain) : Prop where
  own : ∀ t ∈ d.lwps, 1 ≤ t.pid ∧ ∃ dirt ∈ entries, OwnThread sys dom dirt t
  distinct : TaskListing entries → (d.lwps.map fun t => t.pid).Nodup

/-- An entry that is read makes a thread with its number. -/
theorem readThread_eq_some (h : readThread arch sys l dom dirt = some t) : isTask dirt = true ∧
    t.pid = readPid (cstr dirt.name) ∧
    ∃ r t₀, getProcStat sys (taskSlot dom.pid (readPid (cstr dirt.name))) = .ok (r, t₀) ∧
      t = countThread arch l t₀ := by
  unfold readThread at h
  split_ifs at h with htask
  split at h
  · rename_i r t₀ hstat
    split_ifs at h
    cases h
    have hpid : t₀.pid = readPid (cstr dirt.name) := (getProcStat_frame hstat).pid
    have hcount : (countThread arch l t₀).pid = t₀.pid := by rw [(countThread_frame arch l t₀).1]
    exact ⟨htask, hcount.trans hpid, r, t₀, hstat, rfl⟩
  · cases h

theorem readThread_pos (h : readThread arch sys l dom dirt = some t) : 1 ≤ t.pid := by
  obtain ⟨htask, hpid, -⟩ := readThread_eq_some h
  rw [hpid]
  exact (isTask_iff.1 htask).2.2

/-- Counting a thread changes nothing that its stat line says. -/
theorem countThread_scannedFields (arch : Arch) (l : VcpuList) (t : Task) :
    (countThread arch l t).scannedFields = t.scannedFields := by
  obtain ⟨hframe, hdfx⟩ := countThread_frame arch l t
  have hutime := hdfx .utime fun hm => (ne_stat_of_mem_vcpuCounters hm).1 rfl
  have hstime := hdfx .stime fun hm => (ne_stat_of_mem_vcpuCounters hm).2 rfl
  generalize countThread arch l t = u at *
  rw [hframe] at hutime hstime ⊢
  unfold Task.scannedFields
  dsimp only at hutime hstime ⊢
  rw [hutime, hstime]

/-- Of a full line it makes its own thread. -/
theorem readThread_own (h : readThread arch sys l dom dirt = some t)
    (hfile : statText sys (taskSlot dom.pid (readPid (cstr dirt.name))) = some got)
    (hfull : FullLine got) : OwnThread sys dom dirt t := by
  obtain ⟨htask, hpid, r, t₀, hstat, rfl⟩ := readThread_eq_some h
  obtain ⟨u, f, hu, hsays, rfl⟩ := hfull.getProcStat_eq hfile
  cases hstat.symm.trans hu
  refine ⟨htask, hpid, got, by rw [hpid, hfile], ?_⟩
  rw [countThread_scannedFields]
  exact hsays

/-- A slot that was not read into is the thread of no entry. -/
theorem Unread.not_own (h : Unread sys dom t) : ¬ OwnThread sys dom dirt t := by
  rintro ⟨htask, hpid, got, hfile, hsays⟩
  rcases h.pid with hlt | ⟨r, t₀, hstat, hr⟩
  · have hone := (isTask_iff.1 htask).2.2
    omega
  · obtain ⟨u, f, hu, -⟩ := hsays.fullLine.getProcStat_eq hfile
    cases hstat.symm.trans hu
    exact absurd hr (by decide)

/-- The threads of a listing are distinct. -/
theorem TaskListing.nodup (h : TaskListing entries) :
    ((entries.filterMap (readThread arch sys l dom)).map fun t => t.pid).Nodup := by
  rw [List.Nodup, List.pairwise_map, List.pairwise_filterMap]
  have hnames : entries.Pairwise fun e e' => e.name ≠ e'.name := List.pairwise_map.1 h.names
  refine hnames.imp_of_mem fun {e e'} he he' hne t ht t' ht' hpid => hne ?_
  obtain ⟨htask, hown, -⟩ := readThread_eq_some ht
  obtain ⟨htask', hown', -⟩ := readThread_eq_some ht'
  obtain ⟨n, hn, hname⟩ := h.numbers e he htask
  obtain ⟨n', hn', hname'⟩ := h.numbers e' he' htask'
  rw [hown, hown', hname, hname', (readPid_decimal hn []).2, (readPid_decimal hn' []).2,
    Int.ofNat_inj] at hpid
  rw [hname, hname', hpid]

/-- The first threads of the directory that can be read, as many as the process says it has. -/
def firstThreads (sys : Sys) (dom : Domain) (entries : List Dirent) : List Dirent :=
  (entries.filter (readable sys dom)).take dom.nlwp.toNat

/-- They are the ones that are read. -/
theorem take_readThreads (arch : Arch) (l : VcpuList) (entries : List Dirent) :
    (entries.filterMap (readThread arch sys l dom)).take dom.nlwp.toNat =
      (firstThreads sys dom entries).filterMap (readThread arch sys l dom) := by
  unfold firstThreads
  generalize dom.nlwp.toNat = n
  induction entries generalizing n with
  | nil => simp
  | cons dirt rest ih =>
      have hsome := isSome_readThread arch sys l dom dirt
      cases hread : readThread arch sys l dom dirt with
      | none =>
          rw [hread] at hsome
          rw [List.filterMap_cons_none hread, List.filter_cons_of_neg (by rw [← hsome]; simp), ih]
      | some t =>
          rw [hread] at hsome
          rw [List.filterMap_cons_some hread, List.filter_cons_of_pos hsome.symm]
          cases n with
          | zero => rfl
          | succ n =>
              rw [List.take_succ_cons, List.take_succ_cons, List.filterMap_cons_some hread, ih]

/-- **Every entry is a thread with the name and counters of its own stat line exactly when the
directory has `nlwp` threads that can be read, and the first of them have full lines.** -/
theorem getChildPid_threads_iff (hdir : sys.taskDir (taskPath dom.pid) = some entries)
    (h : getChildPid arch sys l dom = .ok (r, d)) (hr : 0 ≤ r) :
    ReadThreads sys dom entries d ↔
      dom.nlwp ≤ entries.countP (readable sys dom) ∧
        ∀ dirt ∈ firstThreads sys dom entries, ∃ got,
          statText sys (taskSlot dom.pid (readPid (cstr dirt.name))) = some got ∧
            FullLine got := by
  obtain ⟨i, hfilled, hd, hpos⟩ := getChildPid_filled hdir h hr
  obtain ⟨rest, hthreads, hrest⟩ := hfilled.slots
  have hnlwp : d.nlwp = dom.nlwp := by rw [hd]
  have hlwps : d.lwps = d.threads := Domain.lwps_eq (by rw [hnlwp]; exact hfilled.length)
  have hlen : d.threads.length = dom.nlwp.toNat := hfilled.length
  have hread := length_readThreads arch sys l dom entries
  dsimp only at hthreads
  rw [hthreads, List.length_append, List.length_take, hread] at hlen
  constructor
  · intro hown
    refine ⟨?_, fun dirt hdirt => ?_⟩
    · by_contra hlt
      obtain ⟨u, hu⟩ : ∃ u, u ∈ rest := List.exists_mem_of_length_pos (by omega)
      obtain ⟨-, dirt, -, hdirt⟩ :=
        hown.own u (by rw [hlwps, hthreads]; exact List.mem_append_right _ hu)
      exact (hrest u hu).not_own hdirt
    · -- its thread stands in the array
      obtain ⟨t, ht⟩ := Option.isSome_iff_exists.1 ((isSome_readThread arch _ l _ dirt).trans
        (List.mem_filter.1 (List.mem_of_mem_take hdirt)).2)
      have hmem : t ∈ d.lwps := by
        rw [hlwps, hthreads, take_readThreads]
        exact List.mem_append_left _ (List.mem_filterMap.2 ⟨dirt, hdirt, ht⟩)
      obtain ⟨-, dirt', -, hdirt'⟩ := hown.own t hmem
      obtain ⟨got, hfile, hsays⟩ := hdirt'.stat
      rw [(readThread_eq_some ht).2.1] at hfile
      exact ⟨got, hfile, hsays.fullLine⟩
  · rintro ⟨hle, hfull⟩
    have hnil : rest = [] := List.eq_nil_of_length_eq_zero (by omega)
    rw [hnil, List.append_nil] at hthreads
    constructor
    · intro t ht
      rw [hlwps, hthreads, take_readThreads] at ht
      obtain ⟨dirt, hdirt, he⟩ := List.mem_filterMap.1 ht
      obtain ⟨got, hfile, hgot⟩ := hfull dirt hdirt
      exact ⟨readThread_pos he, dirt, (List.mem_filter.1 (List.mem_of_mem_take hdirt)).1,
        readThread_own he hfile hgot⟩
    · intro hlisting
      rw [hlwps, hthreads, List.map_take]
      exact hlisting.nodup.sublist (List.take_sublist _ _)

/-- The record of a process that says it has `nlwp` threads. -/
def processOf (nlwp : ℤ) : Domain := { Domain.zero with pid := 1, nlwp := nlwp }

/-- The stat line of an idle process is full. -/
theorem fullLine_idleStat : FullLine (idleStat.take (bufSize - 1)) :=
  ⟨2, 11, ⟨by decide +kernel, by decide +kernel, by decide⟩, by decide +kernel⟩

/-- A process of one thread, which can be read. -/
theorem getChildPid_threads_iff_host : ∃ r d,
    getChildPid .other (hostSys 1 0 idleStat) zeroLists.vcpuList (processOf 1) = .ok (r, d) ∧
      ReadThreads (hostSys 1 0 idleStat) (processOf 1) [⟨decimal 1, .dir⟩] d := by
  have hok : (getChildPid .other (hostSys 1 0 idleStat) zeroLists.vcpuList
      (processOf 1)).toOption.map (fun p => p.1) = some 1 := by decide +kernel
  obtain ⟨⟨r, d⟩, hok, hr⟩ := Option.map_eq_some_iff.1 hok
  have hr : r = 1 := hr
  have hok := toOption_eq_some.1 hok
  refine ⟨r, d, hok, (getChildPid_threads_iff rfl hok (hr ▸ by decide)).2 ⟨by decide +kernel, ?_⟩⟩
  intro dirt _
  refine ⟨_, ?_, fullLine_idleStat⟩
  rw [statText, hostSys_file_statPath, Option.map_some]

/-- **A thread that exited leaves a cleared entry**: the process said that it has two, but
its directory lists one. -/
theorem getChildPid_threads_exited : ¬ ∀ (arch : Arch) (sys : Sys) (l : VcpuList)
    (dom d : Domain) (entries : List Dirent) (r : ℤ),
    sys.taskDir (taskPath dom.pid) = some entries → getChildPid arch sys l dom = .ok (r, d) →
    0 ≤ r → ReadThreads sys dom entries d := by
  intro h
  have hok : (getChildPid .other (hostSys 1 0 idleStat) zeroLists.vcpuList
      (processOf 2)).toOption.map (fun p => (p.1, p.2.lwps.map fun t => t.pid)) =
        some (2, [1, 0]) := by decide +kernel
  obtain ⟨⟨r, d⟩, hok, hd⟩ := Option.map_eq_some_iff.1 hok
  simp only [Prod.mk.injEq] at hd
  have hread := h _ _ _ _ d _ r rfl (toOption_eq_some.1 hok) (hd.1 ▸ by decide)
  have hzero : 0 ∈ d.lwps.map fun t => t.pid := by
    rw [hd.2]
    decide
  obtain ⟨t, ht, hpid⟩ := List.mem_map.1 hzero
  have := (hread.own t ht).1
  omega

end Vmtop
