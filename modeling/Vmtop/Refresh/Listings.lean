/-
# The listings of a snapshot in another order

`readdir` lists the pid files and the threads of a process in any order.  Where every task
directory lists as many threads that can be read as the process says it has, the threads
of a record are those threads, in the order of the listing (`getChildPid_listed`), so another
order makes the same record with its threads in that order (`readEntry_reordered`), and the
listing of the pid files in another order makes the same records in that order
(`scanned_reordered`).

In another order the calls find other things on the stack, so the files have to overwrite what
is parsed of the buffers.
-/

import Vmtop.Lib.Reordered
import Vmtop.Refresh.Stale

namespace Vmtop

open CText CArray Reordered

variable {arch : Arch} {monitorId : ℤ} {sys : Sys} {l : VcpuList} {dom d : Domain}
  {tasks tasks' : List Dirent}

/-! ### The threads of one process -/

/-- A task directory that lists `nlwp` threads that can be read, and none that it is a fault to
try. -/
structure ListsThreads (sys : Sys) (dom : Domain) (tasks : List Dirent) : Prop where
  count : (tasks.countP (readable sys dom) : ℤ) = dom.nlwp
  ok : ∀ dirt ∈ tasks, isTask dirt = true →
    ∃ p, getProcStat sys (taskSlot dom.pid (readPid (cstr dirt.name))) = .ok p

/-- One entry is no fault where its stat file is none. -/
theorem childStep_ok (arch : Arch) (l : VcpuList) {smp : ℤ} {found : List Task} {st : ChildState}
    {dirt : Dirent} (hf : Filled sys dom smp found st) (hi : st.i < dom.nlwp)
    (hok : isTask dirt = true →
      ∃ p, getProcStat sys (taskSlot dom.pid (readPid (cstr dirt.name))) = .ok p) :
    ∃ st', childStep arch sys l dom dirt st = .ok st' := by
  simp only [childStep]
  split_ifs with hdot hdir hpid
  · exact ⟨_, rfl⟩
  · exact ⟨_, rfl⟩
  · exact ⟨_, rfl⟩
  · have htask : isTask dirt = true := isTask_iff.2 ⟨hdot, not_not.1 hdir, Int.not_lt.1 hpid⟩
    obtain ⟨⟨r, t⟩, hstat⟩ := hok htask
    rw [hf.slot_eq hi, hstat, ok_bind]
    dsimp only
    split_ifs <;> exact ⟨_, rfl⟩

theorem childLoop_ok (arch : Arch) (l : VcpuList) {smp : ℤ} {found : List Task} {st : ChildState}
    (hf : Filled sys dom smp found st)
    (hok : ∀ dirt ∈ tasks, isTask dirt = true →
      ∃ p, getProcStat sys (taskSlot dom.pid (readPid (cstr dirt.name))) = .ok p) :
    ∃ st', childLoop arch sys l dom tasks st = .ok st' := by
  induction tasks generalizing st found with
  | nil => exact ⟨_, rfl⟩
  | cons dirt rest ih =>
      rw [List.forall_mem_cons] at hok
      rw [childLoop]
      split_ifs with hi
      · obtain ⟨st₁, hstep⟩ := childStep_ok arch l hf hi hok.1
        rw [hstep, ok_bind]
        exact ih (childStep_filled hstep hf hi) hok.2
      · exact ⟨_, rfl⟩

/-- What `get_child_pid` makes of a process whose directory lists its threads. -/
def withThreads (dom : Domain) (ts : List Task) : Domain :=
  { dom with
    threads := ts
    smpVcpus := dom.smpVcpus + ts.countP fun t => t.type = .isVcpu }

/-- `get_child_pid` ends, where the directory lists its threads. -/
theorem getChildPid_ok (arch : Arch) (l : VcpuList)
    (hlists : ∀ tasks, sys.taskDir (taskPath dom.pid) = some tasks → ListsThreads sys dom tasks) :
    ∃ p, getChildPid arch sys l dom = .ok p := by
  unfold getChildPid
  split
  · exact ⟨_, rfl⟩
  · rename_i tasks hdir
    split_ifs
    · exact ⟨_, rfl⟩
    · exact ⟨_, rfl⟩
    · obtain ⟨st, hloop⟩ := childLoop_ok arch l (.start dom.smpVcpus) (hlists tasks hdir).ok
      rw [hloop, ok_bind]
      exact ⟨_, rfl⟩

/-- **`get_child_pid` finds the threads that the directory lists.** -/
theorem getChildPid_listed (hdir : sys.taskDir (taskPath dom.pid) = some tasks)
    (hlists : ListsThreads sys dom tasks) (hmalloc : sys.mallocThreads = true)
    (hpos : 0 < dom.nlwp) : getChildPid arch sys l dom =
      .ok (dom.nlwp, withThreads dom (tasks.filterMap (readThread arch sys l dom))) := by
  obtain ⟨st, hloop⟩ := childLoop_ok arch l (.start dom.smpVcpus) hlists.ok
  have hfilled := childLoop_filled hloop (.start _) (Nat.zero_le _)
  rw [List.nil_append] at hfilled
  have hlen : (tasks.filterMap (readThread arch sys l dom)).length = dom.nlwp.toNat := by
    have := hlists.count
    rw [length_readThreads]
    omega
  rw [List.take_of_length_le hlen.le] at hfilled
  obtain ⟨rest, hthreads, -⟩ := hfilled.slots
  have hrest : rest = [] := by
    have := hfilled.length
    rw [hthreads, List.length_append, hlen] at this
    exact List.eq_nil_of_length_eq_zero (by omega)
  rw [hrest, List.append_nil] at hthreads
  simp only [getChildPid, hdir, hmalloc, Bool.true_eq_false, if_false]
  rw [if_neg (Int.not_le.2 hpos), hloop, ok_bind, hthreads, hfilled.smpVcpus]
  rfl

/-! ### The pid files -/

/-- The same record, but for the order of its threads. -/
def SameButOrder (d d' : Domain) : Prop :=
  ∃ ts, ts.Perm d.threads ∧ d' = { d with threads := ts }

/-- The same pid file of the same process, but for the order in which task directories are
listed, and for what the buffers held before. -/
structure SameEntry (e e' : Dirent × Sys) : Prop where
  dirent : e'.1 = e.1
  sys : e'.2 = { e.2 with taskDir := e'.2.taskDir, stale := e'.2.stale }
  taskDir : ∀ path, (e.2.taskDir path).Rel List.Perm (e'.2.taskDir path)

/-- A pid file for which there is memory, and whose process, where it is accepted, lists its
threads. -/
structure ListedEntry (monitorId : ℤ) (e : Dirent × Sys) : Prop where
  mallocDomains : e.2.mallocDomains = true
  mallocThreads : e.2.mallocThreads = true
  lists : ∀ dom, readProcess monitorId e.2 e.1.name = some dom →
    ∀ tasks, e.2.taskDir (taskPath dom.pid) = some tasks → ListsThreads e.2 dom tasks

/-- And nothing that the buffers held before is parsed of its pid file, nor of the stat files of
its process and of the threads. -/
structure RegularEntry (monitorId : ℤ) (e : Dirent × Sys) : Prop extends
    ListedEntry monitorId e where
  pid : e.2.file (pidPath e.1.name) ≠ some []
  stat : ∀ dom, checkedEntry monitorId e.2 e.1.name = some dom →
    OwnStat e.2 { dom.toTask with type := .isDomain }
  threads : ∀ dom, readProcess monitorId e.2 e.1.name = some dom →
    ∀ tasks, e.2.taskDir (taskPath dom.pid) = some tasks → ∀ dirt ∈ tasks, isTask dirt = true →
      OwnStat e.2 (taskSlot dom.pid (readPid (cstr dirt.name)))

variable {e e' : Dirent × Sys}

theorem SameEntry.refl (e : Dirent × Sys) : SameEntry e e where
  dirent := rfl
  sys := rfl
  taskDir path := by
    cases e.2.taskDir path with
    | none => exact .none
    | some tasks => exact .some (.refl tasks)

theorem SameEntry.symm (h : SameEntry e e') : SameEntry e' e where
  dirent := h.dirent.symm
  sys := by rw [h.sys]
  taskDir path := by
    have hrel := h.taskDir path
    generalize e.2.taskDir path = x at hrel
    generalize e'.2.taskDir path = y at hrel
    cases hrel with
    | some hperm => exact .some hperm.symm
    | none => exact .none

theorem SameEntry.file (h : SameEntry e e') : e'.2.file = e.2.file := by
  rw [h.sys]

theorem SameEntry.ownStat {t : Task} (h : SameEntry e e') (hown : OwnStat e.2 t) :
    OwnStat e'.2 t := by
  unfold OwnStat
  rw [h.file]
  exact hown

/-- What reads no task directory finds the same files. -/
theorem SameEntry.sameFiles (h : SameEntry e e') :
    SameFiles { e.2 with taskDir := e'.2.taskDir } e'.2 := h.sys

/-- No stat file depends on the listings of task directories. -/
theorem SameEntry.getProcStat_eq {t : Task} (h : SameEntry e e') (hown : OwnStat e.2 t) :
    getProcStat e'.2 t = getProcStat e.2 t := by
  have hown' : OwnStat { e.2 with taskDir := e'.2.taskDir } t := hown
  exact hown'.getProcStat_eq h.sameFiles

theorem SameEntry.checkedEntry_eq (h : SameEntry e e') (hreg : RegularEntry monitorId e) :
    checkedEntry monitorId e'.2 e'.1.name = checkedEntry monitorId e.2 e.1.name := by
  rw [h.dirent]
  have heq := @checkedEntry_eq_of_own monitorId _ _ _ h.sameFiles hreg.pid
  exact heq

theorem SameEntry.readProcess_eq (h : SameEntry e e') (hreg : RegularEntry monitorId e) :
    readProcess monitorId e'.2 e'.1.name = readProcess monitorId e.2 e.1.name := by
  rw [h.dirent]
  have heq := readProcess_eq_of_own h.sameFiles hreg.pid hreg.stat
  exact heq

theorem SameEntry.readThread_eq {dirt : Dirent} (h : SameEntry e e') (hown : isTask dirt = true →
      OwnStat e.2 (taskSlot dom.pid (readPid (cstr dirt.name)))) :
    readThread arch e'.2 l dom dirt = readThread arch e.2 l dom dirt := by
  have heq := @readThread_eq_of_own arch _ _ l dom dirt h.sameFiles hown
  exact heq

theorem SameEntry.exists_taskDir (h : SameEntry e e') {path : Text}
    (hdir : e.2.taskDir path = some tasks) :
    ∃ tasks', e'.2.taskDir path = some tasks' ∧ tasks.Perm tasks' := by
  have hrel := h.taskDir path
  rw [hdir] at hrel
  exact exists_of_rel_some hrel

/-- In another order a directory lists the same threads. -/
theorem ListsThreads.reordered (h : ListsThreads e.2 dom tasks) (he : SameEntry e e')
    (hown : ∀ dirt ∈ tasks, isTask dirt = true →
      OwnStat e.2 (taskSlot dom.pid (readPid (cstr dirt.name))))
    (hperm : tasks.Perm tasks') : ListsThreads e'.2 dom tasks' where
  count := by
    rw [← h.count, ← hperm.countP_eq]
    refine congrArg Nat.cast (List.countP_congr fun dirt hdirt => ?_)
    rw [← isSome_readThread .other _ ⟨fun _ => Task.zero, 0, Nat.zero_le _⟩,
      ← isSome_readThread .other, he.readThread_eq (hown dirt hdirt)]
  ok dirt hdirt htask := by
    rw [he.getProcStat_eq (hown dirt (hperm.mem_iff.2 hdirt) htask)]
    exact h.ok dirt (hperm.mem_iff.2 hdirt) htask

theorem RegularEntry.reordered (h : RegularEntry monitorId e) (he : SameEntry e e') :
    RegularEntry monitorId e' where
  mallocDomains := by
    rw [he.sys]
    exact h.mallocDomains
  mallocThreads := by
    rw [he.sys]
    exact h.mallocThreads
  pid := by
    rw [he.file, he.dirent]
    exact h.pid
  stat dom hcheck := by
    rw [he.checkedEntry_eq h] at hcheck
    exact he.ownStat (h.stat dom hcheck)
  lists dom hread tasks' hdir' := by
    rw [he.readProcess_eq h] at hread
    obtain ⟨tasks, hdir, hperm⟩ := he.symm.exists_taskDir hdir'
    exact (h.lists dom hread tasks hdir).reordered he (h.threads dom hread tasks hdir) hperm.symm
  threads dom hread tasks' hdir' dirt hdirt htask := by
    rw [he.readProcess_eq h] at hread
    obtain ⟨tasks, hdir, hperm⟩ := he.symm.exists_taskDir hdir'
    exact he.ownStat (h.threads dom hread tasks hdir dirt (hperm.mem_iff.1 hdirt) htask)

/-- Threads in another order make the same record with its threads in that order. -/
theorem withThreads_perm (dom : Domain) {ts ts' : List Task} (h : ts.Perm ts') :
    SameButOrder (withThreads dom ts) (withThreads dom ts') := by
  refine ⟨ts', h.symm, ?_⟩
  rw [withThreads, withThreads, h.countP_eq]

/-- A pid file that is accepted is accepted in another order, too. -/
theorem readEntry_same (he : SameEntry e e') (hreg : RegularEntry monitorId e)
    (hread : readEntry arch monitorId l e = some d) :
    ∃ d', readEntry arch monitorId l e' = some d' ∧ SameButOrder d d' := by
  obtain ⟨dom, r, d₀, hprocess, hchild, hr, hlen, rfl⟩ := readEntry_eq_some.1 hread
  obtain ⟨hpos, tasks, -, hdir, -⟩ := getChildPid_eq_ok hchild hr
  obtain ⟨tasks', hdir', hperm⟩ := he.exists_taskDir hdir
  have hreg' := hreg.reordered he
  have hlists := hreg.lists dom hprocess tasks hdir
  have hown := hreg.threads dom hprocess tasks hdir
  rw [getChildPid_listed hdir hlists hreg.mallocThreads hpos] at hchild
  cases hchild
  have hfound : (tasks'.filterMap (readThread arch e'.2 l dom)).Perm
      (tasks.filterMap (readThread arch e.2 l dom)) := by
    rw [List.filterMap_congr fun dirt hdirt =>
      he.readThread_eq (hown dirt (hperm.mem_iff.2 hdirt))]
    exact hperm.symm.filterMap _
  obtain ⟨ts, hts, hd'⟩ := withThreads_perm dom hfound.symm
  refine ⟨{ withThreads dom (tasks'.filterMap (readThread arch e'.2 l dom)) with
    vmname := e'.1.name.take (e'.1.name.length - ".pid".toList.length) }, ?_, ts, hts, ?_⟩
  · refine readEntry_eq_some.2 ⟨dom, dom.nlwp, _, ?_, getChildPid_listed hdir'
      (hlists.reordered he hown hperm) hreg'.mallocThreads hpos, hpos.le, ?_, rfl⟩
    · rw [he.readProcess_eq hreg]
      exact hprocess
    · rw [he.dirent]
      exact hlen
  · rw [hd', he.dirent]

/-- **A pid file makes the same record in another order.** -/
theorem readEntry_reordered (he : SameEntry e e') (hreg : RegularEntry monitorId e) :
    (readEntry arch monitorId l e).Rel SameButOrder (readEntry arch monitorId l e') := by
  cases hread : readEntry arch monitorId l e with
  | some d =>
      obtain ⟨d', hread', hsame⟩ := readEntry_same he hreg hread
      rw [hread']
      exact .some hsame
  | none =>
      cases hread' : readEntry arch monitorId l e' with
      | none => exact .none
      | some d' =>
          obtain ⟨d, hread₀, -⟩ := readEntry_same he.symm (hreg.reordered he) hread'
          rw [hread] at hread₀
          cases hread₀

/-! ### The scan -/

/-- `set_domain` ends, where its stat file is no fault. -/
theorem setDomain_ok_iff (hreg : RegularEntry monitorId e) :
    (∃ p, setDomain arch monitorId e.2 l e.1.name Domain.zero = .ok p) ↔
      ∀ dom, checkedEntry monitorId e.2 e.1.name = some dom →
        ∃ p, getProcStat e.2 { dom.toTask with type := .isDomain } = .ok p := by
  cases hcheck : checkedEntry monitorId e.2 e.1.name with
  | none =>
      obtain ⟨d, hset⟩ := setDomain_of_none arch l hcheck
      refine ⟨fun _ dom h => ?_, fun _ => ⟨_, hset⟩⟩
      cases h
  | some dom =>
      rw [setDomain_of_some hcheck, loadDomain]
      constructor
      · rintro ⟨p, hp⟩ _ ⟨⟩
        obtain ⟨q, hq, -⟩ := bind_eq_ok.1 hp
        exact ⟨q, hq⟩
      · intro hstat
        obtain ⟨⟨r, t⟩, ht⟩ := hstat dom rfl
        rw [ht, ok_bind]
        dsimp only
        by_cases hr : r < 0
        · rw [if_pos hr]
          exact ⟨_, rfl⟩
        · have hprocess : readProcess monitorId e.2 e.1.name = some { dom with toTask := t } := by
            rw [readProcess, hcheck, Option.bind_some, ht]
            exact if_neg hr
          obtain ⟨q, hq⟩ := getChildPid_ok arch l (hreg.lists _ hprocess)
          rw [if_neg hr, hq, ok_bind]
          split_ifs <;> exact ⟨_, rfl⟩

/-- A pid file that is no fault is none in another order. -/
theorem setDomain_same (he : SameEntry e e') (hreg : RegularEntry monitorId e)
    (hset : ∃ p, setDomain arch monitorId e.2 l e.1.name Domain.zero = .ok p) :
    ∃ p, setDomain arch monitorId e'.2 l e'.1.name Domain.zero = .ok p := by
  rw [setDomain_ok_iff (hreg.reordered he)]
  intro dom hcheck
  rw [he.checkedEntry_eq hreg] at hcheck
  rw [he.getProcStat_eq (hreg.stat dom hcheck)]
  exact (setDomain_ok_iff hreg).1 hset dom hcheck

/-- The pid files of a listing, each regular. -/
def RegularListing (monitorId : ℤ) (entries : List (Dirent × Sys)) : Prop :=
  ∀ e ∈ entries, isPidFile e = true → RegularEntry monitorId e

variable {entries entries' : List (Dirent × Sys)}

/-- Where there is memory for every record, all the pid files are read. -/
theorem RegularListing.scanned_eq (h : RegularListing monitorId entries) :
    scanned arch monitorId l entries =
      (entries.filter isPidFile).filterMap (readEntry arch monitorId l) := by
  have hall : (entries.filter isPidFile).takeWhile (fun e => e.2.mallocDomains) =
      entries.filter isPidFile :=
    List.takeWhile_eq_self_iff.2 fun e he =>
      (h e (List.mem_filter.1 he).1 (List.mem_filter.1 he).2).mallocDomains
  rw [scanned, hall]

theorem SameEntry.isPidFile_eq (h : SameEntry e e') : isPidFile e' = isPidFile e := by
  rw [isPidFile, isPidFile, h.dirent]

theorem RegularListing.reordered (h : RegularListing monitorId entries)
    (hsame : UpToOrder SameEntry entries entries') : RegularListing monitorId entries' := by
  intro e' he' hpid
  obtain ⟨e, he, hee⟩ := hsame.exists_left he'
  exact (h e he (hee.isPidFile_eq ▸ hpid)).reordered hee

/-- **A listing in another order makes the same records in another order.** -/
theorem scanned_reordered (hsame : UpToOrder SameEntry entries entries')
    (hreg : RegularListing monitorId entries) :
    UpToOrder SameButOrder (scanned arch monitorId l entries)
      (scanned arch monitorId l entries') := by
  rw [hreg.scanned_eq, (hreg.reordered hsame).scanned_eq]
  refine (hsame.filter fun e _ e' _ hee => hee.isPidFile_eq.symm).filterMap fun e he e' _ hee => ?_
  rw [List.mem_filter] at he
  exact readEntry_reordered hee (hreg e he.1 he.2)

/-- **A listing that is no fault is none in another order.** -/
theorem qemuLoop_reordered (hsame : UpToOrder SameEntry entries entries')
    (hreg : RegularListing monitorId entries) {list : DomainList}
    (hok : ∃ x, qemuLoop arch monitorId l entries list = .ok x) (list' : DomainList) :
    ∃ x, qemuLoop arch monitorId l entries' list' = .ok x := by
  refine qemuLoop_ok (fun e' he' hpid => ?_) list'
  obtain ⟨e, he, hee⟩ := hsame.exists_left he'
  rw [hee.isPidFile_eq] at hpid
  exact setDomain_same hee (hreg e he hpid)
    (setDomain_of_qemuLoop (fun e he hpid => (hreg e he hpid).mallocDomains) hok e he hpid)

end Vmtop
