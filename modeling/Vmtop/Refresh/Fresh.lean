/-
# What a new snapshot holds before it is compared

`get_qemu_id` fills the records of a snapshot in place, over cleared memory.  What
matters to the comparison that follows is that no record carries a delta yet, that
the array of threads has `nlwp` entries, and that a counter of `vcpu_stat` in a
thread is what the row with its pid says, or `0` when the thread has no row or is
no vCPU (`Fresh`).  Each function of the scan has one lemma that says what it
keeps, and `scanned_fresh` puts them together over the whole listing.
-/

import Mathlib.Data.List.GetD
import Vmtop.Domain
import Vmtop.Refresh.Columns

namespace Vmtop

open CText CArray

variable {arch : Arch} {monitorId : ℤ} {sys : Sys} {l : VcpuList}

/-! ### One stat file -/

/-- What `get_proc_stat` leaves alone. -/
structure StatFrame (t t' : Task) : Prop where
  delta : t'.delta = t.delta
  type : t'.type = t.type
  pid : t'.pid = t.pid
  domainId : t'.domainId = t.domainId
  stMax : t'.stMax = t.stMax
  smpVcpus : t'.smpVcpus = t.smpVcpus
  dfx : ∀ v, v ≠ .utime ∧ v ≠ .stime → t'.dfx v = t.dfx v

theorem StatFrame.refl (t : Task) : StatFrame t t := ⟨rfl, rfl, rfl, rfl, rfl, rfl, fun _ _ => rfl⟩

/-- Every field the stat line is scanned into is outside the frame. -/
theorem statFormat_keeps (t : Task) : ∀ d ∈ statFormat, d.Keeps (StatFrame t) := by
  simp only [statFormat, List.intersperse, List.forall_mem_cons, Directive.Keeps, true_and]
  refine ⟨?_, ?_, ?_, ?_, ?_, ?_, ?_, ?_, ?_, ?_, ?_, ?_, ?_, ?_, ?_, ?_, ?_, ?_, ?_, by simp⟩
  all_goals exact fun _ _ h => ⟨h.delta, h.type, h.pid, h.domainId, h.stMax, h.smpVcpus,
    fun v hv => by simp [h.dfx v hv, hv.1, hv.2]⟩

/-- **`get_proc_stat` leaves the identity, the deltas and the counters of `vcpu_stat`
alone**, whatever the file holds. -/
theorem getProcStat_frame {t t' : Task} {r : ℤ} (h : getProcStat sys t = .ok (r, t')) :
    StatFrame t t' := by
  simp only [getProcStat] at h
  split_ifs at h
  · cases h
    exact .refl t
  · simp only [parseStat] at h
    split_ifs at h
    · cases h
      exact .refl t
    · split at h
      · cases h
        exact sscanf_keeps (statFormat_keeps t) _ ⟨rfl, rfl, rfl, rfl, rfl, rfl, fun _ _ => rfl⟩
      · cases h

/-! ### The threads of one virtual machine -/

/-- A thread as `get_child_pid` leaves it: no delta, and the counters of its row. -/
structure ThreadFresh (arch : Arch) (l : VcpuList) (t : Task) : Prop where
  delta : ∀ v, t.delta v = 0
  dfx : ∀ v ∈ vcpuCounters arch,
    t.dfx v = if t.type = .isVcpu then (l.row t.pid).elim 0 fun r => r.dfx v else 0

/-- A cleared entry is fresh. -/
theorem ThreadFresh.zero : ThreadFresh arch l Task.zero := ⟨fun _ => rfl, fun _ _ => rfl⟩

/-- The array while `get_child_pid` fills it: the entries from the index on are not yet
vCPUs, so their counters are still those of cleared memory. -/
structure ChildInv (arch : Arch) (l : VcpuList) (n : ℕ) (st : ChildState) : Prop where
  length : st.threads.length = n
  fresh : ∀ t ∈ st.threads, ThreadFresh arch l t
  unread : ∀ t ∈ st.threads.drop st.i, t.type ≠ .isVcpu

variable {n : ℕ} {st st' : ChildState}

/-- The cleared array. -/
theorem ChildInv.start (smp : ℤ) :
    ChildInv arch l n ⟨List.replicate n Task.zero, 0, smp⟩ where
  length := List.length_replicate
  fresh t ht := List.eq_of_mem_replicate ht ▸ .zero
  unread t ht := by
    rw [List.drop_zero] at ht
    rw [List.eq_of_mem_replicate ht]
    decide

/-- The entry being filled is fresh and no vCPU. -/
theorem ChildInv.thread (h : ChildInv arch l n st) :
    ThreadFresh arch l st.thread ∧ st.thread.type ≠ .isVcpu := by
  unfold ChildState.thread
  rcases Nat.lt_or_ge st.i st.threads.length with hi | hi
  · rw [List.getD_eq_getElem _ _ hi]
    refine ⟨h.fresh _ (List.getElem_mem hi), h.unread _ ?_⟩
    rw [List.drop_eq_getElem_cons hi]
    exact List.mem_cons_self
  · rw [List.getD_eq_default _ _ hi]
    exact ⟨.zero, by decide⟩

/-- Writing the entry, with the index left where it is. -/
theorem ChildInv.setThread (h : ChildInv arch l n st) {t : Task} (ht : ThreadFresh arch l t)
    (hv : t.type ≠ .isVcpu) : ChildInv arch l n (st.setThread t) where
  length := (List.length_set ..).trans h.length
  fresh u hu := (List.mem_or_eq_of_mem_set hu).elim (h.fresh u) fun he => he ▸ ht
  unread u hu := by
    simp only [ChildState.setThread, List.drop_set, lt_irrefl, if_false] at hu
    exact (List.mem_or_eq_of_mem_set hu).elim (h.unread u) fun he => he ▸ hv

/-- Writing the entry and moving on. -/
theorem ChildInv.next (h : ChildInv arch l n st) {t : Task} (ht : ThreadFresh arch l t) (smp : ℤ) :
    ChildInv arch l n ⟨st.threads.set st.i t, st.i + 1, smp⟩ where
  length := (List.length_set ..).trans h.length
  fresh u hu := (List.mem_or_eq_of_mem_set hu).elim (h.fresh u) fun he => he ▸ ht
  unread u hu := by
    simp only [List.drop_set, Nat.lt_succ_self, if_true] at hu
    exact h.unread u (List.drop_subset_drop_left _ (Nat.le_succ _) hu)

/-- The fields written before the stat file is read keep an entry fresh. -/
theorem ThreadFresh.write {t : Task} (h : ThreadFresh arch l t) (hv : t.type ≠ .isVcpu)
    {ty : ProcessType} (hty : ty ≠ .isVcpu) (pid ppid : ℤ) :
    ThreadFresh arch l { t with pid := pid, type := ty, ppid := ppid } where
  delta := h.delta
  dfx v hm := by simpa [hv, hty] using h.dfx v hm

/-- What the stat file changes is no counter of `vcpu_stat`. -/
theorem ThreadFresh.stat {t t' : Task} (h : ThreadFresh arch l t) (hf : StatFrame t t')
    (hv : t.type ≠ .isVcpu) : ThreadFresh arch l t' where
  delta v := by rw [hf.delta, h.delta]
  dfx v hm := by
    rw [hf.dfx v (ne_stat_of_mem_vcpuCounters hm), hf.type, if_neg hv]
    simpa [hv] using h.dfx v hm

/-- A vCPU gets the counters of its row, and keeps cleared ones when it has none. -/
theorem ThreadFresh.vcpu {t : Task} (h : ThreadFresh arch l t) (hv : t.type ≠ .isVcpu) (smp : ℤ) :
    ThreadFresh arch l { (getVcpuStat arch t l).2 with type := .isVcpu, smpVcpus := smp } where
  delta v := by
    rw [getVcpuStat_frame]
    exact h.delta v
  dfx v hm := by
    have hpid : (getVcpuStat arch t l).2.pid = t.pid := by rw [getVcpuStat_frame]
    have h0 : t.dfx v = 0 := by simpa [hv] using h.dfx v hm
    simp [getVcpuStat_dfx, hm, hpid, h0]

/-- **One directory entry keeps the array fresh.** -/
theorem childStep_inv {dom : Domain} {dirt : Dirent}
    (h : childStep arch sys l dom dirt st = .ok st') (hi : ChildInv arch l n st) :
    ChildInv arch l n st' := by
  obtain ⟨hfresh, hv⟩ := hi.thread
  simp only [childStep] at h
  split_ifs at h
  · cases h
    exact hi
  · cases h
    exact hi
  · cases h
    exact hi.setThread (hfresh.write hv hv 0 _) hv
  · obtain ⟨⟨r, t⟩, hstat, h⟩ := bind_eq_ok.1 h
    have hf := getProcStat_frame hstat
    have hthread : ProcessType.isThread ≠ .isVcpu := by decide
    have ht : ThreadFresh arch l t := (hfresh.write hv hthread _ _).stat hf hthread
    have htv : t.type ≠ .isVcpu := hf.type ▸ hthread
    simp only at h
    split_ifs at h
    · cases h
      exact hi.setThread ht htv
    · cases h
      exact hi.next (ht.vcpu htv 1) _
    · cases h
      exact hi.next (t := { t with smpVcpus := 1 }) ⟨ht.delta, ht.dfx⟩ _

/-- **The loop over the task directory keeps the array fresh.** -/
theorem childLoop_inv {dom : Domain} {entries : List Dirent}
    (h : childLoop arch sys l dom entries st = .ok st') (hi : ChildInv arch l n st) :
    ChildInv arch l n st' := by
  induction entries generalizing st with
  | nil =>
      cases h
      exact hi
  | cons dirt rest ih =>
      rw [childLoop] at h
      split_ifs at h
      · obtain ⟨st₁, hstep, h⟩ := bind_eq_ok.1 h
        exact ih h (childStep_inv hstep hi)
      · cases h
        exact hi

/-! ### The records of the list -/

/-- A record of a new snapshot before it is compared with the one before. -/
structure Fresh (arch : Arch) (l : VcpuList) (d : Domain) : Prop where
  delta : ∀ v, d.delta v = 0
  nlwp_pos : 0 < d.nlwp
  length : d.threads.length = d.nlwp.toNat
  threads : ∀ t ∈ d.threads, ThreadFresh arch l t

/-- What `get_child_pid` has done when it succeeds: it has walked the task directory over a
cleared array. -/
theorem getChildPid_eq_ok {dom d : Domain} {r : ℤ} (h : getChildPid arch sys l dom = .ok (r, d))
    (hr : 0 ≤ r) : 0 < dom.nlwp ∧ ∃ entries st, sys.taskDir (taskPath dom.pid) = some entries ∧
      childLoop arch sys l dom entries
        ⟨List.replicate dom.nlwp.toNat Task.zero, 0, dom.smpVcpus⟩ = .ok st ∧
      d = { dom with threads := st.threads, smpVcpus := st.smpVcpus } := by
  unfold getChildPid at h
  split at h
  · cases h
    exact absurd hr (by decide)
  · rename_i entries hdir
    split_ifs at h with hn
    · cases h
      exact absurd hr (by decide)
    · cases h
      exact absurd hr (by decide)
    · obtain ⟨st, hloop, h⟩ := bind_eq_ok.1 h
      cases h
      exact ⟨Int.not_le.1 hn, entries, st, hdir, hloop, rfl⟩

/-- `get_child_pid` succeeds only with an array of `nlwp` fresh threads. -/
theorem getChildPid_fresh {dom d : Domain} {r : ℤ} (h : getChildPid arch sys l dom = .ok (r, d))
    (hr : 0 ≤ r) (hdelta : ∀ v, dom.delta v = 0) : Fresh arch l d := by
  obtain ⟨hpos, _, st, -, hloop, rfl⟩ := getChildPid_eq_ok h hr
  have hinv := childLoop_inv hloop (.start _)
  exact ⟨hdelta, hpos, hinv.length, hinv.fresh⟩

/-- What `set_domain` reads once the id is accepted makes a fresh record, if it succeeds. -/
theorem loadDomain_fresh {name : Text} {dom d : Domain} {r : ℤ}
    (h : loadDomain arch sys l name dom = .ok (r, d)) (hr : 0 ≤ r)
    (hdelta : ∀ v, dom.delta v = 0) : Fresh arch l d := by
  obtain ⟨⟨r₁, t⟩, hstat, h⟩ := bind_eq_ok.1 h
  have hf := getProcStat_frame hstat
  simp only at h
  split at h
  · cases h
    exact absurd hr (by decide)
  · obtain ⟨⟨r₂, d₂⟩, hchild, h⟩ := bind_eq_ok.1 h
    simp only at h
    split_ifs at h with hr₂
    · cases h
      exact absurd hr (by decide)
    · cases h
      exact absurd hr (by decide)
    · cases h
      obtain ⟨h₁, h₂, h₃, h₄⟩ := getChildPid_fresh hchild (Int.not_lt.1 hr₂) fun v => by
        rw [hf.delta]
        exact hdelta v
      exact ⟨h₁, h₂, h₃, h₄⟩

/-- **`set_domain` accepts only fresh records.** -/
theorem setDomain_fresh {name : Text} {d : Domain} {r : ℤ}
    (h : setDomain arch monitorId sys l name Domain.zero = .ok (r, d)) (hr : 0 ≤ r) :
    Fresh arch l d := by
  simp only [setDomain] at h
  split_ifs at h
  iterate 4
    · cases h
      exact absurd hr (by decide)
  exact loadDomain_fresh h hr fun _ => rfl

/-- An entry that `get_qemu_id` calls `set_domain` for. -/
def isPidFile (entry : Dirent × Sys) : Bool :=
  entry.1.name ≠ ".".toList && entry.1.name ≠ "..".toList && entry.1.type = .reg &&
    checkPidFile entry.1.name = 0

/-- The three checks of `get_qemu_id`. -/
theorem isPidFile_iff_checks {dirent : Dirent} : isPidFile (dirent, sys) = true ↔
    ¬ (dirent.name = ".".toList ∨ dirent.name = "..".toList) ∧ dirent.type = .reg ∧
      checkPidFile dirent.name = 0 := by
  simp [isPidFile, and_assoc]

/-- The record `set_domain` makes of an entry, if it accepts it. -/
def readEntry (arch : Arch) (monitorId : ℤ) (l : VcpuList) (entry : Dirent × Sys) :
    Option Domain :=
  match setDomain arch monitorId entry.2 l entry.1.name Domain.zero with
  | .ok (r, d) => if r < 0 then none else some d
  | .error _ => none

/-- The records of a listing: those of the pid files that `set_domain` accepts, up to the
first one there is no memory for. -/
def scanned (arch : Arch) (monitorId : ℤ) (l : VcpuList) (entries : List (Dirent × Sys)) :
    List Domain :=
  ((entries.filter isPidFile).takeWhile fun e => e.2.mallocDomains).filterMap
    (readEntry arch monitorId l)

/-- An entry that is no pid file is passed over. -/
theorem qemuLoop_other {dirent : Dirent} (h : ¬ isPidFile (dirent, sys) = true)
    (rest : List (Dirent × Sys)) (list : DomainList) :
    qemuLoop arch monitorId l ((dirent, sys) :: rest) list =
      qemuLoop arch monitorId l rest list := by
  rw [qemuLoop]
  split_ifs with h₁ h₂ h₃
  · rfl
  · rfl
  · rfl
  · exact absurd (isPidFile_iff_checks.2 ⟨h₁, not_not.1 h₂, not_not.1 h₃⟩) h

/-- The record that is appended is cleared. -/
theorem addDomains_last {malloc : Bool} {list added : DomainList}
    (h : addDomains malloc list = some added) : added.last = Domain.zero := by
  unfold addDomains at h
  split_ifs at h
  cases h
  exact List.getLastD_concat ..

/-- `set_domain` is called for a pid file that there is memory for, on a cleared record. -/
theorem qemuLoop_pidFile {dirent : Dirent} (h : isPidFile (dirent, sys) = true)
    (rest : List (Dirent × Sys)) (list : DomainList) :
    qemuLoop arch monitorId l ((dirent, sys) :: rest) list =
      (addDomains sys.mallocDomains list).elim (.ok (-1, list)) fun added =>
        setDomain arch monitorId sys l dirent.name Domain.zero >>= fun p =>
          qemuLoop arch monitorId l rest
            (if p.1 < 0 then popDomains (added.setLast p.2) else added.setLast p.2) := by
  obtain ⟨hdirent, htype, hcheck⟩ := isPidFile_iff_checks.1 h
  simp only [qemuLoop, hdirent, htype, hcheck, if_false, ne_eq, not_true_eq_false]
  cases hadd : addDomains sys.mallocDomains list with
  | none => rfl
  | some added =>
      dsimp only
      rw [addDomains_last hadd]
      rfl

/-- **`get_qemu_id` appends the accepted records in listing order.** -/
theorem qemuLoop_domains {entries : List (Dirent × Sys)} {list list' : DomainList} {r : ℤ}
    (h : qemuLoop arch monitorId l entries list = .ok (r, list')) :
    list'.domains = list.domains ++ scanned arch monitorId l entries ∧
      list'.nodeNum = list.nodeNum ∧ (r = list'.num ∨ r = -1) := by
  induction entries generalizing list with
  | nil =>
      cases h
      simp [scanned]
  | cons entry rest ih =>
      obtain ⟨dirent, sys⟩ := entry
      by_cases hpid : isPidFile (dirent, sys) = true
      · rw [scanned, List.filter_cons_of_pos hpid]
        rw [qemuLoop_pidFile hpid] at h
        cases hm : sys.mallocDomains with
        | false =>
            rw [addDomains, hm] at h
            cases h
            simp [hm]
        | true =>
            rw [addDomains, hm] at h
            obtain ⟨⟨r₁, d⟩, hset, h⟩ := bind_eq_ok.1 h
            obtain ⟨hd, hrest⟩ := ih h
            simp only [List.takeWhile_cons, hm, if_true]
            simp only [DomainList.setLast, List.dropLast_concat] at hd hrest
            by_cases hr₁ : r₁ < 0
            · have hread : readEntry arch monitorId l (dirent, sys) = none := by
                simp [readEntry, hset, hr₁]
              rw [List.filterMap_cons_none hread]
              simp only [hr₁, if_true, popDomains, List.dropLast_concat] at hd hrest
              exact ⟨hd, hrest⟩
            · have hread : readEntry arch monitorId l (dirent, sys) = some d := by
                simp [readEntry, hset, hr₁]
              rw [List.filterMap_cons_some hread]
              simp only [hr₁, if_false, List.append_assoc, List.singleton_append] at hd hrest
              exact ⟨hd, hrest⟩
      · rw [qemuLoop_other hpid] at h
        rw [scanned, List.filter_cons_of_neg hpid]
        exact ih h

/-- The scan ends in no fault, where `set_domain` ends in none. -/
theorem qemuLoop_ok {entries : List (Dirent × Sys)}
    (h : ∀ e ∈ entries, isPidFile e = true →
      ∃ p, setDomain arch monitorId e.2 l e.1.name Domain.zero = .ok p) (list : DomainList) :
    ∃ x, qemuLoop arch monitorId l entries list = .ok x := by
  induction entries generalizing list with
  | nil => exact ⟨_, rfl⟩
  | cons entry rest ih =>
      obtain ⟨dirent, sys⟩ := entry
      rw [List.forall_mem_cons] at h
      by_cases hpid : isPidFile (dirent, sys) = true
      · rw [qemuLoop_pidFile hpid]
        cases addDomains sys.mallocDomains list with
        | none => exact ⟨_, rfl⟩
        | some added =>
            obtain ⟨p, hset⟩ := h.1 hpid
            rw [Option.elim_some, hset, ok_bind]
            exact ih h.2 _
      · rw [qemuLoop_other hpid]
        exact ih h.2 list

/-- Where there is memory for every record, a scan that ends has called `set_domain` for every
pid file. -/
theorem setDomain_of_qemuLoop {entries : List (Dirent × Sys)} {list : DomainList}
    (hmalloc : ∀ e ∈ entries, isPidFile e = true → e.2.mallocDomains = true)
    (h : ∃ x, qemuLoop arch monitorId l entries list = .ok x) :
    ∀ e ∈ entries, isPidFile e = true →
      ∃ p, setDomain arch monitorId e.2 l e.1.name Domain.zero = .ok p := by
  induction entries generalizing list with
  | nil => exact nofun
  | cons entry rest ih =>
      obtain ⟨dirent, sys⟩ := entry
      rw [List.forall_mem_cons] at hmalloc ⊢
      obtain ⟨x, h⟩ := h
      by_cases hpid : isPidFile (dirent, sys) = true
      · rw [qemuLoop_pidFile hpid, hmalloc.1 hpid] at h
        obtain ⟨p, hset, h⟩ := bind_eq_ok.1 h
        exact ⟨fun _ => ⟨p, hset⟩, ih hmalloc.2 ⟨x, h⟩⟩
      · rw [qemuLoop_other hpid] at h
        exact ⟨fun h => absurd h hpid, ih hmalloc.2 ⟨x, h⟩⟩

/-- Every record of a listing is fresh. -/
theorem scanned_fresh {entries : List (Dirent × Sys)} {d : Domain}
    (hd : d ∈ scanned arch monitorId l entries) : Fresh arch l d := by
  obtain ⟨e, -, he⟩ := List.mem_filterMap.1 hd
  unfold readEntry at he
  split at he
  · rename_i r d' hset
    split_ifs at he with hr
    cases he
    exact setDomain_fresh hset (Int.not_lt.1 hr)
  · cases he

end Vmtop
