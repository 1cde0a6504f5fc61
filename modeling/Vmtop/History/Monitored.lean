/-
# A run that watches one virtual machine

With `-p` the scan of the qemu directory drops every process whose id is another one, right
after it has read the id.  What it keeps is compared by id, so a run with `-p` shows in every
frame the records that a run without it shows of that id, in the same order and with the same
deltas (`runAll_monitored`).  The other virtual machines have no part in it, not even where two
processes share the id.  Only what the sampling of bandwidth stores may differ: it reads other
counters for a virtual machine that stands elsewhere in the list.
-/

import Vmtop.History.Identity
import Vmtop.History.Order
import Vmtop.Refresh.Accepted

namespace Vmtop

open CText CArray Reordered Runs

variable {arch : Arch} {c : Config} {m id : ℤ} {sys : Sys} {l : VcpuList} {name : Text}
  {entry : Dirent × Sys} {d dom : Domain}

/-- The records of one virtual machine. -/
def recordsOf (id : ℤ) (ds : List Domain) : List Domain := ds.filter fun d => d.domainId = id

/-! ### The scan -/

/-- The check of `-p` comes on top of the other checks. -/
theorem checkedEntry_monitored (hm : m < 0) (hid : 0 ≤ id) (sys : Sys) (name : Text) :
    checkedEntry id sys name =
      (checkedEntry m sys name).filter fun dom => dom.domainId = id := by
  have hall : ¬ 0 ≤ m := Int.not_le.2 hm
  simp only [checkedEntry, hall, hid, false_and, true_and, or_false]
  by_cases hfail : (readFile (sys.file (varRunQemuPath ++ '/' :: name)) pidStringMax
      (sys.stale (varRunQemuPath ++ '/' :: name))).1 < 0 ∨
    readPid (cstr (readFile (sys.file (varRunQemuPath ++ '/' :: name)) pidStringMax
      (sys.stale (varRunQemuPath ++ '/' :: name))).2) < 1 ∨
    getIdFromCgroup sys (readPid (cstr (readFile (sys.file (varRunQemuPath ++ '/' :: name))
      pidStringMax (sys.stale (varRunQemuPath ++ '/' :: name))).2)) < 0
  · rw [if_pos hfail, if_pos (hfail.imp_right (Or.imp_right Or.inl))]
    rfl
  · rw [if_neg hfail, Option.filter_some]
    simp only [not_or] at hfail
    simp only [hfail, false_or, ite_not, decide_eq_true_eq]

/-- What is read of a process keeps the id it was checked with. -/
theorem readEntry_domainId (hcheck : checkedEntry m entry.2 entry.1.name = some dom)
    (h : readEntry arch m l entry = some d) : d.domainId = dom.domainId := by
  obtain ⟨dom', r, d', hprocess, hchild, hr, -, rfl⟩ := readEntry_eq_some.1 h
  obtain ⟨-, _, st, -, -, rfl⟩ := getChildPid_eq_ok hchild hr
  rw [readProcess, hcheck, Option.bind_some] at hprocess
  split at hprocess
  · rename_i r t hstat
    split_ifs at hprocess
    cases hprocess
    exact (getProcStat_frame hstat).domainId
  · cases hprocess

/-- A process whose id is checked is read alike with and without `-p`. -/
theorem setDomain_monitored (hm : m < 0) (hid : 0 ≤ id)
    (hcheck : checkedEntry m sys name = some dom) (hdom : dom.domainId = id) :
    setDomain arch id sys l name Domain.zero = setDomain arch m sys l name Domain.zero := by
  have hcheck' : checkedEntry id sys name = some dom := by
    rw [checkedEntry_monitored hm hid, hcheck, Option.filter_some, if_pos (decide_eq_true hdom)]
  rw [setDomain_of_some hcheck, setDomain_of_some hcheck']

/-- Every other one is rejected. -/
theorem setDomain_other (arch : Arch) (l : VcpuList) (hm : m < 0) (hid : 0 ≤ id)
    (hother : ∀ dom, checkedEntry m sys name = some dom → dom.domainId ≠ id) :
    ∃ d, setDomain arch id sys l name Domain.zero = .ok (-1, d) := by
  refine setDomain_of_none arch l ?_
  rw [checkedEntry_monitored hm hid, Option.filter_eq_none_iff]
  intro dom hcheck
  simpa using hother dom hcheck

/-- **With `-p` an entry is read as without it, if it has the id.** -/
theorem readEntry_monitored (hm : m < 0) (hid : 0 ≤ id) (entry : Dirent × Sys) :
    readEntry arch id l entry = (readEntry arch m l entry).filter fun d => d.domainId = id := by
  by_cases h : ∃ dom, checkedEntry m entry.2 entry.1.name = some dom ∧ dom.domainId = id
  · obtain ⟨dom, hcheck, hdom⟩ := h
    have hsame : readEntry arch id l entry = readEntry arch m l entry := by
      rw [readEntry, readEntry, setDomain_monitored hm hid hcheck hdom]
    rw [hsame]
    cases hd : readEntry arch m l entry with
    | none => rfl
    | some d =>
        rw [Option.filter_some, if_pos (decide_eq_true ((readEntry_domainId hcheck hd).trans hdom))]
  · have hother : ∀ dom, checkedEntry m entry.2 entry.1.name = some dom → dom.domainId ≠ id :=
      fun dom hcheck hdom => h ⟨dom, hcheck, hdom⟩
    obtain ⟨d, hset⟩ := setDomain_other arch l hm hid hother
    have hnone : readEntry arch id l entry = none := by
      rw [readEntry, hset]
      rfl
    rw [hnone, eq_comm, Option.filter_eq_none_iff]
    intro d hd
    cases hcheck : checkedEntry m entry.2 entry.1.name with
    | none =>
        obtain ⟨d', hset'⟩ := setDomain_of_none arch l hcheck
        rw [readEntry, hset'] at hd
        cases hd
    | some dom =>
        have hne := hother dom hcheck
        rw [← readEntry_domainId hcheck hd] at hne
        simpa using hne

theorem scanned_monitored (hm : m < 0) (hid : 0 ≤ id) (entries : List (Dirent × Sys)) :
    scanned arch id l entries = recordsOf id (scanned arch m l entries) := by
  have hread : readEntry arch id l =
      fun entry => (readEntry arch m l entry).filter fun d => d.domainId = id :=
    funext (readEntry_monitored hm hid)
  rw [scanned, scanned, recordsOf, List.filter_filterMap, hread]

theorem snapshot_monitored (hm : m < 0) (hid : 0 ≤ id) (env : Env) :
    snapshot arch id env l = recordsOf id (snapshot arch m env l) := by
  unfold snapshot
  cases env.vcpuStat with
  | none => rfl
  | some text =>
      cases env.qemuDir with
      | none => rfl
      | some entries => exact scanned_monitored hm hid entries

/-- With `-p` `set_domain` does less, so it faults less. -/
theorem setDomain_monitored_ok (hm : m < 0) (hid : 0 ≤ id)
    (h : ∃ p, setDomain arch m sys l name Domain.zero = .ok p) :
    ∃ p, setDomain arch id sys l name Domain.zero = .ok p := by
  by_cases hsome : ∃ dom, checkedEntry m sys name = some dom ∧ dom.domainId = id
  · obtain ⟨dom, hcheck, hdom⟩ := hsome
    rwa [setDomain_monitored hm hid hcheck hdom]
  · obtain ⟨d, hset⟩ := setDomain_other arch l hm hid
      fun dom hcheck hdom => hsome ⟨dom, hcheck, hdom⟩
    exact ⟨_, hset⟩

theorem qemuLoop_monitored_ok (hm : m < 0) (hid : 0 ≤ id) {entries : List (Dirent × Sys)}
    {list : DomainList} (h : ∃ x, qemuLoop arch m l entries list = .ok x) (list' : DomainList) :
    ∃ x, qemuLoop arch id l entries list' = .ok x := by
  induction entries generalizing list list' with
  | nil => exact ⟨_, rfl⟩
  | cons entry rest ih =>
      obtain ⟨dirent, sys⟩ := entry
      obtain ⟨x, h⟩ := h
      by_cases hpid : isPidFile (dirent, sys) = true
      · rw [qemuLoop_pidFile hpid] at h ⊢
        cases hmalloc : sys.mallocDomains with
        | false => exact ⟨_, rfl⟩
        | true =>
            rw [addDomains, hmalloc] at h
            obtain ⟨p, hset, h⟩ := bind_eq_ok.1 h
            obtain ⟨p', hset'⟩ := setDomain_monitored_ok hm hid ⟨p, hset⟩
            rw [addDomains, if_pos rfl, Option.elim_some, hset', ok_bind]
            exact ih ⟨x, h⟩ _
      · rw [qemuLoop_other hpid] at h ⊢
        exact ih ⟨x, h⟩ list'

/-! ### The comparison -/

theorem SameSample.symm {d d' : Domain} (h : SameSample d d') : SameSample d' d := by
  rw [SameSample, h]

theorem SameSample.domainId_eq {d d' : Domain} (h : SameSample d d') :
    d'.domainId = d.domainId := by
  rw [h]

/-- The records of one virtual machine stay so while bandwidth is sampled. -/
theorem recordsOf_sampled {ds ds' : List Domain} (h : SameSamples ds ds') :
    SameSamples (recordsOf id ds) (recordsOf id ds') := by
  refine List.rel_filter (fun d d' hd => ?_) h
  dsimp only
  rw [hd.domainId_eq]

/-- What keeps the ids may be done before or after the others are dropped. -/
theorem recordsOf_map {f : Domain → Domain} {ds : List Domain}
    (hf : ∀ d ∈ ds, (f d).domainId = d.domainId) :
    recordsOf id (ds.map f) = (recordsOf id ds).map f := by
  rw [recordsOf, recordsOf, List.filter_map]
  congr 1
  refine List.filter_congr fun d hd => ?_
  rw [Function.comp_apply, hf d hd]

/-- What a record is compared with may differ in its bandwidths. -/
theorem refreshThreads_sampled {old old' : Domain} (h : SameSample old old') (d : Domain) :
    refreshThreads arch { d with toTask := refreshDeltaStat d.toTask old'.toTask } old' =
      refreshThreads arch { d with toTask := refreshDeltaStat d.toTask old.toTask } old := by
  have hthread (pid : ℤ) : getThreadFromPid pid old' = getThreadFromPid pid old := by
    rw [h]
    rfl
  have hstat : refreshDeltaStat d.toTask old'.toTask = refreshDeltaStat d.toTask old.toTask := by
    rw [h]
    rfl
  rw [hstat, refreshThreads, refreshThreads, threadsLoop_congr hthread]

/-- **A record is compared alike against the records of its id alone.** -/
theorem refreshDomain_monitored {pre pre' : DomainList}
    (h : SameSamples (recordsOf id pre.domains) pre'.domains) (hd : d.domainId = id) :
    refreshDomain arch pre' d = refreshDomain arch pre d := by
  have hfind : (getDomainFromId d.domainId pre).Rel SameSample
      (getDomainFromId d.domainId pre') := by
    have hrel := rel_find? (p := fun o => decide (o.domainId = id))
      (q := fun o => decide (o.domainId = id)) h fun o o' ho => by rw [ho.domainId_eq]
    simp only [recordsOf, List.find?_filter, decide_eq_true_eq, and_self] at hrel
    rwa [hd, getDomainFromId, getDomainFromId]
  unfold refreshDomain
  cases hold : getDomainFromId d.domainId pre with
  | none =>
      rw [hold] at hfind
      rw [eq_none_of_rel_none hfind]
  | some old =>
      rw [hold] at hfind
      obtain ⟨old', hold', hsame⟩ := exists_of_rel_some hfind
      rw [hold']
      exact refreshThreads_sampled hsame d

/-! ### A frame and a run -/

/-- The lists `t` of a run with `-p`, beside those of a run without it. -/
structure Monitored (id : ℤ) (s t : Lists) : Prop where
  now : SameSamples (recordsOf id s.now.domains) t.now.domains
  pre : SameSamples (recordsOf id s.pre.domains) t.pre.domains
  vcpuList : t.vcpuList = s.vcpuList

variable {env : Env} {s s' t : Lists}

/-- **A refresh with `-p` keeps the records of the id.** -/
theorem refreshDomains_monitored (hm : m < 0) (hid : 0 ≤ id) (hlists : Monitored id s t) {r : ℤ}
    {mid : Lists} (hok : refreshDomains arch m env s = .ok (r, mid)) :
    ∃ r' mid', refreshDomains arch id env t = .ok (r', mid') ∧
      mid'.now.domains = recordsOf id mid.now.domains ∧
      SameSamples (recordsOf id mid.pre.domains) mid'.pre.domains ∧
      mid'.vcpuList = mid.vcpuList := by
  obtain ⟨⟨r', mid'⟩, hok'⟩ : ∃ x, refreshDomains arch id env t = .ok x := by
    simp only [refreshDomains, hlists.vcpuList] at hok ⊢
    by_cases hn : (getVcpuList arch env.vcpuStat s.vcpuList).1 < 0
    · rw [if_pos hn]
      exact ⟨_, rfl⟩
    · rw [if_neg hn] at hok ⊢
      obtain ⟨q, hqemu, -⟩ := bind_eq_ok.1 hok
      suffices hscan : ∃ q, getQemuId arch id env.qemuDir
          (getVcpuList arch env.vcpuStat s.vcpuList).2 (initDomains t.now) = .ok q by
        obtain ⟨q', hq'⟩ := hscan
        rw [hq']
        exact ⟨_, rfl⟩
      unfold getQemuId at hqemu ⊢
      cases hdir : env.qemuDir with
      | none => exact ⟨_, rfl⟩
      | some entries =>
          rw [hdir] at hqemu
          exact qemuLoop_monitored_ok hm hid ⟨q, hqemu⟩ _
  have hrot := refreshDomains_rotated hok
  have hrot' := refreshDomains_rotated hok'
  have hvcpu : mid'.vcpuList = mid.vcpuList := by
    rw [hrot.vcpuList, hrot'.vcpuList, hlists.vcpuList]
  have hpre : SameSamples (recordsOf id mid.pre.domains) mid'.pre.domains := by
    rw [hrot.pre, hrot'.pre]
    exact hlists.now
  refine ⟨r', mid', hok', ?_, hpre, hvcpu⟩
  rw [hrot.now, hrot'.now, hvcpu, snapshot_monitored hm hid, recordsOf_map fun d hd => ?_]
  · refine List.map_congr_left fun d hd => refreshDomain_monitored hpre ?_
    simpa using List.of_mem_filter hd
  · obtain ⟨_, hscanned⟩ := mem_snapshot hd
    exact refreshDomain_domainId (scanned_fresh hscanned) mid.pre

/-- **A frame with `-p` makes the records that the frame without it makes of the id.** -/
theorem sampleFrame_monitored (hm : c.monitorId < 0) (hid : 0 ≤ id) (hlists : Monitored id s t)
    {env : FrameEnv} (hok : sampleFrame c env s = .ok s') :
    ∃ t', sampleFrame { c with monitorId := id } env t = .ok t' ∧ Monitored id s' t' := by
  obtain ⟨⟨r, mid⟩, hrefresh, hsample⟩ := bind_eq_ok.1 hok
  obtain ⟨r', mid', hrefresh', hnow, hpre, hvcpu⟩ :=
    refreshDomains_monitored hm hid hlists hrefresh
  have hnum : mid'.now.num ≤ mid.now.num := by
    rw [DomainList.num, hnow]
    exact List.length_filter_le _ _
  obtain ⟨t', hok'⟩ : ∃ t', sampleFrame { c with monitorId := id } env t = .ok t' := by
    rw [sampleFrame, hrefresh', ok_bind]
    dsimp only at hsample ⊢
    have hon : resctrlEnable { c with monitorId := id } env = resctrlEnable c env := rfl
    rw [hon]
    split_ifs at hsample ⊢
    · obtain ⟨now, hnow, -⟩ := bind_eq_ok.1 hsample
      obtain ⟨now', hnow'⟩ := refreshDomainsBandwidth_ok hnum ⟨now, hnow⟩
      rw [hnow']
      exact ⟨_, rfl⟩
    · exact ⟨_, rfl⟩
  obtain ⟨_, _, hframed⟩ := sampleFrame_framed hok
  obtain ⟨_, _, hframed'⟩ := sampleFrame_framed hok'
  obtain ⟨-, rfl⟩ := Prod.mk.inj (Except.ok.inj (hrefresh.symm.trans hframed.refreshed))
  obtain ⟨-, rfl⟩ := Prod.mk.inj (Except.ok.inj (hrefresh'.symm.trans hframed'.refreshed))
  refine ⟨t', hok', ?_, ?_, ?_⟩
  · have hback : SameSamples s'.now.domains mid.now.domains :=
      hframed.sampled.flip.imp fun _ _ h => SameSample.symm h
    exact (recordsOf_sampled hback).trans (hnow ▸ hframed'.sampled)
  · rw [hframed.pre, hframed'.pre]
    exact hpre
  · rw [hframed.vcpuList, hframed'.vcpuList, hvcpu]

/-- **A run with `-p` follows the run without it**: in every frame its two lists are what the
lists of the other run hold of the id, in their order, and it ends in no fault where the other
run ends in none. -/
theorem runAll_monitored (hm : c.monitorId < 0) (hid : 0 ≤ id) {envs : List FrameEnv}
    {rows : Arr maxVcpuNum Task} (h : runAll (sampleFrame c) envs (.start rows) = .ok s) :
    ∃ t, runAll (sampleFrame { c with monitorId := id }) envs (.start rows) = .ok t ∧
      Monitored id s t := by
  have hstart : Monitored id (.start rows) (.start rows) := ⟨.nil, .nil, rfl⟩
  have hstep : ∀ env s t s', Monitored id s t → sampleFrame c env s = .ok s' →
      ∃ t', sampleFrame { c with monitorId := id } env t = .ok t' ∧ Monitored id s' t' :=
    fun _ _ _ _ hlists hok => sampleFrame_monitored hm hid hlists hok
  exact runAll_simulate hstep hstart h

/-- Two frames that find two virtual machines, of which the second is watched. -/
theorem runAll_monitored_pair : ∃ s t,
    runAll (sampleFrame hostConfig) [pairFrame [0, 1], pairFrame [1, 0]] zeroLists = .ok s ∧
      runAll (sampleFrame { hostConfig with monitorId := 1 })
        [pairFrame [0, 1], pairFrame [1, 0]] zeroLists = .ok t ∧
      idRows t = [(1, [2])] ∧ Monitored 1 s t := by
  have hok : (runAll (sampleFrame hostConfig) [pairFrame [0, 1], pairFrame [1, 0]]
      zeroLists).toOption.isSome = true := by decide +kernel
  obtain ⟨s, hs⟩ := Option.isSome_iff_exists.1 hok
  rw [toOption_eq_some] at hs
  obtain ⟨t, ht, hlists⟩ : ∃ t, runAll (sampleFrame { hostConfig with monitorId := 1 })
      [pairFrame [0, 1], pairFrame [1, 0]] zeroLists = .ok t ∧ Monitored 1 s t :=
    runAll_monitored (by decide) (by decide) hs
  have hrows : ((runAll (sampleFrame { hostConfig with monitorId := 1 })
      [pairFrame [0, 1], pairFrame [1, 0]] zeroLists).toOption.map idRows) =
        some [(1, [2])] := by decide +kernel
  rw [ht] at hrows
  exact ⟨s, t, hs, ht, Option.some.inj hrows, hlists⟩

end Vmtop
