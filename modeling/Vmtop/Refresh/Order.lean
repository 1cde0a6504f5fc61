/-
# A refresh and the order of its listings

A comparison looks its old record and its old threads up by id and by pid, and what a domain
collects of its threads is a sum, so a record in which the threads stand in another order is
compared alike (`refreshDomain_reordered`).  Where ids are unique, a refresh that finds its
listings in another order makes the same records in another order
(`refreshDomains_reordered`).
-/

import Vmtop.Refresh.Deltas
import Vmtop.Refresh.Listings

namespace Vmtop

open CText CArray Reordered

variable {arch : Arch} {monitorId : ℤ} {l : VcpuList} {d d' : Domain}

/-! ### The comparison -/

/-- The same record, but for the order of its threads and for what the sampling of bandwidth
stores. -/
structure SameRecord (d d' : Domain) : Prop where
  record : d' = { d with
    ctlBandwidth := d'.ctlBandwidth
    bandwidthUpdatedSucc := d'.bandwidthUpdatedSucc
    threads := d'.threads }
  threads : d.threads.Perm d'.threads

/-- What `refresh_threads` adds to the domain for one thread. -/
def collect (arch : Arch) (oldDom : Domain) (dom t : Task) : Task :=
  if (getThreadFromPid t.pid oldDom).isSome ∧ t.type = .isVcpu then
    sumVcpuStat arch dom (refreshThread arch oldDom t)
  else dom

theorem threadsLoop_collect (oldDom : Domain) (ts : List Task) (dom : Task) :
    (threadsLoop arch oldDom ts dom).1 = ts.foldl (collect arch oldDom) dom := by
  induction ts generalizing dom with
  | nil => rfl
  | cons t rest ih =>
      rw [threadsLoop, List.foldl_cons, collect, refreshThread]
      cases getThreadFromPid t.pid oldDom with
      | none => exact ih dom
      | some o =>
          simp only [refreshDeltaStat_type]
          by_cases hv : t.type = .isVcpu
          · simp only [hv, Option.isSome_some, and_self, if_true, ih]
          · simp only [hv, and_false, if_false, ih]

/-- Two threads are added in either order. -/
theorem sumVcpuStat_comm (dom t t' : Task) :
    sumVcpuStat arch (sumVcpuStat arch dom t) t' =
      sumVcpuStat arch (sumVcpuStat arch dom t') t := by
  have hframe (t t' : Task) : sumVcpuStat arch (sumVcpuStat arch dom t) t' =
      { dom with
        delta := (sumVcpuStat arch (sumVcpuStat arch dom t) t').delta
        stMax := (sumVcpuStat arch (sumVcpuStat arch dom t) t').stMax } :=
    (sumVcpuStat_frame _ t').trans (by rw [sumVcpuStat_frame dom t])
  have hdelta : (sumVcpuStat arch (sumVcpuStat arch dom t) t').delta =
      (sumVcpuStat arch (sumVcpuStat arch dom t') t).delta := by
    funext v
    simp only [sumVcpuStat_delta]
    split_ifs
    · exact add_right_comm _ _ _
    · rfl
  have hstMax : (sumVcpuStat arch (sumVcpuStat arch dom t) t').stMax =
      (sumVcpuStat arch (sumVcpuStat arch dom t') t).stMax := by
    simp only [sumVcpuStat_stMax]
    exact add_right_comm _ _ _
  rw [hframe t t', hframe t' t, hdelta, hstMax]

theorem collect_comm (oldDom : Domain) (dom t t' : Task) :
    collect arch oldDom (collect arch oldDom dom t) t' =
      collect arch oldDom (collect arch oldDom dom t') t := by
  simp only [collect]
  split_ifs
  · exact sumVcpuStat_comm _ _ _
  all_goals rfl

/-- **The domain collects the same of its threads in any order.** -/
theorem threadsLoop_perm (oldDom : Domain) {ts ts' : List Task} (h : ts.Perm ts') (dom : Task) :
    (threadsLoop arch oldDom ts dom).1 = (threadsLoop arch oldDom ts' dom).1 := by
  rw [threadsLoop_collect, threadsLoop_collect]
  exact h.foldl_eq' (fun t _ t' _ dom => collect_comm oldDom dom t t') dom

theorem threadsLoop_congr {oldDom oldDom' : Domain}
    (h : ∀ pid, getThreadFromPid pid oldDom' = getThreadFromPid pid oldDom) (ts : List Task)
    (dom : Task) : threadsLoop arch oldDom' ts dom = threadsLoop arch oldDom ts dom := by
  induction ts generalizing dom with
  | nil => rfl
  | cons t rest ih => simp only [threadsLoop, h, ih]

/-- No two records have one id, and no two threads of a record one pid. -/
structure UniqueIds (ds : List Domain) : Prop where
  ids : (ds.map fun d => d.domainId).Nodup
  pids : ∀ d ∈ ds, (d.lwps.map fun t => t.pid).Nodup

/-- The lookup of a thread does not see the order of the threads. -/
theorem SameRecord.getThreadFromPid_eq (h : SameRecord d d')
    (hlength : d.threads.length = d.nlwp.toNat) (hunique : (d.lwps.map fun t => t.pid).Nodup)
    (pid : ℤ) : getThreadFromPid pid d' = getThreadFromPid pid d := by
  have hnlwp : d'.nlwp = d.nlwp := by rw [h.record]
  have hlength' : d'.threads.length = d'.nlwp.toNat := by
    rw [← h.threads.length_eq, hlength, hnlwp]
  rw [Domain.lwps_eq hlength] at hunique
  rw [getThreadFromPid, getThreadFromPid, Domain.lwps_eq hlength, Domain.lwps_eq hlength']
  exact (find?_eq_of_perm h.threads hunique pid).symm

/-- A record is compared with the old record of its domain alike, whichever order its own
threads and those of the old record have. -/
theorem refreshDomain_same {pre pre' : DomainList} {old old' : Domain}
    (hd : SameButOrder d d') (hlength : d.threads.length = d.nlwp.toNat)
    (hold : getDomainFromId d.domainId pre = some old)
    (hold' : getDomainFromId d.domainId pre' = some old') (hsame : SameRecord old old')
    (hthread : ∀ pid, getThreadFromPid pid old' = getThreadFromPid pid old) :
    SameButOrder (refreshDomain arch pre d) (refreshDomain arch pre' d') := by
  obtain ⟨ts, hts, rfl⟩ := hd
  have hrefresh : refreshThread arch old' = refreshThread arch old := by
    funext t
    rw [refreshThread, refreshThread, hthread]
  have hstat : refreshDeltaStat d.toTask old'.toTask = refreshDeltaStat d.toTask old.toTask := by
    rw [hsame.record]
    rfl
  refine ⟨ts.map (refreshThread arch old), ?_, ?_⟩
  · rw [refreshDomain_of_some hlength hold]
    exact hts.map _
  · rw [refreshDomain_of_some hlength hold,
      refreshDomain_of_some (d := { d with threads := ts }) (hts.length_eq.trans hlength) hold']
    simp only
    rw [hrefresh, hstat, threadsLoop_congr hthread, threadsLoop_perm old hts]

/-- **A record is compared alike in any order**, where ids are unique in the list before. -/
theorem refreshDomain_reordered {pre pre' : DomainList} (hd : SameButOrder d d')
    (hlength : d.threads.length = d.nlwp.toNat)
    (hpre : UpToOrder SameRecord pre.domains pre'.domains) (hunique : UniqueIds pre.domains)
    (hfull : ∀ o ∈ pre.domains, o.threads.length = o.nlwp.toNat) :
    SameButOrder (refreshDomain arch pre d) (refreshDomain arch pre' d') := by
  have hid : d'.domainId = d.domainId := by
    obtain ⟨ts, -, rfl⟩ := hd
    rfl
  have hfind := hpre.find? (fun a b hab => congrArg (fun d => d.domainId) hab.record)
    hunique.ids d.domainId
  cases hold : getDomainFromId d.domainId pre with
  | none =>
      have hold' : getDomainFromId d'.domainId pre' = none := by
        rw [getDomainFromId] at hold
        rw [hold] at hfind
        rw [hid, getDomainFromId]
        exact eq_none_of_rel_none hfind
      rw [refreshDomain, refreshDomain, hold, hold']
      exact hd
  | some old =>
      have hmem : old ∈ pre.domains := List.mem_of_find?_eq_some hold
      obtain ⟨old', hold', hsame⟩ : ∃ old', getDomainFromId d.domainId pre' = some old' ∧
          SameRecord old old' := by
        rw [getDomainFromId] at hold ⊢
        rw [hold] at hfind
        exact exists_of_rel_some hfind
      exact refreshDomain_same hd hlength hold hold' hsame
        (hsame.getThreadFromPid_eq (hfull old hmem) (hunique.pids old hmem))

/-! ### The refresh -/

/-- The same snapshot, but for the orders in which the pid files and the threads are listed. -/
structure SameEnv (env env' : Env) : Prop where
  vcpuStat : env'.vcpuStat = env.vcpuStat
  qemuDir : env.qemuDir.Rel (UpToOrder SameEntry) env'.qemuDir

/-- A snapshot whose pid files are regular. -/
def RegularEnv (monitorId : ℤ) (env : Env) : Prop :=
  ∀ entries, env.qemuDir = some entries → RegularListing monitorId entries

variable {env env' : Env} {s t : Lists}

theorem snapshot_reordered (h : SameEnv env env') (hreg : RegularEnv monitorId env) :
    UpToOrder SameButOrder (snapshot arch monitorId env l) (snapshot arch monitorId env' l) := by
  have hrel := h.qemuDir
  unfold snapshot
  rw [h.vcpuStat]
  cases hfile : env.vcpuStat with
  | none => exact .zero
  | some text =>
      cases hdir : env.qemuDir with
      | none =>
          rw [hdir] at hrel
          rw [eq_none_of_rel_none hrel]
          exact .zero
      | some entries =>
          rw [hdir] at hrel
          obtain ⟨entries', hdir', hsame⟩ := exists_of_rel_some hrel
          rw [hdir']
          exact scanned_reordered hsame (hreg entries hdir)

/-- A refresh that is no fault is none in another order. -/
theorem refreshDomains_ok (h : SameEnv env env') (hreg : RegularEnv monitorId env)
    (hvcpu : t.vcpuList = s.vcpuList) (hok : ∃ x, refreshDomains arch monitorId env s = .ok x) :
    ∃ x, refreshDomains arch monitorId env' t = .ok x := by
  obtain ⟨x, hok⟩ := hok
  have hrel := h.qemuDir
  simp only [refreshDomains, h.vcpuStat, hvcpu] at hok ⊢
  by_cases hn : (getVcpuList arch env.vcpuStat s.vcpuList).1 < 0
  · rw [if_pos hn]
    exact ⟨_, rfl⟩
  · rw [if_neg hn] at hok ⊢
    obtain ⟨q, hqemu, -⟩ := bind_eq_ok.1 hok
    suffices hscan : ∃ q, getQemuId arch monitorId env'.qemuDir
        (getVcpuList arch env.vcpuStat s.vcpuList).2 (initDomains t.now) = .ok q by
      obtain ⟨q', hq'⟩ := hscan
      rw [hq']
      exact ⟨_, rfl⟩
    cases hdir : env.qemuDir with
    | none =>
        rw [hdir] at hrel
        rw [eq_none_of_rel_none hrel]
        exact ⟨_, rfl⟩
    | some entries =>
        rw [hdir] at hrel hqemu
        obtain ⟨entries', hdir', hsame⟩ := exists_of_rel_some hrel
        rw [hdir']
        exact qemuLoop_reordered hsame (hreg entries hdir) ⟨q, hqemu⟩ _

/-- Lists that hold the same records in whatever order, and the same `vcpu_stat` table. -/
structure SameLists (s t : Lists) : Prop where
  now : UpToOrder SameRecord s.now.domains t.now.domains
  vcpuList : t.vcpuList = s.vcpuList

/-- **A refresh makes the same records in any order.** -/
theorem refreshDomains_reordered {r : ℤ} {mid : Lists} (h : SameEnv env env')
    (hreg : RegularEnv monitorId env) (hlists : SameLists s t) (hunique : UniqueIds s.now.domains)
    (hfull : ∀ o ∈ s.now.domains, o.threads.length = o.nlwp.toNat)
    (hok : refreshDomains arch monitorId env s = .ok (r, mid)) :
    ∃ r' mid', refreshDomains arch monitorId env' t = .ok (r', mid') ∧
      UpToOrder SameButOrder mid.now.domains mid'.now.domains ∧ mid'.vcpuList = mid.vcpuList := by
  obtain ⟨⟨r', mid'⟩, hok'⟩ := refreshDomains_ok h hreg hlists.vcpuList ⟨_, hok⟩
  have hrot := refreshDomains_rotated hok
  have hrot' := refreshDomains_rotated hok'
  have hvcpu : mid'.vcpuList = mid.vcpuList := by
    rw [hrot.vcpuList, hrot'.vcpuList, h.vcpuStat, hlists.vcpuList]
  have hpre : UpToOrder SameRecord mid.pre.domains mid'.pre.domains := by
    rw [hrot.pre, hrot'.pre]
    exact hlists.now
  refine ⟨r', mid', hok', ?_, hvcpu⟩
  rw [hrot.now, hrot'.now, hvcpu]
  refine (snapshot_reordered h hreg).map fun d hd d' _ hsame => ?_
  obtain ⟨entries, hscanned⟩ := mem_snapshot hd
  exact refreshDomain_reordered hsame (scanned_fresh hscanned).length hpre (hrot.pre ▸ hunique)
    (hrot.pre ▸ hfull)

end Vmtop
