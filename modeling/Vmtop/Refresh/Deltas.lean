/-
# What a refresh reports

`refresh_domains` compares the new snapshot with the one before through two
first-match lookups, the domain by its id and the thread by its pid, and a pass
over two tables of columns for each match.  `Rotated.refreshed` says what
comes out for every record, whatever the two snapshots hold: the times of a
domain and of each thread, and the counters of each vCPU, follow the three-way
rule against the record they are matched with, and a counter of a domain is the
sum over all its vCPUs, matched or not.
-/

import Mathlib.Algebra.BigOperators.Group.List.Basic
import Mathlib.Data.UInt
import Vmtop.Refresh.Host

namespace Vmtop

open CText CArray Sampled

variable {arch : Arch} {monitorId : ℤ} {l : VcpuList}

/-! ### The threads -/

/-- The thread of the snapshot `pre` that a thread of `d` is compared with: the first
with its pid, in the first domain with the id of `d`. -/
def baseline (pre : DomainList) (d : Domain) (t : Task) : Option Task :=
  (getDomainFromId d.domainId pre).bind (getThreadFromPid t.pid)

/-- What `refresh_threads` does to one thread. -/
def refreshThread (arch : Arch) (oldDom : Domain) (t : Task) : Task :=
  match getThreadFromPid t.pid oldDom with
  | none => t
  | some oldThread =>
      if t.type = .isVcpu then
        refreshDeltaVcpuStat arch (refreshDeltaStat t oldThread) oldThread
      else refreshDeltaStat t oldThread

/-- A pass over the columns keeps the type of a record. -/
theorem refreshDeltaStat_type (new old : Task) : (refreshDeltaStat new old).type = new.type := by
  rw [refreshDeltaStat_frame]

/-- The loop of `refresh_threads` treats every thread alike. -/
theorem threadsLoop_threads (oldDom : Domain) (ts : List Task) (dom : Task) :
    (threadsLoop arch oldDom ts dom).2 = ts.map (refreshThread arch oldDom) := by
  induction ts generalizing dom with
  | nil => rfl
  | cons t rest ih =>
      rw [threadsLoop, List.map_cons, refreshThread]
      cases getThreadFromPid t.pid oldDom with
      | none => simp only [ih]
      | some o =>
          simp only [refreshDeltaStat_type]
          split_ifs <;> simp only [ih]

/-- Comparing a thread changes its deltas only. -/
theorem refreshThread_frame (oldDom : Domain) (t : Task) :
    refreshThread arch oldDom t = { t with delta := (refreshThread arch oldDom t).delta } := by
  unfold refreshThread
  cases getThreadFromPid t.pid oldDom with
  | none => rfl
  | some o =>
      simp only
      split_ifs
      · rw [refreshDeltaVcpuStat, deltaPass_frame, refreshDeltaStat_frame]
      · rw [refreshDeltaStat_frame]

/-- The counters a thread of a given type is compared on. -/
def Compared (arch : Arch) (type : ProcessType) (v : Dfx) : Prop :=
  v = .utime ∨ v = .stime ∨ (type = .isVcpu ∧ v ∈ vcpuCounters arch)

/-- **A thread follows the three-way rule on the counters it is compared on**, and
reports nothing on the others. -/
theorem refreshThread_delta (oldDom : Domain) {t : Task} (ht : ∀ v, t.delta v = 0) (v : Dfx) :
    (Compared arch t.type v → (refreshThread arch oldDom t).delta v =
      threeWay ((getThreadFromPid t.pid oldDom).map fun o => (o.dfx v, o.delta v)) (t.dfx v)) ∧
    (¬ Compared arch t.type v → (refreshThread arch oldDom t).delta v = 0) := by
  unfold refreshThread Compared
  cases getThreadFromPid t.pid oldDom with
  | none => exact ⟨fun _ => ht v, fun _ => ht v⟩
  | some o =>
      have hdfx : (refreshDeltaStat t o).dfx = t.dfx := by rw [refreshDeltaStat_frame]
      simp only [Option.map_some]
      split_ifs with htype
      · rw [refreshDeltaVcpuStat_delta, refreshDeltaStat_delta, hdfx, ht]
        split_ifs with hv hs
        · exact ⟨fun _ => rfl, fun h => absurd (Or.inr (Or.inr ⟨htype, hv⟩)) h⟩
        · exact ⟨fun _ => rfl, fun h => absurd (hs.imp_right Or.inl) h⟩
        · rw [not_or] at hs
          exact ⟨fun h => by simp [hs, hv] at h, fun _ => rfl⟩
      · rw [refreshDeltaStat_delta, ht]
        split_ifs with hs
        · exact ⟨fun _ => rfl, fun h => absurd (hs.imp_right Or.inl) h⟩
        · rw [not_or] at hs
          exact ⟨fun h => by simp [hs, htype] at h, fun _ => rfl⟩

/-- The sum of a counter over the vCPUs among `ts`. -/
def vcpuSum (ts : List Task) (v : Dfx) : U64 :=
  ((ts.filter fun t => t.type = .isVcpu).map fun t => t.delta v).sum

/-- **The domain collects every vCPU once**: a matched one with the delta it was just
given, and an unmatched one, which `refresh_threads` skips, with the `0` it has. -/
theorem threadsLoop_delta (oldDom : Domain) (ts : List Task) (hts : ∀ t ∈ ts, ∀ v, t.delta v = 0)
    (dom : Task) (v : Dfx) :
    (threadsLoop arch oldDom ts dom).1.delta v =
      if v ∈ vcpuCounters arch then
        dom.delta v + vcpuSum (ts.map (refreshThread arch oldDom)) v
      else dom.delta v := by
  induction ts generalizing dom with
  | nil => simp [threadsLoop, vcpuSum]
  | cons t rest ih =>
      rw [List.forall_mem_cons] at hts
      have htype : (refreshThread arch oldDom t).type = t.type := by rw [refreshThread_frame]
      have hsum : vcpuSum ((t :: rest).map (refreshThread arch oldDom)) v =
          (if t.type = .isVcpu then (refreshThread arch oldDom t).delta v else 0) +
            vcpuSum (rest.map (refreshThread arch oldDom)) v := by
        unfold vcpuSum
        rw [List.map_cons, List.filter_cons]
        by_cases hv : t.type = .isVcpu <;> simp [htype, hv]
      rw [hsum, threadsLoop]
      cases hold : getThreadFromPid t.pid oldDom with
      | none =>
          have hskip : refreshThread arch oldDom t = t := by simp [refreshThread, hold]
          simp only [ih hts.2, hskip, hts.1 v]
          split_ifs <;> simp
      | some o =>
          simp only [refreshDeltaStat_type]
          by_cases hv : t.type = .isVcpu
          · have hthread : refreshThread arch oldDom t =
                refreshDeltaVcpuStat arch (refreshDeltaStat t o) o := by
              simp [refreshThread, hold, hv]
            simp only [hv, if_true, ih hts.2, sumVcpuStat_delta, hthread]
            split_ifs <;> simp [add_assoc]
          · simp only [hv, if_false, ih hts.2]
            split_ifs <;> simp

/-- Collecting changes the deltas and `st_max` of the domain only. -/
theorem threadsLoop_frame (arch : Arch) (oldDom : Domain) (ts : List Task) (dom : Task) :
    (threadsLoop arch oldDom ts dom).1 =
      { dom with
        delta := (threadsLoop arch oldDom ts dom).1.delta
        stMax := (threadsLoop arch oldDom ts dom).1.stMax } := by
  induction ts generalizing dom with
  | nil => rfl
  | cons t rest ih =>
      rw [threadsLoop]
      cases getThreadFromPid t.pid oldDom with
      | none => exact ih dom
      | some o =>
          simp only
          split_ifs
          · rw [ih, sumVcpuStat_frame]
          · exact ih dom

/-! ### The domains -/

/-- What a refresh reports on a thread of `d`, against the snapshot `pre`: `l` is the
`vcpu_stat` table its counters come from. -/
structure ThreadRefreshed (arch : Arch) (l : VcpuList) (pre : DomainList) (d : Domain)
    (t : Task) : Prop where
  dfx : ∀ v ∈ vcpuCounters arch,
    t.dfx v = if t.type = .isVcpu then (l.row t.pid).elim 0 fun r => r.dfx v else 0
  delta : ∀ v, Compared arch t.type v →
    t.delta v = threeWay ((baseline pre d t).map fun o => (o.dfx v, o.delta v)) (t.dfx v)
  other : ∀ v, ¬ Compared arch t.type v → t.delta v = 0

/-- What a refresh reports on a domain, against the snapshot `pre`. -/
structure Refreshed (arch : Arch) (l : VcpuList) (pre : DomainList) (d : Domain) : Prop where
  nlwp_pos : 0 < d.nlwp
  length : d.threads.length = d.nlwp.toNat
  threads : ∀ t ∈ d.threads, ThreadRefreshed arch l pre d t
  stat : ∀ v, v = .utime ∨ v = .stime →
    d.delta v =
      threeWay ((getDomainFromId d.domainId pre).map fun o => (o.dfx v, o.delta v)) (d.dfx v)
  vcpus : ∀ v ∈ vcpuCounters arch, d.delta v = vcpuSum d.threads v

/-- Where the array has `nlwp` entries the loops over the threads walk all of it. -/
theorem Domain.lwps_eq {d : Domain} (h : d.threads.length = d.nlwp.toNat) : d.lwps = d.threads :=
  List.take_of_length_le h.le

/-- Without a domain to compare with, nothing is reported. -/
theorem Fresh.refreshed_new {d : Domain} (hd : Fresh arch l d) {pre : DomainList}
    (hnone : getDomainFromId d.domainId pre = none) : Refreshed arch l pre d where
  nlwp_pos := hd.nlwp_pos
  length := hd.length
  threads t ht :=
    { dfx := (hd.threads t ht).dfx
      delta := fun v _ => by simp [baseline, hnone, threeWay, (hd.threads t ht).delta v]
      other := fun v _ => (hd.threads t ht).delta v }
  stat v _ := by simp [hnone, threeWay, hd.delta v]
  vcpus v _ := by
    have hzero : ∀ x ∈ (d.threads.filter fun t => t.type = .isVcpu).map fun t => t.delta v,
        x = 0 := by
      intro x hx
      obtain ⟨t, ht, rfl⟩ := List.mem_map.1 hx
      exact (hd.threads t (List.mem_filter.1 ht).1).delta v
    rw [hd.delta, vcpuSum, List.sum_eq_zero hzero]

/-- A fresh thread becomes a refreshed one, compared with the domain `old` that the domain
`d` it belongs to is matched with. -/
theorem ThreadFresh.refreshThread {t : Task} (ht : ThreadFresh arch l t) {pre : DomainList}
    {d old : Domain} (hold : getDomainFromId d.domainId pre = some old) :
    ThreadRefreshed arch l pre d (refreshThread arch old t) := by
  have hframe : Vmtop.refreshThread arch old t = _ := refreshThread_frame old t
  have hpid : (Vmtop.refreshThread arch old t).pid = t.pid := by rw [hframe]
  have htype : (Vmtop.refreshThread arch old t).type = t.type := by rw [hframe]
  have hdfx : (Vmtop.refreshThread arch old t).dfx = t.dfx := by rw [hframe]
  constructor
  · rw [hpid, htype, hdfx]
    exact ht.dfx
  · intro v hv
    simp only [baseline, hold, Option.bind_some, hpid, hdfx]
    exact (refreshThread_delta old ht.delta v).1 (htype ▸ hv)
  · intro v hv
    exact (refreshThread_delta old ht.delta v).2 (htype ▸ hv)

/-- What the loop of `refresh_domains` makes of a record that has an old one: the times are
compared, then the threads, and what they report is collected. -/
theorem refreshDomain_of_some {d old : Domain} (hlength : d.threads.length = d.nlwp.toNat)
    {pre : DomainList} (hold : getDomainFromId d.domainId pre = some old) :
    refreshDomain arch pre d =
      { toTask := (threadsLoop arch old d.threads (refreshDeltaStat d.toTask old.toTask)).1
        threads := d.threads.map (refreshThread arch old) } := by
  have hnlwp : (refreshDeltaStat d.toTask old.toTask).nlwp = d.nlwp := by
    rw [refreshDeltaStat_frame]
  have hlwps : Domain.lwps { d with toTask := refreshDeltaStat d.toTask old.toTask } = d.threads :=
    Domain.lwps_eq (by rw [hnlwp, hlength])
  have hdrop : d.threads.drop (refreshDeltaStat d.toTask old.toTask).nlwp.toNat = [] := by
    rw [hnlwp, ← hlength, List.drop_length]
  simp only [refreshDomain, hold, refreshThreads, hlwps, threadsLoop_threads, hdrop,
    List.append_nil]

/-- **A fresh record becomes a refreshed one.** -/
theorem Fresh.refreshDomain {d : Domain} (hd : Fresh arch l d) (pre : DomainList) :
    Refreshed arch l pre (refreshDomain arch pre d) := by
  cases hold : getDomainFromId d.domainId pre with
  | none =>
      rw [Vmtop.refreshDomain, hold]
      exact hd.refreshed_new hold
  | some old =>
      rw [refreshDomain_of_some hd.length hold]
      have hstat (v : Dfx) := refreshDeltaStat_delta d.toTask old.toTask v
      have hdom := refreshDeltaStat_frame d.toTask old.toTask
      generalize refreshDeltaStat d.toTask old.toTask = dom at hstat hdom ⊢
      have hframe : (threadsLoop arch old d.threads dom).1 =
          { d.toTask with
            delta := (threadsLoop arch old d.threads dom).1.delta
            stMax := (threadsLoop arch old d.threads dom).1.stMax } := by
        rw [threadsLoop_frame, hdom]
      have hdelta (v : Dfx) : (threadsLoop arch old d.threads dom).1.delta v = _ :=
        threadsLoop_delta old d.threads (fun t ht => (hd.threads t ht).delta) dom v
      have hid : (threadsLoop arch old d.threads dom).1.domainId = d.domainId := by rw [hframe]
      constructor
      · rw [hframe]
        exact hd.nlwp_pos
      · rw [hframe, List.length_map]
        exact hd.length
      · intro t' ht'
        obtain ⟨t, ht, rfl⟩ := List.mem_map.1 ht'
        exact (hd.threads t ht).refreshThread (hid ▸ hold)
      · intro v hv
        have hnot : v ∉ vcpuCounters arch := fun hm =>
          hv.elim (ne_stat_of_mem_vcpuCounters hm).1 (ne_stat_of_mem_vcpuCounters hm).2
        have hdfx : (threadsLoop arch old d.threads dom).1.dfx = d.dfx := by rw [hframe]
        simp only [hid, hold, Option.map_some, hdfx]
        rw [hdelta, if_neg hnot, hstat, if_pos hv]
      · intro v hv
        have hzero : dom.delta v = 0 := by
          rw [hstat, if_neg (not_or.2 (ne_stat_of_mem_vcpuCounters hv)), hd.delta]
        simp only
        rw [hdelta, if_pos hv, hzero, zero_add]

/-! ### The refresh -/

/-- The records a refresh finds, before they are compared. -/
def snapshot (arch : Arch) (monitorId : ℤ) (env : Env) (l : VcpuList) : List Domain :=
  match env.vcpuStat, env.qemuDir with
  | some _, some entries => scanned arch monitorId l entries
  | _, _ => []

/-- The records of a snapshot are those of a listing. -/
theorem mem_snapshot {arch : Arch} {monitorId : ℤ} {env : Env} {l : VcpuList} {d : Domain}
    (hd : d ∈ snapshot arch monitorId env l) :
    ∃ entries, d ∈ scanned arch monitorId l entries := by
  unfold snapshot at hd
  split at hd
  · rename_i _ entries _ _
    exact ⟨entries, hd⟩
  · cases hd

/-- What one `refresh_domains` does to the lists: the old snapshot moves to `pre`, and
the records found are compared with it. -/
structure Rotated (arch : Arch) (monitorId : ℤ) (env : Env) (s : Lists) (r : ℤ) (s' : Lists) :
    Prop where
  vcpuList : s'.vcpuList = (getVcpuList arch env.vcpuStat s.vcpuList).2
  pre : s'.pre.domains = s.now.domains
  now : s'.now.domains =
    (snapshot arch monitorId env s'.vcpuList).map (refreshDomain arch s'.pre)
  nodeNum : s'.now.nodeNum = s.now.nodeNum
  result : r = s'.now.num ∨ r = -1
  unread : env.vcpuStat = none ∨ env.qemuDir = none → r = -1

variable {env : Env} {s s' : Lists} {r : ℤ}

theorem refreshDomains_rotated (h : refreshDomains arch monitorId env s = .ok (r, s')) :
    Rotated arch monitorId env s r s' := by
  simp only [refreshDomains] at h
  cases hfile : env.vcpuStat with
  | none =>
      simp only [hfile, getVcpuList] at h
      cases h
      exact
        { vcpuList := by rw [hfile]; rfl
          pre := rfl
          now := by simp [snapshot, hfile, initDomains]
          nodeNum := rfl
          result := Or.inr rfl
          unread := fun _ => rfl }
  | some text =>
      have hpos : ¬ (getVcpuList arch (some text) s.vcpuList).1 < 0 :=
        Int.not_lt.2 (Int.natCast_nonneg _)
      rw [hfile, if_neg hpos] at h
      obtain ⟨⟨num, now⟩, hscan, h⟩ := bind_eq_ok.1 h
      cases h
      cases hdir : env.qemuDir with
      | none =>
          rw [hdir] at hscan
          cases hscan
          exact
            { vcpuList := by rw [hfile]
              pre := rfl
              now := by simp [snapshot, hfile, hdir, initDomains]
              nodeNum := rfl
              result := Or.inr rfl
              unread := fun _ => rfl }
      | some entries =>
          rw [hdir] at hscan
          obtain ⟨hd, hn, hr⟩ := qemuLoop_domains hscan
          exact
            { vcpuList := by rw [hfile]
              pre := rfl
              now := by simp [snapshot, hfile, hdir, hd, initDomains]
              nodeNum := hn
              result := by simpa [DomainList.num] using hr
              unread := by simp [hfile, hdir] }

/-- **Every record of a new snapshot is compared with the snapshot before.** -/
theorem Rotated.refreshed (h : Rotated arch monitorId env s r s') :
    ∀ d ∈ s'.now.domains, Refreshed arch s'.vcpuList s'.pre d := by
  intro d hd
  rw [h.now] at hd
  obtain ⟨d₀, hd₀, rfl⟩ := List.mem_map.1 hd
  obtain ⟨entries, hscanned⟩ := mem_snapshot hd₀
  exact (scanned_fresh hscanned).refreshDomain _

/-- A sum of machine words is the sum of their values modulo `2^64`. -/
theorem sum_toNat (xs : List U64) : xs.sum.toNat = (xs.map UInt64.toNat).sum % 2 ^ 64 := by
  induction xs with
  | nil => rfl
  | cons x xs ih => rw [List.sum_cons, UInt64.toNat_add, ih, List.map_cons, List.sum_cons,
      Nat.add_mod_mod]

/-- **The deltas of a domain row.**  After any refresh, whatever the two snapshots
hold, a `vcpu_stat` counter of a domain is modulo `2^64` the sum over all its vCPUs
of their deltas, each by the three-way rule against the first thread with its pid in the
first old domain with the id of its own, and its times follow the three-way rule against
that domain. -/
theorem refreshDomains_domain_deltas (h : refreshDomains arch monitorId env s = .ok (r, s'))
    {d : Domain} (hd : d ∈ s'.now.domains) :
    s'.pre.domains = s.now.domains ∧
    (∀ v ∈ vcpuCounters arch, (d.delta v).toNat =
      ((d.lwps.filter fun t => t.type = .isVcpu).map fun t => (t.delta v).toNat).sum % 2 ^ 64) ∧
    (∀ t ∈ d.lwps, t.type = .isVcpu → ∀ v ∈ vcpuCounters arch, t.delta v =
      threeWay (((s.now.domains.find? fun o => o.domainId = d.domainId).bind fun o =>
        o.lwps.find? fun ot => ot.pid = t.pid).map fun old => (old.dfx v, old.delta v))
        (t.dfx v)) ∧
    ∀ v, v = .utime ∨ v = .stime → d.delta v =
      threeWay ((s.now.domains.find? fun o => o.domainId = d.domainId).map
        fun old => (old.dfx v, old.delta v)) (d.dfx v) := by
  have hrot := refreshDomains_rotated h
  have href := hrot.refreshed d hd
  have hlwps := Domain.lwps_eq href.length
  have hfind : getDomainFromId d.domainId s'.pre =
      s.now.domains.find? fun o => o.domainId = d.domainId := by
    rw [getDomainFromId, hrot.pre]
  refine ⟨hrot.pre, fun v hv => ?_, fun t ht htype v hv => ?_, fun v hv => ?_⟩
  · rw [href.vcpus v hv, hlwps, vcpuSum, sum_toNat, List.map_map]
    rfl
  · rw [hlwps] at ht
    have hdelta := (href.threads t ht).delta v (Or.inr (Or.inr ⟨htype, hv⟩))
    rwa [baseline, hfind] at hdelta
  · rw [← hfind]
    exact href.stat v hv

/-- What a refresh shows of its domains, the id and the user time, and of their threads, the
pid, whether it is a vCPU, and the `exits`. -/
def vcpuCells (s : Lists) : List (ℤ × ℕ) × List (ℤ × Bool × ℕ) :=
  (s.now.domains.map fun d => (d.domainId, (d.dfx .utime).toNat),
    (s.now.domains.flatMap Domain.lwps).map fun t =>
      (t.pid, t.type = .isVcpu, (t.dfx .exits).toNat))

/-- A virtual machine whose vCPU is matched with the thread of an earlier snapshot: the exits
grew from `5` to `8` and the user time from `5` to `10`. -/
theorem refreshDomains_domain_deltas_host : ∃ r s' d t old,
    refreshDomains .other (-1) (hostEnv (vcpuLine .other 1 8) 10) oneVcpuLists = .ok (r, s') ∧
      s'.now.domains = [d] ∧ d.lwps = [t] ∧ oneVcpuLists.now.domains = [old] ∧
      old.domainId = d.domainId ∧ (old.lwps.map Task.pid) = [t.pid] ∧
      (d.delta .exits).toNat = 3 ∧ (t.delta .exits).toNat = 3 ∧ (d.delta .utime).toNat = 5 := by
  have hcells : (refreshDomains .other (-1) (hostEnv (vcpuLine .other 1 8) 10)
      oneVcpuLists).toOption.map (fun p => vcpuCells p.2) = some ([(0, 10)], [(1, true, 8)]) := by
    decide +kernel
  obtain ⟨⟨r, s'⟩, hok, hcells⟩ := Option.map_eq_some_iff.1 hcells
  have hok := toOption_eq_some.1 hok
  obtain ⟨hdomain, hthread⟩ := Prod.mk.inj hcells
  obtain ⟨d, hdoms, hd⟩ := List.map_eq_singleton_iff.1 hdomain
  rw [hdoms, List.flatMap_singleton] at hthread
  obtain ⟨hid, hutime⟩ := Prod.mk.inj hd
  obtain ⟨t, hlwps, ht⟩ := List.map_eq_singleton_iff.1 hthread
  simp only [Prod.mk.injEq, decide_eq_true_eq] at ht
  obtain ⟨hpid, htype, hexits⟩ := ht
  have hmem : t ∈ d.lwps := hlwps ▸ List.mem_singleton_self t
  obtain ⟨-, hsum, hthread, htimes⟩ :=
    refreshDomains_domain_deltas hok (d := d) (hdoms ▸ List.mem_singleton_self d)
  have hsum := hsum .exits (by decide)
  have hthread := hthread t hmem htype .exits (by decide)
  have htimes := htimes .utime (Or.inl rfl)
  have hutime : d.dfx .utime = 10 := UInt64.toNat_inj.1 hutime
  have hexits : t.dfx .exits = 8 := UInt64.toNat_inj.1 hexits
  rw [hid, hpid, hexits] at hthread
  rw [hid, hutime] at htimes
  have hthree : (t.delta .exits).toNat = 3 := congrArg UInt64.toNat hthread
  refine ⟨r, s', d, t, _, hok, hdoms, hlwps, rfl, hid.symm, ?_, ?_, hthree, ?_⟩
  · rw [hpid]
    rfl
  · rw [hsum, hlwps]
    simp [htype, hthree]
  · exact congrArg UInt64.toNat htimes

end Vmtop
