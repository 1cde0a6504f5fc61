/-
# The scheduling delay of a virtual machine

`st_max` is a current value and no delta, but a domain collects it of its threads in
`refresh_threads`, together with the deltas: for the threads that the snapshot before has a
record of.  What the others show is missed (`missedWait`), so a domain shows the sum over all
its vCPUs exactly when the missed ones add up to zero, and two refreshes that read the same
show the same exactly when they miss the same (`refreshDomains_stMax_iff`).
-/

import Vmtop.Refresh.Order

namespace Vmtop

open CText CArray

variable {arch : Arch} {monitorId : ℤ} {l : VcpuList} {env : Env} {s s' : Lists} {r : ℤ}
  {d : Domain}

/-- The sum of `st_max` over the vCPUs among `ts`. -/
def vcpuWait (ts : List Task) : U64 :=
  ((ts.filter fun t => t.type = .isVcpu).map fun t => t.stMax).sum

/-- What `t` adds to the sum. -/
def waitOf (t : Task) : U64 := if t.type = .isVcpu then t.stMax else 0

theorem vcpuWait_cons (t : Task) (ts : List Task) :
    vcpuWait (t :: ts) = waitOf t + vcpuWait ts := by
  unfold vcpuWait waitOf
  rw [List.filter_cons]
  by_cases hv : t.type = .isVcpu <;> simp [hv]

/-- What the vCPUs of `d` show that the snapshot `pre` has no record of. -/
def missedWait (pre : DomainList) (d : Domain) : U64 :=
  vcpuWait (d.lwps.filter fun t => (baseline pre d t).isNone)

/-! ### One record -/

/-- One thread adds its `st_max` if it has an old record. -/
theorem collect_stMax (oldDom : Domain) (dom t : Task) :
    (collect arch oldDom dom t).stMax =
      dom.stMax + if (getThreadFromPid t.pid oldDom).isSome then waitOf t else 0 := by
  have hthread : (refreshThread arch oldDom t).stMax = t.stMax := by rw [refreshThread_frame]
  unfold collect waitOf
  by_cases hsome : (getThreadFromPid t.pid oldDom).isSome = true
  · by_cases hv : t.type = .isVcpu
    · rw [if_pos ⟨hsome, hv⟩, if_pos hsome, if_pos hv, sumVcpuStat_stMax, hthread]
    · rw [if_neg fun h => hv h.2, if_pos hsome, if_neg hv, add_zero]
  · rw [if_neg fun h => hsome h.1, if_neg hsome, add_zero]

/-- **The loop over the threads adds up what it does not skip.** -/
theorem threadsLoop_stMax (arch : Arch) (oldDom : Domain) (ts : List Task) (dom : Task) :
    (threadsLoop arch oldDom ts dom).1.stMax +
        vcpuWait (ts.filter fun t => (getThreadFromPid t.pid oldDom).isNone) =
      dom.stMax + vcpuWait ts := by
  rw [threadsLoop_collect]
  induction ts generalizing dom with
  | nil => rfl
  | cons t rest ih =>
      rw [List.foldl_cons, vcpuWait_cons, ← add_assoc]
      have hstep := ih (collect arch oldDom dom t)
      rw [collect_stMax] at hstep
      cases hold : getThreadFromPid t.pid oldDom with
      | none =>
          rw [hold, Option.isSome_none, if_neg Bool.false_ne_true, add_zero] at hstep
          rw [List.filter_cons_of_pos (by rw [hold]; rfl), vcpuWait_cons, add_left_comm, hstep]
          exact (add_left_comm _ _ _).trans (add_assoc _ _ _).symm
      | some o =>
          rw [hold, Option.isSome_some, if_pos rfl] at hstep
          rw [List.filter_cons_of_neg (by rw [hold]; exact Bool.false_ne_true), hstep]

/-- No thread has an old record where the domain has none. -/
theorem missedWait_of_none {pre : DomainList} (hold : getDomainFromId d.domainId pre = none) :
    missedWait pre d = vcpuWait d.lwps := by
  have hall : (d.lwps.filter fun t => (baseline pre d t).isNone) = d.lwps :=
    List.filter_eq_self.2 fun t _ => by rw [baseline, hold]; rfl
  rw [missedWait, hall]

/-- **What a domain collects and what it misses is what its vCPUs show**, if its record starts
from zero. -/
theorem refreshDomain_stMax (arch : Arch) (hlength : d.threads.length = d.nlwp.toNat)
    (hzero : d.stMax = 0) (pre : DomainList) :
    (refreshDomain arch pre d).stMax + missedWait pre d = vcpuWait d.lwps := by
  cases hold : getDomainFromId d.domainId pre with
  | none =>
      rw [refreshDomain, hold, missedWait_of_none hold]
      simp only
      rw [hzero, zero_add]
  | some old =>
      have hstat : (refreshDeltaStat d.toTask old.toTask).stMax = 0 := by
        rw [refreshDeltaStat_frame]
        exact hzero
      have hloop := threadsLoop_stMax arch old d.threads
        (refreshDeltaStat d.toTask old.toTask)
      rw [hstat, zero_add] at hloop
      rw [refreshDomain_of_some hlength hold, missedWait, Domain.lwps_eq hlength]
      simp only [baseline, hold, Option.bind_some]
      exact hloop

/-- Comparing threads changes nothing of what they show. -/
theorem vcpuWait_refreshed (oldDom : Domain) (ts : List Task) :
    vcpuWait (ts.map (refreshThread arch oldDom)) = vcpuWait ts := by
  induction ts with
  | nil => rfl
  | cons t rest ih =>
      have hthread : waitOf (refreshThread arch oldDom t) = waitOf t := by
        rw [refreshThread_frame]
        rfl
      rw [List.map_cons, vcpuWait_cons, vcpuWait_cons, hthread, ih]

theorem refreshDomain_vcpuWait (hlength : d.threads.length = d.nlwp.toNat) (pre : DomainList) :
    vcpuWait (refreshDomain arch pre d).lwps = vcpuWait d.lwps := by
  cases hold : getDomainFromId d.domainId pre with
  | none => rw [refreshDomain, hold]
  | some old =>
      have hnlwp : (refreshDomain arch pre d).threads.length =
          (refreshDomain arch pre d).nlwp.toNat := by
        rw [refreshDomain_of_some hlength hold, threadsLoop_frame, refreshDeltaStat_frame,
          List.length_map]
        exact hlength
      rw [Domain.lwps_eq hnlwp, Domain.lwps_eq hlength, refreshDomain_of_some hlength hold]
      exact vcpuWait_refreshed old d.threads

/-- The comparison sees the records of the old list and nothing else of it. -/
theorem refreshDomain_congr {pre pre' : DomainList} (h : pre.domains = pre'.domains) :
    refreshDomain arch pre = refreshDomain arch pre' := by
  funext d
  simp only [refreshDomain, getDomainFromId, h]

/-! ### A refresh -/

/-- A record that is read has collected nothing yet. -/
theorem scanned_stMax {entries : List (Dirent × Sys)} (hd : d ∈ scanned arch monitorId l entries) :
    d.stMax = 0 := by
  obtain ⟨⟨dirent, sys⟩, -, hread⟩ := List.mem_filterMap.1 hd
  obtain ⟨dom, r, d', hprocess, hchild, hr, -, rfl⟩ := readEntry_eq_some.1 hread
  obtain ⟨-, -, st, -, -, rfl⟩ := getChildPid_eq_ok hchild hr
  exact (readProcess_cleared hprocess).2.1

/-- The records that a refresh reads, before it compares them. -/
def recordsRead (arch : Arch) (monitorId : ℤ) (env : Env) (s : Lists) : List Domain :=
  snapshot arch monitorId env (getVcpuList arch env.vcpuStat s.vcpuList).2

theorem recordsRead_regular (hd : d ∈ recordsRead arch monitorId env s) :
    d.threads.length = d.nlwp.toNat ∧ d.stMax = 0 := by
  obtain ⟨entries, hscanned⟩ := mem_snapshot hd
  exact ⟨(scanned_fresh hscanned).length, scanned_stMax hscanned⟩

theorem refreshDomains_now (h : refreshDomains arch monitorId env s = .ok (r, s')) :
    s'.now.domains = (recordsRead arch monitorId env s).map (refreshDomain arch s.now) := by
  have hrot := refreshDomains_rotated h
  rw [hrot.now, hrot.vcpuList, refreshDomain_congr hrot.pre]
  rfl

/-- **When `st_max` of a domain is the sum over its vCPUs**: exactly when the vCPUs that the
snapshot before has no record of add up to zero.  **And when it does not depend on that
snapshot**: two refreshes that read the same show the same exactly when these add up to the
same in both. -/
theorem refreshDomains_stMax_iff (h : refreshDomains arch monitorId env s = .ok (r, s')) :
    s'.now.domains = (recordsRead arch monitorId env s).map (refreshDomain arch s.now) ∧
    (∀ d ∈ recordsRead arch monitorId env s,
      ((refreshDomain arch s.now d).stMax = vcpuWait (refreshDomain arch s.now d).lwps ↔
        missedWait s.now d = 0)) ∧
    ∀ t r₂ t', refreshDomains arch monitorId env t = .ok (r₂, t') → t.vcpuList = s.vcpuList →
      t'.now.domains = (recordsRead arch monitorId env s).map (refreshDomain arch t.now) ∧
      ∀ d ∈ recordsRead arch monitorId env s,
        ((refreshDomain arch t.now d).stMax = (refreshDomain arch s.now d).stMax ↔
          missedWait t.now d = missedWait s.now d) := by
  refine ⟨refreshDomains_now h, fun d hd => ?_, fun t r₂ t' h₂ hvcpu => ⟨?_, fun d hd => ?_⟩⟩
  · obtain ⟨hlength, hzero⟩ := recordsRead_regular hd
    have hsum := refreshDomain_stMax arch hlength hzero s.now
    rw [refreshDomain_vcpuWait hlength, ← hsum, left_eq_add]
  · have hsame : recordsRead arch monitorId env t = recordsRead arch monitorId env s := by
      rw [recordsRead, hvcpu, recordsRead]
    rw [refreshDomains_now h₂, hsame]
  · obtain ⟨hlength, hzero⟩ := recordsRead_regular hd
    have hs := refreshDomain_stMax arch hlength hzero s.now
    have ht := refreshDomain_stMax arch hlength hzero t.now
    constructor
    · intro heq
      rw [heq, ← hs] at ht
      exact add_left_cancel ht
    · intro heq
      rw [heq, ← hs] at ht
      exact add_right_cancel ht

/-- A host with one virtual machine of two vCPUs, which show `5` and `7`. -/
def twoVcpuEnv : Env where
  vcpuStat := some (vcpuLine .other 1 5 ++ vcpuLine .other 2 7)
  qemuDir := some [(⟨decimal 0 ++ ".pid".toList, .reg⟩,
    { hostSys 1 0 (statLine "CPU 0/KVM".toList 10 0 2) with
      taskDir := fun _ => some [⟨decimal 1, .dir⟩, ⟨decimal 2, .dir⟩] })]

/-- Lists that have a record of both vCPUs. -/
def twoVcpuLists : Lists :=
  let vcpu : Task := { Task.zero with type := .isVcpu, nlwp := 1 }
  { oneVcpuLists with
    now :=
      { DomainList.empty with
        domains := [{ Domain.zero with
          nlwp := 2
          threads := [{ vcpu with pid := 1 }, { vcpu with pid := 2 }] }] } }

/-- The second vCPU is missed by a refresh that has a record of the first alone, and by none that
has a record of both. -/
theorem refreshDomains_stMax_iff_host : ∃ r s' d,
    refreshDomains .other (-1) twoVcpuEnv oneVcpuLists = .ok (r, s') ∧
      s'.now.domains = [refreshDomain .other oneVcpuLists.now d] ∧
      missedWait oneVcpuLists.now d = 7 ∧ missedWait twoVcpuLists.now d = 0 ∧
      (refreshDomain .other oneVcpuLists.now d).stMax ≠
        vcpuWait (refreshDomain .other oneVcpuLists.now d).lwps ∧
      (refreshDomain .other twoVcpuLists.now d).stMax =
        vcpuWait (refreshDomain .other twoVcpuLists.now d).lwps ∧
      (refreshDomain .other twoVcpuLists.now d).stMax ≠
        (refreshDomain .other oneVcpuLists.now d).stMax := by
  have hone : (refreshDomains .other (-1) twoVcpuEnv oneVcpuLists).toOption.map Prod.fst =
      some 1 := by decide +kernel
  have htwo : (refreshDomains .other (-1) twoVcpuEnv twoVcpuLists).toOption.map Prod.fst =
      some 1 := by decide +kernel
  obtain ⟨⟨r, s'⟩, hone, -⟩ := Option.map_eq_some_iff.1 hone
  obtain ⟨⟨r₂, t'⟩, htwo, -⟩ := Option.map_eq_some_iff.1 htwo
  have hone := toOption_eq_some.1 hone
  have htwo := toOption_eq_some.1 htwo
  have hmissed : (recordsRead .other (-1) twoVcpuEnv oneVcpuLists).map (fun d =>
      (missedWait oneVcpuLists.now d, missedWait twoVcpuLists.now d)) = [(7, 0)] := by
    decide +kernel
  obtain ⟨d, hread, hd⟩ := List.map_eq_singleton_iff.1 hmissed
  obtain ⟨hseven, hzero⟩ := Prod.mk.inj hd
  have hmem : d ∈ recordsRead .other (-1) twoVcpuEnv oneVcpuLists :=
    hread ▸ List.mem_singleton_self d
  obtain ⟨hnow, hsum, hboth⟩ := refreshDomains_stMax_iff hone
  refine ⟨r, s', d, hone, by rw [hnow, hread]; rfl, hseven, hzero, fun heq => ?_, ?_,
    fun heq => ?_⟩
  · rw [(hsum d hmem).1 heq] at hseven
    exact absurd hseven (by decide)
  · exact ((refreshDomains_stMax_iff htwo).2.1 d hmem).2 hzero
  · have hsame := ((hboth twoVcpuLists r₂ t' htwo rfl).2 d hmem).1 heq
    rw [hseven, hzero] at hsame
    exact absurd hsame (by decide)

/-- **The first refresh shows no delay**: the vCPU shows `5`, and its domain `0`. -/
theorem refreshDomains_stMax_first : ¬ ∀ (arch : Arch) (monitorId : ℤ) (env : Env) (s s' : Lists)
    (r : ℤ), refreshDomains arch monitorId env s = .ok (r, s') →
    ∀ d ∈ s'.now.domains, d.stMax = vcpuWait d.lwps := by
  intro h
  have hshown : (refreshDomains .other (-1) (hostEnv (vcpuLine .other 1 5) 10)
      zeroLists).toOption.map (fun p => p.2.now.domains.map fun d => (d.stMax, vcpuWait d.lwps)) =
        some [(0, 5)] := by
    decide +kernel
  obtain ⟨⟨r, s'⟩, hok, hshown⟩ := Option.map_eq_some_iff.1 hshown
  obtain ⟨d, ds, hds, hd, -⟩ := List.map_eq_cons_iff.1 hshown
  have hsum := h _ _ _ _ s' r (toOption_eq_some.1 hok) d (hds ▸ List.mem_cons_self)
  rw [Prod.mk.injEq] at hd
  rw [hd.1, hd.2] at hsum
  exact absurd hsum (by decide)

end Vmtop
