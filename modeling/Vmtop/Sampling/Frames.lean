/-
# One frame and the array of sample counts

`sampleFrame` is a refresh and a sampling.  The refresh uses no subscript that could
leave an array (`refreshDomains_ends`), and the sampling changes the bandwidths only
(`sampleFrame_framed`), so a record of a frame is what the refresh made it.

`sample_times_vms` has room for `MAX_VM_TASKS_NUM` virtual machines.  A run of frames
stays within it exactly when no frame that samples finds more
(`runAll_sampleFrame_in_bounds_iff`); `get_vcpu_list`, which fills an array of fixed
size just like it, stops at the end of that array, but `get_qemu_id` does not stop.
-/

import Vmtop.Frame
import Vmtop.Lib.Run
import Vmtop.Refresh.Deltas
import Vmtop.Sampling.Subscripts

namespace Vmtop

open CText CArray Runs

variable {arch : Arch} {monitorId : ℤ} {sys : Sys} {l : VcpuList} {c : Config}

/-! ### The refresh -/

/-- The only fault of a refresh is a name that ends without having begun. -/
abbrev BadPointer (e : Fault) : Prop := e = .badPointer

theorem getProcStat_ends (t : Task) : Ends (getProcStat sys t) (fun _ => True) BadPointer := by
  simp only [getProcStat, parseStat]
  split_ifs
  · trivial
  · trivial
  · split
    · trivial
    · rfl

section
variable {E : Fault → Prop}

theorem childStep_ends (hstat : ∀ t, Ends (getProcStat sys t) (fun _ => True) E) (dom : Domain)
    (dirt : Dirent) (st : ChildState) :
    Ends (childStep arch sys l dom dirt st) (fun _ => True) E := by
  simp only [childStep]
  split_ifs
  · trivial
  · trivial
  · trivial
  · refine (hstat _).bind fun p _ => ?_
    obtain ⟨r, t⟩ := p
    dsimp only
    split_ifs <;> trivial

theorem childLoop_ends (hstat : ∀ t, Ends (getProcStat sys t) (fun _ => True) E) (dom : Domain)
    (entries : List Dirent) (st : ChildState) :
    Ends (childLoop arch sys l dom entries st) (fun _ => True) E := by
  induction entries generalizing st with
  | nil => trivial
  | cons dirt rest ih =>
      rw [childLoop]
      split_ifs
      · exact (childStep_ends hstat dom dirt st).bind fun st _ => ih st
      · trivial

theorem getChildPid_ends (hstat : ∀ t, Ends (getProcStat sys t) (fun _ => True) E)
    (dom : Domain) : Ends (getChildPid arch sys l dom) (fun _ => True) E := by
  unfold getChildPid
  split
  · trivial
  · split_ifs
    · trivial
    · trivial
    · exact (childLoop_ends hstat dom _ _).bind fun _ _ => trivial

theorem setDomain_ends (hstat : ∀ t, Ends (getProcStat sys t) (fun _ => True) E) (name : Text)
    (dom : Domain) : Ends (setDomain arch monitorId sys l name dom) (fun _ => True) E := by
  simp only [setDomain]
  split_ifs
  iterate 4 trivial
  refine (hstat _).bind fun p _ => ?_
  obtain ⟨r, t⟩ := p
  dsimp only
  split
  · trivial
  · refine (getChildPid_ends hstat _).bind fun q _ => ?_
    obtain ⟨r, d⟩ := q
    dsimp only
    split_ifs <;> trivial

theorem qemuLoop_ends {entries : List (Dirent × Sys)}
    (hstat : ∀ e ∈ entries, ∀ t, Ends (getProcStat e.2 t) (fun _ => True) E)
    (list : DomainList) :
    Ends (qemuLoop arch monitorId l entries list) (fun _ => True) E := by
  induction entries generalizing list with
  | nil => trivial
  | cons entry rest ih =>
      obtain ⟨dirent, sys⟩ := entry
      rw [List.forall_mem_cons] at hstat
      rw [qemuLoop]
      split_ifs
      · exact ih hstat.2 list
      · exact ih hstat.2 list
      · exact ih hstat.2 list
      · split
        · trivial
        · refine (setDomain_ends hstat.1 _ _).bind fun p _ => ?_
          obtain ⟨r, dom⟩ := p
          exact ih hstat.2 _

/-- A refresh faults on a stat file only. -/
theorem refreshDomains_ends_of {env : Env}
    (hstat : ∀ entries, env.qemuDir = some entries → ∀ e ∈ entries, ∀ t,
      Ends (getProcStat e.2 t) (fun _ => True) E) (arch : Arch) (monitorId : ℤ) (s : Lists) :
    Ends (refreshDomains arch monitorId env s) (fun _ => True) E := by
  simp only [refreshDomains]
  split_ifs
  · trivial
  · refine Ends.bind (P := fun _ => True) ?_ fun _ _ => trivial
    unfold getQemuId
    split
    · trivial
    · rename_i entries hdir
      exact qemuLoop_ends (hstat entries hdir) _

end

/-- **A refresh never leaves an array.** -/
theorem refreshDomains_ends (arch : Arch) (monitorId : ℤ) (env : Env) (s : Lists) :
    Ends (refreshDomains arch monitorId env s) (fun _ => True) BadPointer :=
  refreshDomains_ends_of (fun _ _ _ _ => getProcStat_ends) arch monitorId s

/-! ### The frame -/

/-- What a frame does to the lists: a refresh, after which only bandwidths change. -/
structure Framed (c : Config) (env : FrameEnv) (s s' : Lists) (r : ℤ) (mid : Lists) : Prop where
  refreshed : refreshDomains c.arch c.monitorId env.refresh s = .ok (r, mid)
  sampled : SameSamples mid.now.domains s'.now.domains
  pre : s'.pre = mid.pre
  vcpuList : s'.vcpuList = mid.vcpuList

theorem sampleFrame_framed {env : FrameEnv} {s s' : Lists} (h : sampleFrame c env s = .ok s') :
    ∃ r mid, Framed c env s s' r mid := by
  obtain ⟨⟨r, mid⟩, hrefresh, h⟩ := bind_eq_ok.1 h
  dsimp only at h
  split_ifs at h with hon
  · obtain ⟨now, hnow, h⟩ := bind_eq_ok.1 h
    cases h
    have hends := refreshDomainsBandwidth_ends env.bandwidth mid.now
    rw [hnow] at hends
    exact ⟨r, mid, hrefresh, hends.1, rfl, rfl⟩
  · cases h
    exact ⟨r, _, hrefresh, .refl _, rfl, rfl⟩

/-! ### The room for sample counts -/

/-- A frame that samples finds no more pid files that `set_domain` accepts than there is
room for. -/
def FitsTimes (c : Config) (env : FrameEnv) (s : Lists) : Prop :=
  ∀ r mid, refreshDomains c.arch c.monitorId env.refresh s = .ok (r, mid) →
    resctrlEnable c env = true → 0 ≤ (getNumaNum env.bandwidth.numa mid.now.nodeNum).1 →
    (snapshot c.arch c.monitorId env.refresh mid.vcpuList).length ≤ maxVmTasksNum

/-- A frame leaves `sample_times_vms` exactly when it samples too many. -/
theorem sampleFrame_in_bounds_iff (env : FrameEnv) (s : Lists) :
    (∀ e, PastTimes e → sampleFrame c env s ≠ .error e) ↔ FitsTimes c env s := by
  have hends := refreshDomains_ends c.arch c.monitorId env.refresh s
  unfold sampleFrame FitsTimes
  cases hrefresh : refreshDomains c.arch c.monitorId env.refresh s with
  | error e =>
      rw [hrefresh] at hends
      cases hends
      constructor
      · intro _ r mid h
        cases h
      · rintro _ e ⟨i, rfl⟩ h
        cases h
  | ok p =>
      obtain ⟨r, mid⟩ := p
      have hnum : (snapshot c.arch c.monitorId env.refresh mid.vcpuList).length = mid.now.num := by
        rw [DomainList.num, (refreshDomains_rotated hrefresh).now, List.length_map]
      have hsample := refreshDomainsBandwidth_ends env.bandwidth mid.now
      simp only [ok_bind]
      cases hon : resctrlEnable c env with
      | false =>
          constructor
          · intro _ r' mid' _ h
            cases h
          · intro _ e _ h
            cases h
      | true =>
          cases hnow : refreshDomainsBandwidth env.bandwidth mid.now with
          | ok now =>
              rw [hnow] at hsample
              constructor
              · intro _ r' mid' h _ hnuma
                cases h
                exact hnum ▸ hsample.2.2 hnuma
              · intro _ e _ h
                cases h
          | error e =>
              rw [hnow] at hsample
              obtain ⟨hnuma, hlt, he⟩ := hsample
              constructor
              · exact fun h => absurd rfl (h e he)
              · exact fun h => absurd (h r mid rfl rfl hnuma) (by rw [hnum]; exact Nat.not_le.2 hlt)

/-- **A run stays within `sample_times_vms` exactly when no frame that samples finds
more than `MAX_VM_TASKS_NUM` virtual machines.** -/
theorem runAll_sampleFrame_in_bounds_iff (c : Config) (envs : List FrameEnv)
    (rows : Arr maxVcpuNum Task) :
    (∀ e, PastTimes e → runAll (sampleFrame c) envs (.start rows) ≠ .error e) ↔
      EveryStep (sampleFrame c) (FitsTimes c) envs (.start rows) :=
  runAll_safe_iff sampleFrame_in_bounds_iff envs (.start rows)

/-! ### A crowded host -/

/-- A scan that accepts every pid file faults nowhere. -/
theorem qemuLoop_accepts {entries : List (Dirent × Sys)}
    (h : ∀ e ∈ entries, (readEntry arch monitorId l e).isSome) (list : DomainList) :
    ∃ x, qemuLoop arch monitorId l entries list = .ok x := by
  refine qemuLoop_ok (fun e he _ => ?_) list
  obtain ⟨d, hd⟩ := Option.isSome_iff_exists.1 (h e he)
  unfold readEntry at hd
  split at hd
  · rename_i hset
    exact ⟨_, hset⟩
  · cases hd

/-- A host of `n` virtual machines where one node is monitored. -/
def crowdedEnv (n : ℕ) : FrameEnv where
  refresh :=
    { vcpuStat := some []
      qemuDir := some ((List.range n).map fun k => hostEntry (k + 1) k idleStat) }
  enableResctrl := true
  bandwidth :=
    let fs : MonFs := ⟨fun _ => some ["mon_MB_00".toList], fun _ => none⟩
    ⟨fs, fun _ _ => fs, fun _ => fs⟩

/-- The refresh of a crowded host takes a record of every virtual machine. -/
theorem refreshDomains_crowded (arch : Arch) {n : ℕ} (hn : n < 2 ^ 31) (s : Lists) :
    ∃ p, refreshDomains arch (-1) (crowdedEnv n).refresh s = .ok p := by
  have hentries (l : VcpuList) : ∀ e ∈ (List.range n).map fun k => hostEntry (k + 1) k idleStat,
      (readEntry arch (-1) l e).isSome := by
    intro e he
    obtain ⟨k, hk, rfl⟩ := List.mem_map.1 he
    rw [List.mem_range] at hk
    obtain ⟨d, hd, -⟩ := hostEntry_accepted arch l (k + 1) k (by omega) (by omega)
    rw [hd]
    rfl
  obtain ⟨x, hx⟩ := qemuLoop_accepts (hentries (getVcpuList arch (some []) s.vcpuList).2)
    (initDomains s.now)
  simp only [refreshDomains, crowdedEnv, getQemuId, hx, ok_bind]
  split_ifs <;> exact ⟨_, rfl⟩

/-- A frame on a host that is too crowded leaves the array. -/
theorem not_fitsTimes_crowded {n : ℕ} (hmax : maxVmTasksNum < n) (hn : n < 2 ^ 31) (s : Lists) :
    ¬ FitsTimes ⟨arch, -1, true⟩ (crowdedEnv n) s := by
  intro h
  obtain ⟨⟨r, mid⟩, hmid⟩ := refreshDomains_crowded arch hn s
  have hnuma : 0 ≤ (getNumaNum (crowdedEnv n).bandwidth.numa mid.now.nodeNum).1 := by
    simp only [getNumaNum, crowdedEnv]
    decide +kernel
  have hlen : (snapshot arch (-1) (crowdedEnv n).refresh mid.vcpuList).length = n :=
    scanned_host arch mid.vcpuList hn
  have hfits : (snapshot arch (-1) (crowdedEnv n).refresh mid.vcpuList).length ≤ maxVmTasksNum :=
    h r mid hmid rfl hnuma
  omega

/-- **The first frame on a host of 1025 virtual machines leaves the array.** -/
theorem runAll_sampleFrame_crowded :
    ¬ ∀ (c : Config) (envs : List FrameEnv) (rows : Arr maxVcpuNum Task) (e : Fault),
      PastTimes e → runAll (sampleFrame c) envs (.start rows) ≠ .error e := by
  intro h
  have hsafe := (runAll_safe_iff sampleFrame_in_bounds_iff [crowdedEnv 1025]
    (.start fun _ => Task.zero)).1 (h ⟨.other, -1, true⟩ [crowdedEnv 1025] fun _ => Task.zero)
  exact not_fitsTimes_crowded (by decide) (by decide) _ hsafe.1

end Vmtop
