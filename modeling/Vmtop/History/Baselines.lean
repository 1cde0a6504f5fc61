/-
# What a record is compared with when something was missing

A delta is worth what its baseline is worth, and there are two ways to lose one.
A vCPU without a row in the `vcpu_stat` table keeps counters of `0`, which the next
frame takes for readings: once the row appears, everything it has ever counted is
reported as the increase of one interval (`baselines_read_iff`).  And a refresh that
fails has already moved the old snapshot aside and emptied the new one, so the next
refresh compares with nothing: what happened across the failure is lost
(`refresh_after_failures_iff`).
-/

import Vmtop.History.Records

namespace Vmtop

open CText CArray Sampled Runs

variable {arch : Arch} {c : Config}

/-! ### Counters that were not read -/

/-- The counters of a thread come from a row of the table. -/
def ReadFrom (l : VcpuList) (t : Task) : Prop := t.type = .isVcpu ∧ (l.row t.pid).isSome

/-- From the frame `s` to the frame `s'` a vCPU whose record in `s` was not read from the
table reports nothing, and so adds nothing to its domain: what a vCPU reports is the
difference of two values that were read. -/
def NoSpike (arch : Arch) (s s' : Lists) : Prop :=
  ∀ d ∈ s'.now.domains, ∀ t ∈ d.lwps, t.type = .isVcpu → ∀ o, baseline s.now d t = some o →
    ¬ ReadFrom s.vcpuList o → ∀ v ∈ vcpuCounters arch, t.delta v = 0

/-- A vCPU whose record in `s` was not read from the table has no row in the table that
the frame reads, or one that counts nothing yet. -/
def RowsAppearAtZero (arch : Arch) (env : FrameEnv) (s s' : Lists) : Prop :=
  ∀ d ∈ s'.now.domains, ∀ t ∈ d.lwps, t.type = .isVcpu → ∀ o, baseline s.now d t = some o →
    ¬ ReadFrom s.vcpuList o →
    ∀ row, (getVcpuList arch env.refresh.vcpuStat s.vcpuList).2.row t.pid = some row →
      ∀ v ∈ vcpuCounters arch, row.dfx v = 0

/-- The counters of every thread are those of its row, or `0`. -/
def RowInv (arch : Arch) (s : Lists) : Prop :=
  ∀ d ∈ s.now.domains, ∀ t ∈ d.lwps, ∀ v ∈ vcpuCounters arch,
    t.dfx v = if t.type = .isVcpu then (s.vcpuList.row t.pid).elim 0 fun r => r.dfx v else 0

theorem FrameRun.rowInv (r : FrameRun c) : ∀ j ≤ r.len, RowInv c.arch (r.state j) := by
  refine r.invariant ?_ ?_
  · rintro _ ⟨rows, rfl⟩ d hd
    cases hd
  · intro s env s' hstep _ d hd t ht
    obtain ⟨_, _, h⟩ := sampleFrame_framed hstep
    have href := h.records d hd
    exact (href.threads t (Domain.lwps_eq href.length ▸ ht)).dfx

/-- A thread that was not read shows `0` in every counter. -/
theorem RowInv.eq_zero {s : Lists} (h : RowInv arch s) {d : Domain} {t o : Task}
    (hold : baseline s.now d t = some o) (hread : ¬ ReadFrom s.vcpuList o) {v : Dfx}
    (hv : v ∈ vcpuCounters arch) : o.dfx v = 0 := by
  obtain ⟨od, hod, ho⟩ := Option.bind_eq_some_iff.1 hold
  rw [h od (List.mem_of_find?_eq_some hod) o (List.mem_of_find?_eq_some ho) v hv]
  split_ifs with htype
  · have hrow : s.vcpuList.row o.pid = none := by
      rw [← Option.not_isSome_iff_eq_none]
      exact fun hsome => hread ⟨htype, hsome⟩
    simp [hrow]
  · rfl

/-- One frame: what is reported against a record that was not read is the whole counter. -/
theorem noSpike_iff {env : FrameEnv} {s s' : Lists} (hinv : RowInv c.arch s)
    (h : sampleFrame c env s = .ok s') :
    NoSpike c.arch s s' ↔ RowsAppearAtZero c.arch env s s' := by
  obtain ⟨_, _, hf⟩ := sampleFrame_framed h
  have htable : s'.vcpuList = (getVcpuList c.arch env.refresh.vcpuStat s.vcpuList).2 :=
    hf.vcpuList.trans (refreshDomains_rotated hf.refreshed).vcpuList
  have hdelta : ∀ d ∈ s'.now.domains, ∀ t ∈ d.lwps, t.type = .isVcpu → ∀ o,
      baseline s.now d t = some o → ¬ ReadFrom s.vcpuList o → ∀ v ∈ vcpuCounters c.arch,
      t.delta v = (s'.vcpuList.row t.pid).elim 0 fun row => row.dfx v := by
    intro d hd t ht htype o hold hread v hv
    have href := hf.records d hd
    have hthread := href.threads t (Domain.lwps_eq href.length ▸ ht)
    have hrule := hthread.delta v (Or.inr (Or.inr ⟨htype, hv⟩))
    rw [hold, Option.map_some, hinv.eq_zero hold hread hv, hthread.dfx v hv, if_pos htype] at hrule
    rw [hrule, threeWay, if_pos (UInt64.le_iff_toNat_le.2 (Nat.zero_le _))]
    exact sub_zero _
  constructor
  · intro hspike d hd t ht htype o hold hread row hrow v hv
    rw [← htable] at hrow
    have := hdelta d hd t ht htype o hold hread v hv
    rw [hspike d hd t ht htype o hold hread v hv, hrow] at this
    exact this.symm
  · intro hrows d hd t ht htype o hold hread v hv
    rw [hdelta d hd t ht htype o hold hread v hv]
    cases hrow : s'.vcpuList.row t.pid with
    | none => rfl
    | some row =>
        rw [htable] at hrow
        exact hrows d hd t ht htype o hold hread row hrow v hv

/-- What two frames show of the exits of a vCPU whose row is missing from the first. -/
def spikeRows : ℕ → List DomainRow
  | 1 => [⟨0, 0, 0, [⟨1, 0, 0⟩]⟩]
  | _ => [⟨0, 0, 1000, [⟨1, 1000, 1000⟩]⟩]

/-- A refresh that cannot open the `vcpu_stat` file or the qemu directory. -/
def Unreadable (env : Env) : Prop := env.vcpuStat = none ∨ env.qemuDir = none

/-- Such a refresh returns `-1`, and leaves no records. -/
theorem Rotated.unreadable {env : Env} {monitorId : ℤ} {s s' : Lists} {r : ℤ}
    (h : Rotated arch monitorId env s r s') (hu : Unreadable env) :
    r = -1 ∧ s'.now.domains = [] := by
  refine ⟨h.unread hu, ?_⟩
  rw [h.now]
  rcases hu with hu | hu
  · simp [snapshot, hu]
  · cases hfile : env.vcpuStat <;> simp [snapshot, hu, hfile]

/-- The deltas of a domain and of its threads follow the three-way rule against the
snapshot `base`. -/
def FollowsRule (arch : Arch) (base : DomainList) (d : Domain) : Prop :=
  (∀ v, v = .utime ∨ v = .stime → d.delta v =
    threeWay ((getDomainFromId d.domainId base).map fun o => (o.dfx v, o.delta v)) (d.dfx v)) ∧
  ∀ t ∈ d.lwps, ∀ v, Compared arch t.type v → t.delta v =
    threeWay ((baseline base d t).map fun o => (o.dfx v, o.delta v)) (t.dfx v)

/-- A counter gives nothing to report: it stands still, or it went back and nothing was
reported on it before. -/
def Still (old new : Task) (v : Dfx) : Prop :=
  old.dfx v = new.dfx v ∨ (new.dfx v < old.dfx v ∧ old.delta v = 0)

/-- No record that `d` and its threads have in the snapshot `base` gives anything to
report. -/
def AllStill (arch : Arch) (base : DomainList) (d : Domain) : Prop :=
  (∀ v, v = .utime ∨ v = .stime → ∀ o, getDomainFromId d.domainId base = some o →
    Still o.toTask d.toTask v) ∧
  ∀ t ∈ d.lwps, ∀ v, Compared arch t.type v → ∀ o, baseline base d t = some o → Still o t v

theorem threeWay_eq_zero_iff (old new : Task) (v : Dfx) :
    threeWay (some (old.dfx v, old.delta v)) (new.dfx v) = 0 ↔ Still old new v := by
  simp only [threeWay, Still]
  split_ifs with hle
  · have hlt : ¬ new.dfx v < old.dfx v := UInt64.not_lt.2 hle
    rw [sub_eq_zero, eq_comm]
    simp [hlt]
  · have hlt : new.dfx v < old.dfx v := UInt64.not_le.1 hle
    simp [hlt, (UInt64.ne_of_lt hlt).symm]

/-- A frame whose refresh fails leaves nothing to compare the next one with. -/
theorem sampleFrame_unreadable {env : FrameEnv} {s s' : Lists} (h : sampleFrame c env s = .ok s')
    (hu : Unreadable env.refresh) : s'.now.domains = [] := by
  obtain ⟨_, _, hf⟩ := sampleFrame_framed h
  have hempty := ((refreshDomains_rotated hf.refreshed).unreadable hu).2
  have hsame := hf.sampled
  rw [hempty] at hsame
  exact List.forall₂_nil_left_iff.1 hsame

/-- So do any number of them. -/
theorem runAll_unreadable {envs : List FrameEnv} {s s' : Lists}
    (h : runAll (sampleFrame c) envs s = .ok s') (hne : envs ≠ [])
    (hu : ∀ env ∈ envs, Unreadable env.refresh) : s'.now.domains = [] := by
  induction envs generalizing s with
  | nil => exact absurd rfl hne
  | cons env rest ih =>
      rw [List.forall_mem_cons] at hu
      rw [runAll] at h
      cases hframe : sampleFrame c env s with
      | error e => simp [hframe] at h
      | ok mid =>
          rw [hframe] at h
          rcases eq_or_ne rest [] with rfl | hrest
          · cases h
            exact sampleFrame_unreadable hframe hu.1
          · exact ih h hrest hu.2

/-- Without a record in the snapshot it is compared with, nothing is reported. -/
theorem Refreshed.eq_zero {l : VcpuList} {pre : DomainList} {d : Domain}
    (h : Refreshed arch l pre d) (hpre : pre.domains = []) :
    (∀ v, v = .utime ∨ v = .stime → d.delta v = 0) ∧ ∀ t ∈ d.lwps, ∀ v, t.delta v = 0 := by
  have hdom (id : ℤ) : getDomainFromId id pre = none := by simp [getDomainFromId, hpre]
  refine ⟨fun v hv => by simp [h.stat v hv, hdom, threeWay], fun t ht v => ?_⟩
  have hthread := h.threads t (Domain.lwps_eq h.length ▸ ht)
  by_cases hv : Compared arch t.type v
  · simp [hthread.delta v hv, baseline, hdom, threeWay]
  · exact hthread.other v hv

/-- **After failed refreshes the deltas are those against the last snapshot exactly when
there was none, or nothing moved**: `s` is the state after the last refresh that
succeeded, `envs` are the frames whose refresh fails, and the refresh of `env` is the
next to succeed. -/
theorem refresh_after_failures_iff {s s₁ s₂ : Lists} {envs : List FrameEnv} {env : FrameEnv}
    (hfail : ∀ env ∈ envs, Unreadable env.refresh) (hrun : runAll (sampleFrame c) envs s = .ok s₁)
    (hnext : sampleFrame c env s₁ = .ok s₂) :
    (∀ d ∈ s₂.now.domains, FollowsRule c.arch s.now d) ↔
      envs = [] ∨ ∀ d ∈ s₂.now.domains, AllStill c.arch s.now d := by
  obtain ⟨_, _, hf⟩ := sampleFrame_framed hnext
  rcases eq_or_ne envs [] with rfl | hne
  · cases hrun
    refine ⟨fun _ => Or.inl rfl, fun _ d hd => ?_⟩
    have href := hf.records d hd
    refine ⟨href.stat, fun t ht v hv => ?_⟩
    exact (href.threads t (Domain.lwps_eq href.length ▸ ht)).delta v hv
  · have hzero : ∀ d ∈ s₂.now.domains, _ := fun d hd =>
      (hf.records d hd).eq_zero (runAll_unreadable hrun hne hfail)
    simp only [hne, false_or]
    refine forall₂_congr fun d hd => ?_
    obtain ⟨hstat, hthreads⟩ := hzero d hd
    constructor
    · rintro ⟨hs, ht⟩
      refine ⟨fun v hv o ho => ?_, fun t htmem v hv o ho => ?_⟩
      · rw [← threeWay_eq_zero_iff, ← hstat v hv, hs v hv, ho]
        rfl
      · rw [← threeWay_eq_zero_iff, ← hthreads t htmem v, ht t htmem v hv, ho]
        rfl
    · rintro ⟨hs, ht⟩
      refine ⟨fun v hv => ?_, fun t htmem v hv => ?_⟩
      · rw [hstat v hv]
        cases ho : getDomainFromId d.domainId s.now with
        | none => rfl
        | some o => exact ((threeWay_eq_zero_iff _ _ v).2 (hs v hv o ho)).symm
      · rw [hthreads t htmem v]
        cases ho : baseline s.now d t with
        | none => rfl
        | some o => exact ((threeWay_eq_zero_iff _ _ v).2 (ht t htmem v hv o ho)).symm

/-- A frame that can read neither the table nor the qemu directory. -/
def blindFrame : FrameEnv := { hostFrame 0 0 with refresh := ⟨none, none⟩ }

/-- What three frames show of the user time when the second is blind. -/
def lostRows : ℕ → List DomainRow
  | 1 => [⟨0, 3, 0, [⟨1, 3, 0⟩]⟩]
  | 2 => []
  | _ => [⟨0, 10, 0, [⟨1, 10, 0⟩]⟩]

/-- A user time of `3` before a blind frame and of `10` behind it is reported as `0`. -/
theorem exists_lost : ∃ s s₁ s₂ d o, runAll (sampleFrame hostConfig) [blindFrame] s = .ok s₁ ∧
    sampleFrame hostConfig (hostFrame 8 10) s₁ = .ok s₂ ∧ d ∈ s₂.now.domains ∧
    getDomainFromId d.domainId s.now = some o ∧ (o.dfx .utime).toNat = 3 ∧
    (d.dfx .utime).toNat = 10 ∧ (d.delta .utime).toNat = 0 := by
  obtain ⟨r, hlen, hinput, hshown⟩ :=
    exists_frameRun [hostFrame 5 3, blindFrame, hostFrame 8 10] .utime lostRows (by decide +kernel)
  obtain ⟨o, _, hdoms, -, -, hid, hval, -⟩ :=
    exists_of_shown (hshown 1 (by decide) (by decide)) rfl
  obtain ⟨d, _, -, -, hof, hid', hval', hdelta, -⟩ :=
    exists_of_shown (hshown 3 (by decide) (by decide)) rfl
  have hblind := r.next 1 (hlen ▸ by decide)
  have hnext := r.next 2 (hlen ▸ by decide)
  rw [hinput] at hblind hnext
  refine ⟨r.state 1, r.state 2, r.state 3, d, o, ?_, hnext, hof.dom, ?_, hval, hval', hdelta⟩
  · change sampleFrame hostConfig blindFrame (r.state 1) = _ at hblind
    simp [runAll, hblind]
  · simp [getDomainFromId, hdoms, hid, hid']

/-- The law where one frame was blind. -/
theorem refresh_after_failures_blind : ∃ s s₂ : Lists,
    (∀ d ∈ s₂.now.domains, FollowsRule .other s.now d) ↔
      [blindFrame] = [] ∨ ∀ d ∈ s₂.now.domains, AllStill .other s.now d := by
  obtain ⟨s, s₁, s₂, -, -, hrun, hnext, -⟩ := exists_lost
  exact ⟨s, s₂, refresh_after_failures_iff (by simp [Unreadable, blindFrame]) hrun hnext⟩

/-- **A failed refresh loses the increase across it.** -/
theorem refresh_after_failures_lost : ¬ ∀ (c : Config) (s s₁ s₂ : Lists) (envs : List FrameEnv)
    (env : FrameEnv), (∀ env ∈ envs, Unreadable env.refresh) →
      runAll (sampleFrame c) envs s = .ok s₁ → sampleFrame c env s₁ = .ok s₂ →
      ∀ d ∈ s₂.now.domains, FollowsRule c.arch s.now d := by
  intro h
  obtain ⟨s, s₁, s₂, d, o, hrun, hnext, hd, hold, ho, hval, hdelta⟩ := exists_lost
  have hrule := (h hostConfig s s₁ s₂ [blindFrame] _ (by simp [Unreadable, blindFrame]) hrun hnext
    d hd).1 .utime (Or.inl rfl)
  rw [hold] at hrule
  have hnat := congrArg UInt64.toNat hrule
  rw [threeWay_toNat, hdelta, hval] at hnat
  simp [threeWay, ho] at hnat

end Vmtop
