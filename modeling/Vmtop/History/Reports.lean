/-
# What the reports of a run add up to

Two laws about the deltas of a whole run.  While a counter of a thread never goes
back, its reports telescope to its increase, whatever happens to the other records
(`thread_reports_telescope`).  And whatever the counters do, a report is `0` or the
difference of two consecutive readings in the chain of matched records, so a
wrap-around is never reported (`reports_traced`).
-/

import Mathlib.Tactic.IntervalCases
import Vmtop.History.Records

namespace Vmtop

open CText CArray Sampled Runs

variable {c : Config}

/-! ### Increases -/

/-- Where ids and pids are unique, a thread is compared with the record of its own id
and pid. -/
theorem ThreadOf.baseline_eq {s : Lists} {d d' : Domain} {t t' : Task} (h : ThreadOf s d t)
    (hids : (s.now.domains.map fun d => d.domainId).Nodup)
    (hpids : (d.lwps.map fun t => t.pid).Nodup) (hid : d'.domainId = d.domainId)
    (hpid : t'.pid = t.pid) : baseline s.now d' t' = some t := by
  have hdom : getDomainFromId d'.domainId s.now = some d := by
    rw [getDomainFromId, hid]
    exact find?_key_eq (fun d : Domain => d.domainId) hids h.dom
  have hthread : getThreadFromPid t'.pid d = some t := by
    rw [getThreadFromPid, hpid]
    exact find?_key_eq (fun t : Task => t.pid) hpids h.thread
  rw [baseline, hdom, Option.bind_some, hthread]

/-- A thread that is no vCPU shows no `vcpu_stat` counter; so one that did not go back
has none to report, and a vCPU reports its increase. -/
theorem ThreadRefreshed.increase {arch : Arch} {l : VcpuList} {pre : DomainList} {d : Domain}
    {t o : Task} (h : ThreadRefreshed arch l pre d t) (hold : baseline pre d t = some o) {v : Dfx}
    (hv : v = .utime ∨ v = .stime ∨ v ∈ vcpuCounters arch) (hle : o.dfx v ≤ t.dfx v) :
    (t.delta v).toNat = (t.dfx v).toNat - (o.dfx v).toNat := by
  by_cases hc : Compared arch t.type v
  · rw [h.delta v hc, hold, Option.map_some, threeWay, if_pos hle]
    exact UInt64.toNat_sub_of_le _ _ hle
  · simp only [Compared, not_or, not_and] at hc
    have hm : v ∈ vcpuCounters arch := (hv.resolve_left hc.1).resolve_left hc.2.1
    have htype : t.type ≠ .isVcpu := fun ht => hc.2.2 ht hm
    have hzero : t.dfx v = 0 := by rw [h.dfx v hm, if_neg htype]
    rw [h.other v (by simp [Compared, hc.1, hc.2.1, htype]), hzero]
    simp

/-- **The reports of a counter that never goes back telescope.**  From frame `a` to
frame `b` of a run the thread `pid` of the domain `id` is there in every frame, as
`t k` in `d k`; ids and pids are unique.  Then what is reported on it after `a` adds
up to the increase from `a` to `b`. -/
theorem thread_reports_telescope (r : FrameRun c) {a b : ℕ} (hab : a ≤ b) (hb : b ≤ r.len)
    (id pid : ℤ) {d : ℕ → Domain} {t : ℕ → Task}
    (hat : ∀ k, a ≤ k → k ≤ b → ThreadOf (r.state k) (d k) (t k) ∧ (d k).domainId = id ∧
      (t k).pid = pid)
    (hids : ∀ k, a ≤ k → k ≤ b → ((r.state k).now.domains.map fun d => d.domainId).Nodup)
    (hpids : ∀ k, a ≤ k → k ≤ b → ((d k).lwps.map fun t => t.pid).Nodup) {v : Dfx}
    (hv : v = .utime ∨ v = .stime ∨ v ∈ vcpuCounters c.arch)
    (hmono : ∀ k, a ≤ k → k < b → (t k).dfx v ≤ (t (k + 1)).dfx v) :
    ((t a).dfx v).toNat ≤ ((t b).dfx v).toNat ∧
      ∑ k ∈ Finset.Ico a b, ((t (k + 1)).delta v).toNat =
        ((t b).dfx v).toNat - ((t a).dfx v).toNat := by
  refine sum_increments (fun k => ((t k).dfx v).toNat) (fun k => ((t k).delta v).toNat) hab
    (fun k ha hk => UInt64.le_iff_toNat_le.1 (hmono k ha hk)) fun k ha hk => ?_
  obtain ⟨hold, hid, hpid⟩ := hat k ha hk.le
  obtain ⟨hnew, hid', hpid'⟩ := hat (k + 1) (Nat.le_succ_of_le ha) hk
  have href := r.refreshed (hk.trans_le hb) hnew.dom
  have hthread := href.threads (t (k + 1)) (Domain.lwps_eq href.length ▸ hnew.thread)
  have hbase := hold.baseline_eq (hids k ha hk.le) (hpids k ha hk.le) (hid'.trans hid.symm)
    (hpid'.trans hpid.symm)
  exact hthread.increase hbase hv (hmono k ha hk)

/-- What the three frames of a small host show of the exits of its vCPU. -/
def exitRows : ℕ → List DomainRow
  | 1 => [⟨0, 0, 0, [⟨1, 5, 0⟩]⟩]
  | 2 => [⟨0, 0, 3, [⟨1, 8, 3⟩]⟩]
  | _ => [⟨0, 0, 12, [⟨1, 20, 12⟩]⟩]

/-- Exits of `5`, `8` and `20` are reported as `3` and `12`. -/
theorem thread_reports_telescope_host : ∃ (r : FrameRun hostConfig) (t : ℕ → Task),
    (∀ k, 1 ≤ k → k ≤ 3 → ∃ d, ThreadOf (r.state k) d (t k)) ∧
      ((t 1).dfx .exits).toNat = 5 ∧ ((t 3).dfx .exits).toNat = 20 ∧
      ∑ k ∈ Finset.Ico 1 3, ((t (k + 1)).delta .exits).toNat = 20 - 5 := by
  obtain ⟨r, hlen, -, hshown⟩ := exists_frameRun
    [hostFrame 5 3, hostFrame 8 10, hostFrame 20 11] .exits exitRows (by decide +kernel)
  have hrow : ∀ k, ∃ d t, 1 ≤ k → k ≤ 3 → (r.state k).now.domains = [d] ∧ d.lwps = [t] ∧
      ThreadOf (r.state k) d t ∧ d.domainId = 0 ∧ t.pid = 1 ∧
      [(t.dfx .exits).toNat] = (exitRows k).flatMap fun row => row.threads.map (·.value) := by
    intro k
    by_cases hk : 1 ≤ k ∧ k ≤ 3
    · have h := hshown k hk.1 hk.2
      obtain ⟨hk₁, hk₃⟩ := hk
      interval_cases k
      all_goals
        obtain ⟨d, t, hd, ht, hof, hid, -, -, hpid, hval, -⟩ := exists_of_shown h rfl
        exact ⟨d, t, fun _ _ => ⟨hd, ht, hof, hid, hpid, by rw [hval]; rfl⟩⟩
    · exact ⟨Domain.zero, Task.zero, fun h₁ h₃ => absurd ⟨h₁, h₃⟩ hk⟩
  choose d t h using hrow
  have h₁ := (h 1 le_rfl (by decide)).2.2.2.2.2
  have h₂ := (h 2 (by decide) (by decide)).2.2.2.2.2
  have h₃ := (h 3 (by decide) le_rfl).2.2.2.2.2
  simp only [exitRows, List.flatMap_cons, List.map_cons, List.map_nil, List.flatMap_nil,
    List.append_nil, List.cons.injEq, and_true] at h₁ h₂ h₃
  have hsum := thread_reports_telescope r (a := 1) (b := 3) (by decide) hlen.ge 0 1 (d := d)
    (t := t) (fun k h₁ h₃ => ⟨(h k h₁ h₃).2.2.1, (h k h₁ h₃).2.2.2.1, (h k h₁ h₃).2.2.2.2.1⟩)
    (fun k h₁ h₃ => by simp [(h k h₁ h₃).1]) (fun k h₁ h₃ => by simp [(h k h₁ h₃).2.1])
    (v := .exits) (by decide) (by
      intro k hk₁ hk₃
      rw [UInt64.le_iff_toNat_le]
      interval_cases k <;> simp [h₁, h₂, h₃])
  rw [h₁, h₃] at hsum
  exact ⟨r, t, fun k h₁ h₃ => ⟨d k, (h k h₁ h₃).2.2.1⟩, h₁, h₃, hsum.2⟩

/-! ### Differences -/

/-- **No wrap-around is reported.**  Whatever the counters do, what is reported on a
thread, and on a domain of its own times, is `0` or `x - y` for two consecutive readings
`y ≤ x` in the chain of the records it was matched with; so some reading in that chain
is at least as large. -/
theorem reports_traced (r : FrameRun c) :
    (∀ (x : ThreadRecord r) (v : Dfx),
      let value := fun y : ThreadRecord r => (y.task.dfx v).toNat
      let delta := fun y : ThreadRecord r => (y.task.delta v).toNat
      Traced ThreadRecord.Prev value delta x ∧
        ∃ y, Relation.ReflTransGen ThreadRecord.Prev x y ∧ delta x ≤ value y) ∧
    ∀ (x : DomainRecord r) (v : Dfx), v = .utime ∨ v = .stime →
      let value := fun y : DomainRecord r => (y.dom.dfx v).toNat
      let delta := fun y : DomainRecord r => (y.dom.delta v).toNat
      Traced DomainRecord.Prev value delta x ∧
        ∃ y, Relation.ReflTransGen DomainRecord.Prev x y ∧ delta x ≤ value y := by
  constructor
  · intro x v
    have h := Reported.traced ThreadRecord.prev_wf (ThreadRecord.reported v) x
    exact ⟨h, h.le_reading⟩
  · intro x v hv
    have h := Reported.traced DomainRecord.prev_wf (DomainRecord.reported hv) x
    exact ⟨h, h.le_reading⟩

/-- What three frames of a small host show of its user time, which goes back in the last. -/
def timeRows : ℕ → List DomainRow
  | 1 => [⟨0, 3, 0, [⟨1, 3, 0⟩]⟩]
  | 2 => [⟨0, 10, 7, [⟨1, 10, 7⟩]⟩]
  | _ => [⟨0, 4, 7, [⟨1, 4, 7⟩]⟩]

/-- A time of `3`, `10` and then `4` is reported as `7` twice, the difference of the first
two readings. -/
theorem reports_traced_host : ∃ (r : FrameRun hostConfig) (x : DomainRecord r),
    x.time = 3 ∧ (x.dom.dfx .utime).toNat = 4 ∧ (x.dom.delta .utime).toNat = 7 ∧
      Traced DomainRecord.Prev (fun y : DomainRecord r => (y.dom.dfx .utime).toNat)
        (fun y => (y.dom.delta .utime).toNat) x := by
  obtain ⟨r, hlen, -, hshown⟩ := exists_frameRun
    [hostFrame 5 3, hostFrame 8 10, hostFrame 20 4] .utime timeRows (by decide +kernel)
  obtain ⟨d, t, -, -, hof, -, hval, hdelta, -⟩ :=
    exists_of_shown (hshown 3 (by decide) (by decide)) rfl
  exact ⟨r, ⟨3, hlen.ge, d, hof.dom⟩, rfl, hval, hdelta,
    ((reports_traced r).2 ⟨3, hlen.ge, d, hof.dom⟩ .utime (Or.inl rfl)).1⟩

end Vmtop
