/-
# What a record is compared with

A domain is looked up by its id and a thread by its pid, in the domain that has the id of its
own, and the start time that the stat file tells is looked at by nobody
(`sampleFrame_identified`).  So a record whose id or pid was not there before reports nothing,
and one whose id was taken over from another process is compared with that
(`sampleFrame_replaced`).
-/

import Vmtop.History.Records

namespace Vmtop

open CText CArray Sampled Runs

variable {c : Config} {env : FrameEnv} {s s' : Lists}

/-- What a record is compared with goes by the id of the domain and the pid of the thread: the
first record of the snapshot before with that id, and in it the first thread with that pid. -/
structure Identified (arch : Arch) (pre : DomainList) (d : Domain) : Prop where
  domain : ∀ o, (pre.domains.find? fun o => o.domainId = d.domainId) = some o →
    o.domainId = d.domainId ∧
      ∀ v, v = .utime ∨ v = .stime → d.delta v = threeWay (some (o.dfx v, o.delta v)) (d.dfx v)
  thread : ∀ o, (pre.domains.find? fun o => o.domainId = d.domainId) = some o → ∀ t ∈ d.lwps,
    ∀ ot, (o.lwps.find? fun ot => ot.pid = t.pid) = some ot → ot.pid = t.pid ∧
      ∀ v, Compared arch t.type v → t.delta v = threeWay (some (ot.dfx v, ot.delta v)) (t.dfx v)
  newDomain : (∀ o ∈ pre.domains, o.domainId ≠ d.domainId) →
    (∀ v, d.delta v = 0) ∧ ∀ t ∈ d.lwps, ∀ v, t.delta v = 0
  newThread : ∀ o, (pre.domains.find? fun o => o.domainId = d.domainId) = some o → ∀ t ∈ d.lwps,
    (∀ ot ∈ o.lwps, ot.pid ≠ t.pid) → ∀ v, t.delta v = 0

/-- A thread that is compared with nothing reports nothing. -/
theorem ThreadRefreshed.delta_zero {arch : Arch} {l : VcpuList} {pre : DomainList} {d : Domain}
    {t : Task} (h : ThreadRefreshed arch l pre d t) (hnone : baseline pre d t = none) (v : Dfx) :
    t.delta v = 0 := by
  by_cases hv : Compared arch t.type v
  · rw [h.delta v hv, hnone]
    rfl
  · exact h.other v hv

/-- Comparing a record keeps its id. -/
theorem refreshDomain_domainId {arch : Arch} {l : VcpuList} {d : Domain} (hd : Fresh arch l d)
    (pre : DomainList) : (refreshDomain arch pre d).domainId = d.domainId := by
  cases hold : getDomainFromId d.domainId pre with
  | none => rw [refreshDomain, hold]
  | some old =>
      rw [refreshDomain_of_some hd.length hold]
      dsimp only
      rw [threadsLoop_frame, refreshDeltaStat_frame]

/-- **A frame compares by id and by pid.** -/
theorem sampleFrame_identified (h : sampleFrame c env s = .ok s') :
    ∀ d ∈ s'.now.domains, Identified c.arch s.now d := by
  intro d hd
  obtain ⟨_, mid, hframed⟩ := sampleFrame_framed h
  have href := hframed.records d hd
  have hthreads : ∀ t ∈ d.lwps, ThreadRefreshed c.arch s'.vcpuList s.now d t := fun t ht =>
    href.threads t (Domain.lwps_eq href.length ▸ ht)
  have hfind : (s.now.domains.find? fun o => o.domainId = d.domainId) =
      getDomainFromId d.domainId s.now := rfl
  constructor
  · intro o ho
    refine ⟨by simpa using List.find?_some ho, fun v hv => ?_⟩
    rw [href.stat v hv, ← hfind, ho, Option.map_some]
  · intro o ho t ht ot hot
    refine ⟨by simpa using List.find?_some hot, fun v hv => ?_⟩
    have hthread : getThreadFromPid t.pid o = some ot := hot
    rw [(hthreads t ht).delta v hv, baseline, ← hfind, ho, Option.bind_some, hthread,
      Option.map_some]
  · intro hnew
    have hnone : getDomainFromId d.domainId s.now = none := by
      simpa [getDomainFromId] using hnew
    refine ⟨fun v => ?_, fun t ht v => (hthreads t ht).delta_zero ?_ v⟩
    · obtain ⟨entries, d₀, hd₀, hsame⟩ := hframed.exists_scanned hd
      have hid : d₀.domainId = d.domainId := by
        rw [hsame]
        exact (refreshDomain_domainId (scanned_fresh hd₀) mid.pre).symm
      have hpre : getDomainFromId d₀.domainId mid.pre = none := by
        rw [hid, getDomainFromId_congr (refreshDomains_rotated hframed.refreshed).pre, hnone]
      rw [hsame, refreshDomain, hpre]
      exact (scanned_fresh hd₀).delta v
    · rw [baseline, hnone, Option.bind_none]
  · intro o ho t ht hnew v
    refine (hthreads t ht).delta_zero ?_ v
    rw [baseline, ← hfind, ho, Option.bind_some]
    simpa [getThreadFromPid] using hnew

/-! ### A process that takes an id over -/

/-- A frame in which the process `pid` has the id `0` and has run for `ticks`. -/
def ownerFrame (pid ticks : ℕ) : FrameEnv :=
  { (default : FrameEnv) with
    refresh := ⟨some [], some [hostEntry pid 0 (statLine "CPU 0/KVM".toList ticks 0 1)]⟩ }

/-- What a frame shows of its domains, the id, the pid, and what the user time grew by, and of
their threads, the pid and what the user time grew by. -/
def owners (s : Lists) : List (ℤ × ℤ × ℕ) × List (ℤ × ℕ) :=
  (s.now.domains.map fun d => (d.domainId, d.pid, (d.delta .utime).toNat),
    (s.now.domains.flatMap Domain.lwps).map fun t => (t.pid, (t.delta .utime).toNat))

/-- What two frames show of the owners of an id, the second of them of `pid`, which grew by
`n` and its thread by `m`. -/
def ownerRows (pid n m : ℕ) : ℕ → List (ℤ × ℤ × ℕ) × List (ℤ × ℕ)
  | 1 => ([(0, 1, 0)], [(1, 0)])
  | _ => ([(0, pid, n)], [(pid, m)])

/-- The run of two frames in which the id `0` belongs to the process `1` and then to `pid`. -/
theorem exists_ownedRun (pid n m : ℕ) (h : ∀ k : Fin 2, (runAll (sampleFrame hostConfig)
    ([ownerFrame 1 3, ownerFrame pid 10].take (k + 1)) zeroLists).toOption.map owners =
      some (ownerRows pid n m (k + 1))) :
    ∃ (r : FrameRun hostConfig) (o d : Domain) (ot t : Task), 1 < r.len ∧
      (r.state 1).now.domains = [o] ∧ (r.state 2).now.domains = [d] ∧ o.lwps = [ot] ∧
      d.lwps = [t] ∧ (o.domainId, o.pid, (o.delta .utime).toNat) = (0, 1, 0) ∧ ot.pid = 1 ∧
      (d.domainId, d.pid, (d.delta .utime).toNat) = (0, (pid : ℤ), n) ∧
      (t.pid, (t.delta .utime).toNat) = ((pid : ℤ), m) := by
  obtain ⟨r, hlen, -, hview⟩ :=
    exists_viewedRun [ownerFrame 1 3, ownerFrame pid 10] owners (ownerRows pid n m) h
  obtain ⟨hold, holdThreads⟩ := Prod.mk.inj (hview 1 (by decide) (by simp))
  obtain ⟨hnew, hnewThreads⟩ := Prod.mk.inj (hview 2 (by decide) (by simp))
  obtain ⟨o, hos, ho⟩ := List.map_eq_singleton_iff.1 hold
  obtain ⟨d, hds, hd⟩ := List.map_eq_singleton_iff.1 hnew
  rw [hos, List.flatMap_singleton] at holdThreads
  rw [hds, List.flatMap_singleton] at hnewThreads
  obtain ⟨ot, hots, hot⟩ := List.map_eq_singleton_iff.1 holdThreads
  obtain ⟨t, hts, ht⟩ := List.map_eq_singleton_iff.1 hnewThreads
  exact ⟨r, o, d, ot, t, hlen ▸ by simp, hos, hds, hots, hts, ho, (Prod.mk.inj hot).1, hd, ht⟩

/-- The second frame of a process that keeps its id: its thread is compared too. -/
theorem sampleFrame_identified_host : ∃ env s s' d o t ot, sampleFrame hostConfig env s = .ok s' ∧
    s'.now.domains = [d] ∧ s.now.domains = [o] ∧ o.domainId = d.domainId ∧ d.lwps = [t] ∧
    o.lwps = [ot] ∧ ot.pid = t.pid ∧ (t.delta .utime).toNat = 7 ∧
    t.delta .utime = threeWay (some (ot.dfx .utime, ot.delta .utime)) (t.dfx .utime) := by
  obtain ⟨r, o, d, ot, t, hlen, hos, hds, hots, hts, ho, hot, hd, ht⟩ :=
    exists_ownedRun 1 7 7 (by decide +kernel)
  simp only [Prod.mk.injEq] at ho hd ht
  have hsame := sampleFrame_identified (r.next 1 hlen) d (by simp [hds])
  have hfound : ((r.state 1).now.domains.find? fun o => o.domainId = d.domainId) = some o := by
    simp [hos, ho.1, hd.1]
  have hmatched : (o.lwps.find? fun ot => ot.pid = t.pid) = some ot := by
    simp [hots, hot, ht.1]
  exact ⟨_, _, _, d, o, t, ot, r.next 1 hlen, hds, hos, ho.1.trans hd.1.symm, hts, hots,
    hot.trans ht.1.symm, ht.2,
    (hsame.thread o hfound t (by simp [hts]) ot hmatched).2 .utime (Or.inl rfl)⟩

/-- **A process that takes an id over is compared with the process that had it.** -/
theorem sampleFrame_replaced : ¬ ∀ (c : Config) (r : FrameRun c) (j : ℕ) (d o : Domain),
    j < r.len → d ∈ (r.state (j + 1)).now.domains →
    ((r.state j).now.domains.find? fun o => o.domainId = d.domainId) = some o →
    (d.pid = o.pid ∧ d.startTime = o.startTime) ∨ ∀ v, d.delta v = 0 := by
  intro h
  obtain ⟨r, o, d, _, _, hlen, hos, hds, -, -, ho, -, hd, -⟩ :=
    exists_ownedRun 2 7 0 (by decide +kernel)
  simp only [Prod.mk.injEq] at ho hd
  rcases h _ r 1 d o hlen (by simp [hds]) (by simp [hos, ho.1, hd.1]) with ⟨hsame, -⟩ | hzero
  · rw [ho.2.1, hd.2.1] at hsame
    cases hsame
  · have hseven := hd.2.2
    rw [hzero] at hseven
    cases hseven

end Vmtop
