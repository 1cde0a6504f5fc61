/-
# The records of a run

A run of vmtop is a run of frames, and every frame compares its records with those
of the frame before (`FrameRun.refreshed`).  `ThreadRecord` and `DomainRecord` are
the records of a run, each with the frame it stands in, and `Prev` links a record to
the one it was compared with.  On every counter a record is compared on, what it
reports is the three-way rule along `Prev` (`ThreadRecord.reported`,
`DomainRecord.reported`); the values are the machine words as natural numbers.
-/

import Vmtop.Sampling.Frames

namespace Vmtop

open CText CArray Sampled Runs

variable {arch : Arch} {c : Config}

/-- A run of frames from the lists that `init_parameter` sets up. -/
abbrev FrameRun (c : Config) :=
  Run (fun s env s' => sampleFrame c env s = .ok s') fun s => ∃ rows, s = .start rows

/-! ### What a frame reports -/

/-- The lookups see the records of a list and nothing else of it. -/
theorem getDomainFromId_congr {pre pre' : DomainList} (h : pre.domains = pre'.domains) (id : ℤ) :
    getDomainFromId id pre = getDomainFromId id pre' := by
  rw [getDomainFromId, getDomainFromId, h]

theorem baseline_congr {pre pre' : DomainList} (h : pre.domains = pre'.domains) (d : Domain)
    (t : Task) : baseline pre d t = baseline pre' d t := by
  rw [baseline, baseline, getDomainFromId_congr h]

/-- A record stays what the refresh made it while bandwidth is sampled, and it may be
compared with any list that has the records of `pre`. -/
theorem Refreshed.sampled {l : VcpuList} {pre pre' : DomainList} {d d' : Domain}
    (h : Refreshed arch l pre d) (hd : SameSample d d') (hpre : pre.domains = pre'.domains) :
    Refreshed arch l pre' d' := by
  rw [hd]
  exact
    { nlwp_pos := h.nlwp_pos
      length := h.length
      threads := fun t ht =>
        { dfx := (h.threads t ht).dfx
          delta := fun v hv => ((h.threads t ht).delta v hv).trans
            (by rw [baseline_congr hpre]; rfl)
          other := (h.threads t ht).other }
      stat := fun v hv => (h.stat v hv).trans (by rw [getDomainFromId_congr hpre])
      vcpus := h.vcpus }

/-- **A frame compares its records with those of the frame before.** -/
theorem Framed.records {env : FrameEnv} {s s' mid : Lists} {r : ℤ} (h : Framed c env s s' r mid) :
    ∀ d ∈ s'.now.domains, Refreshed c.arch s'.vcpuList s.now d := by
  intro d hd
  have hrot := refreshDomains_rotated h.refreshed
  obtain ⟨d₀, hd₀, hsame⟩ := h.sampled.exists_left hd
  rw [h.vcpuList]
  exact (hrot.refreshed d₀ hd₀).sampled hsame hrot.pre

/-- A record of a frame was read from a listing, compared, and sampled. -/
theorem Framed.exists_scanned {env : FrameEnv} {s s' mid : Lists} {r : ℤ}
    (h : Framed c env s s' r mid) {d : Domain} (hd : d ∈ s'.now.domains) :
    ∃ entries, ∃ d₀ ∈ scanned c.arch c.monitorId mid.vcpuList entries,
      SameSample (refreshDomain c.arch mid.pre d₀) d := by
  obtain ⟨d₁, hd₁, hsame⟩ := h.sampled.exists_left hd
  rw [(refreshDomains_rotated h.refreshed).now] at hd₁
  obtain ⟨d₀, hd₀, rfl⟩ := List.mem_map.1 hd₁
  obtain ⟨entries, hscanned⟩ := mem_snapshot hd₀
  exact ⟨entries, d₀, hscanned, hsame⟩

/-- A run starts without records. -/
theorem FrameRun.start_domains (r : FrameRun c) : (r.state 0).now.domains = [] := by
  obtain ⟨rows, h⟩ := r.start
  rw [h]
  rfl

theorem FrameRun.refreshed (r : FrameRun c) {j : ℕ} (hj : j < r.len) {d : Domain}
    (hd : d ∈ (r.state (j + 1)).now.domains) :
    Refreshed c.arch (r.state (j + 1)).vcpuList (r.state j).now d := by
  obtain ⟨_, _, h⟩ := sampleFrame_framed (r.next j hj)
  exact h.records d hd

/-! ### Records of threads and of domains -/

/-- A thread of a domain in the lists `s`. -/
structure ThreadOf (s : Lists) (d : Domain) (t : Task) : Prop where
  dom : d ∈ s.now.domains
  thread : t ∈ d.lwps

/-- A thread of a run, with the frame it is seen in. -/
structure ThreadRecord (r : FrameRun c) where
  time : ℕ
  le : time ≤ r.len
  dom : Domain
  task : Task
  mem : ThreadOf (r.state time) dom task

/-- A virtual machine of a run, with the frame it is seen in. -/
structure DomainRecord (r : FrameRun c) where
  time : ℕ
  le : time ≤ r.len
  dom : Domain
  mem : dom ∈ (r.state time).now.domains

variable {r : FrameRun c}

/-- `o` is the record of the frame before that `x` is compared with. -/
structure ThreadRecord.Prev (x o : ThreadRecord r) : Prop where
  time : o.time + 1 = x.time
  dom : getDomainFromId x.dom.domainId (r.state o.time).now = some o.dom
  thread : getThreadFromPid x.task.pid o.dom = some o.task

structure DomainRecord.Prev (x o : DomainRecord r) : Prop where
  time : o.time + 1 = x.time
  dom : getDomainFromId x.dom.domainId (r.state o.time).now = some o.dom

theorem ThreadRecord.prev_wf : WellFounded fun o x : ThreadRecord r => ThreadRecord.Prev x o :=
  Subrelation.wf (fun {o x} (h : ThreadRecord.Prev x o) => Nat.lt_of_succ_le h.time.le)
    (measure ThreadRecord.time).wf

theorem DomainRecord.prev_wf : WellFounded fun o x : DomainRecord r => DomainRecord.Prev x o :=
  Subrelation.wf (fun {o x} (h : DomainRecord.Prev x o) => Nat.lt_of_succ_le h.time.le)
    (measure DomainRecord.time).wf

/-- The frame of a record is not the start of the run. -/
theorem FrameRun.exists_succ (r : FrameRun c) {k : ℕ} (hk : k ≤ r.len) {d : Domain}
    (hd : d ∈ (r.state k).now.domains) : ∃ j, k = j + 1 ∧ j < r.len := by
  cases k with
  | zero =>
      rw [r.start_domains] at hd
      cases hd
  | succ j => exact ⟨j, rfl, hk⟩

/-- The record of a domain is what a refresh made it. -/
theorem DomainRecord.exists_refreshed (x : DomainRecord r) : ∃ j, x.time = j + 1 ∧ j < r.len ∧
    Refreshed c.arch (r.state (j + 1)).vcpuList (r.state j).now x.dom := by
  obtain ⟨j, hj, hlt⟩ := r.exists_succ x.le x.mem
  exact ⟨j, hj, hlt, r.refreshed hlt (hj ▸ x.mem)⟩

/-- So is the record of a thread. -/
theorem ThreadRecord.exists_refreshed (x : ThreadRecord r) : ∃ j, x.time = j + 1 ∧ j < r.len ∧
    ThreadRefreshed c.arch (r.state (j + 1)).vcpuList (r.state j).now x.dom x.task := by
  obtain ⟨j, hj, hlt⟩ := r.exists_succ x.le x.mem.dom
  have href := r.refreshed hlt (hj ▸ x.mem.dom)
  exact ⟨j, hj, hlt, href.threads x.task (Domain.lwps_eq href.length ▸ x.mem.thread)⟩

/-- The three-way rule on machine words, as natural numbers. -/
theorem threeWay_toNat (old : Option (U64 × U64)) (v : U64) :
    (threeWay old v).toNat = threeWay (old.map (Prod.map UInt64.toNat UInt64.toNat)) v.toNat :=
  map_threeWay UInt64.toNat rfl (fun _ _ => UInt64.le_iff_toNat_le.symm)
    (fun _ _ h => UInt64.toNat_sub_of_le _ _ h) old v

/-- **What a thread reports is nothing, or comes from the record it was compared with.** -/
theorem ThreadRecord.reported (v : Dfx) (x : ThreadRecord r) :
    Reported ThreadRecord.Prev (fun y : ThreadRecord r => (y.task.dfx v).toNat)
      (fun y => (y.task.delta v).toNat) x := by
  obtain ⟨j, hj, hlt, hthread⟩ := x.exists_refreshed
  by_cases hv : Compared c.arch x.task.type v
  · have hdelta := hthread.delta v hv
    cases hold : getDomainFromId x.dom.domainId (r.state j).now with
    | none => exact Or.inl (by simp [hdelta, baseline, hold, threeWay])
    | some od =>
        cases ht : getThreadFromPid x.task.pid od with
        | none => exact Or.inl (by simp [hdelta, baseline, hold, ht, threeWay])
        | some ot =>
            let o : ThreadRecord r :=
              ⟨j, hlt.le, od, ot, List.mem_of_find?_eq_some hold, List.mem_of_find?_eq_some ht⟩
            refine Reported.of_threeWay (some o) ?_ ?_
            · rintro _ ⟨⟩
              exact ⟨hj.symm, hold, ht⟩
            · rw [hdelta, threeWay_toNat]
              simp [baseline, hold, ht, o]
  · exact Or.inl (by simp [hthread.other v hv])

/-- **What a domain reports of its own times** comes from the record it was compared
with, likewise. -/
theorem DomainRecord.reported {v : Dfx} (hv : v = .utime ∨ v = .stime) (x : DomainRecord r) :
    Reported DomainRecord.Prev (fun y : DomainRecord r => (y.dom.dfx v).toNat)
      (fun y => (y.dom.delta v).toNat) x := by
  obtain ⟨j, hj, hlt, href⟩ := x.exists_refreshed
  have hdelta := href.stat v hv
  cases hold : getDomainFromId x.dom.domainId (r.state j).now with
  | none => exact Or.inl (by simp [hdelta, hold, threeWay])
  | some od =>
      let o : DomainRecord r := ⟨j, hlt.le, od, List.mem_of_find?_eq_some hold⟩
      refine Reported.of_threeWay (some o) ?_ ?_
      · rintro _ ⟨⟩
        exact ⟨hj.symm, hold⟩
      · rw [hdelta, threeWay_toNat]
        simp [hold, o]

/-- `o` is the record that the counter `v` of `x` is compared with. -/
def ThreadRecord.ComparedWith (v : Dfx) (x o : ThreadRecord r) : Prop :=
  Compared c.arch x.task.type v ∧ x.Prev o

/-- A counter of a thread that is compared follows the three-way rule. -/
theorem ThreadRecord.ComparedWith.delta_eq {v : Dfx} {x o : ThreadRecord r}
    (h : x.ComparedWith v o) :
    x.task.delta v = threeWay (some (o.task.dfx v, o.task.delta v)) (x.task.dfx v) := by
  obtain ⟨hv, hprev⟩ := h
  obtain ⟨j, hj, -, hthread⟩ := x.exists_refreshed
  obtain rfl : o.time = j := Nat.succ.inj (hprev.time.trans hj)
  rw [hthread.delta v hv, baseline, hprev.dom, Option.bind_some, hprev.thread, Option.map_some]

theorem DomainRecord.Prev.delta_eq {v : Dfx} (hv : v = .utime ∨ v = .stime) {x o : DomainRecord r}
    (h : x.Prev o) :
    x.dom.delta v = threeWay (some (o.dom.dfx v, o.dom.delta v)) (x.dom.dfx v) := by
  obtain ⟨j, hj, -, href⟩ := x.exists_refreshed
  obtain rfl : o.time = j := Nat.succ.inj (h.time.trans hj)
  rw [href.stat v hv, h.dom, Option.map_some]

/-! ### The run of a small host -/

/-- The options of a run that watches every virtual machine. -/
def hostConfig : Config := ⟨.other, -1, false⟩

/-- A frame on a host of one virtual machine, whose vCPU shows `n` exits and has run for
`ticks`. -/
def hostFrame (n ticks : ℕ) : FrameEnv :=
  { (default : FrameEnv) with refresh := hostEnv (vcpuLine .other 1 n) ticks }

/-- What a frame shows of a counter on a thread. -/
structure ThreadRow where
  pid : ℤ
  value : ℕ
  delta : ℕ
  deriving DecidableEq

/-- What a frame shows of a counter on a domain. -/
structure DomainRow where
  id : ℤ
  value : ℕ
  delta : ℕ
  threads : List ThreadRow
  deriving DecidableEq

/-- What a frame shows of a counter. -/
def shown (v : Dfx) (s : Lists) : List DomainRow :=
  s.now.domains.map fun d => ⟨d.domainId, (d.dfx v).toNat, (d.delta v).toNat,
    d.lwps.map fun t => ⟨t.pid, (t.dfx v).toNat, (t.delta v).toNat⟩⟩

/-- A frame that shows one domain of one thread. -/
theorem exists_of_shown {v : Dfx} {s : Lists} {row : DomainRow} {thread : ThreadRow}
    (h : shown v s = [row]) (hthread : row.threads = [thread]) :
    ∃ d t, s.now.domains = [d] ∧ d.lwps = [t] ∧ ThreadOf s d t ∧
      d.domainId = row.id ∧ (d.dfx v).toNat = row.value ∧ (d.delta v).toNat = row.delta ∧
      t.pid = thread.pid ∧ (t.dfx v).toNat = thread.value ∧ (t.delta v).toNat = thread.delta := by
  obtain ⟨d, ds, hd, rfl, hds⟩ := List.map_eq_cons_iff.1 h
  obtain ⟨t, ts, ht, rfl, hts⟩ := List.map_eq_cons_iff.1 hthread
  rw [List.map_eq_nil_iff] at hds hts
  subst hds hts
  exact ⟨d, t, hd, ht, ⟨by simp [hd], by simp [ht]⟩, rfl, rfl, rfl, rfl, rfl, rfl⟩

/-- **The run of given frames**, with what is seen of its lists. -/
theorem exists_viewedRun {β : Type*} (frames : List FrameEnv) (view : Lists → β) (rows : ℕ → β)
    (h : ∀ k : Fin frames.length,
      (runAll (sampleFrame hostConfig) (frames.take (k + 1)) zeroLists).toOption.map view =
        some (rows (k + 1))) :
    ∃ r : FrameRun hostConfig, r.len = frames.length ∧ (∀ j, r.input j = frames[j]?.getD default) ∧
      ∀ k, 0 < k → k ≤ frames.length → view (r.state k) = rows k := by
  have hok : ∃ s, runAll (sampleFrame hostConfig) frames zeroLists = .ok s := by
    rcases Nat.eq_zero_or_pos frames.length with h0 | hpos
    · rw [List.eq_nil_of_length_eq_zero h0]
      exact ⟨_, rfl⟩
    · obtain ⟨s, hs, -⟩ := Option.map_eq_some_iff.1 (h ⟨frames.length - 1, by omega⟩)
      rw [Nat.sub_add_cancel hpos, List.take_length] at hs
      exact ⟨s, toOption_eq_some.1 hs⟩
  obtain ⟨s, hs⟩ := hok
  obtain ⟨r, hlen, hinput, hstate⟩ : ∃ r : FrameRun hostConfig, r.len = frames.length ∧
      (∀ j, r.input j = frames[j]?.getD default) ∧
      ∀ j, runAll (sampleFrame hostConfig) (frames.take j) zeroLists = .ok (r.state j) :=
    exists_run hs ⟨_, rfl⟩
  refine ⟨r, hlen, hinput, fun k hpos hk => ?_⟩
  obtain ⟨j, rfl⟩ := Nat.exists_eq_add_of_lt hpos
  have hrow := h ⟨j, by omega⟩
  simp only [Nat.zero_add] at hrow ⊢
  rw [hstate (j + 1)] at hrow
  exact Option.some.inj hrow

/-- The run of given frames, with what its frames show of a counter. -/
theorem exists_frameRun (frames : List FrameEnv) (v : Dfx) (rows : ℕ → List DomainRow)
    (h : ∀ k : Fin frames.length,
      (runAll (sampleFrame hostConfig) (frames.take (k + 1)) zeroLists).toOption.map (shown v) =
        some (rows (k + 1))) :
    ∃ r : FrameRun hostConfig, r.len = frames.length ∧ (∀ j, r.input j = frames[j]?.getD default) ∧
      ∀ k, 0 < k → k ≤ frames.length → shown v (r.state k) = rows k :=
  exists_viewedRun frames (shown v) rows h

end Vmtop
