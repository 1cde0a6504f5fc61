/-
# The time in the hypervisor

`FD_HYP` is the time of a vCPU outside the guest: `vcpu_utime - gtime + vcpu_stime`, of three
deltas.  Each of them is kept from the refresh before where its own counter goes back, so
the three may be growths of different intervals, and then `gtime` may exceed the other two
(`hypTime_back`).  While `gtime` and `vcpu_utime` only go back together, what is reported on
`gtime` is at most what is reported on `vcpu_utime`, thread by thread and so in the sums of
a domain, and the value is exact (`hypTime_exact`).
-/

import Mathlib.Algebra.Order.BigOperators.Group.List
import Vmtop.History.Baselines
import Vmtop.Screen

namespace Vmtop

open CText CArray Sampled Runs

variable {c : Config} {r : FrameRun c}

/-- The value of `FD_HYP` does not wrap. -/
structure HypExact (clkTck : ℕ) (t : Task) : Prop where
  le : (t.delta .gtime).toNat ≤ (t.delta .vcpuUtime).toNat + (t.delta .vcpuStime).toNat
  value : (rate clkTck t .hyp).map (fun p => (p.1.toNat : ℤ)) =
    some ((t.delta .vcpuUtime).toNat - (t.delta .gtime).toNat + (t.delta .vcpuStime).toNat)

/-- The counters of a record were read from a row of the table. -/
def ThreadRecord.Read (x : ThreadRecord r) : Prop := ReadFrom (r.state x.time).vcpuList x.task

/-- What a record shows of a counter. -/
def ThreadRecord.val (x : ThreadRecord r) (v : Dfx) : ℕ := (x.task.dfx v).toNat

/-- What the kernel promises of the rows: the guest time is a part of the user time, and grows
by no more than that from one row of a thread to the next while neither goes back. -/
structure GuestWithin (r : FrameRun c) : Prop where
  within : ∀ x : ThreadRecord r, x.Read → x.val .gtime ≤ x.val .vcpuUtime
  growth : ∀ x o : ThreadRecord r, x.Prev o → x.Read → o.Read → o.val .gtime ≤ x.val .gtime →
    o.val .vcpuUtime ≤ x.val .vcpuUtime →
    x.val .gtime - o.val .gtime ≤ x.val .vcpuUtime - o.val .vcpuUtime

/-- From one row of a thread to the next, `gtime` goes back exactly when `vcpu_utime` does. -/
def BackTogether (r : FrameRun c) : Prop :=
  ∀ x o : ThreadRecord r, x.Prev o → x.Read → o.Read →
    (x.val .gtime < o.val .gtime ↔ x.val .vcpuUtime < o.val .vcpuUtime)

/-- The vCPUs of a domain. -/
def Domain.vcpus (d : Domain) : List Task := d.lwps.filter fun t => t.type = .isVcpu

/-- No time of a vCPU grows by more than `M` from the record before, which shows `0` where it had
no row, and that much growth of all vCPUs of a domain fits in 64 bits. -/
structure LeavesRoom (r : FrameRun c) (M : ℕ) : Prop where
  growth : ∀ x o : ThreadRecord r, x.Prev o → x.Read →
    x.val .vcpuUtime - o.val .vcpuUtime ≤ M ∧ x.val .vcpuStime - o.val .vcpuStime ≤ M
  room : ∀ x : DomainRecord r, x.dom.vcpus.length * (2 * M) < 2 ^ 64

/-! ### One thread -/

/-- A record that was not read shows `0`. -/
theorem ThreadRecord.eq_zero_of_not_read {x : ThreadRecord r} (h : ¬ x.Read) {v : Dfx}
    (hv : v ∈ vcpuCounters c.arch) : x.val v = 0 := by
  rw [ThreadRecord.val, r.rowInv x.time x.le x.dom x.mem.dom x.task x.mem.thread v hv]
  split_ifs with htype
  · have hrow : (r.state x.time).vcpuList.row x.task.pid = none := by
      rw [← Option.not_isSome_iff_eq_none]
      exact fun hsome => h ⟨htype, hsome⟩
    rw [hrow, Option.elim_none]
    rfl
  · rfl

/-- A thread reports no counter of the table, or compares them all with one record. -/
theorem ThreadRecord.zero_or_compared (x : ThreadRecord r) :
    (∀ v ∈ vcpuCounters c.arch, x.task.delta v = 0) ∨
      ∃ o, ∀ v ∈ vcpuCounters c.arch, x.ComparedWith v o := by
  obtain ⟨j, hj, hlt, hthread⟩ := x.exists_refreshed
  by_cases htype : x.task.type = .isVcpu
  · have hcompared (v : Dfx) (hv : v ∈ vcpuCounters c.arch) : Compared c.arch x.task.type v :=
      Or.inr (Or.inr ⟨htype, hv⟩)
    cases hbase : baseline (r.state j).now x.dom x.task with
    | none =>
        left
        intro v hv
        rw [hthread.delta v (hcompared v hv), hbase]
        rfl
    | some ot =>
        right
        obtain ⟨od, hod, hot⟩ := Option.bind_eq_some_iff.1 hbase
        let o : ThreadRecord r :=
          ⟨j, hlt.le, od, ot, List.mem_of_find?_eq_some hod, List.mem_of_find?_eq_some hot⟩
        exact ⟨o, fun v hv => ⟨hcompared v hv, hj.symm, hod, hot⟩⟩
  · left
    intro v hv
    refine hthread.other v ?_
    rintro (rfl | rfl | ⟨h, -⟩)
    · exact (ne_stat_of_mem_vcpuCounters hv).1 rfl
    · exact (ne_stat_of_mem_vcpuCounters hv).2 rfl
    · exact htype h

/-- What a counter of the table reports follows the three-way rule on the values shown. -/
theorem ThreadRecord.ComparedWith.delta_toNat {v : Dfx} {x o : ThreadRecord r}
    (h : x.ComparedWith v o) : (x.task.delta v).toNat =
      if o.val v ≤ x.val v then x.val v - o.val v else (o.task.delta v).toNat := by
  rw [h.delta_eq, threeWay_toNat]
  rfl

theorem mem_vcpuCounters_times (arch : Arch) : .gtime ∈ vcpuCounters arch ∧
    .vcpuUtime ∈ vcpuCounters arch ∧ .vcpuStime ∈ vcpuCounters arch := by
  cases arch <;> decide

/-- **What a thread reports on `gtime` is at most what it reports on `vcpu_utime`**, while the
two go back together.  The induction goes down the chain of records. -/
theorem ThreadRecord.gtime_le (hrows : GuestWithin r) (hback : BackTogether r)
    (x : ThreadRecord r) : x.task.delta .gtime ≤ x.task.delta .vcpuUtime := by
  obtain ⟨hg, hu, -⟩ := mem_vcpuCounters_times c.arch
  have hwithin (y : ThreadRecord r) : y.val .gtime ≤ y.val .vcpuUtime := by
    by_cases hy : y.Read
    · exact hrows.within y hy
    · rw [y.eq_zero_of_not_read hy hg, y.eq_zero_of_not_read hy hu]
  induction x using ThreadRecord.prev_wf.induction with
  | _ x ih =>
      rcases x.zero_or_compared with hzero | ⟨o, ho⟩
      · rw [hzero _ hg, hzero _ hu]
        exact UInt64.le_refl 0
      · have hprev : x.Prev o := (ho _ hg).2
        have hle := UInt64.le_iff_toNat_le.1 (ih o hprev)
        have hnew := hwithin x
        have hold := hwithin o
        rw [UInt64.le_iff_toNat_le, (ho _ hg).delta_toNat, (ho _ hu).delta_toNat]
        by_cases hx : x.Read
        · by_cases hy : o.Read
          · have hgrowth := hrows.growth x o hprev hx hy
            have htogether := hback x o hprev hx hy
            split_ifs with h₁ h₂ h₂
            · exact hgrowth h₁ h₂
            · exact absurd (htogether.2 (Nat.not_le.1 h₂)) (Nat.not_lt.2 h₁)
            · exact absurd (htogether.1 (Nat.not_le.1 h₁)) (Nat.not_lt.2 h₂)
            · exact hle
          · rw [o.eq_zero_of_not_read hy hg, o.eq_zero_of_not_read hy hu, if_pos (Nat.zero_le _),
              if_pos (Nat.zero_le _)]
            exact hnew
        · rw [x.eq_zero_of_not_read hx hg, x.eq_zero_of_not_read hx hu]
          split_ifs <;> omega

/-! ### The sums of a domain -/

/-- **A delta of a thread exceeds no bound on the growth of its counter.**  Where the counter
goes back the delta is that of the record before, so the induction goes down the chain. -/
theorem ThreadRecord.delta_le {M : ℕ} {v : Dfx} (hv : v ∈ vcpuCounters c.arch)
    (hM : ∀ y o : ThreadRecord r, y.Prev o → y.Read → y.val v - o.val v ≤ M)
    (x : ThreadRecord r) : (x.task.delta v).toNat ≤ M := by
  induction x using ThreadRecord.prev_wf.induction with
  | _ x ih =>
      rcases x.zero_or_compared with hzero | ⟨o, ho⟩
      · rw [hzero v hv]
        exact Nat.zero_le M
      · have hprev : x.Prev o := (ho v hv).2
        rw [(ho v hv).delta_toNat]
        split_ifs with hle
        · by_cases hread : x.Read
          · exact hM x o hprev hread
          · rw [x.eq_zero_of_not_read hread hv, Nat.zero_sub]
            exact Nat.zero_le M
        · exact ih o hprev

/-- Machine words that fit are added up exactly. -/
theorem sum_toNat_of_lt {xs : List U64} (h : (xs.map UInt64.toNat).sum < 2 ^ 64) :
    xs.sum.toNat = (xs.map UInt64.toNat).sum := by
  rw [sum_toNat, Nat.mod_eq_of_lt h]

/-- The value is exact where `gtime` is within the other two and these fit. -/
theorem HypExact.of_le {clkTck : ℕ} {t : Task}
    (hle : (t.delta .gtime).toNat ≤ (t.delta .vcpuUtime).toNat)
    (hfits : (t.delta .vcpuUtime).toNat + (t.delta .vcpuStime).toNat < 2 ^ 64) :
    HypExact clkTck t where
  le := hle.trans (Nat.le_add_right _ _)
  value := by
    rw [rate, Option.map_some, UInt64.toNat_add,
      UInt64.toNat_sub_of_le _ _ (UInt64.le_iff_toNat_le.2 hle), Nat.mod_eq_of_lt (by omega)]
    exact congrArg some (by omega)

/-- The deltas of a domain are the sums over its vCPUs. -/
theorem DomainRecord.delta_eq_sum {v : Dfx} (hv : v ∈ vcpuCounters c.arch) (x : DomainRecord r) :
    x.dom.delta v = (x.dom.vcpus.map fun t => t.delta v).sum := by
  obtain ⟨j, -, -, href⟩ := x.exists_refreshed
  rw [href.vcpus v hv, vcpuSum, Domain.vcpus, Domain.lwps_eq href.length]

/-- A sum of terms that are each at most `M`. -/
theorem sum_map_le {M : ℕ} (v : Dfx) (ts : List Task)
    (h : ∀ t ∈ ts, (t.delta v).toNat ≤ M) :
    ((ts.map fun t => t.delta v).map UInt64.toNat).sum ≤ ts.length * M := by
  refine (List.sum_le_card_nsmul _ M ?_).trans (by simp)
  intro n hn
  rw [List.map_map] at hn
  obtain ⟨t, ht, rfl⟩ := List.mem_map.1 hn
  exact h t ht

/-- A vCPU of a domain record. -/
def DomainRecord.thread (x : DomainRecord r) {t : Task} (ht : t ∈ x.dom.vcpus) :
    ThreadRecord r :=
  ⟨x.time, x.le, x.dom, t, x.mem, (List.mem_filter.1 ht).1⟩

/-- The deltas of `vcpu_utime` and `vcpu_stime` are no more than the growth. -/
theorem LeavesRoom.delta_le {M : ℕ} (h : LeavesRoom r M) (x : ThreadRecord r) :
    (x.task.delta .vcpuUtime).toNat ≤ M ∧ (x.task.delta .vcpuStime).toNat ≤ M := by
  obtain ⟨-, hu, hs⟩ := mem_vcpuCounters_times c.arch
  exact ⟨x.delta_le hu fun y o hprev hy => (h.growth y o hprev hy).1,
    x.delta_le hs fun y o hprev hy => (h.growth y o hprev hy).2⟩

/-- The value of a thread is exact. -/
theorem ThreadRecord.hypExact {M : ℕ} (x : ThreadRecord r) (hrows : GuestWithin r)
    (hback : BackTogether r) (hroom : LeavesRoom r M) (clkTck : ℕ) : HypExact clkTck x.task := by
  obtain ⟨hg, hu, hs⟩ := mem_vcpuCounters_times c.arch
  refine .of_le (UInt64.le_iff_toNat_le.1 (x.gtime_le hrows hback)) ?_
  rcases x.zero_or_compared with hzero | ⟨o, ho⟩
  · rw [hzero _ hu, hzero _ hs]
    decide
  · have htype : x.task.type = .isVcpu := by
      obtain ⟨h | h | h, -⟩ := ho _ hg
      · cases h
      · cases h
      · exact h.1
    have hmem : x.task ∈ x.dom.vcpus := List.mem_filter.2 ⟨x.mem.thread, decide_eq_true htype⟩
    have hfits : x.dom.vcpus.length * (2 * M) < 2 ^ 64 :=
      hroom.room ⟨x.time, x.le, x.dom, x.mem.dom⟩
    have hpos := Nat.mul_le_mul_right (2 * M) (List.length_pos_of_mem hmem)
    have hdelta := hroom.delta_le x
    omega

/-- The value of a domain is exact: its deltas are sums over its vCPUs. -/
theorem DomainRecord.hypExact {M : ℕ} (x : DomainRecord r) (hrows : GuestWithin r)
    (hback : BackTogether r) (hroom : LeavesRoom r M) (clkTck : ℕ) :
    HypExact clkTck x.dom.toTask := by
  obtain ⟨hg, hu, hs⟩ := mem_vcpuCounters_times c.arch
  have hsum (v : Dfx) (hv : v ∈ vcpuCounters c.arch)
      (hM : ∀ y : ThreadRecord r, (y.task.delta v).toNat ≤ M) :
      (x.dom.delta v).toNat = ((x.dom.vcpus.map fun t => t.delta v).map UInt64.toNat).sum ∧
        (x.dom.delta v).toNat ≤ x.dom.vcpus.length * M := by
    have hbound := sum_map_le v x.dom.vcpus fun t ht => hM (x.thread ht)
    have hfits := hroom.room x
    have hexact := sum_toNat_of_lt (hbound.trans_lt (by lia))
    rw [x.delta_eq_sum hv]
    exact ⟨hexact, hexact.le.trans hbound⟩
  obtain ⟨hueq, hule⟩ := hsum _ hu fun y => (hroom.delta_le y).1
  obtain ⟨-, hsle⟩ := hsum _ hs fun y => (hroom.delta_le y).2
  refine .of_le ?_ ?_
  · rw [x.delta_eq_sum hg, sum_toNat, hueq, List.map_map, List.map_map]
    refine (Nat.mod_le _ _).trans (List.sum_le_sum fun t ht => ?_)
    exact UInt64.le_iff_toNat_le.1 ((x.thread ht).gtime_le hrows hback)
  · have hfits := hroom.room x
    lia

/-- **The time in the hypervisor does not wrap**, of a thread or of a domain, while `gtime` and
`vcpu_utime` only go back together and the times of a domain fit in 64 bits. -/
theorem hypTime_exact (clkTck M : ℕ) (r : FrameRun c) (hrows : GuestWithin r)
    (hback : BackTogether r) (hroom : LeavesRoom r M) :
    (∀ x : ThreadRecord r, HypExact clkTck x.task) ∧
      ∀ x : DomainRecord r, HypExact clkTck x.dom.toTask :=
  ⟨fun x => x.hypExact hrows hback hroom clkTck, fun x => x.hypExact hrows hback hroom clkTck⟩

/-! ### The times of a small host -/

/-- The times that a frame shows of a thread. -/
structure TimesRow where
  utime : ℕ
  stime : ℕ
  gtime : ℕ
  deltaUtime : ℕ
  deltaStime : ℕ
  deltaGtime : ℕ
  deriving DecidableEq

/-- The times of a record. -/
def TimesRow.of (t : Task) : TimesRow :=
  ⟨(t.dfx .vcpuUtime).toNat, (t.dfx .vcpuStime).toNat, (t.dfx .gtime).toNat,
    (t.delta .vcpuUtime).toNat, (t.delta .vcpuStime).toNat, (t.delta .gtime).toNat⟩

/-- The times that a frame shows. -/
def times (s : Lists) : List TimesRow := s.now.domains.flatMap fun d => d.lwps.map TimesRow.of

/-- A frame in which the vCPU of a small host has the given times. -/
def timesFrame (utime stime gtime : ℕ) : FrameEnv :=
  let row := List.replicate 32 0 ++ [utime, stime, gtime]
  let line := decimal 1 ++ (row.flatMap fun n => ' ' :: decimal n) ++ ['\n']
  { (default : FrameEnv) with refresh := hostEnv line 3 }

variable {rows : ℕ → TimesRow}

/-- A record shows the times of its frame. -/
theorem ThreadRecord.times_eq (hshown : ∀ k, 0 < k → k ≤ r.len → times (r.state k) = [rows k])
    (x : ThreadRecord r) : 0 < x.time ∧ TimesRow.of x.task = rows x.time := by
  obtain ⟨j, hj, -⟩ := x.exists_refreshed
  have hpos : 0 < x.time := hj ▸ Nat.succ_pos j
  have hmem : TimesRow.of x.task ∈ times (r.state x.time) :=
    List.mem_flatMap.2 ⟨x.dom, x.mem.dom, List.mem_map_of_mem x.mem.thread⟩
  rw [hshown _ hpos x.le, List.mem_singleton] at hmem
  exact ⟨hpos, hmem⟩

/-- A frame that shows a vCPU has a record of it. -/
theorem exists_record_of_times (hshown : ∀ k, 0 < k → k ≤ r.len → times (r.state k) = [rows k])
    {k : ℕ} (hpos : 0 < k) (hk : k ≤ r.len) :
    ∃ x : ThreadRecord r, x.time = k ∧ TimesRow.of x.task = rows k := by
  have hmem : rows k ∈ times (r.state k) := by
    rw [hshown k hpos hk]
    exact List.mem_singleton_self _
  obtain ⟨d, hd, hrow⟩ := List.mem_flatMap.1 hmem
  obtain ⟨t, ht, hrow⟩ := List.mem_map.1 hrow
  exact ⟨⟨k, hk, d, t, hd, ht⟩, rfl, hrow⟩

/-- The promise of the kernel, on the times that are shown. -/
theorem guestWithin_of_times (hshown : ∀ k, 0 < k → k ≤ r.len → times (r.state k) = [rows k])
    (hwithin : ∀ k ≤ r.len, (rows k).gtime ≤ (rows k).utime)
    (hgrowth : ∀ k < r.len, (rows k).gtime ≤ (rows (k + 1)).gtime →
      (rows k).utime ≤ (rows (k + 1)).utime →
      (rows (k + 1)).gtime - (rows k).gtime ≤ (rows (k + 1)).utime - (rows k).utime) :
    GuestWithin r where
  within x _ := by
    have hx := (x.times_eq hshown).2
    have := hwithin x.time x.le
    rw [← hx] at this
    exact this
  growth x o hprev _ _ := by
    have := hgrowth o.time (hprev.time.le.trans x.le)
    rw [hprev.time, ← (x.times_eq hshown).2, ← (o.times_eq hshown).2] at this
    exact this

/-- The times of a vCPU that goes back, all of it and then `gtime` alone. -/
def backRows : ℕ → TimesRow
  | 0 => ⟨0, 0, 0, 0, 0, 0⟩
  | 1 => ⟨10, 0, 0, 0, 0, 0⟩
  | 2 => ⟨20, 0, 9, 10, 0, 9⟩
  | _ => ⟨21, 0, 5, 1, 0, 9⟩

/-- **A guest time that goes back alone is subtracted from a growth it is no part of**: the
vCPU ran for `1`, and `9` of the interval before is taken from it. -/
theorem hypTime_back : ¬ ∀ (clkTck : ℕ) (c : Config) (r : FrameRun c), GuestWithin r →
    (∀ x : ThreadRecord r, HypExact clkTck x.task) ∧
      ∀ x : DomainRecord r, HypExact clkTck x.dom.toTask := by
  intro h
  obtain ⟨r, hlen, -, hshown⟩ := exists_viewedRun
    [timesFrame 10 0 0, timesFrame 20 0 9, timesFrame 21 0 5] times (fun k => [backRows k])
    (by decide +kernel)
  rw [← hlen] at hshown
  have hlen : r.len = 3 := hlen
  have hwithin : GuestWithin r := by
    refine guestWithin_of_times hshown ?_ ?_ <;> rw [hlen] <;> decide
  obtain ⟨x, -, hrow⟩ := exists_record_of_times hshown (k := 3) (by decide) hlen.ge
  have hle := ((h 100 hostConfig r hwithin).1 x).le
  have hgtime : (x.task.delta .gtime).toNat = 9 := congrArg TimesRow.deltaGtime hrow
  have hutime : (x.task.delta .vcpuUtime).toNat = 1 := congrArg TimesRow.deltaUtime hrow
  have hstime : (x.task.delta .vcpuStime).toNat = 0 := congrArg TimesRow.deltaStime hrow
  omega

/-- The times of a vCPU that has run for long, all of which go back in the last frame. -/
def togetherRows : ℕ → TimesRow
  | 0 => ⟨0, 0, 0, 0, 0, 0⟩
  | 1 => ⟨2 ^ 63 + 10, 0, 0, 0, 0, 0⟩
  | 2 => ⟨2 ^ 63 + 20, 3, 9, 10, 3, 9⟩
  | _ => ⟨2 ^ 63 + 15, 1, 5, 10, 3, 9⟩

/-- Times that go back together. -/
theorem hypTime_exact_together : ∃ (r : FrameRun hostConfig) (x : ThreadRecord r),
    x.time = 3 ∧ TimesRow.of x.task = ⟨2 ^ 63 + 15, 1, 5, 10, 3, 9⟩ ∧ HypExact 100 x.task := by
  obtain ⟨r, hlen, -, hshown⟩ := exists_viewedRun
    [timesFrame (2 ^ 63 + 10) 0 0, timesFrame (2 ^ 63 + 20) 3 9, timesFrame (2 ^ 63 + 15) 1 5]
    times (fun k => [togetherRows k]) (by decide +kernel)
  rw [← hlen] at hshown
  have hlen : r.len = 3 := hlen
  have hwithin : GuestWithin r := by
    refine guestWithin_of_times hshown ?_ ?_ <;> rw [hlen] <;> decide
  have hback : BackTogether r := by
    intro x o hprev _ _
    have hrows : ∀ k < r.len, ((togetherRows (k + 1)).gtime < (togetherRows k).gtime ↔
        (togetherRows (k + 1)).utime < (togetherRows k).utime) := by
      rw [hlen]
      decide
    have := hrows o.time (hprev.time.le.trans x.le)
    rw [hprev.time, ← (x.times_eq hshown).2, ← (o.times_eq hshown).2] at this
    exact this
  have hroom : LeavesRoom r 20 := by
    constructor
    · intro x o hprev _
      have hrows : ∀ k < r.len, 0 < k →
          (togetherRows (k + 1)).utime - (togetherRows k).utime ≤ 20 ∧
            (togetherRows (k + 1)).stime - (togetherRows k).stime ≤ 20 := by
        rw [hlen]
        decide
      obtain ⟨hpos, hshows⟩ := o.times_eq hshown
      have := hrows o.time (hprev.time.le.trans x.le) hpos
      rw [hprev.time, ← (x.times_eq hshown).2, ← hshows] at this
      exact this
    · intro x
      obtain ⟨j, hj, -⟩ := x.exists_refreshed
      have hone : x.dom.lwps.length ≤ (times (r.state x.time)).length := by
        rw [times, List.length_flatMap]
        refine List.le_sum_of_mem (List.mem_map.2 ⟨x.dom, x.mem, ?_⟩)
        rw [List.length_map]
      rw [hshown x.time (hj ▸ Nat.succ_pos j) x.le, List.length_singleton] at hone
      have hvcpus : x.dom.vcpus.length ≤ x.dom.lwps.length := List.length_filter_le _ _
      omega
  obtain ⟨x, htime, hrow⟩ := exists_record_of_times hshown (k := 3) (by decide) hlen.ge
  exact ⟨r, x, htime, hrow, (hypTime_exact 100 20 r hwithin hback hroom).1 x⟩

end Vmtop
