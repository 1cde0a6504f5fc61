/-
# What the passes over the columns compute

The tables of `file_item`s are walked by loops that call one function per column.
Here each walk gets one equation for all columns together: `get_vcpu_stat` copies
the counters of the row (`getVcpuStat_dfx`), the delta pass applies the three-way
rule to the columns of its table (`deltaPass_delta`), and the sum pass adds the
deltas of a thread to those of its domain, each column once (`sumVcpuStat_delta`).
What a walk does not name it leaves alone.
-/

import Mathlib.Data.UInt
import Vmtop.Proc

namespace Vmtop

open CText CArray Sampled

variable {arch : Arch}

/-! ### The delta pass -/

/-- The rule of `DELTA_FUN` is the three-way rule with the old record present. -/
theorem deltaName_delta (v w : Dfx) (new old : Task) :
    (deltaName v new old).delta w =
      if w = v then threeWay (some (old.dfx v, old.delta v)) (new.dfx v) else new.delta w := by
  simp only [deltaName, threeWay, Function.update_apply]

/-- The delta pass changes the deltas only. -/
theorem deltaPass_frame (stab : List FileItem) (new old : Task) :
    deltaPass stab new old = { new with delta := (deltaPass stab new old).delta } := by
  unfold deltaPass
  induction stab generalizing new with
  | nil => rfl
  | cons item stab ih =>
      rw [List.foldl_cons]
      cases item.deltaFun with
      | none => exact ih new
      | some v => exact ih (deltaName v new old)

/-- **The delta pass applies the three-way rule to the columns of its table** and
leaves every other delta alone. -/
theorem deltaPass_delta (stab : List FileItem) (new old : Task) (v : Dfx) :
    (deltaPass stab new old).delta v =
      if v ∈ stab.filterMap FileItem.deltaFun then
        threeWay (some (old.dfx v, old.delta v)) (new.dfx v)
      else new.delta v := by
  unfold deltaPass
  induction stab generalizing new with
  | nil => rfl
  | cons item stab ih =>
      rw [List.foldl_cons]
      cases hf : item.deltaFun with
      | none => simpa [hf] using ih new
      | some w =>
          rw [Option.elim_some, ih (deltaName w new old), deltaName_delta,
            List.filterMap_cons_some hf]
          by_cases hv : v = w
          · subst hv
            simp [deltaName]
          · simp [hv, deltaName]

theorem refreshDeltaStat_frame (new old : Task) :
    refreshDeltaStat new old = { new with delta := (refreshDeltaStat new old).delta } :=
  deltaPass_frame procStab new old

theorem refreshDeltaStat_delta (new old : Task) (v : Dfx) :
    (refreshDeltaStat new old).delta v =
      if v = .utime ∨ v = .stime then threeWay (some (old.dfx v, old.delta v)) (new.dfx v)
      else new.delta v := by
  rw [refreshDeltaStat, deltaPass_delta]
  simp [procStab]

theorem refreshDeltaVcpuStat_delta (new old : Task) (v : Dfx) :
    (refreshDeltaVcpuStat arch new old).delta v =
      if v ∈ vcpuCounters arch then threeWay (some (old.dfx v, old.delta v)) (new.dfx v)
      else new.delta v :=
  deltaPass_delta _ _ _ _

/-- The times of a stat file are no columns of `vcpu_stat`. -/
theorem ne_stat_of_mem_vcpuCounters {v : Dfx} (hv : v ∈ vcpuCounters arch) :
    v ≠ .utime ∧ v ≠ .stime := by
  constructor <;> rintro rfl <;> revert hv <;> cases arch <;> decide

/-- No counter stands in two columns. -/
theorem vcpuCounters_nodup : (vcpuCounters arch).Nodup := by
  cases arch <;> decide

/-! ### The sum pass -/

/-- What the walk of `sum_vcpu_stat` adds, over any columns that name no counter twice. -/
theorem sumWalk_delta (stab : List FileItem) (hn : (stab.filterMap FileItem.sumFun).Nodup)
    (dom thread : Task) (v : Dfx) :
    (stab.foldl (fun dom item => item.sumFun.elim dom fun v => sumName v dom thread) dom).delta v =
      if v ∈ stab.filterMap FileItem.sumFun then dom.delta v + thread.delta v else dom.delta v := by
  induction stab generalizing dom with
  | nil => rfl
  | cons item stab ih =>
      rw [List.foldl_cons]
      cases hf : item.sumFun with
      | none =>
          rw [List.filterMap_cons_none hf] at hn ⊢
          exact ih hn dom
      | some w =>
          rw [List.filterMap_cons_some hf, List.nodup_cons] at hn
          rw [Option.elim_some, ih hn.2 (sumName w dom thread), List.filterMap_cons_some hf]
          by_cases hv : v = w
          · subst hv
            simp [hn.1, sumName]
          · simp [hv, sumName]

/-- The walk of `sum_vcpu_stat` changes the deltas only. -/
theorem sumWalk_frame (stab : List FileItem) (dom thread : Task) :
    ∃ delta, stab.foldl (fun dom item => item.sumFun.elim dom fun v => sumName v dom thread) dom =
      { dom with delta := delta } := by
  induction stab generalizing dom with
  | nil => exact ⟨dom.delta, rfl⟩
  | cons item stab ih =>
      rw [List.foldl_cons]
      cases item.sumFun with
      | none => exact ih dom
      | some v => exact ih (sumName v dom thread)

/-- `sum_vcpu_stat` changes the deltas and `st_max` only. -/
theorem sumVcpuStat_frame (dom thread : Task) :
    sumVcpuStat arch dom thread =
      { dom with
        delta := (sumVcpuStat arch dom thread).delta
        stMax := (sumVcpuStat arch dom thread).stMax } := by
  obtain ⟨delta, h⟩ := sumWalk_frame (vcpuStatStab arch) dom thread
  rw [sumVcpuStat, h]

/-- It adds `st_max` of the thread to that of the domain. -/
theorem sumVcpuStat_stMax (dom thread : Task) :
    (sumVcpuStat arch dom thread).stMax = dom.stMax + thread.stMax := by
  obtain ⟨delta, h⟩ := sumWalk_frame (vcpuStatStab arch) dom thread
  rw [sumVcpuStat, h]

/-- **`sum_vcpu_stat` adds every counter of the thread once.** -/
theorem sumVcpuStat_delta (dom thread : Task) (v : Dfx) :
    (sumVcpuStat arch dom thread).delta v =
      if v ∈ vcpuCounters arch then dom.delta v + thread.delta v else dom.delta v := by
  have hsum : (vcpuStatStab arch).filterMap FileItem.sumFun = vcpuCounters arch := by
    cases arch <;> rfl
  unfold sumVcpuStat
  rw [sumWalk_delta _ (hsum ▸ vcpuCounters_nodup), hsum]

/-! ### The copy of a row -/

/-- What one copy leaves in a field. -/
theorem Slot.load_copy (a b : Slot) (dom vcpu : Task) :
    a.load (b.copy dom vcpu) = if a = b then a.load vcpu else a.load dom := by
  by_cases hab : a = b
  · subst hab
    cases a <;> simp [Slot.load, Slot.copy]
  · cases a <;> cases b <;> simp_all [Slot.load, Slot.copy]

/-- What the copies of all columns leave in one. -/
theorem load_copyWalk (stab : List FileItem) (a : Slot) (dom vcpu : Task) :
    a.load (stab.foldl (fun dom item => item.getFun.elim dom fun slot => slot.copy dom vcpu) dom) =
      if a ∈ stab.filterMap FileItem.getFun then a.load vcpu else a.load dom := by
  induction stab generalizing dom with
  | nil => simp
  | cons item stab ih =>
      rw [List.foldl_cons, ih]
      cases hf : item.getFun with
      | none => rw [List.filterMap_cons_none hf, Option.elim_none]
      | some b =>
          rw [List.filterMap_cons_some hf, Option.elim_some, Slot.load_copy]
          by_cases hab : a = b
          · simp [hab]
          · simp [hab]

/-- The copy of the columns leaves the deltas and what no column names alone. -/
theorem copyWalk_frame {stab : List FileItem} (hpid : .pid ∉ stab.filterMap FileItem.getFun)
    (dom vcpu : Task) :
    let t := stab.foldl (fun dom item => item.getFun.elim dom fun slot => slot.copy dom vcpu) dom
    t = { dom with dfx := t.dfx, stMax := t.stMax } := by
  induction stab generalizing dom with
  | nil => rfl
  | cons item stab ih =>
      rw [List.foldl_cons]
      cases hf : item.getFun with
      | none =>
          rw [List.filterMap_cons_none hf] at hpid
          exact ih hpid dom
      | some slot =>
          rw [List.filterMap_cons_some hf, List.mem_cons, not_or] at hpid
          cases slot with
          | pid => exact absurd rfl hpid.1
          | stMax => exact ih hpid.2 (Slot.stMax.copy dom vcpu)
          | dfx v => exact ih hpid.2 ((Slot.dfx v).copy dom vcpu)

/-- The counters are what the columns behind the first one read into. -/
theorem mem_vcpuCounters_iff {v : Dfx} : v ∈ vcpuCounters arch ↔
    .dfx v ∈ (vcpuStatStab arch).tail.filterMap FileItem.getFun := by
  cases arch <;> simp [vcpuCounters, vcpuStatStab, exitColumns, FileItem.gdf, FileItem.gf]

/-- `get_vcpu_stat` changes what the columns read into and nothing else. -/
theorem getVcpuStat_frame (dom : Task) (l : VcpuList) :
    (getVcpuStat arch dom l).2 =
      { dom with
        dfx := (getVcpuStat arch dom l).2.dfx
        stMax := (getVcpuStat arch dom l).2.stMax } := by
  unfold getVcpuStat
  cases l.row dom.pid with
  | none => rfl
  | some vcpu => exact copyWalk_frame (by cases arch <;> decide) dom vcpu

theorem Slot.load_dfx_inj {v : Dfx} {t t' : Task} :
    (Slot.dfx v).load t = (Slot.dfx v).load t' ↔ t.dfx v = t'.dfx v := by
  rw [Slot.load, Slot.load, Nat.cast_inj]
  exact UInt64.toNat_inj

/-- **`get_vcpu_stat` copies the counters of the row with the pid of the thread**, if
there is one. -/
theorem getVcpuStat_dfx (dom : Task) (l : VcpuList) (v : Dfx) :
    (getVcpuStat arch dom l).2.dfx v =
      if v ∈ vcpuCounters arch then (l.row dom.pid).elim (dom.dfx v) fun r => r.dfx v
      else dom.dfx v := by
  unfold getVcpuStat
  cases l.row dom.pid with
  | none => simp
  | some vcpu =>
      have hload := load_copyWalk (vcpuStatStab arch).tail (.dfx v) dom vcpu
      simp only [← mem_vcpuCounters_iff] at hload
      split_ifs at hload ⊢ with hv
      · exact Slot.load_dfx_inj.1 hload
      · exact Slot.load_dfx_inj.1 hload

/-- `get_vcpu_stat` never fails on a record and a list that exist, so the test that
`get_child_pid` makes of its result always succeeds. -/
theorem getVcpuStat_nonneg (dom : Task) (l : VcpuList) : 0 ≤ (getVcpuStat arch dom l).1 := by
  unfold getVcpuStat
  cases l.row dom.pid <;> simp

end Vmtop
