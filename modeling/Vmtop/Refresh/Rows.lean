/-
# What a row of the `vcpu_stat` table remembers

`get_vcpu_list` scans every line of the file into a row that nothing clears, so a
column is written only where the line has a token for it that the conversion
accepts; otherwise the row keeps what an earlier refresh, or `malloc`, left there.
The table is a function of the file exactly when no line is short and no token is
rejected (`getVcpuList_determined_iff`).
-/

import Mathlib.Data.List.Forall2
import Vmtop.Lib.Reordered
import Vmtop.Refresh.Host

namespace Vmtop

open CText CArray Reordered

variable {arch : Arch}

/-! ### One row -/

/-- The fields that the columns are scanned into. -/
def slots (stab : List FileItem) : List Slot := stab.filterMap FileItem.getFun

/-- A line writes every column: it has a token for each, and the conversion accepts it. -/
def Fills (stab : List FileItem) (ps : List Text) : Prop :=
  stab.length ≤ ps.length ∧ ∀ e ∈ stab.zip ps, (e.1.format.scan e.2).isSome

instance (stab : List FileItem) (ps : List Text) : Decidable (Fills stab ps) :=
  inferInstanceAs (Decidable (_ ∧ _))

/-- A field that is not the one stored keeps its value. -/
theorem Slot.load_store_ne {a b : Slot} (h : a ≠ b) (n : ℤ) (t : Task) :
    a.load (b.store n t) = a.load t := by
  cases a <;> cases b <;> simp_all [Slot.load, Slot.store]

/-- The value stored does not depend on the record. -/
theorem Slot.load_store (a : Slot) (n : ℤ) (t t' : Task) :
    a.load (a.store n t) = a.load (a.store n t') := by
  cases a <;> simp [Slot.load, Slot.store]

/-- A field of no column keeps its value. -/
theorem fillRow_of_notMem {stab : List FileItem} {a : Slot} (ha : a ∉ slots stab)
    (ps : List Text) (t : Task) : a.load (fillRow stab ps t) = a.load t := by
  induction stab generalizing ps t with
  | nil => rfl
  | cons item stab ih =>
      cases ps with
      | nil => rfl
      | cons p ps =>
          have htail : a ∉ slots stab := fun h => ha <| by
            unfold slots
            rw [List.filterMap_cons]
            cases item.getFun with
            | none => exact h
            | some _ => exact List.mem_cons_of_mem _ h
          rw [fillRow, ih htail]
          cases hf : item.getFun with
          | none => rfl
          | some b =>
              have hab : a ≠ b := by
                rintro rfl
                exact ha (List.mem_filterMap.2 ⟨item, List.mem_cons_self, hf⟩)
              simp only [Option.elim_some, sscanf]
              cases item.format.scan p with
              | none => rfl
              | some v => exact Slot.load_store_ne hab _ _

/-- **A line that writes every column leaves nothing of the row it is scanned into.** -/
theorem Fills.determined {stab : List FileItem} {ps : List Text} (h : Fills stab ps)
    (hn : (slots stab).Nodup) {a : Slot} (ha : a ∈ slots stab) (t t' : Task) :
    a.load (fillRow stab ps t) = a.load (fillRow stab ps t') := by
  induction stab generalizing ps t t' with
  | nil => cases ha
  | cons item stab ih =>
      obtain ⟨hlen, hscan⟩ := h
      obtain ⟨p, ps, rfl⟩ := List.exists_cons_of_length_pos (Nat.zero_lt_of_lt hlen)
      rw [List.zip_cons_cons, List.forall_mem_cons] at hscan
      have htail : Fills stab ps := ⟨Nat.le_of_succ_le_succ hlen, hscan.2⟩
      rw [fillRow, fillRow]
      unfold slots at hn ha
      rw [List.filterMap_cons] at hn ha
      cases hf : item.getFun with
      | none =>
          rw [hf] at hn ha
          exact ih htail hn ha _ _
      | some b =>
          rw [hf] at hn ha
          rw [List.nodup_cons] at hn
          rcases List.mem_cons.1 ha with rfl | ha
          · obtain ⟨v, hv⟩ := Option.isSome_iff_exists.1 hscan.1
            rw [fillRow_of_notMem hn.1, fillRow_of_notMem hn.1]
            simp only [Option.elim_some, sscanf, hv]
            exact Slot.load_store _ _ _ _
          · exact ih htail hn.2 ha _ _

/-- A line that does not write every column leaves the field of one as it was. -/
theorem exists_kept {stab : List FileItem} {ps : List Text} (h : ¬ Fills stab ps)
    (hn : (slots stab).Nodup) (hget : ∀ item ∈ stab, item.getFun.isSome) :
    ∃ a ∈ slots stab, ∀ t, a.load (fillRow stab ps t) = a.load t := by
  induction stab generalizing ps with
  | nil => exact absurd ⟨Nat.zero_le _, by simp⟩ h
  | cons item stab ih =>
      rw [List.forall_mem_cons] at hget
      obtain ⟨b, hb⟩ := Option.isSome_iff_exists.1 hget.1
      have hslots : slots (item :: stab) = b :: slots stab := List.filterMap_cons_some hb
      rw [hslots, List.nodup_cons] at hn
      rw [hslots]
      cases ps with
      | nil => exact ⟨b, List.mem_cons_self, fun _ => rfl⟩
      | cons p ps =>
          cases hv : item.format.scan p with
          | none =>
              refine ⟨b, List.mem_cons_self, fun t => ?_⟩
              rw [fillRow, fillRow_of_notMem hn.1, hb]
              simp [sscanf, hv]
          | some v =>
              have htail : ¬ Fills stab ps := fun hf => h
                ⟨Nat.succ_le_succ hf.1, by
                  rw [List.zip_cons_cons, List.forall_mem_cons]
                  exact ⟨by simp [hv], hf.2⟩⟩
              obtain ⟨a, ha, hkeep⟩ := ih htail hn.2 hget.2
              refine ⟨a, List.mem_cons_of_mem _ ha, fun t => ?_⟩
              rw [fillRow, hkeep, hb]
              simp only [Option.elim_some, sscanf, hv]
              have hab : a ≠ b := by
                rintro rfl
                exact hn.1 ha
              exact Slot.load_store_ne hab _ _

/-! ### The whole table -/

/-- What the line `buf` makes of the row `t`. -/
def scanRow (arch : Arch) (buf : Text) (t : Task) : Task :=
  fillRow (vcpuStatStab arch) (tokens isBlank (cstr buf)) t

/-- The loop takes one row for each line until the table is full. -/
theorem getVcpuListLoop_num (lines : List Text) (l : VcpuList) :
    (getVcpuListLoop arch lines l).num = min (l.num + lines.length) maxVcpuNum := by
  induction lines generalizing l with
  | nil => simp [getVcpuListLoop, l.num_le]
  | cons buf rest ih =>
      rw [getVcpuListLoop, List.length_cons]
      split_ifs with h
      · rw [ih]
        dsimp only
        omega
      · have := l.num_le
        omega

/-- **The row of a line is that line scanned into what the row held**; the other rows
are left alone. -/
theorem getVcpuListLoop_rows (lines : List Text) (l : VcpuList) (i : Fin maxVcpuNum) :
    (getVcpuListLoop arch lines l).rows i =
      if l.num ≤ i then (lines[i - l.num]?).elim (l.rows i) fun buf => scanRow arch buf (l.rows i)
      else l.rows i := by
  induction lines generalizing l with
  | nil => simp [getVcpuListLoop]
  | cons buf rest ih =>
      rw [getVcpuListLoop]
      split_ifs with h hi hi
      · rw [ih]
        rcases eq_or_lt_of_le hi with he | hlt
        · have hfin : i = ⟨l.num, h⟩ := Fin.ext he.symm
          simp [hfin, scanRow]
        · have hne : i ≠ ⟨l.num, h⟩ := fun e => by simp [e] at hlt
          obtain ⟨k, hk⟩ := Nat.exists_eq_add_of_lt hlt
          have h₁ : (i : ℕ) - l.num = k + 1 := by omega
          have h₂ : (i : ℕ) - (l.num + 1) = k := by omega
          simp only [Function.update_of_ne hne, h₁, h₂, List.getElem?_cons_succ]
          rw [if_pos (by omega)]
      · have hne : i ≠ ⟨l.num, h⟩ := fun e => by simp [e] at hi
        rw [ih, if_neg (by dsimp only; omega)]
        exact Function.update_of_ne hne _ _
      · exact absurd i.isLt (by omega)
      · rfl

/-- The lines that get a row. -/
def rowLines (s : Text) : List Text := (chunks (bufSize - 2) s).take maxVcpuNum

theorem getVcpuList_num (s : Text) (l : VcpuList) :
    (getVcpuList arch (some s) l).2.num = (rowLines s).length := by
  simp [getVcpuList, getVcpuListLoop_num, rowLines, Nat.min_comm]

theorem getVcpuList_rows (s : Text) (l : VcpuList) {i : Fin maxVcpuNum}
    (hi : (i : ℕ) < (rowLines s).length) :
    (getVcpuList arch (some s) l).2.rows i = scanRow arch (rowLines s)[i] (l.rows i) := by
  have hlen : (i : ℕ) < (chunks (bufSize - 2) s).length := by
    simp only [rowLines, List.length_take] at hi
    omega
  simp [getVcpuList, getVcpuListLoop_rows, rowLines, List.getElem?_eq_getElem hlen]

/-! ### What the file determines -/

/-- Two rows hold the same in every column. -/
def SameColumns (arch : Arch) (t t' : Task) : Prop :=
  ∀ a ∈ slots (vcpuStatStab arch), a.load t = a.load t'

/-- Whatever two tables held before, `get_vcpu_list` reads the file into the same rows,
and `get_vcpu_stat` then hands out the same counters. -/
def Determined (arch : Arch) (s : Text) : Prop :=
  ∀ l l' : VcpuList,
    let new := (getVcpuList arch (some s) l).2
    let new' := (getVcpuList arch (some s) l').2
    new.num = new'.num ∧
      (∀ i : Fin maxVcpuNum, (i : ℕ) < new.num → SameColumns arch (new.rows i) (new'.rows i)) ∧
      ∀ dom : Task, getVcpuStat arch dom new = getVcpuStat arch dom new'

/-- Every column of the table has a field, and no two have the same. -/
theorem vcpuStatStab_slots (arch : Arch) : (slots (vcpuStatStab arch)).Nodup ∧
    ∀ item ∈ vcpuStatStab arch, item.getFun.isSome := by
  cases arch <;> decide

/-- What `get_vcpu_stat` copies is what the columns hold. -/
theorem Slot.copy_congr {a : Slot} {t t' : Task} (h : a.load t = a.load t') (dom : Task) :
    a.copy dom t = a.copy dom t' := by
  cases a with
  | pid => simpa [Slot.load, Slot.copy] using h
  | stMax =>
      have hmax : t.stMax = t'.stMax := UInt64.toNat_inj.1 (Int.ofNat_inj.1 h)
      simp [Slot.copy, hmax]
  | dfx v =>
      have hv : t.dfx v = t'.dfx v := UInt64.toNat_inj.1 (Int.ofNat_inj.1 h)
      simp [Slot.copy, hv]

/-- Of two tables that agree row by row, the same row has the pid. -/
theorem find?_sameColumns {ts ts' : List Task} (h : List.Forall₂ (SameColumns arch) ts ts')
    (pid : ℤ) :
    Option.Rel (SameColumns arch) (ts.find? fun vcpu => vcpu.pid = pid)
      (ts'.find? fun vcpu => vcpu.pid = pid) := by
  refine rel_find? h fun t t' ht => ?_
  have hpid : t.pid = t'.pid := ht .pid (by cases arch <;> decide)
  rw [hpid]

/-- Tables that agree row by row hand out the same counters. -/
theorem getVcpuStat_congr {l l' : VcpuList}
    (h : List.Forall₂ (SameColumns arch) l.table l'.table) (dom : Task) :
    getVcpuStat arch dom l = getVcpuStat arch dom l' := by
  have hrow : Option.Rel (SameColumns arch) (l.row dom.pid) (l'.row dom.pid) :=
    find?_sameColumns h dom.pid
  unfold getVcpuStat
  generalize l.row dom.pid = o, l'.row dom.pid = o' at hrow
  cases hrow with
  | none => rfl
  | @some t t' ht =>
      simp only [Prod.mk.injEq, true_and]
      refine List.foldl_ext _ _ _ fun d item hitem => ?_
      cases hf : item.getFun with
      | none => rfl
      | some a =>
          have ha : a ∈ slots (vcpuStatStab arch) :=
            List.mem_filterMap.2 ⟨item, List.mem_of_mem_tail hitem, hf⟩
          exact Slot.copy_congr (ht a ha) d

/-- **The table is a function of the file exactly when every line that gets a row
writes every column**: no line is short and no token is rejected. -/
theorem getVcpuList_determined_iff (s : Text) :
    Determined arch s ↔
      ∀ buf ∈ rowLines s, Fills (vcpuStatStab arch) (tokens isBlank (cstr buf)) := by
  obtain ⟨hnodup, hget⟩ := vcpuStatStab_slots arch
  constructor
  · intro h buf hbuf
    by_contra hnot
    obtain ⟨a, ha, hkeep⟩ := exists_kept hnot hnodup hget
    obtain ⟨i, hi, rfl⟩ := List.mem_iff_getElem.1 hbuf
    have hmax : i < maxVcpuNum := by
      simp only [rowLines, List.length_take] at hi
      omega
    -- two tables that differ in that field of the row
    let table (n : ℤ) : VcpuList := ⟨fun _ => a.store n Task.zero, 0, Nat.zero_le _⟩
    have hsame := (h (table 0) (table 1)).2.1 ⟨i, hmax⟩ (by rwa [getVcpuList_num]) a ha
    rw [getVcpuList_rows s _ hi, getVcpuList_rows s _ hi] at hsame
    have hstored : a.load (a.store 0 Task.zero) = a.load (a.store 1 Task.zero) :=
      (hkeep _).symm.trans (hsame.trans (hkeep _))
    revert hstored
    cases a <;> simp [Slot.load, Slot.store, toInt32]
  · intro h l l'
    have hnum : (getVcpuList arch (some s) l).2.num = (getVcpuList arch (some s) l').2.num := by
      rw [getVcpuList_num, getVcpuList_num]
    have hrows : ∀ i : Fin maxVcpuNum, (i : ℕ) < (getVcpuList arch (some s) l).2.num →
        SameColumns arch ((getVcpuList arch (some s) l).2.rows i)
          ((getVcpuList arch (some s) l').2.rows i) := by
      intro i hi a ha
      rw [getVcpuList_num] at hi
      rw [getVcpuList_rows s l hi, getVcpuList_rows s l' hi]
      exact (h _ (List.getElem_mem hi)).determined hnodup ha _ _
    refine ⟨hnum, hrows, getVcpuStat_congr ?_⟩
    rw [List.forall₂_iff_get]
    refine ⟨by simpa [VcpuList.table] using hnum, fun i hi hi' => ?_⟩
    simp only [VcpuList.table, List.get_ofFn]
    exact hrows _ (by simpa [VcpuList.table] using hi)

/-- **A line with the pid alone hands out an older snapshot.**  After a refresh that read
`5` in every column of thread `7`, the line `7` gives that thread the exits of the
refresh before; over cleared memory it gives none. -/
theorem getVcpuList_not_determined : ¬ Determined .other "7\n".toList := by
  intro h
  have hsame := (h (getVcpuList .other (some (vcpuLine .other 7 5)) zeroLists.vcpuList).2
    zeroLists.vcpuList).2.2 { Task.zero with pid := 7 }
  have hexits := congrArg (fun p => p.2.dfx .exits) hsame
  revert hexits
  decide +kernel

end Vmtop
