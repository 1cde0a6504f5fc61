/-
# Which threads the array holds

`get_child_pid` makes an array of `nlwp` entries and fills it from the task directory.
An entry whose stat file cannot be read leaves its pid in the slot, and the next one
overwrites it, so a thread that is read is what its own files make of a cleared record
(`readThread`), and the array is the threads that were read, in listing order, and
then slots that no stat file was read into (`childLoop_filled`).
-/

import Vmtop.Refresh.Deltas

namespace Vmtop

open CText CArray

variable {arch : Arch} {sys : Sys} {l : VcpuList} {dom d : Domain} {dirt : Dirent}
  {entries : List Dirent} {t : Task} {r : ℤ}

/-! ### One entry of the directory -/

/-- An entry that `get_child_pid` takes for a thread. -/
def isTask (dirt : Dirent) : Bool :=
  dirt.name ≠ ".".toList && dirt.name ≠ "..".toList && dirt.type = .dir &&
    1 ≤ readPid (cstr dirt.name)

/-- An entry that is not passed over is taken for a thread. -/
theorem isTask_iff : isTask dirt = true ↔ ¬ (dirt.name = ".".toList ∨ dirt.name = "..".toList) ∧
    dirt.type = .dir ∧ 1 ≤ readPid (cstr dirt.name) := by
  simp only [isTask, Bool.and_eq_true, decide_eq_true_eq, not_or, and_assoc]

/-- A cleared record with the pid of a thread, as its stat file is read into. -/
def taskSlot (ppid pid : ℤ) : Task := { Task.zero with pid := pid, type := .isThread, ppid := ppid }

/-- What becomes of a thread once its stat file is read. -/
def countThread (arch : Arch) (l : VcpuList) (t : Task) : Task :=
  if (strstr "CPU".toList t.vmname).isSome then
    { (getVcpuStat arch t l).2 with type := .isVcpu, smpVcpus := 1 }
  else { t with smpVcpus := 1 }

/-- The record that an entry makes of a cleared one; `none` when it is skipped, or its stat
file cannot be read. -/
def readThread (arch : Arch) (sys : Sys) (l : VcpuList) (dom : Domain) (dirt : Dirent) :
    Option Task :=
  if isTask dirt then
    match getProcStat sys (taskSlot dom.pid (readPid (cstr dirt.name))) with
    | .ok (r, t) => if r < 0 then none else some (countThread arch l t)
    | .error _ => none
  else none

/-- A thread whose stat file `get_child_pid` can read. -/
def readable (sys : Sys) (dom : Domain) (dirt : Dirent) : Bool :=
  isTask dirt &&
    match getProcStat sys (taskSlot dom.pid (readPid (cstr dirt.name))) with
    | .ok (r, _) => 0 ≤ r
    | .error _ => false

theorem isSome_readThread (arch : Arch) (sys : Sys) (l : VcpuList) (dom : Domain) (dirt : Dirent) :
    (readThread arch sys l dom dirt).isSome = readable sys dom dirt := by
  unfold readThread readable
  cases isTask dirt with
  | false => rfl
  | true =>
      rw [if_pos rfl, Bool.true_and]
      cases getProcStat sys (taskSlot dom.pid (readPid (cstr dirt.name))) with
      | error e => rfl
      | ok p =>
          dsimp only
          split_ifs with hr
          · exact (decide_eq_false (Int.not_le.2 hr)).symm
          · exact (decide_eq_true (Int.not_lt.1 hr)).symm

/-- As many records are made as there are threads that can be read. -/
theorem length_readThreads (arch : Arch) (sys : Sys) (l : VcpuList) (dom : Domain)
    (entries : List Dirent) :
    (entries.filterMap (readThread arch sys l dom)).length = entries.countP (readable sys dom) := by
  rw [List.length_filterMap_eq_countP]
  simp only [isSome_readThread]

/-- A slot that no stat file was read into: cleared, but for what `get_child_pid` writes
before, and with no pid or one whose stat file is not accepted. -/
structure Unread (sys : Sys) (dom : Domain) (t : Task) : Prop where
  cleared : t = { Task.zero with pid := t.pid, type := t.type, ppid := t.ppid }
  type : t.type ≠ .isVcpu
  pid : t.pid < 1 ∨ ∃ r t₀, getProcStat sys (taskSlot dom.pid t.pid) = .ok (r, t₀) ∧ r < 0

theorem Unread.zero : Unread sys dom Task.zero := ⟨rfl, by decide, Or.inl (by decide)⟩

/-- A stat file that is not accepted changes nothing. -/
theorem getProcStat_neg {t' : Task} (h : getProcStat sys t = .ok (r, t')) (hr : r < 0) :
    t' = t := by
  simp only [getProcStat] at h
  split_ifs at h
  · cases h
    rfl
  · simp only [parseStat] at h
    split_ifs at h
    · cases h
      rfl
    · split at h
      · cases h
        exact absurd hr (by decide)
      · cases h

/-- The array when the threads `found` were read: they come first, and the slots behind them
are unread. -/
structure Filled (sys : Sys) (dom : Domain) (smp : ℤ) (found : List Task) (st : ChildState) :
    Prop where
  length : st.threads.length = dom.nlwp.toNat
  i : st.i = found.length
  slots : ∃ rest, st.threads = found ++ rest ∧ ∀ t ∈ rest, Unread sys dom t
  smpVcpus : st.smpVcpus = smp + found.countP fun t => t.type = .isVcpu

variable {smp : ℤ} {found : List Task} {st st' : ChildState}

/-- The cleared array. -/
theorem Filled.start (smp : ℤ) :
    Filled sys dom smp [] ⟨List.replicate dom.nlwp.toNat Task.zero, 0, smp⟩ where
  length := List.length_replicate
  i := rfl
  slots := ⟨_, rfl, fun _ ht => List.eq_of_mem_replicate ht ▸ .zero⟩
  smpVcpus := by simp

/-- The slot that the next thread is read into. -/
theorem Filled.exists_thread (h : Filled sys dom smp found st) (hi : st.i < dom.nlwp) :
    ∃ rest, st.threads = found ++ st.thread :: rest ∧ Unread sys dom st.thread ∧
      ∀ t ∈ rest, Unread sys dom t := by
  obtain ⟨rest, hrest, hunread⟩ := h.slots
  cases rest with
  | nil =>
      have := h.length
      rw [hrest, List.append_nil, ← h.i] at this
      omega
  | cons u rest =>
      have hthread : st.thread = u := by
        rw [ChildState.thread, hrest, h.i, List.getD_append_right _ _ _ _ le_rfl, Nat.sub_self]
        rfl
      rw [List.forall_mem_cons] at hunread
      exact ⟨rest, hthread ▸ hrest, hthread ▸ hunread.1, hunread.2⟩

/-- Whatever an entry that was skipped has left in it, the slot is cleared for the next one. -/
theorem Filled.slot_eq (h : Filled sys dom smp found st) (hi : st.i < dom.nlwp) (pid : ℤ) :
    { st.thread with pid := pid, type := .isThread, ppid := dom.pid } = taskSlot dom.pid pid := by
  obtain ⟨-, -, ⟨hslot, -, -⟩, -⟩ := h.exists_thread hi
  rw [hslot]
  rfl

/-- Writing an unread slot, with the index left where it is. -/
theorem Filled.setThread (h : Filled sys dom smp found st) (hi : st.i < dom.nlwp)
    (ht : Unread sys dom t) :
    Filled sys dom smp found (st.setThread t) where
  length := (List.length_set ..).trans h.length
  i := h.i
  slots := by
    obtain ⟨rest, hrest, -, hunread⟩ := h.exists_thread hi
    refine ⟨t :: rest, ?_, List.forall_mem_cons.2 ⟨ht, hunread⟩⟩
    simp only [ChildState.setThread]
    rw [hrest, h.i, List.set_append_right _ _ le_rfl, Nat.sub_self, List.set_cons_zero]
  smpVcpus := h.smpVcpus

/-- Writing a thread that was read, and moving on. -/
theorem Filled.next (h : Filled sys dom smp found st) (hi : st.i < dom.nlwp) (t : Task) :
    Filled sys dom smp (found ++ [t])
      ⟨st.threads.set st.i t, st.i + 1, st.smpVcpus + if t.type = .isVcpu then 1 else 0⟩ where
  length := (List.length_set ..).trans h.length
  i := by simp [h.i]
  slots := by
    obtain ⟨rest, hrest, -, hunread⟩ := h.exists_thread hi
    refine ⟨rest, ?_, hunread⟩
    dsimp only
    rw [hrest, h.i, List.set_append_right _ _ le_rfl, Nat.sub_self, List.set_cons_zero,
      List.append_assoc, List.singleton_append]
  smpVcpus := by
    rw [h.smpVcpus, List.countP_append, List.countP_singleton]
    split_ifs <;> simp_all [add_assoc]

/-- An entry that is no thread is passed over, or leaves the slot without a pid. -/
theorem childStep_skip (htask : ¬ isTask dirt = true)
    (h : childStep arch sys l dom dirt st = .ok st') :
    st' = st ∨ st' = st.setThread { st.thread with pid := 0 } := by
  simp only [childStep] at h
  split_ifs at h with hdot hdir hpid
  · cases h
    exact Or.inl rfl
  · cases h
    exact Or.inl rfl
  · cases h
    exact Or.inr rfl
  · exact absurd (isTask_iff.2 ⟨hdot, not_not.1 hdir, Int.not_lt.1 hpid⟩) htask

/-- A thread is read into the slot; the walk moves on if its stat file is accepted. -/
theorem childStep_task (htask : isTask dirt = true)
    (hslot : { st.thread with
      pid := readPid (cstr dirt.name), type := .isThread, ppid := dom.pid } =
        taskSlot dom.pid (readPid (cstr dirt.name)))
    (h : childStep arch sys l dom dirt st = .ok st') :
    ∃ r t, getProcStat sys (taskSlot dom.pid (readPid (cstr dirt.name))) = .ok (r, t) ∧
      st' = if r < 0 then st.setThread t else
        ⟨st.threads.set st.i (countThread arch l t), st.i + 1,
          st.smpVcpus + if (countThread arch l t).type = .isVcpu then 1 else 0⟩ := by
  obtain ⟨hdot, hdir, hpid⟩ := isTask_iff.1 htask
  simp only [childStep, if_neg hdot, hdir, ne_eq, not_true, if_false,
    if_neg (Int.not_lt.2 hpid), hslot] at h
  obtain ⟨⟨r, t⟩, hstat, h⟩ := bind_eq_ok.1 h
  have hthread : t.type = .isThread := (getProcStat_frame hstat).type
  have hfound : 0 ≤ (getVcpuStat arch t l).1 := getVcpuStat_nonneg t l
  refine ⟨r, t, hstat, ?_⟩
  simp only [hfound, and_true] at h
  split_ifs at h with hr hcpu
  · cases h
    rw [if_pos hr]
  · cases h
    have hcount : countThread arch l t =
        { (getVcpuStat arch t l).2 with type := .isVcpu, smpVcpus := 1 } := if_pos hcpu
    rw [if_neg hr, hcount, if_pos rfl]
    rfl
  · cases h
    have hcount : countThread arch l t = { t with smpVcpus := 1 } := if_neg hcpu
    have htype : t.type ≠ .isVcpu := hthread ▸ by decide
    rw [if_neg hr, hcount, if_neg htype, add_zero]
    rfl

/-- **One entry adds the thread it makes of a cleared record**, if it makes one: what an
entry skipped before left in the slot is overwritten. -/
theorem childStep_filled (h : childStep arch sys l dom dirt st = .ok st')
    (hf : Filled sys dom smp found st) (hi : st.i < dom.nlwp) :
    Filled sys dom smp (found ++ (readThread arch sys l dom dirt).toList) st' := by
  by_cases htask : isTask dirt = true
  · obtain ⟨r, t, hstat, rfl⟩ := childStep_task htask (hf.slot_eq hi _) h
    by_cases hr : r < 0
    · have hread : readThread arch sys l dom dirt = none := by simp [readThread, htask, hstat, hr]
      rw [hread, Option.toList_none, List.append_nil, if_pos hr, getProcStat_neg hstat hr]
      have hthread : ProcessType.isThread ≠ .isVcpu := by decide
      exact hf.setThread hi ⟨rfl, hthread, Or.inr ⟨r, t, hstat, hr⟩⟩
    · have hread : readThread arch sys l dom dirt = some (countThread arch l t) := by
        simp [readThread, htask, hstat, hr]
      rw [hread, Option.toList_some, if_neg hr]
      exact hf.next hi _
  · have hread : readThread arch sys l dom dirt = none := if_neg htask
    rw [hread, Option.toList_none, List.append_nil]
    rcases childStep_skip htask h with rfl | rfl
    · exact hf
    · obtain ⟨-, -, ⟨hslot, hv, -⟩, -⟩ := hf.exists_thread hi
      refine hf.setThread hi ⟨?_, hv, Or.inl zero_lt_one⟩
      rw [hslot]

/-- **The array is the threads that were read, in listing order**, as far as it has room. -/
theorem childLoop_filled (h : childLoop arch sys l dom entries st = .ok st')
    (hf : Filled sys dom smp found st) (hle : found.length ≤ dom.nlwp.toNat) :
    Filled sys dom smp
      ((found ++ entries.filterMap (readThread arch sys l dom)).take dom.nlwp.toNat) st' := by
  induction entries generalizing st found with
  | nil =>
      cases h
      rwa [List.filterMap_nil, List.append_nil, List.take_of_length_le hle]
  | cons dirt rest ih =>
      have hcons : found ++ (dirt :: rest).filterMap (readThread arch sys l dom) =
          (found ++ (readThread arch sys l dom dirt).toList) ++
            rest.filterMap (readThread arch sys l dom) := by
        rw [List.append_assoc, List.filterMap_cons]
        cases readThread arch sys l dom dirt <;> rfl
      rw [childLoop] at h
      split_ifs at h with hi
      · obtain ⟨st₁, hstep, h⟩ := bind_eq_ok.1 h
        rw [hcons]
        refine ih h (childStep_filled hstep hf hi) ?_
        have hone : (readThread arch sys l dom dirt).toList.length ≤ 1 := by
          cases readThread arch sys l dom dirt <;> simp
        rw [List.length_append, ← hf.i]
        omega
      · cases h
        rw [List.take_append_of_le_length (by rw [← hf.i]; omega), List.take_of_length_le hle]
        exact hf

/-- **What `get_child_pid` leaves**: the threads it read, up to `nlwp` of them, and then
unread slots. -/
theorem getChildPid_filled (hdir : sys.taskDir (taskPath dom.pid) = some entries)
    (h : getChildPid arch sys l dom = .ok (r, d)) (hr : 0 ≤ r) :
    ∃ i, Filled sys dom dom.smpVcpus
        ((entries.filterMap (readThread arch sys l dom)).take dom.nlwp.toNat)
        ⟨d.threads, i, d.smpVcpus⟩ ∧
      d = { dom with threads := d.threads, smpVcpus := d.smpVcpus } ∧ 0 < dom.nlwp := by
  obtain ⟨hpos, _, st, hdir', hloop, rfl⟩ := getChildPid_eq_ok h hr
  cases hdir.symm.trans hdir'
  exact ⟨st.i, childLoop_filled hloop (.start _) (Nat.zero_le _), rfl, hpos⟩

/-- A thread keeps what its stat file says when it is counted. -/
theorem countThread_frame (arch : Arch) (l : VcpuList) (t : Task) :
    countThread arch l t =
        { t with
          type := (countThread arch l t).type
          smpVcpus := (countThread arch l t).smpVcpus
          stMax := (countThread arch l t).stMax
          dfx := (countThread arch l t).dfx } ∧
      ∀ v ∉ vcpuCounters arch, (countThread arch l t).dfx v = t.dfx v := by
  have hcopy : (getVcpuStat arch t l).2 = _ := getVcpuStat_frame t l
  unfold countThread
  split_ifs
  · rw [hcopy]
    refine ⟨rfl, fun v hv => ?_⟩
    change (getVcpuStat arch t l).2.dfx v = _
    rw [getVcpuStat_dfx, if_neg hv]
  · exact ⟨rfl, fun _ _ => rfl⟩

end Vmtop
