/-
# What the loop over the threads counts, and where it writes

`get_child_pid` moves to the next slot only when it has read a thread to the end, so
what it completes stands at the front of the array, in listing order
(`completed`), and `smp_vcpus` counts the vCPUs among them (`Counting`).

The array has `nlwp` entries, and the model writes them as a list, where a write past
the end is lost.  `childStepStored` writes as the source does, field by field and
with the subscript checked: in a loop that stops at `nlwp` no write is past the end
(`getChildPidStored_eq`).
-/

import Vmtop.Refresh.Entries

namespace Vmtop

open CText CArray

variable {arch : Arch} {monitorId : ℤ} {sys : Sys} {l : VcpuList} {dom d : Domain} {name : Text}
  {entries : List Dirent} {dirt : Dirent} {st st' : ChildState} {t : Task} {r : ℤ}

/-! ### The writes -/

/-- `dom->threads[i] = t`, which faults past the end of the array. -/
def ChildState.store (st : ChildState) (t : Task) : Except Fault ChildState :=
  if st.i < st.threads.length then .ok (st.setThread t)
  else .error (.outOfBounds st.i st.threads.length)

/-- The body of the loop of `get_child_pid`, every write of it a `store`. -/
def childStepStored (arch : Arch) (sys : Sys) (vcpuList : VcpuList) (dom : Domain) (dirt : Dirent)
    (st : ChildState) : Except Fault ChildState :=
  if dirt.name = ".".toList ∨ dirt.name = "..".toList then .ok st
  else if dirt.type ≠ .dir then .ok st
  else do
    let pid := readPid (cstr dirt.name)
    let st ← st.store { st.thread with pid := pid }
    if pid < 1 then st.store { st.thread with pid := 0 }
    else do
      let st ← st.store { st.thread with type := .isThread }
      let st ← st.store { st.thread with ppid := dom.pid }
      let (r, t) ← getProcStat sys st.thread
      let st ← st.store t
      if r < 0 then .ok st
      else do
        let (found, v) := getVcpuStat arch st.thread vcpuList
        let st ←
          if (strstr "CPU".toList st.thread.vmname).isSome ∧ 0 ≤ found then do
            let st ← st.store v
            let st ← st.store { st.thread with type := .isVcpu }
            .ok { st with smpVcpus := st.smpVcpus + 1 }
          else .ok st
        let st ← st.store { st.thread with smpVcpus := 1 }
        .ok { st with i := st.i + 1 }

/-- The loop of `get_child_pid` with these writes. -/
def childLoopStored (arch : Arch) (sys : Sys) (vcpuList : VcpuList) (dom : Domain) :
    List Dirent → ChildState → Except Fault ChildState
  | [], st => .ok st
  | dirt :: rest, st =>
      if st.i < dom.nlwp then do
        let st ← childStepStored arch sys vcpuList dom dirt st
        childLoopStored arch sys vcpuList dom rest st
      else .ok st

/-- `get_child_pid` with these writes. -/
def getChildPidStored (arch : Arch) (sys : Sys) (vcpuList : VcpuList) (dom : Domain) :
    Except Fault (ℤ × Domain) :=
  match sys.taskDir (taskPath dom.pid) with
  | none => .ok (-1, dom)
  | some entries =>
      if dom.nlwp ≤ 0 then .ok (-1, dom)
      else if sys.mallocThreads = false then .ok (-1, { dom with threads := [] })
      else do
        let st ← childLoopStored arch sys vcpuList dom entries
          ⟨List.replicate dom.nlwp.toNat Task.zero, 0, dom.smpVcpus⟩
        .ok (dom.nlwp, { dom with threads := st.threads, smpVcpus := st.smpVcpus })

theorem ChildState.store_of_lt (h : st.i < st.threads.length) (t : Task) :
    st.store t = .ok (st.setThread t) :=
  if_pos h

@[simp] theorem ChildState.setThread_i (st : ChildState) (t : Task) : (st.setThread t).i = st.i :=
  rfl

@[simp] theorem ChildState.length_setThread (st : ChildState) (t : Task) :
    (st.setThread t).threads.length = st.threads.length :=
  List.length_set ..

/-- What is written over is gone. -/
@[simp] theorem ChildState.setThread_setThread (st : ChildState) (t t' : Task) :
    (st.setThread t).setThread t' = st.setThread t' := by
  simp only [ChildState.setThread, List.set_set]

/-- A slot of the array is read back as it was written. -/
theorem ChildState.thread_setThread (h : st.i < st.threads.length) (t : Task) :
    (st.setThread t).thread = t := by
  rw [ChildState.thread, ChildState.setThread_i, List.getD_eq_getElem _ _ (by simpa using h)]
  exact List.getElem_set_self _

/-- A vCPU that was counted in between makes no difference to the slot. -/
theorem ChildState.thread_counted (h : st.i < st.threads.length) (t : Task) (n : ℤ) :
    ChildState.thread ⟨(st.setThread t).threads, (st.setThread t).i, n⟩ = t :=
  ChildState.thread_setThread h t

theorem ChildState.store_counted (h : st.i < st.threads.length) (t t' : Task) (n : ℤ) :
    ChildState.store ⟨(st.setThread t).threads, (st.setThread t).i, n⟩ t' =
      .ok ⟨(st.setThread t').threads, st.i, n⟩ := by
  have hroom : (st.setThread t).i < (st.setThread t).threads.length := by
    rwa [ChildState.length_setThread]
  refine (if_pos hroom).trans ?_
  simp only [ChildState.setThread, List.set_set]

/-- **In an array with room, the writes one by one are the writes of the model.** -/
theorem childStepStored_eq (h : st.i < st.threads.length) :
    childStepStored arch sys l dom dirt st = childStep arch sys l dom dirt st := by
  have hroom : ∀ t, (st.setThread t).i < (st.setThread t).threads.length := fun t => by
    rwa [ChildState.length_setThread]
  unfold childStepStored childStep
  split_ifs with hdot hdir
  · rfl
  · rfl
  · dsimp only
    rw [ChildState.store_of_lt h, ok_bind]
    split_ifs with hpid
    · rw [ChildState.store_of_lt (hroom _), ChildState.setThread_setThread,
        ChildState.thread_setThread h]
    · simp only [ChildState.store_of_lt (hroom _), ok_bind, ChildState.thread_setThread h,
        ChildState.setThread_setThread]
      congr 1
      funext ⟨r, t⟩
      split_ifs with hr
      · rfl
      · dsimp only
        rw [ChildState.store_counted h, ok_bind, ChildState.thread_counted h]
        rfl
      · rfl

/-- No entry changes the size of the array. -/
theorem childStep_length (h : childStep arch sys l dom dirt st = .ok st') :
    st'.threads.length = st.threads.length := by
  unfold childStep at h
  split_ifs at h
  · cases h
    rfl
  · cases h
    rfl
  · dsimp only at h
    split_ifs at h
    · cases h
      exact ChildState.length_setThread ..
    · obtain ⟨⟨r, t⟩, -, h⟩ := bind_eq_ok.1 h
      dsimp only at h
      split_ifs at h
      iterate 3
        cases h
        exact ChildState.length_setThread ..

/-- **The loop leaves its array nowhere**: it stops at `nlwp`. -/
theorem childLoopStored_eq (h : st.threads.length = dom.nlwp.toNat) :
    childLoopStored arch sys l dom entries st = childLoop arch sys l dom entries st := by
  induction entries generalizing st with
  | nil => rfl
  | cons dirt rest ih =>
      rw [childLoopStored, childLoop]
      split_ifs with hi
      · rw [childStepStored_eq (by omega)]
        cases hstep : childStep arch sys l dom dirt st with
        | error e => rfl
        | ok st' =>
            rw [ok_bind, ok_bind]
            exact ih ((childStep_length hstep).trans h)
      · rfl

/-- **`get_child_pid` writes within the array it allocates.** -/
theorem getChildPidStored_eq (arch : Arch) (sys : Sys) (l : VcpuList) (dom : Domain) :
    getChildPidStored arch sys l dom = getChildPid arch sys l dom := by
  unfold getChildPidStored getChildPid
  cases sys.taskDir (taskPath dom.pid) with
  | none => rfl
  | some entries =>
      dsimp only
      rw [childLoopStored_eq List.length_replicate]

/-! ### What is counted -/

/-- The threads that the loop completes: those that were read, as far as there is room. -/
def completed (arch : Arch) (sys : Sys) (l : VcpuList) (dom : Domain) (entries : List Dirent) :
    List Task :=
  (entries.filterMap (readThread arch sys l dom)).take dom.nlwp.toNat

/-- What `get_child_pid` leaves in the record it succeeds on: `dom` is the record before. -/
structure Counting (arch : Arch) (sys : Sys) (l : VcpuList) (dom d : Domain) : Prop where
  /-- The array has `nlwp` entries. -/
  length : d.threads.length = d.nlwp.toNat
  /-- The vCPUs of the domain are the entries of that type. -/
  smpVcpus : d.smpVcpus = d.threads.countP fun t => t.type = .isVcpu
  /-- A vCPU is named one. -/
  vcpu : ∀ t ∈ d.threads, t.type = .isVcpu → (strstr "CPU".toList t.vmname).isSome
  /-- The entries that are completed come first, and stand for one CPU each; no stat file
  was read into the others. -/
  contiguous : ∃ entries, sys.taskDir (taskPath dom.pid) = some entries ∧
    ∃ rest, d.threads = completed arch sys l dom entries ++ rest ∧
      (∀ t ∈ completed arch sys l dom entries, t.smpVcpus = 1) ∧ ∀ t ∈ rest, Unread sys dom t

/-- A thread that is read is completed, and a vCPU only by its name. -/
theorem readThread_completed (h : readThread arch sys l dom dirt = some t) :
    t.smpVcpus = 1 ∧ (t.type = .isVcpu → (strstr "CPU".toList t.vmname).isSome) := by
  unfold readThread at h
  split_ifs at h
  split at h
  · rename_i r t₀ hstat
    split_ifs at h
    cases h
    have hthread : t₀.type = .isThread := (getProcStat_frame hstat).type
    unfold countThread
    split_ifs with hcpu
    · refine ⟨rfl, fun _ => ?_⟩
      rw [getVcpuStat_frame t₀ l]
      exact hcpu
    · refine ⟨rfl, fun htype => ?_⟩
      have hne : ProcessType.isThread ≠ .isVcpu := by decide
      exact absurd (hthread.symm.trans htype) hne
  · cases h

/-- **`smp_vcpus` is the number of vCPUs in the array**, whatever the task directory lists
and whichever stat files fail, and no write is past the array. -/
theorem getChildPid_counting (hread : readProcess monitorId sys name = some dom)
    (h : getChildPid arch sys l dom = .ok (r, d)) (hr : 0 ≤ r) :
    Counting arch sys l dom d ∧ getChildPidStored arch sys l dom = .ok (r, d) := by
  refine ⟨?_, (getChildPidStored_eq arch sys l dom).trans h⟩
  obtain ⟨-, entries, -, hdir, -, -⟩ := getChildPid_eq_ok h hr
  obtain ⟨i, hfilled, hd, -⟩ := getChildPid_filled hdir h hr
  obtain ⟨rest, hthreads, hrest⟩ := hfilled.slots
  dsimp only at hthreads
  have hnlwp : d.nlwp = dom.nlwp := by rw [hd]
  have hfound : ∀ t ∈ completed arch sys l dom entries,
      t.smpVcpus = 1 ∧ (t.type = .isVcpu → (strstr "CPU".toList t.vmname).isSome) := by
    intro t ht
    obtain ⟨dirt, -, hdirt⟩ := List.mem_filterMap.1 (List.mem_of_mem_take ht)
    exact readThread_completed hdirt
  constructor
  · rw [hnlwp]
    exact hfilled.length
  · have hnone : rest.countP (fun t => t.type = .isVcpu) = 0 :=
      List.countP_eq_zero.2 fun t ht => by simpa using (hrest t ht).type
    have hcount := hfilled.smpVcpus
    rw [(readProcess_cleared hread).1, zero_add] at hcount
    rw [hthreads, List.countP_append, hnone, add_zero]
    exact hcount
  · intro t ht htype
    rw [hthreads, List.mem_append] at ht
    rcases ht with ht | ht
    · exact (hfound t ht).2 htype
    · exact absurd htype (hrest t ht).type
  · exact ⟨entries, hdir, rest, hthreads, fun t ht => (hfound t ht).1, hrest⟩

/-- A process that says it has two threads, one of them a vCPU, but lists only that one. -/
def vcpuSys : Sys := hostSys 1 0 (statLine "CPU 0/KVM".toList 7 3 2)

/-- Its vCPU is counted, and the other entry is not. -/
theorem getChildPid_counting_vcpuSys : ∃ dom d,
    readProcess (-1) vcpuSys "0.pid".toList = some dom ∧
      getChildPid .other vcpuSys zeroLists.vcpuList dom = .ok (2, d) ∧ d.smpVcpus = 1 ∧
      Counting .other vcpuSys zeroLists.vcpuList dom d ∧
      getChildPidStored .other vcpuSys zeroLists.vcpuList dom = .ok (2, d) := by
  have hok : ((readProcess (-1) vcpuSys "0.pid".toList).bind fun dom =>
      (getChildPid .other vcpuSys zeroLists.vcpuList dom).toOption).map
        (fun p => (p.1, p.2.smpVcpus)) = some (2, 1) := by decide +kernel
  obtain ⟨⟨r, d⟩, hok, hd⟩ := Option.map_eq_some_iff.1 hok
  obtain ⟨dom, hdom, hok⟩ := Option.bind_eq_some_iff.1 hok
  simp only [Prod.mk.injEq] at hd
  obtain ⟨rfl, hsmp⟩ := hd
  have hok := toOption_eq_some.1 hok
  exact ⟨dom, d, hdom, hok, hsmp, getChildPid_counting hdom hok (by decide)⟩

end Vmtop
