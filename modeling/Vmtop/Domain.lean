/-
# The list of virtual machines

`src/domain.c` up to `refresh_domains`: the operations of `struct domain_list`, the
lookups by id and by pid, what is read for one virtual machine (`set_domain`, with
`get_id_from_cgroup` and `get_child_pid`), the scan of the qemu directory
(`get_qemu_id`), and the refresh that takes a new snapshot and compares it with
the one before (`refresh_domains`).

A loop of the source that fills an array in place is a function on the list of its
elements; a loop that returns early is a recursion over what it walks.
-/

import Vmtop.Proc

namespace Vmtop

open CText CArray

/-! ### The list -/

/-- `init_domains`; `node_num` is not touched. -/
def initDomains (list : DomainList) : DomainList :=
  { list with domains := [], popped := [], bandwidth := fun _ => 0 }

/-- `clear_domains`: once the arrays are freed, `init_domains`. -/
def clearDomains (list : DomainList) : DomainList := initDomains list

/-- `add_domains`: a cleared record at the end of a new array that holds copies of the
first `num` ones; `none` when there is no memory for it. -/
def addDomains (malloc : Bool) (list : DomainList) : Option DomainList :=
  if malloc then some { list with domains := list.domains ++ [Domain.zero], popped := [] }
  else none

/-- `pop_domains`: the last record stays in the array, past `num`. -/
def popDomains (list : DomainList) : DomainList :=
  { list with
    domains := list.domains.dropLast
    popped := list.domains.getLast?.toList ++ list.popped }

/-- The record behind the pointer that `add_domains` returned. -/
def DomainList.last (list : DomainList) : Domain := list.domains.getLastD Domain.zero

/-- Writing `dom` through that pointer. -/
def DomainList.setLast (list : DomainList) (dom : Domain) : DomainList :=
  { list with domains := list.domains.dropLast ++ [dom] }

/-- `get_domain_from_id`. -/
def getDomainFromId (id : ℤ) (list : DomainList) : Option Domain :=
  list.domains.find? fun d => d.domainId = id

/-- `get_thread_from_pid`. -/
def getThreadFromPid (pid : ℤ) (dom : Domain) : Option Task :=
  dom.lwps.find? fun t => t.pid = pid

/-! ### One virtual machine -/

/-- `/proc/%u/cgroup`. -/
def cgroupPath (pid : ℤ) : Text := "/proc/".toList ++ printU pid ++ "/cgroup".toList

/-- The loop of `get_id_from_cgroup` over the lines of the file. -/
def cgroupLoop : List Text → ℤ
  | [] => -1
  | buf :: rest =>
      if strstr "cpuset:".toList (cstr buf) = none then cgroupLoop rest
      else
        match strstr "machine-qemu\\x2d".toList (cstr buf) with
        | none => cgroupLoop rest
        | some tmp => atoi (tmp.drop "machine-qemu\\x2d".toList.length)

/-- `get_id_from_cgroup`. -/
def getIdFromCgroup (sys : Sys) (pid : ℤ) : ℤ :=
  match sys.file (cgroupPath pid) with
  | none => -1
  | some s => cgroupLoop (chunks (bufSize - 2) s)

/-- `/proc/%u/task`. -/
def taskPath (pid : ℤ) : Text := "/proc/".toList ++ printU pid ++ "/task".toList

/-- The `int` that `strtoul` gives for a pid; `0` for a text without a number, which
the callers reject like every pid below `1`. -/
def readPid (s : Text) : ℤ := (strtoul s).elim 0 fun p => toInt32 p.1

/-- What the loop of `get_child_pid` changes: the array, the index of the entry being
filled, and `dom->smp_vcpus`. -/
structure ChildState where
  threads : List Task
  i : ℕ
  smpVcpus : ℤ

/-- `dom->threads[i]`. -/
def ChildState.thread (st : ChildState) : Task := st.threads.getD st.i Task.zero

/-- Writing `dom->threads[i]`. -/
def ChildState.setThread (st : ChildState) (t : Task) : ChildState :=
  { st with threads := st.threads.set st.i t }

/-- The body of the loop of `get_child_pid`, for the directory entry `dirt`.  Only an
entry whose stat file is read moves `i`; an entry skipped after its pid was stored
leaves it in the array. -/
def childStep (arch : Arch) (sys : Sys) (vcpuList : VcpuList) (dom : Domain) (dirt : Dirent)
    (st : ChildState) : Except Fault ChildState :=
  if dirt.name = ".".toList ∨ dirt.name = "..".toList then .ok st
  else if dirt.type ≠ .dir then .ok st
  else
    let pid := readPid (cstr dirt.name)
    if pid < 1 then .ok (st.setThread { st.thread with pid := 0 })
    else do
      let (r, t) ← getProcStat sys { st.thread with pid := pid, type := .isThread, ppid := dom.pid }
      if r < 0 then .ok (st.setThread t)
      else
        let (found, v) := getVcpuStat arch t vcpuList
        if (strstr "CPU".toList t.vmname).isSome ∧ 0 ≤ found then
          .ok { st.setThread { v with type := .isVcpu, smpVcpus := 1 } with
            i := st.i + 1, smpVcpus := st.smpVcpus + 1 }
        else .ok { st.setThread { t with smpVcpus := 1 } with i := st.i + 1 }

/-- The loop of `get_child_pid`. -/
def childLoop (arch : Arch) (sys : Sys) (vcpuList : VcpuList) (dom : Domain) :
    List Dirent → ChildState → Except Fault ChildState
  | [], st => .ok st
  | dirt :: rest, st =>
      if st.i < dom.nlwp then do
        let st ← childStep arch sys vcpuList dom dirt st
        childLoop arch sys vcpuList dom rest st
      else .ok st

/-- `get_child_pid`. -/
def getChildPid (arch : Arch) (sys : Sys) (vcpuList : VcpuList) (dom : Domain) :
    Except Fault (ℤ × Domain) :=
  match sys.taskDir (taskPath dom.pid) with
  | none => .ok (-1, dom)
  | some entries =>
      if dom.nlwp ≤ 0 then .ok (-1, dom)
      else if sys.mallocThreads = false then .ok (-1, { dom with threads := [] })
      else do
        let st ← childLoop arch sys vcpuList dom entries
          ⟨List.replicate dom.nlwp.toNat Task.zero, 0, dom.smpVcpus⟩
        .ok (dom.nlwp, { dom with threads := st.threads, smpVcpus := st.smpVcpus })

/-- `VAR_RUN_QEMU_PATH`. -/
def varRunQemuPath : Text := "/var/run/libvirt/qemu".toList

/-- `PID_STRING_MAX`. -/
def pidStringMax : ℕ := 12

/-- `set_domain` once the id is accepted. -/
def loadDomain (arch : Arch) (sys : Sys) (vcpuList : VcpuList) (name : Text) (dom : Domain) :
    Except Fault (ℤ × Domain) := do
  let (r, t) ← getProcStat sys { dom.toTask with type := .isDomain }
  let dom := { dom with toTask := t }
  if r < 0 then .ok (-1, dom)
  else
    let (r, dom) ← getChildPid arch sys vcpuList dom
    if r < 0 then .ok (-1, dom)
    else if domainNameMax - 1 ≤ name.length then .ok (-1, dom)
    else .ok (1, { dom with vmname := name.take (name.length - ".pid".toList.length) })

/-- `set_domain`. -/
def setDomain (arch : Arch) (monitorId : ℤ) (sys : Sys) (vcpuList : VcpuList) (name : Text)
    (dom : Domain) : Except Fault (ℤ × Domain) :=
  let path := varRunQemuPath ++ '/' :: name
  let got := readFile (sys.file path) pidStringMax (sys.stale path)
  if got.1 < 0 then .ok (-1, dom)
  else
    let dom := { dom with pid := readPid (cstr got.2) }
    if dom.pid < 1 then .ok (-1, dom)
    else
      let dom := { dom with domainId := getIdFromCgroup sys dom.pid }
      if dom.domainId < 0 then .ok (-1, dom)
      else if 0 ≤ monitorId ∧ dom.domainId ≠ monitorId then .ok (-1, dom)
      else loadDomain arch sys vcpuList name dom

/-! ### All virtual machines -/

/-- `check_pid_file`: `0` when the name ends with `.pid` and has more before it. -/
def checkPidFile (name : Text) : ℤ :=
  let externName := ".pid".toList
  if name.length ≤ externName.length then -1
  else if name.drop (name.length - externName.length) = externName then 0 else 1

/-- The loop of `get_qemu_id`; every entry comes with the `Sys` its calls see. -/
def qemuLoop (arch : Arch) (monitorId : ℤ) (vcpuList : VcpuList) :
    List (Dirent × Sys) → DomainList → Except Fault (ℤ × DomainList)
  | [], list => .ok (list.num, list)
  | (dirent, sys) :: rest, list =>
      if dirent.name = ".".toList ∨ dirent.name = "..".toList then
        qemuLoop arch monitorId vcpuList rest list
      else if dirent.type ≠ .reg then qemuLoop arch monitorId vcpuList rest list
      else if checkPidFile dirent.name ≠ 0 then qemuLoop arch monitorId vcpuList rest list
      else
        match addDomains sys.mallocDomains list with
        | none => .ok (-1, list)
        | some added => do
            let (r, dom) ← setDomain arch monitorId sys vcpuList dirent.name added.last
            let list := added.setLast dom
            qemuLoop arch monitorId vcpuList rest (if r < 0 then popDomains list else list)

/-- `get_qemu_id`: `dir` is the listing of the qemu directory, `none` when it cannot be
opened. -/
def getQemuId (arch : Arch) (monitorId : ℤ) (dir : Option (List (Dirent × Sys)))
    (vcpuList : VcpuList) (list : DomainList) : Except Fault (ℤ × DomainList) :=
  match dir with
  | none => .ok (-1, list)
  | some entries => qemuLoop arch monitorId vcpuList entries list

/-! ### The refresh -/

/-- The loop of `refresh_threads` over the threads: the threads with their deltas, and
the record of the domain, to which the vCPUs are added. -/
def threadsLoop (arch : Arch) (oldDom : Domain) : List Task → Task → Task × List Task
  | [], dom => (dom, [])
  | t :: rest, dom =>
      match getThreadFromPid t.pid oldDom with
      | none =>
          let r := threadsLoop arch oldDom rest dom
          (r.1, t :: r.2)
      | some oldThread =>
          let t := refreshDeltaStat t oldThread
          if t.type = .isVcpu then
            let t := refreshDeltaVcpuStat arch t oldThread
            let r := threadsLoop arch oldDom rest (sumVcpuStat arch dom t)
            (r.1, t :: r.2)
          else
            let r := threadsLoop arch oldDom rest dom
            (r.1, t :: r.2)

/-- `refresh_threads`. -/
def refreshThreads (arch : Arch) (dom oldDom : Domain) : Domain :=
  let r := threadsLoop arch oldDom dom.lwps dom.toTask
  { toTask := r.1, threads := r.2 ++ dom.threads.drop dom.nlwp.toNat }

/-- The body of the loop of `refresh_domains`. -/
def refreshDomain (arch : Arch) (pre : DomainList) (dom : Domain) : Domain :=
  match getDomainFromId dom.domainId pre with
  | none => dom
  | some oldDomain =>
      refreshThreads arch { dom with toTask := refreshDeltaStat dom.toTask oldDomain.toTask }
        oldDomain

/-- The two snapshots and the `vcpu_stat` table. -/
structure Lists where
  now : DomainList
  pre : DomainList
  vcpuList : VcpuList

/-- The empty list, as `init_domains` leaves a global one. -/
def DomainList.empty : DomainList := ⟨[], [], 0, fun _ => 0⟩

/-- The lists as `init_parameter` sets them up: `rows` is what `malloc` left in the
table. -/
def Lists.start (rows : Arr maxVcpuNum Task) : Lists :=
  ⟨.empty, .empty, ⟨rows, 0, Nat.zero_le _⟩⟩

/-- What one `refresh_domains` finds: the `vcpu_stat` file and the qemu directory. -/
structure Env where
  vcpuStat : Option Text
  qemuDir : Option (List (Dirent × Sys))
  deriving Inhabited

/-- `refresh_domains`: its result and the lists afterwards. -/
def refreshDomains (arch : Arch) (monitorId : ℤ) (env : Env) (s : Lists) :
    Except Fault (ℤ × Lists) :=
  -- save data in pre domain_list
  let pre := { clearDomains s.pre with domains := s.now.domains, popped := s.now.popped }
  let now := initDomains s.now
  let got := getVcpuList arch env.vcpuStat s.vcpuList
  if got.1 < 0 then .ok (-1, ⟨now, pre, got.2⟩)
  else do
    let (num, now) ← getQemuId arch monitorId env.qemuDir got.2 now
    .ok (num, ⟨{ now with domains := now.domains.map (refreshDomain arch pre) }, pre, got.2⟩)

/-- `get_task_num`. -/
def getTaskNum (list : DomainList) : ℤ :=
  (list.domains.map fun d => d.nlwp).sum + list.num

end Vmtop
