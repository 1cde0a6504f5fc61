/-
# The arrays of a refresh

The functions of `src/domain.c` once more, on the memory that they work on.  Here a
`struct domain` holds the address of its array of threads, a `struct domain_list` the address
of its array of records, and a function gets a `struct domain *`: the array that it points into
and a subscript.  Everything is read and written through such pointers, `malloc` and
`free` are called where the source calls them, and a record that `pop_domains`
drops stays in its array, with whatever it points to.

What the files hold is as in the functions without memory, and so are the conversions, which work on
the fields of one record.  The table `vcpu_list` is allocated once and never freed; it stays a
value.
-/

import Vmtop.Frame
import Vmtop.Lib.Heap

namespace Vmtop
namespace Memory

open CText CArray Heaps

/-! ### Records behind pointers -/

/-- `struct domain`: `threads` is the address of an array, `none` for `NULL`. -/
structure Record extends Task where
  threads : Option ℕ

/-- A record of zero bytes. -/
def Record.zero : Record := { Task.zero with threads := none }

/-- A program on the memory of vmtop. -/
abbrev Prog (α : Type) := Heaps.Prog Record Fault α

/-- `struct domain *`: a pointer to an element of an array. -/
structure Ref where
  array : Option ℕ
  index : ℕ

/-- The record that a pointer points to. -/
def Ref.get (p : Ref) : Prog Record := read p.array p.index

/-- Writing the record that a pointer points to. -/
def Ref.set (p : Ref) (r : Record) : Prog Unit := write p.array p.index r

/-- Running a function on the fields of the record that a pointer points to. -/
def Ref.update (p : Ref) (f : Task → Except Fault (ℤ × Task)) : Prog ℤ := do
  let r ← p.get
  let (result, t) ← plain (f r.toTask)
  p.set { r with toTask := t }
  pure result

/-- `struct domain_list`. -/
structure RecordList where
  domains : Option ℕ
  num : ℕ
  nodeNum : ℤ
  bandwidth : Arr maxNodeNum Long

/-- `&list->domains[i]`. -/
def RecordList.ref (list : RecordList) (i : ℕ) : Ref := ⟨list.domains, i⟩

/-! ### The list -/

/-- `init_domains`. -/
def initDomains (list : RecordList) : RecordList :=
  { list with domains := none, num := 0, bandwidth := fun _ => 0 }

/-- The loop of `clear_domains`. -/
def freeThreads (list : RecordList) : List ℕ → Prog Unit
  | [] => pure ()
  | i :: rest => do
      let dom ← (list.ref i).get
      match dom.threads with
      | none => freeThreads list rest
      | some threads => do
          free (some threads)
          (list.ref i).set { dom with threads := none }
          freeThreads list rest

/-- `clear_domains`. -/
def clearDomains (list : RecordList) : Prog RecordList := do
  freeThreads list (List.range list.num)
  match list.domains with
  | none => pure (initDomains list)
  | some domains => do
      free (some domains)
      pure (initDomains list)

/-- `add_domains`, with the pointer that it returns. -/
def addDomains (malloc : Bool) (list : RecordList) : Prog (Option (RecordList × Ref)) :=
  if malloc then do
    let newList ← alloc (list.num + 1)
    copy (some newList) list.domains (List.range list.num)
    free list.domains
    let list := { list with domains := some newList, num := list.num + 1 }
    (list.ref (list.num - 1)).set Record.zero
    pure (some (list, list.ref (list.num - 1)))
  else pure none

/-- `pop_domains`. -/
def popDomains (list : RecordList) : RecordList := { list with num := list.num - 1 }

/-- `get_domain_from_id`. -/
def getDomainFromId (id : ℤ) (list : RecordList) : Prog (Option Ref) := do
  let i ← search (fun dom => dom.domainId = id) list.domains (List.range list.num)
  pure (i.map list.ref)

/-- `get_thread_from_pid`. -/
def getThreadFromPid (pid : ℤ) (dom : Ref) : Prog (Option Ref) := do
  let d ← dom.get
  let i ← search (fun t => t.pid = pid) d.threads (List.range d.nlwp.toNat)
  pure (i.map fun i => ⟨d.threads, i⟩)

/-! ### One virtual machine -/

/-- The body of the loop of `get_child_pid`, for the directory entry `dirt`: the index of the
entry to be filled next. -/
def childStep (arch : Arch) (sys : Sys) (vcpuList : VcpuList) (dom : Ref) (dirt : Dirent)
    (i : ℕ) : Prog ℕ :=
  if dirt.name = ".".toList ∨ dirt.name = "..".toList then pure i
  else if dirt.type ≠ .dir then pure i
  else do
    let d ← dom.get
    let thread : Ref := ⟨d.threads, i⟩
    let pid := readPid (cstr dirt.name)
    let t ← thread.get
    if pid < 1 then do
      thread.set { t with pid := 0 }
      pure i
    else do
      thread.set { t with pid := pid, type := .isThread, ppid := d.pid }
      let r ← thread.update (getProcStat sys)
      if r < 0 then pure i
      else do
        let t ← thread.get
        if (strstr "CPU".toList t.vmname).isSome then do
          let found ← thread.update fun t => .ok (getVcpuStat arch t vcpuList)
          if 0 ≤ found then do
            let t ← thread.get
            thread.set { t with type := .isVcpu }
            dom.set { d with smpVcpus := d.smpVcpus + 1 }
            let t ← thread.get
            thread.set { t with smpVcpus := 1 }
            pure (i + 1)
          else do
            let t ← thread.get
            thread.set { t with smpVcpus := 1 }
            pure (i + 1)
        else do
          thread.set { t with smpVcpus := 1 }
          pure (i + 1)

/-- The loop of `get_child_pid`. -/
def childLoop (arch : Arch) (sys : Sys) (vcpuList : VcpuList) (dom : Ref) :
    List Dirent → ℕ → Prog Unit
  | [], _ => pure ()
  | dirt :: rest, i => do
      let d ← dom.get
      if i < d.nlwp then do
        let i ← childStep arch sys vcpuList dom dirt i
        childLoop arch sys vcpuList dom rest i
      else pure ()

/-- `get_child_pid`. -/
def getChildPid (arch : Arch) (sys : Sys) (vcpuList : VcpuList) (dom : Ref) : Prog ℤ := do
  let d ← dom.get
  match sys.taskDir (taskPath d.pid) with
  | none => pure (-1)
  | some entries =>
      if d.nlwp ≤ 0 then pure (-1)
      else if sys.mallocThreads = false then do
        dom.set { d with threads := none }
        pure (-1)
      else do
        let threads ← alloc d.nlwp.toNat
        dom.set { d with threads := some threads }
        fill (some threads) Record.zero (List.range d.nlwp.toNat)
        childLoop arch sys vcpuList dom entries 0
        pure d.nlwp

/-- `set_domain` once the id is accepted. -/
def loadDomain (arch : Arch) (sys : Sys) (vcpuList : VcpuList) (name : Text) (dom : Ref) :
    Prog ℤ := do
  let d ← dom.get
  dom.set { d with type := .isDomain }
  let r ← dom.update (getProcStat sys)
  if r < 0 then pure (-1)
  else do
    let r ← getChildPid arch sys vcpuList dom
    if r < 0 then pure (-1)
    else if domainNameMax - 1 ≤ name.length then pure (-1)
    else do
      let d ← dom.get
      dom.set { d with vmname := name.take (name.length - ".pid".toList.length) }
      pure 1

/-- `set_domain`. -/
def setDomain (arch : Arch) (monitorId : ℤ) (sys : Sys) (vcpuList : VcpuList) (name : Text)
    (dom : Ref) : Prog ℤ :=
  let path := varRunQemuPath ++ '/' :: name
  let got := readFile (sys.file path) pidStringMax (sys.stale path)
  if got.1 < 0 then pure (-1)
  else do
    let pid := readPid (cstr got.2)
    let d ← dom.get
    dom.set { d with pid := pid }
    if pid < 1 then pure (-1)
    else do
      let id := getIdFromCgroup sys pid
      let d ← dom.get
      dom.set { d with domainId := id }
      if id < 0 then pure (-1)
      else if 0 ≤ monitorId ∧ id ≠ monitorId then pure (-1)
      else loadDomain arch sys vcpuList name dom

/-! ### All virtual machines -/

/-- The loop of `get_qemu_id`. -/
def qemuLoop (arch : Arch) (monitorId : ℤ) (vcpuList : VcpuList) :
    List (Dirent × Sys) → RecordList → Prog (ℤ × RecordList)
  | [], list => pure (list.num, list)
  | (dirent, sys) :: rest, list =>
      if dirent.name = ".".toList ∨ dirent.name = "..".toList then
        qemuLoop arch monitorId vcpuList rest list
      else if dirent.type ≠ .reg then qemuLoop arch monitorId vcpuList rest list
      else if checkPidFile dirent.name ≠ 0 then qemuLoop arch monitorId vcpuList rest list
      else do
        match ← addDomains sys.mallocDomains list with
        | none => pure (-1, list)
        | some (list, dom) => do
            let r ← setDomain arch monitorId sys vcpuList dirent.name dom
            qemuLoop arch monitorId vcpuList rest (if r < 0 then popDomains list else list)

/-- `get_qemu_id`. -/
def getQemuId (arch : Arch) (monitorId : ℤ) (dir : Option (List (Dirent × Sys)))
    (vcpuList : VcpuList) (list : RecordList) : Prog (ℤ × RecordList) :=
  match dir with
  | none => pure (-1, list)
  | some entries => qemuLoop arch monitorId vcpuList entries list

/-! ### The refresh -/

/-- The loop of `refresh_threads`. -/
def threadsLoop (arch : Arch) (dom oldDom : Ref) : List ℕ → Prog Unit
  | [] => pure ()
  | i :: rest => do
      let d ← dom.get
      let thread : Ref := ⟨d.threads, i⟩
      let t ← thread.get
      match ← getThreadFromPid t.pid oldDom with
      | none => threadsLoop arch dom oldDom rest
      | some oldThread => do
          let old ← oldThread.get
          let t := { t with toTask := refreshDeltaStat t.toTask old.toTask }
          thread.set t
          if t.type = .isVcpu then do
            let t := { t with toTask := refreshDeltaVcpuStat arch t.toTask old.toTask }
            thread.set t
            dom.set { d with toTask := sumVcpuStat arch d.toTask t.toTask }
            threadsLoop arch dom oldDom rest
          else threadsLoop arch dom oldDom rest

/-- `refresh_threads`. -/
def refreshThreads (arch : Arch) (dom oldDom : Ref) : Prog Unit := do
  let d ← dom.get
  threadsLoop arch dom oldDom (List.range d.nlwp.toNat)

/-- The body of the loop of `refresh_domains`. -/
def refreshDomain (arch : Arch) (pre : RecordList) (dom : Ref) : Prog Unit := do
  let d ← dom.get
  match ← getDomainFromId d.domainId pre with
  | none => pure ()
  | some oldDomain => do
      let old ← oldDomain.get
      dom.set { d with toTask := refreshDeltaStat d.toTask old.toTask }
      refreshThreads arch dom oldDomain

/-- The loop of `refresh_domains`. -/
def refreshLoop (arch : Arch) (now pre : RecordList) : List ℕ → Prog Unit
  | [] => pure ()
  | i :: rest => do
      refreshDomain arch pre (now.ref i)
      refreshLoop arch now pre rest

/-- The two snapshots and the `vcpu_stat` table. -/
structure Lists where
  now : RecordList
  pre : RecordList
  vcpuList : VcpuList

/-- The lists as `init_parameter` sets them up. -/
def Lists.start (rows : Arr maxVcpuNum Task) : Lists :=
  ⟨⟨none, 0, 0, fun _ => 0⟩, ⟨none, 0, 0, fun _ => 0⟩, ⟨rows, 0, Nat.zero_le _⟩⟩

/-- `refresh_domains`. -/
def refreshDomains (arch : Arch) (monitorId : ℤ) (env : Env) (s : Lists) : Prog (ℤ × Lists) := do
  -- save data in pre domain_list
  let pre ← clearDomains s.pre
  let pre := { pre with num := s.now.num, domains := s.now.domains }
  let now := initDomains s.now
  let got := getVcpuList arch env.vcpuStat s.vcpuList
  if got.1 < 0 then pure (-1, ⟨now, pre, got.2⟩)
  else do
    let (num, now) ← getQemuId arch monitorId env.qemuDir got.2 now
    refreshLoop arch now pre (List.range now.num)
    pure (num, ⟨now, pre, got.2⟩)

/-- The loop of `get_task_num`. -/
def taskSum (list : RecordList) : List ℕ → Prog ℤ
  | [] => pure 0
  | i :: rest => do
      let dom ← (list.ref i).get
      let sum ← taskSum list rest
      pure (dom.nlwp + sum)

/-- `get_task_num`. -/
def getTaskNum (list : RecordList) : Prog ℤ := do
  let sum ← taskSum list (List.range list.num)
  pure (sum + list.num)

/-! ### The bandwidth -/

/-- `get_vm_ctl_bandwidth`. -/
def getVmCtlBandwidth (fs : MonFs) (dom : Ref) (nodeNum : ℤ) : Prog ℤ := do
  let d ← dom.get
  match getVmCtlPath fs d.domainId with
  | none => pure (-1)
  | some path => do
      let (r, ctlBandwidth) ← plain (getMonMB fs d.ctlBandwidth path nodeNum)
      dom.set { d with ctlBandwidth := ctlBandwidth }
      pure (if r < 0 then -1 else 0)

/-- The loop over the virtual machines in one round. -/
def sampleVms (fs : ℕ → MonFs) (now : RecordList) :
    List ℕ → SampleTimes → Prog SampleTimes
  | [], times => pure times
  | i :: rest, times => do
      let r ← getVmCtlBandwidth (fs i) (now.ref i) now.nodeNum
      let times ← plain (countSample r times i)
      sampleVms fs now rest times

/-- What the rounds of `refresh_domains_bandwidth` change, besides the records. -/
structure Rounds where
  now : RecordList
  sampleTimesVms : SampleTimes
  sampleTimesHost : ℤ

/-- The body of the loop over the rounds. -/
def sampleRound (env : BandwidthEnv) (st : Rounds) (round : ℕ) : Prog Rounds := do
  let times ← sampleVms (env.vm round) st.now (List.range st.now.num) st.sampleTimesVms
  let (r, bandwidth) ←
    plain (getRootMonBandwidth (env.root round) st.now.bandwidth st.now.nodeNum)
  pure
    { now := { st.now with bandwidth := bandwidth }
      sampleTimesVms := times
      sampleTimesHost := if r < 0 then st.sampleTimesHost else st.sampleTimesHost + 1 }

/-- The inner loop of `calculate_all_bandwidth` for one node. -/
def meanVms (sampleTimesVms : SampleTimes) (now : RecordList) (node : ℕ) :
    List ℕ → Long → ℤ → Prog (Long × ℤ)
  | [], host, nodeVms => pure (host, nodeVms)
  | i :: rest, host, nodeVms => do
      let times ← plain (load sampleTimesVms i)
      if 0 < times then do
        let dom ← (now.ref i).get
        let sum ← plain (load dom.ctlBandwidth node)
        let mean := divInt sum times
        let ctlBandwidth ← plain (store dom.ctlBandwidth node mean)
        (now.ref i).set { dom with ctlBandwidth := ctlBandwidth, bandwidthUpdatedSucc := true }
        meanVms sampleTimesVms now node rest (host + mean) ((nodeVms + mean.toInt) % 2 ^ 32)
      else meanVms sampleTimesVms now node rest host nodeVms

/-- The body of the loop of `calculate_all_bandwidth`. -/
def calculateNode (sampleTimesVms : SampleTimes) (sampleTimesHost : ℤ) (now : RecordList)
    (node : ℕ) : Prog RecordList := do
  let sum ← plain (load now.bandwidth node)
  let host := if 0 < sampleTimesHost then divInt sum sampleTimesHost else sum
  let (host, nodeVms) ← meanVms sampleTimesVms now node (List.range now.num) host 0
  let bandwidth ← plain
    (store now.bandwidth node (if host.toInt < nodeVms then Int64.ofInt nodeVms else host))
  pure { now with bandwidth := bandwidth }

/-- `refresh_domains_bandwidth`. -/
def refreshDomainsBandwidth (env : BandwidthEnv) (now : RecordList) : Prog RecordList :=
  let (r, nodeNum) := getNumaNum env.numa now.nodeNum
  let now := { now with nodeNum := nodeNum }
  if r < 0 then pure now
  else do
    let st ← (List.range sampleTimesOuter).foldlM (sampleRound env) ⟨now, fun _ => 0, 0⟩
    (List.range st.now.nodeNum.toNat).foldlM
      (calculateNode st.sampleTimesVms st.sampleTimesHost) st.now

/-! ### A frame -/

/-- The part of the main loop before the frame is made. -/
def sampleFrame (c : Config) (env : FrameEnv) (s : Lists) : Prog Lists := do
  let (_, s) ← refreshDomains c.arch c.monitorId env.refresh s
  if resctrlEnable c env then do
    let now ← refreshDomainsBandwidth env.bandwidth s.now
    pure { s with now := now }
  else pure s

/-- The loop of `show_domains_threads`: the threads that it comes to. -/
def walkThreads (threads : Option ℕ) : List ℕ → Prog (List Task)
  | [] => pure []
  | i :: rest => do
      let t ← (⟨threads, i⟩ : Ref).get
      let ts ← walkThreads threads rest
      pure (t.toTask :: ts)

/-- `show_domains_threads`, which `show_domains` calls in thread mode. -/
def walkDomain (threadMode : Bool) (dom : Record) : Prog (List Task) :=
  if threadMode then walkThreads dom.threads (List.range dom.nlwp.toNat) else pure []

/-- The loop of `show_domains`: the tasks that it comes to. -/
def walk (threadMode : Bool) (list : RecordList) : List ℕ → Prog (List Task)
  | [] => pure []
  | i :: rest => do
      let dom ← (list.ref i).get
      let threads ← walkDomain threadMode dom
      let ts ← walk threadMode list rest
      pure (dom.toTask :: threads ++ ts)

/-- A frame: the tasks that `show_domains` comes to, what `get_task_num` counts, and the lists
behind it. -/
def frame (c : Config) (env : FrameEnv) (threadMode : Bool) (s : Lists) :
    Prog (List Task × ℤ × Lists) := do
  let s ← sampleFrame c env s
  let tasks ← walk threadMode s.now (List.range s.now.num)
  let taskNum ← getTaskNum s.now
  pure (tasks, taskNum, s)

/-- The frames of a run, with the thread mode that each of them is shown in. -/
def frames (c : Config) : List (FrameEnv × Bool) → Lists → Prog (List (List Task × ℤ) × Lists)
  | [], s => pure ([], s)
  | input :: inputs, s => do
      let (tasks, taskNum, s) ← frame c input.1 input.2 s
      let (shown, s) ← frames c inputs s
      pure ((tasks, taskNum) :: shown, s)

end Memory
end Vmtop
