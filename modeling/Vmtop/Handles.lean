/-
# The handles of a refresh

The functions of `src/domain.c`, `src/resctrl.c` and those they call once more, with the
calls that open and close directories and files and that allocate and free the arrays of
threads: `opendir` and `closedir`, `open` or `fopen` and their counterparts, `malloc` and
`free`.  What a function opens is entered into a ledger, and each of its exits releases what
the source releases there.  Everything else is as in the functions without a ledger.

A call may fail in more ways than these functions can tell apart: where the contents of a
file are `none`, it could not be opened, or it was opened and could not be read.  `opens`
says which.  A record does not hold the address of its array, so the addresses stand in a
list of their own, position by position; `none` is `NULL`.
-/

import Vmtop.Frame
import Vmtop.Lib.Ledger

namespace Vmtop

open CText CArray Ledgers

/-- What is opened or allocated. -/
inductive Kind
  | stream | file | threads
  deriving DecidableEq

/-! ### Files -/

/-- `read_file`. -/
def readFileHeld (opens : Bool) (content : Option Text) (bufsize : ℕ) (buf : Text) :
    Prog Kind (ℤ × Text) :=
  match content with
  | none =>
      if opens then do
        let fd ← acquire .file
        release .file fd
        pure (-1, buf)
      else pure (-1, buf)
  | some s => do
      let fd ← acquire .file
      let got := readFile (some s) bufsize buf
      release .file fd
      pure got

/-- `get_proc_stat`. -/
def getProcStatHeld (opens : Text → Bool) (sys : Sys) (dom : Task) : Prog Kind (ℤ × Task) := do
  let path := statPath dom
  let got ← readFileHeld (opens path) (sys.file path) bufSize (sys.stale path)
  if got.1 < 0 then pure (-1, dom) else plain (parseStat (sys.base path) got.2 dom)

/-- `get_vcpu_list`. -/
def getVcpuListHeld (arch : Arch) (file : Option Text) (list : VcpuList) :
    Prog Kind (ℤ × VcpuList) :=
  match file with
  | none => pure (-1, list)
  | some s => do
      let fp ← acquire .file
      let got := getVcpuList arch (some s) list
      release .file fp
      pure got

/-- `get_id_from_cgroup`. -/
def getIdFromCgroupHeld (opens : Text → Bool) (sys : Sys) (pid : ℤ) : Prog Kind ℤ :=
  match sys.file (cgroupPath pid) with
  | none =>
      if opens (cgroupPath pid) then do
        let fp ← acquire .file
        release .file fp
        pure (-1)
      else pure (-1)
  | some s => do
      let fp ← acquire .file
      let id := cgroupLoop (chunks (bufSize - 2) s)
      release .file fp
      pure id

/-! ### One virtual machine -/

/-- The body of the loop of `get_child_pid`. -/
def childStepHeld (opens : Text → Bool) (arch : Arch) (sys : Sys) (vcpuList : VcpuList)
    (dom : Domain) (dirt : Dirent) (st : ChildState) : Prog Kind ChildState :=
  if dirt.name = ".".toList ∨ dirt.name = "..".toList then pure st
  else if dirt.type ≠ .dir then pure st
  else
    let pid := readPid (cstr dirt.name)
    if pid < 1 then pure (st.setThread { st.thread with pid := 0 })
    else do
      let (r, t) ←
        getProcStatHeld opens sys { st.thread with pid := pid, type := .isThread, ppid := dom.pid }
      if r < 0 then pure (st.setThread t)
      else
        let (found, v) := getVcpuStat arch t vcpuList
        if (strstr "CPU".toList t.vmname).isSome ∧ 0 ≤ found then
          pure { st.setThread { v with type := .isVcpu, smpVcpus := 1 } with
            i := st.i + 1, smpVcpus := st.smpVcpus + 1 }
        else pure { st.setThread { t with smpVcpus := 1 } with i := st.i + 1 }

/-- The loop of `get_child_pid`. -/
def childLoopHeld (opens : Text → Bool) (arch : Arch) (sys : Sys) (vcpuList : VcpuList)
    (dom : Domain) : List Dirent → ChildState → Prog Kind ChildState
  | [], st => pure st
  | dirt :: rest, st =>
      if st.i < dom.nlwp then do
        let st ← childStepHeld opens arch sys vcpuList dom dirt st
        childLoopHeld opens arch sys vcpuList dom rest st
      else pure st

/-- `get_child_pid`, with the array that `dom->threads` points to behind it. -/
def getChildPidHeld (opens : Text → Bool) (arch : Arch) (sys : Sys) (vcpuList : VcpuList)
    (dom : Domain) : Prog Kind (ℤ × Domain × Option ℕ) :=
  match sys.taskDir (taskPath dom.pid) with
  | none => pure (-1, dom, none)
  | some entries => do
      let dirptr ← acquire .stream
      -- this exit does not close the directory
      if dom.nlwp ≤ 0 then pure (-1, dom, none)
      else if sys.mallocThreads = false then do
        release .stream dirptr
        pure (-1, { dom with threads := [] }, none)
      else do
        let threads ← acquire .threads
        let st ← childLoopHeld opens arch sys vcpuList dom entries
          ⟨List.replicate dom.nlwp.toNat Task.zero, 0, dom.smpVcpus⟩
        release .stream dirptr
        pure (dom.nlwp, { dom with threads := st.threads, smpVcpus := st.smpVcpus }, some threads)

/-- `set_domain` once the id is accepted. -/
def loadDomainHeld (opens : Text → Bool) (arch : Arch) (sys : Sys) (vcpuList : VcpuList)
    (name : Text) (dom : Domain) : Prog Kind (ℤ × Domain × Option ℕ) := do
  let (r, t) ← getProcStatHeld opens sys { dom.toTask with type := .isDomain }
  let dom := { dom with toTask := t }
  if r < 0 then pure (-1, dom, none)
  else do
    let (r, dom, threads) ← getChildPidHeld opens arch sys vcpuList dom
    if r < 0 then pure (-1, dom, threads)
    else if domainNameMax - 1 ≤ name.length then pure (-1, dom, threads)
    else
      pure (1, { dom with vmname := name.take (name.length - ".pid".toList.length) }, threads)

/-- `set_domain`, on the record that `add_domains` cleared. -/
def setDomainHeld (opens : Text → Bool) (arch : Arch) (monitorId : ℤ) (sys : Sys)
    (vcpuList : VcpuList) (name : Text) (dom : Domain) : Prog Kind (ℤ × Domain × Option ℕ) := do
  let path := varRunQemuPath ++ '/' :: name
  let got ← readFileHeld (opens path) (sys.file path) pidStringMax (sys.stale path)
  if got.1 < 0 then pure (-1, dom, none)
  else
    let dom := { dom with pid := readPid (cstr got.2) }
    if dom.pid < 1 then pure (-1, dom, none)
    else do
      let id ← getIdFromCgroupHeld opens sys dom.pid
      let dom := { dom with domainId := id }
      if dom.domainId < 0 then pure (-1, dom, none)
      else if 0 ≤ monitorId ∧ dom.domainId ≠ monitorId then pure (-1, dom, none)
      else loadDomainHeld opens arch sys vcpuList name dom

/-! ### All virtual machines -/

/-- The loop of `get_qemu_id` over the directory `dir`, with the arrays of the records of
`list`; a record that is dropped takes the address of its array with it. -/
def qemuLoopHeld (opens : Sys → Text → Bool) (arch : Arch) (monitorId : ℤ) (vcpuList : VcpuList)
    (dir : ℕ) :
    List (Dirent × Sys) → DomainList → List (Option ℕ) →
      Prog Kind (ℤ × DomainList × List (Option ℕ))
  | [], list, arrays => do
      release .stream dir
      pure (list.num, list, arrays)
  | (dirent, sys) :: rest, list, arrays =>
      if dirent.name = ".".toList ∨ dirent.name = "..".toList then
        qemuLoopHeld opens arch monitorId vcpuList dir rest list arrays
      else if dirent.type ≠ .reg then
        qemuLoopHeld opens arch monitorId vcpuList dir rest list arrays
      else if checkPidFile dirent.name ≠ 0 then
        qemuLoopHeld opens arch monitorId vcpuList dir rest list arrays
      else
        match addDomains sys.mallocDomains list with
        | none => do
            release .stream dir
            pure (-1, list, arrays)
        | some added => do
            let (r, dom, threads) ←
              setDomainHeld (opens sys) arch monitorId sys vcpuList dirent.name added.last
            let list := added.setLast dom
            if r < 0 then
              qemuLoopHeld opens arch monitorId vcpuList dir rest (popDomains list) arrays
            else
              qemuLoopHeld opens arch monitorId vcpuList dir rest list (arrays ++ [threads])

/-- `get_qemu_id`, on the empty list. -/
def getQemuIdHeld (opens : Sys → Text → Bool) (arch : Arch) (monitorId : ℤ)
    (dir : Option (List (Dirent × Sys))) (vcpuList : VcpuList) (list : DomainList) :
    Prog Kind (ℤ × DomainList × List (Option ℕ)) :=
  match dir with
  | none => pure (-1, list, [])
  | some entries => do
      let dir ← acquire .stream
      qemuLoopHeld opens arch monitorId vcpuList dir entries list []

/-- The loop of `clear_domains`. -/
def freeThreads : List (Option ℕ) → Prog Kind Unit
  | [] => pure ()
  | none :: rest => freeThreads rest
  | some threads :: rest => do
      release .threads threads
      freeThreads rest

/-- The arrays that the records of the two snapshots point to. -/
structure Arrays where
  now : List (Option ℕ)
  pre : List (Option ℕ)

/-- `refresh_domains`. -/
def refreshDomainsHeld (opens : Sys → Text → Bool) (arch : Arch) (monitorId : ℤ) (env : Env)
    (s : Lists) (arrays : Arrays) : Prog Kind (ℤ × Lists × Arrays) := do
  freeThreads arrays.pre
  let pre := { clearDomains s.pre with domains := s.now.domains, popped := s.now.popped }
  let now := initDomains s.now
  let got ← getVcpuListHeld arch env.vcpuStat s.vcpuList
  if got.1 < 0 then pure (-1, ⟨now, pre, got.2⟩, ⟨[], arrays.now⟩)
  else do
    let (num, now, threads) ← getQemuIdHeld opens arch monitorId env.qemuDir got.2 now
    pure (num, ⟨{ now with domains := now.domains.map (refreshDomain arch pre) }, pre, got.2⟩,
      ⟨threads, arrays.now⟩)

/-! ### The bandwidth -/

/-- `get_numa_num`. -/
def getNumaNumHeld (fs : MonFs) (nodeNum : ℤ) : Prog Kind (ℤ × ℤ) :=
  match fs.dir rootMonData with
  | none => pure (-1, nodeNum)
  | some names => do
      let dirptr ← acquire .stream
      let maxNode := names.foldl maxNodeStep (-1)
      release .stream dirptr
      pure (maxNode, maxNode + 1)

/-- The files of the nodes with their handles, as far as they were opened. -/
abbrev OpenFiles := Arr maxNodeNum (Option (ℕ × (ℕ → Text)))

/-- The files without their handles. -/
def OpenFiles.contents (fps : OpenFiles) : Files := fun node => (fps node).map Prod.snd

/-- `fopen`. -/
def fopenHeld (content : Option (ℕ → Text)) : Prog Kind (Option (ℕ × (ℕ → Text))) :=
  match content with
  | none => pure none
  | some file => do
      let fp ← acquire .file
      pure (some (fp, file))

/-- The first loop of `get_mon_MB`. -/
def openNodesHeld (fs : MonFs) (path : Text) :
    List ℕ → OpenFiles → Prog Kind (Bool × OpenFiles)
  | [], fps => pure (true, fps)
  | node :: rest, fps => do
      let fp ← fopenHeld (fs.fopen (monDataPath path node))
      let fps ← plain (store fps node fp)
      let fp ← plain (load fps node)
      if fp.isNone then pure (false, fps) else openNodesHeld fs path rest fps

/-- The loop of `get_mon_MB` behind the label `out`. -/
def closeNodes (fps : OpenFiles) : List ℕ → Prog Kind Unit
  | [] => pure ()
  | node :: rest => do
      let fp ← plain (load fps node)
      match fp with
      | none => closeNodes fps rest
      | some (fp, _) => do
          release .file fp
          closeNodes fps rest

/-- `get_mon_MB`. -/
def getMonMBHeld (fs : MonFs) (bandwidth : Arr maxNodeNum Long) (path : Text) (nodeNum : ℤ) :
    Prog Kind (ℤ × Arr maxNodeNum Long) := do
  let nodes := List.range nodeNum.toNat
  let (opened, fps) ← openNodesHeld fs path nodes fun _ => none
  let got ← plain (if opened then do
      let st ← sampleNodes fps.contents nodes
      addMeans st nodes bandwidth
    else .ok (-1, bandwidth))
  closeNodes fps nodes
  pure got

/-- `get_root_mon_bandwidth`. -/
def getRootMonBandwidthHeld (fs : MonFs) (bandwidth : Arr maxNodeNum Long) (nodeNum : ℤ) :
    Prog Kind (ℤ × Arr maxNodeNum Long) := do
  let (r, bandwidth) ← getMonMBHeld fs bandwidth rootMonData nodeNum
  pure (if r < 0 then r else 0, bandwidth)

/-- `get_vm_ctl_path`. -/
def getVmCtlPathHeld (fs : MonFs) (domainId : ℤ) : Prog Kind (Option Text) :=
  match fs.dir resctrlFilesystemDir with
  | none => pure none
  | some names => do
      let dir ← acquire .stream
      let vmCtlPrefix := ctlGroupPrefix ++ decimalInt domainId
      let path := (names.find? fun name => vmCtlPrefix.isPrefixOf name).map fun name =>
        snprintf vmtopGroupNameMax (resctrlFilesystemDir ++ '/' :: name ++ '/' :: monDataDir)
      release .stream dir
      pure path

/-- `get_vm_ctl_bandwidth`. -/
def getVmCtlBandwidthHeld (fs : MonFs) (dom : Domain) (nodeNum : ℤ) : Prog Kind (ℤ × Domain) := do
  match ← getVmCtlPathHeld fs dom.domainId with
  | none => pure (-1, dom)
  | some path => do
      let (r, ctlBandwidth) ← getMonMBHeld fs dom.ctlBandwidth path nodeNum
      pure (if r < 0 then -1 else 0, { dom with ctlBandwidth := ctlBandwidth })

/-- The loop over the virtual machines in one round, from the `i`-th on. -/
def sampleVmsHeld (fs : ℕ → MonFs) (nodeNum : ℤ) :
    ℕ → List Domain → SampleTimes → Prog Kind (List Domain × SampleTimes)
  | _, [], times => pure ([], times)
  | i, dom :: rest, times => do
      let (r, dom) ← getVmCtlBandwidthHeld (fs i) dom nodeNum
      let times ← plain (countSample r times i)
      let (doms, times) ← sampleVmsHeld fs nodeNum (i + 1) rest times
      pure (dom :: doms, times)

/-- The body of the loop over the rounds. -/
def sampleRoundHeld (env : BandwidthEnv) (st : Rounds) (round : ℕ) : Prog Kind Rounds := do
  let (domains, times) ←
    sampleVmsHeld (env.vm round) st.now.nodeNum 0 st.now.domains st.sampleTimesVms
  let (r, bandwidth) ←
    getRootMonBandwidthHeld (env.root round) st.now.bandwidth st.now.nodeNum
  pure
    { now := { st.now with domains := domains, bandwidth := bandwidth }
      sampleTimesVms := times
      sampleTimesHost := if r < 0 then st.sampleTimesHost else st.sampleTimesHost + 1 }

/-- `refresh_domains_bandwidth`. -/
def refreshDomainsBandwidthHeld (env : BandwidthEnv) (now : DomainList) : Prog Kind DomainList := do
  let (r, nodeNum) ← getNumaNumHeld env.numa now.nodeNum
  let now := { now with nodeNum := nodeNum }
  if r < 0 then pure now
  else do
    let st ← (List.range sampleTimesOuter).foldlM (sampleRoundHeld env) ⟨now, fun _ => 0, 0⟩
    plain (calculateAllBandwidth st.now st.sampleTimesVms st.sampleTimesHost)

/-- The part of the main loop before the frame is made. -/
def sampleFrameHeld (opens : Sys → Text → Bool) (c : Config) (env : FrameEnv) (s : Lists)
    (arrays : Arrays) : Prog Kind (Lists × Arrays) := do
  let (_, s, arrays) ← refreshDomainsHeld opens c.arch c.monitorId env.refresh s arrays
  if resctrlEnable c env then do
    let now ← refreshDomainsBandwidthHeld env.bandwidth s.now
    pure ({ s with now := now }, arrays)
  else pure (s, arrays)

end Vmtop
