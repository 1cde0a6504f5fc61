/-
# Memory bandwidth from resctrl

`src/resctrl.c`: how many NUMA nodes are monitored (`get_numa_num`), the mean of a
counter file per node (`get_mon_MB`), and the two places it is read from, the root
group (`get_root_mon_bandwidth`) and the control group of a virtual machine
(`get_vm_ctl_bandwidth`).

Every subscript by a node number is checked, although the number comes from
`get_numa_num`, which keeps it within the arrays.  A bandwidth is a `long`, and what is added
to it wraps around where the sum does not fit.
-/

import Vmtop.Domain

namespace Vmtop

open CText CArray

/-- What the calls under `/sys/fs/resctrl` find.  Every sampling sees one of these, so
files may change from one to the next. -/
structure MonFs where
  /-- The names in a directory; `none` when it cannot be opened. -/
  dir : Text → Option (List Text)
  /-- A counter file, by its path: what the `i`-th reading finds in it; `none` when it
  cannot be opened. -/
  fopen : Text → Option (ℕ → Text)
  deriving Inhabited

/-- `RESCTRL_FILESYSTEM_DIR`. -/
def resctrlFilesystemDir : Text := "/sys/fs/resctrl".toList

/-- `CTL_GROUP_PREFIX`. -/
def ctlGroupPrefix : Text := "qemu-".toList

/-- `MON_DATA_DIR`. -/
def monDataDir : Text := "mon_data".toList

/-- `MON_DATA_PREFIX`. -/
def monDataPrefix : Text := "mon_MB_".toList

/-- `MON_DATA_FILE`. -/
def monDataFile : Text := "mbm_total_bytes".toList

/-- `VMTOP_GROUP_NAME_MAX`: the size of a path. -/
def vmtopGroupNameMax : ℕ := 512

/-- `MAX_BANDWIDTH_LENGTH`: the size of the buffer a counter is read into. -/
def maxBandwidthLength : ℕ := 24

/-- `SAMPLE_TIMES_INNER`. -/
def sampleTimesInner : ℕ := 2

/-- `snprintf` into an array of that size. -/
def snprintf (size : ℕ) (s : Text) : Text := s.take (size - 1)

/-- The directory of the root group. -/
def rootMonData : Text :=
  snprintf vmtopGroupNameMax (resctrlFilesystemDir ++ '/' :: monDataDir)

/-! ### The nodes -/

/-- The loop of `get_numa_num`: the largest node number seen so far. -/
def maxNodeStep (maxNode : ℤ) (name : Text) : ℤ :=
  if monDataPrefix.isPrefixOf name then
    let curNode := atoi (name.drop monDataPrefix.length)
    if curNode < 0 ∨ maxNodeNum ≤ curNode then maxNode
    else if maxNode < curNode then curNode else maxNode
  else maxNode

/-- `get_numa_num`: the result and `*node_num` afterwards. -/
def getNumaNum (fs : MonFs) (nodeNum : ℤ) : ℤ × ℤ :=
  match fs.dir rootMonData with
  | none => (-1, nodeNum)
  | some names =>
      let maxNode := names.foldl maxNodeStep (-1)
      (maxNode, maxNode + 1)

/-! ### One counter file per node -/

/-- `get_mon_MB_once`, on what the file holds at that moment. -/
def getMonMBOnce (s : Text) : Long :=
  if s.isEmpty then -1 else Int64.ofInt (atol (cstr (fgets (maxBandwidthLength - 1) s).1))

/-- `%s/mon_MB_%02d/mbm_total_bytes`. -/
def monDataPath (path : Text) (node : ℕ) : Text :=
  snprintf vmtopGroupNameMax
    (path ++ '/' :: monDataPrefix ++ decimal2 node ++ '/' :: monDataFile)

/-- The files of the nodes, as far as they were opened. -/
abbrev Files := Arr maxNodeNum (Option (ℕ → Text))

/-- The first loop of `get_mon_MB`: whether every file was opened. -/
def openNodes (fs : MonFs) (path : Text) : List ℕ → Files → Except Fault (Bool × Files)
  | [], fps => .ok (true, fps)
  | node :: rest, fps => do
      let fps ← store fps node (fs.fopen (monDataPath path node))
      if (← load fps node).isNone then .ok (false, fps) else openNodes fs path rest fps

/-- What the sampling loop of `get_mon_MB` adds up for each node. -/
structure Samples where
  times : Arr maxNodeNum ℕ
  sum : Arr maxNodeNum Long

/-- The body of the sampling loop, for the `i`-th reading of a node. -/
def sampleNode (fps : Files) (i : ℕ) (st : Samples) (node : ℕ) : Except Fault Samples := do
  let fp ← load fps node
  let bandwidthTmp := fp.elim (-1) fun file => getMonMBOnce (file i)
  if bandwidthTmp ≠ -1 ∧ 0 < i then
    let sum ← store st.sum node ((← load st.sum node) + bandwidthTmp)
    let times ← store st.times node ((← load st.times node) + 1)
    .ok ⟨times, sum⟩
  else .ok st

/-- The sampling loop of `get_mon_MB`. -/
def sampleNodes (fps : Files) (nodes : List ℕ) : Except Fault Samples :=
  (List.range sampleTimesInner).foldlM
    (fun st i => nodes.foldlM (sampleNode fps i) st) ⟨fun _ => 0, fun _ => 0⟩

/-- A `long` divided by an `int`. -/
def divInt (sum : Long) (times : ℤ) : Long := Int64.ofInt (sum.toInt.tdiv times)

/-- The last loop of `get_mon_MB`: the mean of each node is added, up to the first
node that was never read. -/
def addMeans (st : Samples) :
    List ℕ → Arr maxNodeNum Long → Except Fault (ℤ × Arr maxNodeNum Long)
  | [], bandwidth => .ok (0, bandwidth)
  | i :: rest, bandwidth => do
      let times ← load st.times i
      if times = 0 then .ok (-1, bandwidth)
      else
        let mean := divInt (← load st.sum i) times
        let bandwidth ← store bandwidth i ((← load bandwidth i) + mean)
        addMeans st rest bandwidth

/-- `get_mon_MB`: its result and `bandwidth` afterwards. -/
def getMonMB (fs : MonFs) (bandwidth : Arr maxNodeNum Long) (path : Text) (nodeNum : ℤ) :
    Except Fault (ℤ × Arr maxNodeNum Long) := do
  let nodes := List.range nodeNum.toNat
  let (opened, fps) ← openNodes fs path nodes fun _ => none
  if opened then
    let st ← sampleNodes fps nodes
    addMeans st nodes bandwidth
  else .ok (-1, bandwidth)

/-! ### The groups -/

/-- `get_root_mon_bandwidth`. -/
def getRootMonBandwidth (fs : MonFs) (bandwidth : Arr maxNodeNum Long) (nodeNum : ℤ) :
    Except Fault (ℤ × Arr maxNodeNum Long) := do
  let (r, bandwidth) ← getMonMB fs bandwidth rootMonData nodeNum
  .ok (if r < 0 then r else 0, bandwidth)

/-- `get_vm_ctl_path`: the path, or `none` where it returns `-1`. -/
def getVmCtlPath (fs : MonFs) (domainId : ℤ) : Option Text :=
  let vmCtlPrefix := ctlGroupPrefix ++ decimalInt domainId
  (fs.dir resctrlFilesystemDir).bind fun names =>
    (names.find? fun name => vmCtlPrefix.isPrefixOf name).map fun name =>
      snprintf vmtopGroupNameMax (resctrlFilesystemDir ++ '/' :: name ++ '/' :: monDataDir)

/-- `get_vm_ctl_bandwidth`: its result and the domain afterwards. -/
def getVmCtlBandwidth (fs : MonFs) (dom : Domain) (nodeNum : ℤ) : Except Fault (ℤ × Domain) :=
  match getVmCtlPath fs dom.domainId with
  | none => .ok (-1, dom)
  | some path => do
      let (r, ctlBandwidth) ← getMonMB fs dom.ctlBandwidth path nodeNum
      .ok (if r < 0 then -1 else 0, { dom with ctlBandwidth := ctlBandwidth })

end Vmtop
