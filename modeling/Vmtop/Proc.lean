/-
# The stat file of a process

`get_proc_stat` and `refresh_delta_stat` of `src/proc.c`.

The name of a process stands in its stat file between the last `(` and the last
`)`.  Both are searched without a look at the result, so where one is missing
the length is computed from a null pointer; `pointer` keeps the addresses, and
the fault `badPointer` is what happens when such a length passes the check.
-/

import Vmtop.Utils
import Vmtop.VcpuStat

namespace Vmtop

open CText CArray

/-- `/proc/%u/stat`. -/
def procStatPath (pid : ℤ) : Text := "/proc/".toList ++ printU pid ++ "/stat".toList

/-- `/proc/%u/task/%u/stat`. -/
def taskStatPath (ppid pid : ℤ) : Text :=
  "/proc/".toList ++ printU ppid ++ "/task/".toList ++ printU pid ++ "/stat".toList

/-- A value read by `%lu` or `%llu`, as the field it is stored in. -/
def toU64 (n : ℤ) : U64 := UInt64.ofNat n.toNat

/-- The format of the stat line from the state of the process on. -/
def statFormat : List (Directive Task) :=
  List.intersperse .blank
    [.into .char fun n t => { t with state := Char.ofNat n.toNat },
      .into .int fun n t => { t with ppid := n },
      .into .int fun n t => { t with pgrd := n },
      .skip .int, .skip .int, .skip .int,
      .into .ulong fun n t => { t with flags := toU64 n },
      .into .ulong fun n t => { t with minFlt := toU64 n },
      .into .ulong fun n t => { t with cminFlt := toU64 n },
      .into .ulong fun n t => { t with majFlt := toU64 n },
      .into .ulong fun n t => { t with cmajFlt := toU64 n },
      .into .ulong fun n t => { t with dfx := Function.update t.dfx .utime (toU64 n) },
      .into .ulong fun n t => { t with dfx := Function.update t.dfx .stime (toU64 n) },
      .into .ulong fun n t => { t with cutime := toU64 n },
      .into .ulong fun n t => { t with cstime := toU64 n },
      .skip .int, .skip .int,
      .into .int fun n t => { t with nlwp := n },
      .into .long fun n t => { t with alarm := n },
      .into .ulong fun n t => { t with startTime := toU64 n },
      .into .ulong fun n t => { t with vsize := toU64 n },
      .into .long fun n t => { t with rss := n },
      .into .ulong fun n t => { t with rssRlim := toU64 n },
      .skip .uint, .skip .uint, .skip .uint, .skip .uint, .skip .uint,
      .skip .str, .skip .str, .skip .str, .skip .str,
      .skip .uint, .skip .uint, .skip .uint, .skip .int,
      .into .int fun n t => { t with processor := n }]

/-- The pointer a search in a buffer at address `base` returns: null when it fails. -/
def pointer (base : ℤ) (found : Option ℕ) : ℤ := found.elim 0 fun i => base + i

/-- `get_proc_stat` from the searches on: `mem` is the buffer and `base` its address. -/
def parseStat (base : ℤ) (mem : Text) (dom : Task) : Except Fault (ℤ × Task) :=
  let buf := cstr mem
  -- read comm from "pid (comm) S"
  let tmp1 := pointer base (strrchr '(' buf) + 1
  let tmp2 := pointer base (strrchr ')' buf)
  let len := toInt32 (tmp2 - tmp1)
  if domainNameMax ≤ len ∨ len < 0 then .ok (-1, dom)
  else
    match strrchr '(' buf, strrchr ')' buf with
    | some i, some j =>
        let dom := { dom with vmname := (buf.drop (i + 1)).take len.toNat }
        -- read start from process state
        .ok (1, sscanf statFormat (cstr (mem.drop (j + 2))) dom)
    | _, _ => .error .badPointer

/-- The path `get_proc_stat` reads. -/
def statPath (dom : Task) : Text :=
  if dom.type = .isDomain then procStatPath dom.pid else taskStatPath dom.ppid dom.pid

/-- `get_proc_stat`: `-1` when the file cannot be read or the name does not fit. -/
def getProcStat (sys : Sys) (dom : Task) : Except Fault (ℤ × Task) :=
  let path := statPath dom
  let got := readFile (sys.file path) bufSize (sys.stale path)
  if got.1 < 0 then .ok (-1, dom) else parseStat (sys.base path) got.2 dom

/-- `proc_stab`. -/
def procStab : List FileItem :=
  [⟨.ulong, none, some .utime, none⟩, ⟨.ulong, none, some .stime, none⟩]

/-- `refresh_delta_stat`. -/
def refreshDeltaStat (new old : Task) : Task := deltaPass procStab new old

end Vmtop
