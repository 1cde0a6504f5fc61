/-
# The `vcpu_stat` table

`src/vcpu_stat.c` and the macros of `src/type.h` it is built from: the table
`vcpu_stat_stab`, which names the columns of `/sys/kernel/debug/kvm/vcpu_stat`;
the parser `get_vcpu_list`, which fills the rows of `vcpu_list` in place; the
lookup `get_vcpu_stat`; and the two passes over the columns, `refresh_delta_vcpu_stat`
and `sum_vcpu_stat`.

A getter of the table points into a record; `Slot` names what it points to.  The
delta and sum functions of the table are one macro each (`DELTA_FUN`, `SUM_FUN`),
so an entry holds the field they are made for.
-/

import Mathlib.Data.List.OfFn
import Vmtop.Lib.Sampled
import Vmtop.Lib.Scan
import Vmtop.Type

namespace Vmtop

open CText CArray Sampled

/-! ### The columns -/

/-- What a getter `domain_get_v` of the tables points to. -/
inductive Slot
  | pid | stMax
  | dfx (v : Dfx)
  deriving DecidableEq, Repr

/-- The value a getter points to. -/
def Slot.load : Slot → Task → ℤ
  | .pid, t => t.pid
  | .stMax, t => t.stMax.toNat
  | .dfx v, t => (t.dfx v).toNat

/-- Storing what a conversion of `sscanf` read where a getter points: `%u` into the
`int` `pid`, `%llu` into a `u64`. -/
def Slot.store : Slot → ℤ → Task → Task
  | .pid, n, t => { t with pid := toInt32 n }
  | .stMax, n, t => { t with stMax := UInt64.ofNat n.toNat }
  | .dfx v, n, t => { t with dfx := Function.update t.dfx v (UInt64.ofNat n.toNat) }

/-- `memcpy(get(dst), get(src), sizeof(u64))`. -/
def Slot.copy : Slot → Task → Task → Task
  | .pid, dst, src => { dst with pid := src.pid }
  | .stMax, dst, src => { dst with stMax := src.stMax }
  | .dfx v, dst, src => { dst with dfx := Function.update dst.dfx v (src.dfx v) }

/-- `struct file_item`: a column, its format, and the functions for it. -/
structure FileItem where
  format : Conv
  getFun : Option Slot
  deltaFun : Option Dfx
  sumFun : Option Dfx

/-- A column `GDF(v)` of `vcpu_stat_stab`. -/
def FileItem.gdf (v : Dfx) : FileItem := ⟨.ulong, some (.dfx v), some v, some v⟩

/-- A column `GF(f)` of `vcpu_stat_stab`. -/
def FileItem.gf (format : Conv) (f : Slot) : FileItem := ⟨format, some f, none, none⟩

/-- The exit counters between `pid` and `steal`, in the order of the columns. -/
def exitColumns : Arch → List Dfx
  | .aarch64 =>
      [.hvcExitStat, .wfeExitStat, .wfiExitStat, .mmioExitUser, .mmioExitKernel, .signalExits,
        .exits, .fpAsimdExitStat, .irqExitStat, .sys64ExitStat, .mabtExitStat, .failEntryExitStat,
        .internalErrorExitStat, .unknownEcExitStat, .cp1532ExitStat, .cp1564ExitStat,
        .cp14MrExitStat, .cp14LsExitStat, .cp1464ExitStat, .smcExitStat, .sveExitStat,
        .debugExitStat]
  | .other =>
      [.pfFixed, .pfGuest, .tlbFlush, .invlpg, .exits, .ioExits, .mmioExits, .signalExits,
        .irqWindowExits, .nmiWindowExits, .haltExits, .haltSuccessfulPoll, .haltAttemptedPoll,
        .haltWakeup, .requestIrqExits, .irqExits, .hostStateReload, .fpuReload, .insnEmulation,
        .insnEmulationFail, .hypercalls, .irqInjections, .nmiInjections, .crExits, .msrRdExits,
        .msrWrExits, .apicWrExits, .eptVioExits, .eptMisExits, .pauseExits]

/-- `vcpu_stat_stab`. -/
def vcpuStatStab (arch : Arch) : List FileItem :=
  FileItem.gf .uint .pid :: (exitColumns arch).map FileItem.gdf ++
    [FileItem.gdf .steal, FileItem.gf .ulong .stMax, FileItem.gdf .vcpuUtime,
      FileItem.gdf .vcpuStime, FileItem.gdf .gtime]

/-- The delta-carrying counters of `vcpu_stat_stab`. -/
def vcpuCounters (arch : Arch) : List Dfx := (vcpuStatStab arch).filterMap FileItem.deltaFun

/-! ### Reading the table -/

/-- The delimiters `" \t\r\n"` of a row. -/
def isBlank (c : Char) : Bool := c = ' ' || c = '\t' || c = '\r' || c = '\n'

/-- The loop of `get_vcpu_list` over the tokens of one line, with the column they
stand in: each token is scanned into the field its column names. -/
def fillRow : List FileItem → List Text → Task → Task
  | item :: stab, p :: ps, dom =>
      fillRow stab ps
        (item.getFun.elim dom fun slot => sscanf [.into item.format slot.store] p dom)
  | _, _, dom => dom

/-- The loop of `get_vcpu_list` over the lines of the file. -/
def getVcpuListLoop (arch : Arch) : List Text → VcpuList → VcpuList
  | [], list => list
  | buf :: rest, list =>
      if h : list.num < maxVcpuNum then
        let dom := list.rows ⟨list.num, h⟩
        getVcpuListLoop arch rest
          { rows := Function.update list.rows ⟨list.num, h⟩
              (fillRow (vcpuStatStab arch) (tokens isBlank (cstr buf)) dom)
            num := list.num + 1
            num_le := h }
      -- limit vcpu nums to MAX_VCPU_NUM
      else list

/-- `get_vcpu_list`: `file` is what the file holds, `none` when it cannot be opened;
then the result is `-1` and the list is left alone. -/
def getVcpuList (arch : Arch) (file : Option Text) (list : VcpuList) : ℤ × VcpuList :=
  match file with
  | none => (-1, list)
  | some s =>
      let list := getVcpuListLoop arch (chunks (bufSize - 2) s)
        { list with num := 0, num_le := Nat.zero_le _ }
      (list.num, list)

/-- The first row with a given pid. -/
def VcpuList.row (list : VcpuList) (pid : ℤ) : Option Task :=
  list.table.find? fun vcpu => vcpu.pid = pid

/-- `get_vcpu_stat`: copy every column but the first from the row of the thread,
`1` when there is one and `0` when not. -/
def getVcpuStat (arch : Arch) (dom : Task) (list : VcpuList) : ℤ × Task :=
  match list.row dom.pid with
  | none => (0, dom)
  | some vcpu =>
      (1, (vcpuStatStab arch).tail.foldl
        (fun dom item => item.getFun.elim dom fun slot => slot.copy dom vcpu) dom)

/-! ### The passes over the columns -/

/-- `DELTA_FUN(v)`. -/
def deltaName (v : Dfx) (new old : Task) : Task :=
  let d := if old.dfx v ≤ new.dfx v then new.dfx v - old.dfx v else old.delta v
  { new with delta := Function.update new.delta v d }

/-- `SUM_FUN(v)`. -/
def sumName (v : Dfx) (dom thread : Task) : Task :=
  { dom with delta := Function.update dom.delta v (dom.delta v + thread.delta v) }

/-- The pass of `refresh_delta_vcpu_stat` and of `refresh_delta_stat`, which differ in
the table they walk. -/
def deltaPass (stab : List FileItem) (new old : Task) : Task :=
  stab.foldl (fun new item => item.deltaFun.elim new fun v => deltaName v new old) new

/-- `refresh_delta_vcpu_stat`. -/
def refreshDeltaVcpuStat (arch : Arch) (new old : Task) : Task :=
  deltaPass (vcpuStatStab arch) new old

/-- `sum_vcpu_stat`. -/
def sumVcpuStat (arch : Arch) (dom thread : Task) : Task :=
  let dom := (vcpuStatStab arch).foldl
    (fun dom item => item.sumFun.elim dom fun v => sumName v dom thread) dom
  { dom with stMax := dom.stMax + thread.stMax }

end Vmtop
