/-
# The records of vmtop

`struct domain` and `struct domain_list` of `src/type.h`.

A `struct domain` stands for a virtual machine, for one thread of it, and for a
row of the kernel's `vcpu_stat` table.  Only a virtual machine has a `threads`
array; in its threads and in the rows that pointer stays `NULL`.  So the record
is split: `Task` is `struct domain` without the array, `Domain` adds it.

The fields that come as a pair `v`, `delta_v` (the macro `DFX_VALUE`) are named by
`Dfx`, and a task holds them as two functions on `Dfx`.  The counters of
`vcpu_stat` depend on the architecture vmtop is compiled for; `Dfx` has those of
both, and `Arch` says which build a function belongs to.  A field of the other
build is written by nothing.
-/

import Vmtop.Lib.CArray
import Vmtop.Lib.CText

namespace Vmtop

open CText CArray

/-- `typedef unsigned long long u64`. -/
abbrev U64 := UInt64

/-- `long`: a sum that leaves its range wraps around. -/
abbrev Long := Int64

/-- `MAX_VCPU_NUM`: the rows kept of the `vcpu_stat` table. -/
def maxVcpuNum : ℕ := 1024

/-- `MAX_NODE_NUM`: the NUMA nodes bandwidth is kept for. -/
def maxNodeNum : ℕ := 16

/-- `DOMAIN_NAME_MAX`: the size of `vmname`. -/
def domainNameMax : ℕ := 256

/-- `BUF_SIZE`: the size of the buffers files are read into. -/
def bufSize : ℕ := 1024

/-- The build: whether `__aarch64__` is defined. -/
inductive Arch
  | aarch64 | other
  deriving DecidableEq, Repr

/-- The fields `v` of `struct domain` that have a twin `delta_v`. -/
inductive Dfx
  | utime | stime
  -- the exits counted on aarch64
  | hvcExitStat | wfeExitStat | wfiExitStat | mmioExitUser | mmioExitKernel
  | fpAsimdExitStat | irqExitStat | sys64ExitStat | mabtExitStat | failEntryExitStat
  | internalErrorExitStat | unknownEcExitStat | cp1532ExitStat | cp1564ExitStat
  | cp14MrExitStat | cp14LsExitStat | cp1464ExitStat | smcExitStat | sveExitStat
  | debugExitStat
  -- the exits counted on both
  | signalExits | exits
  -- the exits counted elsewhere
  | pfFixed | pfGuest | tlbFlush | invlpg | ioExits | mmioExits | irqWindowExits
  | nmiWindowExits | haltExits | haltSuccessfulPoll | haltAttemptedPoll | haltWakeup
  | requestIrqExits | irqExits | hostStateReload | fpuReload | insnEmulation
  | insnEmulationFail | hypercalls | irqInjections | nmiInjections | crExits | msrRdExits
  | msrWrExits | apicWrExits | eptVioExits | eptMisExits | pauseExits
  -- the times of a vCPU
  | steal | vcpuUtime | vcpuStime | gtime
  deriving DecidableEq, Repr

/-- `enum process_type`; a cleared record is `ISDOMAIN`. -/
inductive ProcessType
  | isDomain | isVcpu | isThread | isEnd
  deriving DecidableEq, Repr

/-- `struct domain` without its `threads`.  `dfx v` is the field `v`, `delta v` the
field `delta_v`. -/
structure Task where
  type : ProcessType
  domainId : ℤ
  vmname : Text
  pid : ℤ
  state : Char
  ppid : ℤ
  pgrd : ℤ
  nlwp : ℤ
  processor : ℤ
  alarm : ℤ
  rss : ℤ
  flags : U64
  minFlt : U64
  cminFlt : U64
  majFlt : U64
  cmajFlt : U64
  vsize : U64
  rssRlim : U64
  cutime : U64
  cstime : U64
  startTime : U64
  dfx : Dfx → U64
  delta : Dfx → U64
  stMax : U64
  smpVcpus : ℤ
  bandwidthUpdatedSucc : Bool
  ctlBandwidth : Arr maxNodeNum Long

/-- A record of zero bytes, as `memset` leaves it. -/
def Task.zero : Task where
  type := .isDomain
  domainId := 0
  vmname := []
  pid := 0
  state := nul
  ppid := 0
  pgrd := 0
  nlwp := 0
  processor := 0
  alarm := 0
  rss := 0
  flags := 0
  minFlt := 0
  cminFlt := 0
  majFlt := 0
  cmajFlt := 0
  vsize := 0
  rssRlim := 0
  cutime := 0
  cstime := 0
  startTime := 0
  dfx := fun _ => 0
  delta := fun _ => 0
  stMax := 0
  smpVcpus := 0
  bandwidthUpdatedSucc := false
  ctlBandwidth := fun _ => 0

/-- `struct domain` of a virtual machine: `threads` is the array it points to, empty
for `NULL`. -/
structure Domain extends Task where
  threads : List Task

/-- A domain record of zero bytes. -/
def Domain.zero : Domain := { Task.zero with threads := [] }

/-- The entries `threads[0..nlwp)` that every loop over the threads walks. -/
def Domain.lwps (d : Domain) : List Task := d.threads.take d.nlwp.toNat

/-- `struct domain_list`.  `domains` are the entries `domains[0..num)` of its array.
`popped` are the entries of the same array past `num`, which a record dropped
from the list leaves there. -/
structure DomainList where
  domains : List Domain
  popped : List Domain
  nodeNum : ℤ
  bandwidth : Arr maxNodeNum Long

/-- `num`. -/
def DomainList.num (l : DomainList) : ℕ := l.domains.length

/-- The `vcpu_list` table: an array of `MAX_VCPU_NUM` rows, of which the first `num`
are in use.  Nothing clears the array, so a row may hold anything. -/
structure VcpuList where
  rows : Arr maxVcpuNum Task
  num : ℕ
  num_le : num ≤ maxVcpuNum

/-- The rows in use. -/
def VcpuList.table (l : VcpuList) : List Task :=
  List.ofFn fun i : Fin l.num => l.rows (i.castLE l.num_le)

/-- The name and type of a directory entry, `struct dirent`. -/
inductive DType
  | dir | reg | other
  deriving DecidableEq, Repr

/-- `struct dirent`. -/
structure Dirent where
  name : Text
  type : DType

end Vmtop
