/-
# The columns of the screen

`src/field.c`: the table `fields`, one column for every constant of `enum
fields_type`, with its title, its width and whether it is displayed, and
`get_show_field_num`.  The table differs between the two builds in the columns of
the exits.

What `print_domain_field` shows in a column is decided by the constant, and in the
columns of the exits, of the state, of the processor and of three of the times by the
getter that the table has for the constant.  `Fd` stands for both: a constructor for the
kind of column, with the counter that the getter of an exits column reads, or the node.
-/

import Vmtop.Type

namespace Vmtop

open CText

/-- `enum fields_type`: the columns of the exits carry the counter whose delta they
show, those of the nodes the node. -/
inductive Fd
  | did | vmname | pid | cpu
  | exit (v : Dfx)
  | state | p | st | gue | hyp | waitmax
  | node (i : Fin maxNodeNum)
  deriving DecidableEq, Repr

/-- `FID`: `displayFlag` is `FIELDS_DISPLAY` or `FIELDS_HIDDEN`. -/
structure Fid where
  name : Text
  displayFlag : Bool
  align : ℕ
  fd : Fd

/-- A column that is displayed at the start. -/
def Fid.display (name : String) (align : ℕ) (fd : Fd) : Fid := ⟨name.toList, true, align, fd⟩

/-- A column that is hidden at the start. -/
def Fid.hidden (name : String) (align : ℕ) (fd : Fd) : Fid := ⟨name.toList, false, align, fd⟩

/-- The columns of the exits. -/
def exitFields : Arch → List Fid
  | .aarch64 =>
      [.display "EXThvc" 10 (.exit .hvcExitStat),
        .display "EXTwfe" 10 (.exit .wfeExitStat),
        .display "EXTwfi" 10 (.exit .wfiExitStat),
        .display "EXTmmioU" 10 (.exit .mmioExitUser),
        .display "EXTmmioK" 10 (.exit .mmioExitKernel),
        .display "EXTfp" 10 (.exit .fpAsimdExitStat),
        .display "EXTirq" 10 (.exit .irqExitStat),
        .display "EXTsys64" 10 (.exit .sys64ExitStat),
        .display "EXTmabt" 10 (.exit .mabtExitStat),
        .display "EXTsum" 10 (.exit .exits),
        .hidden "EXTerr" 10 (.exit .internalErrorExitStat),
        .hidden "EXTukn" 10 (.exit .unknownEcExitStat),
        .hidden "EXTcp153" 10 (.exit .cp1532ExitStat),
        .hidden "EXTcp156" 10 (.exit .cp1564ExitStat),
        .hidden "EXT14m" 10 (.exit .cp14MrExitStat),
        .hidden "EXT14l" 10 (.exit .cp14LsExitStat),
        .hidden "EXT146" 10 (.exit .cp1464ExitStat),
        .hidden "EXTsmc" 10 (.exit .smcExitStat),
        .hidden "EXTsve" 10 (.exit .sveExitStat),
        .hidden "EXTdbg" 10 (.exit .debugExitStat),
        .hidden "EXTfail" 10 (.exit .failEntryExitStat)]
  | .other =>
      [.hidden "PFfix" 10 (.exit .pfFixed),
        .hidden "PFgu" 10 (.exit .pfGuest),
        .hidden "INvlpg" 10 (.exit .invlpg),
        .hidden "EXTio" 10 (.exit .ioExits),
        .hidden "EXTmmio" 10 (.exit .mmioExits),
        .display "EXTsum" 10 (.exit .exits),
        .hidden "EXThalt" 10 (.exit .haltExits),
        .hidden "EXTsig" 10 (.exit .signalExits),
        .hidden "EXTirq" 10 (.exit .irqExits),
        .hidden "EXTnmiW" 10 (.exit .nmiWindowExits),
        .hidden "EXTirqW" 10 (.exit .irqWindowExits),
        .hidden "IrqIn" 10 (.exit .irqInjections),
        .hidden "NmiIn" 10 (.exit .nmiInjections),
        .hidden "TLBfl" 10 (.exit .tlbFlush),
        .hidden "HostReL" 10 (.exit .hostStateReload),
        .hidden "Hyperv" 10 (.exit .hypercalls),
        .hidden "EXTcr" 10 (.exit .crExits),
        .hidden "EXTrmsr" 10 (.exit .msrRdExits),
        .hidden "EXTwmsr" 10 (.exit .msrWrExits),
        .hidden "EXTapic" 10 (.exit .apicWrExits),
        .display "EXTeptv" 10 (.exit .eptVioExits),
        .hidden "EXTeptm" 10 (.exit .eptMisExits),
        .display "EXTpau" 10 (.exit .pauseExits)]

/-- The columns in front of the nodes. -/
def taskFields (arch : Arch) : List Fid :=
  [.display "DID" 5 .did, .display "VM/task-name" 14 .vmname, .display "PID" 8 .pid,
      .display "%CPU" 8 .cpu] ++
    exitFields arch ++
    [.display "S" 5 .state, .display "P" 5 .p, .display "%ST" 8 .st, .display "%GUE" 8 .gue,
      .display "%HYP" 8 .hyp, .hidden "WAITmax" 9 .waitmax]

/-- `fields`. -/
def fields (arch : Arch) : List Fid :=
  taskFields arch ++
    List.ofFn fun i : Fin maxNodeNum => ⟨"Node".toList ++ decimal i, false, 10, .node i⟩

/-- `FD_NODE0`. -/
def fdNode0 (arch : Arch) : ℕ := (taskFields arch).length

/-- `get_show_field_num`. -/
def getShowFieldNum (fields : List Fid) : ℤ := fields.countP fun f => f.displayFlag

/-- The table has the columns that its enumeration has. -/
example : (fields .aarch64).length = 47 ∧ (fields .other).length = 49 := by decide +kernel

end Vmtop
