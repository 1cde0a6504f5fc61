/-
# The snapshot of a frame

What `main` of `src/vmtop.c` does in every turn before it draws: a refresh of the
lists, and, where resctrl is mounted and asked for, a sampling of the bandwidth.
Nothing of the screen or of the keys reaches this part, so the lists of a run of
vmtop are those of a run of `sampleFrame`.
-/

import Vmtop.Bandwidth

namespace Vmtop

open CArray

/-- What stays the same in a run: the build, and the options that concern the lists. -/
structure Config where
  arch : Arch
  monitorId : ℤ
  resctrlParamEnable : Bool

/-- What one turn of the main loop finds. -/
structure FrameEnv where
  refresh : Env
  /-- The result of `enable_resctrl`: whether `/sys/fs/resctrl/mon_groups` exists. -/
  enableResctrl : Bool
  bandwidth : BandwidthEnv
  deriving Inhabited

/-- `resctrl_enable = enable_resctrl() && resctrl_param_enable`. -/
def resctrlEnable (c : Config) (env : FrameEnv) : Bool :=
  env.enableResctrl && c.resctrlParamEnable

/-- The part of the main loop before the frame is made. -/
def sampleFrame (c : Config) (env : FrameEnv) (s : Lists) : Except Fault Lists := do
  let (_, s) ← refreshDomains c.arch c.monitorId env.refresh s
  if resctrlEnable c env then
    let now ← refreshDomainsBandwidth env.bandwidth s.now
    .ok { s with now := now }
  else .ok s

end Vmtop
