/-
# The frames of vmtop

`src/vmtop.c`: the globals and their start values, the command line, what a frame
shows (`summary`, `show_header`, `show_domains`), what a key does (`parse_keys`, and
the field filter behind the key `f`), and the main loop.

What a frame prints is one text.  The calls that move the cursor or set attributes
print nothing and are left out.  A `double` and a `float` have the precision of their types in
every step, as on the machines whose arithmetic has no wider one.

A run is driven by one `FrameInput` for every turn: what the refresh finds, the size
of the terminal, and what `getch` returns and when.  `getch` waits for the delay
time and returns `ERR`, or returns a key at some part of that time.
-/

import Vmtop.Field
import Vmtop.Frame
import Vmtop.Lib.Printf

namespace Vmtop

open CText CArray

/-! ### Globals -/

/-- `scr_mode`. -/
inductive ScrMode
  | term | text
  deriving DecidableEq

/-- The global variables of `vmtop.c`, and the build. -/
structure Globals where
  arch : Arch
  lists : Lists
  fields : List Fid
  delayTime : ℤ
  quitFlag : Bool
  scrRowSize : ℤ
  scrColSize : ℤ
  beginTask : ℤ
  beginField : ℤ
  threadMode : Bool
  displayLoop : ℤ
  scrMode : ScrMode
  monitorId : ℤ
  resctrlParamEnable : Bool
  resctrlEnable : Bool

/-- `init_parameter`, over the initial values of the other globals. -/
def initParameter (arch : Arch) (rows : Arr maxVcpuNum Task) : Globals where
  arch := arch
  lists := .start rows
  fields := fields arch
  delayTime := 3
  quitFlag := false
  scrRowSize := 2048
  scrColSize := 1024
  beginTask := 1
  beginField := 1
  threadMode := false
  displayLoop := -1
  scrMode := .term
  monitorId := -1
  resctrlParamEnable := false
  resctrlEnable := false

/-- What `getopt` returns, with its argument. -/
inductive Opt
  | d (optarg : Text)
  | threads
  | h
  | v
  | n (optarg : Text)
  | b
  | p (optarg : Text)
  | G
  | unknown

/-- `parse_args`: the globals, or the status it exits with. -/
def parseArgs : List Opt → Globals → Except ℤ Globals
  | [], g => .ok g
  | .d optarg :: opts, g =>
      let delayTime := strToInt optarg
      if delayTime < 0 then .error 1 else parseArgs opts { g with delayTime := delayTime }
  | .threads :: opts, g => parseArgs opts { g with threadMode := true }
  | .h :: _, _ => .error 0
  | .v :: _, _ => .error 0
  | .n optarg :: opts, g =>
      let displayLoop := strToInt optarg
      if displayLoop < 0 then .error 1 else parseArgs opts { g with displayLoop := displayLoop }
  | .b :: opts, g => parseArgs opts { g with scrMode := .text }
  | .p optarg :: opts, g =>
      let monitorId := strToInt optarg
      if monitorId < 0 then .error 1 else parseArgs opts { g with monitorId := monitorId }
  | .G :: opts, g => parseArgs opts { g with resctrlParamEnable := true }
  | .unknown :: _, _ => .error 1

/-! ### What a frame shows -/

/-- `PACKAGE_VERSION`. -/
def packageVersion : Text := "1.1".toList

/-- The loop of `summary` over the bandwidths of the nodes. -/
def bandwidths (g : Globals) : Except Fault (List Long) :=
  (List.range g.lists.now.nodeNum.toNat).mapM fun i => load g.lists.now.bandwidth i

/-- `summary_numa_bandwidth` for the node `i`. -/
def numaLine (i : ℕ) (bandwidth : Long) : Text :=
  "Node".toList ++ decimal i ++ ":    ".toList ++ decimalInt bandwidth.toInt ++ " mbmtotal\n".toList

/-- The part of `summary` for the bandwidth. -/
def bandwidthText (nodes : List Long) : Text :=
  "MiB MBM:    ".toList ++ decimalInt nodes.sum.toInt ++ " hosttotal\n".toList ++
    (nodes.zipIdx.flatMap fun node => numaLine node.2 node.1)

/-- `summary`. -/
def summary (g : Globals) (tm : Option Tm) : Except Fault Text := do
  let timeBuf := (getTimeStr tm).getD "err to get time".toList
  let head := "vmtop - ".toList ++ timeBuf ++ " - ".toList ++ packageVersion ++
    "\nDomains: ".toList ++ decimal g.lists.now.num ++ " running\n".toList
  if g.resctrlEnable then
    let nodes ← bandwidths g
    .ok (head ++ bandwidthText nodes)
  else .ok head

/-- The loop of `show_header` over the columns of the nodes. -/
def setNodeFlags (g : Globals) : Except Fault (List Fid) :=
  (List.range g.lists.now.nodeNum.toNat).foldlM
    (fun fields i =>
      let k := fdNode0 g.arch + i
      if k < fields.length then
        .ok (fields.modify k fun f => { f with displayFlag := g.resctrlEnable })
      else .error (.outOfBounds k fields.length))
    g.fields

/-- The columns that `show_header` and `show_task` come to print: `did` and `vmname` are
always among them, the others from `begin_field` on, as far as the screen is wide. -/
def shownFields (scrColSize beginField : ℤ) : List Fid → ℤ → ℤ → List Fid
  | [], _, _ => []
  | f :: rest, showdWidth, showdField =>
      if f.displayFlag then
        if f.fd = .did ∨ f.fd = .vmname then
          if scrColSize ≤ showdWidth + f.align then []
          else f :: shownFields scrColSize beginField rest (showdWidth + f.align) showdField
        else if beginField ≤ showdField + 1 then
          if scrColSize ≤ showdWidth + f.align then []
          else f :: shownFields scrColSize beginField rest (showdWidth + f.align) (showdField + 1)
        else shownFields scrColSize beginField rest showdWidth (showdField + 1)
      else shownFields scrColSize beginField rest showdWidth showdField

/-- The columns of the present frame. -/
def columns (g : Globals) : List Fid := shownFields g.scrColSize g.beginField g.fields 0 0

/-- `show_header`, once the flags of the nodes are set. -/
def showHeader (g : Globals) : Text :=
  ((columns g).flatMap fun f => pad f.align f.name) ++ ['\n']

/-- `justify_usage`. -/
def justifyUsage (usage : Double) (dom : Task) : Double :=
  let most : ℚ := 100 * dom.smpVcpus
  match usage with
  | .num q => .num (if most ≤ q then most else q)
  | .inf => .num most
  | .nan => .nan

/-- A counter that grew by `n` of `unit` a second, over `delayTime` seconds, in percent; `round` is
what becomes of the result of an operation. -/
def usagePercent (round : ℚ → ℚ) (n : U64) (unit delayTime : ℚ) : Double :=
  ((Double.num (round (round n.toNat * 100))).div round (round unit)).div round delayTime

/-- The percentages of `print_domain_field`, with the counter they are made of and its
unit; `clkTck` is `sysconf(_SC_CLK_TCK)`. -/
def rate (clkTck : ℕ) (dom : Task) : Fd → Option (U64 × ℚ)
  | .cpu => some (dom.delta .utime + dom.delta .stime, clkTck)
  | .st => some (dom.delta .steal, 10 ^ 9)
  | .gue => some (dom.delta .gtime, 10 ^ 9)
  | .hyp => some (dom.delta .vcpuUtime - dom.delta .gtime + dom.delta .vcpuStime, 10 ^ 9)
  | _ => none

/-- `print_domain_field` without its padding. -/
def cell (clkTck : ℕ) (delayTime : ℤ) (dom : Task) (f : Fid) : Text :=
  match f.fd with
  | .vmname => (cstr dom.vmname).take (f.align - 2)
  | .did => if dom.type = .isDomain then decimalInt dom.domainId else "|_".toList
  | .pid => printU dom.pid
  | .exit v => decimal (dom.delta v).toNat
  | .state => [dom.state]
  | .p => decimalInt dom.processor
  | .waitmax => fixed 3 (toFloat (toFloat dom.stMax.toNat / 10 ^ 6))
  | .node i => decimalInt (if dom.bandwidthUpdatedSucc then (dom.ctlBandwidth i).toInt else 0)
  | fd =>
      match rate clkTck dom fd with
      | some (n, unit) => printDouble 1 (justifyUsage (usagePercent toDouble n unit delayTime) dom)
      | none => []

/-- What `print_scr` writes of a formatted text: `printw` takes it for a string, which a NUL
ends, and `printf` does not. -/
def printScr (scrMode : ScrMode) (s : Text) : Text :=
  match scrMode with
  | .term => cstr s
  | .text => s

/-- `print_domain_field`. -/
def printDomainField (scrMode : ScrMode) (clkTck : ℕ) (delayTime : ℤ) (dom : Task) (f : Fid) :
    Text :=
  printScr scrMode (pad f.align (cell clkTck delayTime dom f))

/-- The row of a task that `show_task` displays. -/
def taskRow (g : Globals) (clkTck : ℕ) (task : Task) : Text :=
  ((columns g).flatMap (printDomainField g.scrMode clkTck g.delayTime task)) ++ ['\n']

/-- The tasks that `show_domains` walks: the domains, each followed by its threads in
thread mode. -/
def walked (g : Globals) : List Task :=
  g.lists.now.domains.flatMap fun d => d.toTask :: if g.threadMode then d.lwps else []

/-- The condition of `show_task` on the number of a task. -/
def isShown (g : Globals) (showdTask : ℤ) : Bool :=
  !(showdTask < g.beginTask || g.scrRowSize - 5 < showdTask - g.beginTask)

/-- The tasks that `show_task` displays, of those from number `showdTask + 1` on. -/
def shownTasks (g : Globals) : List Task → ℤ → List Task
  | [], _ => []
  | task :: rest, showdTask =>
      if isShown g (showdTask + 1) then task :: shownTasks g rest (showdTask + 1)
      else shownTasks g rest (showdTask + 1)

/-- `show_domains`. -/
def showDomains (g : Globals) (clkTck : ℕ) : Text :=
  (shownTasks g (walked g) 0).flatMap (taskRow g clkTck)

/-- A frame: the globals, in which `show_header` sets the flags of the nodes, and what
is printed. -/
def drawFrame (g : Globals) (tm : Option Tm) (clkTck : ℕ) : Except Fault (Globals × Text) := do
  let head ← summary g tm
  let fields ← setNodeFlags g
  let g := { g with fields := fields }
  .ok (g, head ++ ['\n'] ++ showHeader g ++ showDomains g clkTck)

/-! ### Keys -/

/-- The keys that `getch` tells apart. -/
inductive Key
  | char (c : Char)
  | up | down | left | right | npage | ppage
  | other
  deriving DecidableEq

/-- A key and the part of the delay time that had passed when `getch` returned it. -/
structure KeyPress where
  key : Key
  part : ℚ
  part_nonneg : 0 ≤ part
  part_le : part ≤ 1

/-- The seconds that `getch` waits; without a key it returns `ERR` after the whole delay
time. -/
def waited (delayTime : ℤ) (press : Option KeyPress) : ℚ :=
  press.elim delayTime fun k => k.part * delayTime

/-- `show_filter`, with what each of its `getch` returns: the columns when it is quit, and
the seconds until then; `none` when it is not. -/
def showFilter (delayTime : ℤ) : List (Option KeyPress) → ℕ → List Fid → Option (List Fid × ℚ)
  | [], _, _ => none
  | press :: rest, highLight, fields =>
      let next (highLight : ℕ) (fields : List Fid) :=
        (showFilter delayTime rest highLight fields).map fun r =>
          (r.1, waited delayTime press + r.2)
      match press.map KeyPress.key with
      | some .up => next (if highLight = 0 then fields.length - 1 else highLight - 1) fields
      | some .down => next (if fields.length ≤ highLight + 1 then 0 else highLight + 1) fields
      | some (.char ' ') =>
          next highLight (fields.modify highLight fun f => { f with displayFlag := !f.displayFlag })
      | some (.char 'q') => some (fields, waited delayTime press)
      | _ => next highLight fields

/-- The branch of `parse_keys` that `KEY_NPAGE` falls through to. -/
def scrollForward (scrollSize : ℤ) (g : Globals) : Globals :=
  let taskNum := if g.threadMode then getTaskNum g.lists.now else g.lists.now.num
  let beginTask := g.beginTask + scrollSize
  { g with beginTask := if taskNum < beginTask then taskNum else beginTask }

/-- The branch of `parse_keys` that `KEY_PPAGE` falls through to. -/
def scrollBack (scrollSize : ℤ) (g : Globals) : Globals :=
  let beginTask := g.beginTask - scrollSize
  { g with beginTask := if beginTask < 1 then 1 else beginTask }

/-- `parse_keys`, with what the field filter sees; the seconds are those that the filter
stays open. -/
def parseKeys (filter : List (Option KeyPress)) (key : Key) (g : Globals) :
    Option (Globals × ℚ) :=
  match key with
  | .char 'f' =>
      (showFilter g.delayTime filter 0 g.fields).map fun r => ({ g with fields := r.1 }, r.2)
  | .char 'q' => some ({ g with quitFlag := !g.quitFlag }, 0)
  | .npage => some (scrollForward (g.scrRowSize - 6) g, 0)
  | .up => some (scrollForward 1 g, 0)
  | .ppage => some (scrollBack (g.scrRowSize - 6) g, 0)
  | .down => some (scrollBack 1 g, 0)
  | .left =>
      let beginField := g.beginField - 1
      some ({ g with beginField := if beginField < 1 then 1 else beginField }, 0)
  | .right =>
      let fieldNum := getShowFieldNum g.fields
      let beginField := g.beginField + 1
      some ({ g with beginField := if fieldNum ≤ beginField then fieldNum - 1 else beginField }, 0)
  | .char 'H' => some ({ g with threadMode := !g.threadMode, beginTask := 1 }, 0)
  | _ => some (g, 0)

/-! ### The main loop -/

/-- What one turn of the main loop meets. -/
structure FrameInput where
  env : FrameEnv
  rows : ℤ
  cols : ℤ
  tm : Option Tm
  clkTck : ℕ
  press : Option KeyPress
  filter : List (Option KeyPress)
  deriving Inhabited

/-- The options that concern the lists. -/
def Globals.config (g : Globals) : Config := ⟨g.arch, g.monitorId, g.resctrlParamEnable⟩

/-- A turn up to the drawing: the size of the terminal, and the snapshot. -/
def beginFrame (g : Globals) (input : FrameInput) : Except Fault Globals := do
  let g := match g.scrMode with
    | .term => { g with scrRowSize := input.rows, scrColSize := input.cols }
    | .text => g
  let lists ← sampleFrame g.config input.env g.lists
  .ok { g with lists := lists, resctrlEnable := resctrlEnable g.config input.env }

/-- The key of a turn; text mode sleeps for the delay time instead. -/
def pressed (g : Globals) (input : FrameInput) : Option KeyPress :=
  match g.scrMode with
  | .term => input.press
  | .text => none

/-- A turn behind the drawing: the key, and the count of turns; with the seconds this
takes. -/
def endFrame (g : Globals) (input : FrameInput) : Option (Globals × ℚ) :=
  let keyed := match pressed g input with
    | none => some (g, 0)
    | some press => parseKeys input.filter press.key g
  keyed.map fun (keyed, more) =>
    ({ keyed with
        displayLoop := if 0 < keyed.displayLoop then keyed.displayLoop - 1 else keyed.displayLoop },
      waited g.delayTime (pressed g input) + more)

/-- Why the main loop takes no further turn: it has ended, a turn faults, or the field
filter is still open. -/
inductive Halt
  | ended
  | fault (e : Fault)
  | filtering

/-- The state of the main loop: whether it has ended. -/
structure Main where
  g : Globals
  ended : Bool

/-- One turn of the main loop: the globals that `show_domains` sees, what is printed, the
seconds from the snapshot to the next one, and the state behind the turn. -/
structure Turn where
  frame : Globals
  screen : Text
  seconds : ℚ
  next : Main

/-- The body of the main loop. -/
def turn (input : FrameInput) (m : Main) : Except Halt Turn :=
  if m.ended then .error .ended
  else
    match beginFrame m.g input with
    | .error e => .error (.fault e)
    | .ok g =>
        match drawFrame g input.tm input.clkTck with
        | .error e => .error (.fault e)
        | .ok (frame, screen) =>
            match endFrame frame input with
            | none => .error .filtering
            | some (g, seconds) =>
                .ok ⟨frame, screen, seconds, ⟨g, g.quitFlag || g.displayLoop = 0⟩⟩

/-- One turn of the main loop, for the state it leads to. -/
def mainStep (input : FrameInput) (m : Main) : Except Halt Main := (turn input m).map Turn.next

end Vmtop
