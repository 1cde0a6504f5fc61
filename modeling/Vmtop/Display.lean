/-
# The screen of vmtop

The functions of `src/vmtop.c` that draw, in terminal mode: `print_scr` is `printw`, and the
calls that `Screen` leaves out are made here, in the order of the source.  They are calls on a
`Window`, the one that `initscr` sets up, of which only what its manual promises is known.

`refresh` and `fflush` draw nothing, and the key and the timeout of `getch` are those of `Screen`.
-/

import Vmtop.Lib.Window
import Vmtop.Lib.Run
import Vmtop.Screen

namespace Vmtop
namespace Display

open CText CArray Windows

variable {rows cols : ℕ} (w : Window rows cols)

/-! ### The frame -/

/-- `summary_text`. -/
def summaryText (timeBuf : Text) (num : ℕ) : Text :=
  "vmtop - ".toList ++ timeBuf ++ " - ".toList ++ packageVersion ++
    "\nDomains: ".toList ++ decimal num ++ " running\n".toList

/-- `summary_total_bandwidth`. -/
def summaryTotalBandwidth (hosttotal : Long) : Text :=
  "MiB MBM:    ".toList ++ decimalInt hosttotal.toInt ++ " hosttotal\n".toList

/-- `summary`. -/
def summary (g : Globals) (tm : Option Tm) (s : w.State) : Except Fault w.State := do
  let timeBuf := (getTimeStr tm).getD "err to get time".toList
  let s := w.addstr (summaryText timeBuf g.lists.now.num) s
  if g.resctrlEnable then
    let nodes ← bandwidths g
    let s := w.addstr (summaryTotalBandwidth nodes.sum) s
    .ok (nodes.zipIdx.foldl (fun s node => w.addstr (numaLine node.2 node.1) s) s)
  else .ok s

/-- `show_header`, once the flags of the nodes are set. -/
def showHeader (g : Globals) (s : w.State) : w.State :=
  let s := w.attr true s
  let s := (columns g).foldl (fun s f => w.addstr (pad f.align f.name) s) s
  let s := w.attr false s
  w.addstr ['\n'] s

/-- `show_task`, for a task that it displays. -/
def showTask (g : Globals) (clkTck : ℕ) (s : w.State) (task : Task) : w.State :=
  let s := w.clrtoeol s
  let s := (columns g).foldl
    (fun s f => w.addstr (printDomainField g.scrMode clkTck g.delayTime task f) s) s
  w.addstr ['\n'] s

/-- `show_domains`. -/
def showDomains (g : Globals) (clkTck : ℕ) (s : w.State) : w.State :=
  w.clrtobot ((shownTasks g (walked g) 0).foldl (showTask w g clkTck) s)

/-- A frame, from the `move` at the begin of the turn on. -/
def drawFrame (g : Globals) (tm : Option Tm) (clkTck : ℕ) (s : w.State) :
    Except Fault (Globals × w.State) := do
  let s := (w.move 0 0 s).1
  let s ← summary w g tm s
  let s := w.addstr ['\n'] s
  let fields ← setNodeFlags g
  let g := { g with fields := fields }
  .ok (g, showDomains w g clkTck (showHeader w g s))

/-- A turn up to the key, in terminal mode. -/
def frame (input : FrameInput) (g : Globals) (s : w.State) : Except Fault (Globals × w.State) := do
  let g ← beginFrame g input
  drawFrame w g input.tm input.clkTck s

/-! ### The field filter -/

/-- `filter_help`. -/
def filterHelp : Text :=
  "field filter - select which field to be showed\n".toList ++
    "Use up/down to navigate, use space to set whether chosen filed to be showed\n".toList ++
    "'q' to quit to normal display\n".toList

/-- The loop of `print_field`, from the `i`-th field on, with `y_local` and the place that
comes next. -/
def printFields (scrRowSize : ℤ) (yLocal highLight : ℕ) :
    List Fid → ℕ → ℕ → ℕ → w.State → w.State
  | [], _, _, _, s => s
  | f :: rest, i, y, x, s =>
      let (y, x) := if scrRowSize ≤ y then (yLocal, x + 20) else (y, x)
      let s := w.mvaddstr y (x - 2) (if f.displayFlag then ['*'] else [' ']) s
      let s := if i = highLight then w.attr true s else s
      let s := w.mvaddstr y x f.name s
      let s := if i = highLight then w.attr false s else s
      printFields scrRowSize yLocal highLight rest (i + 1) (y + 1) x s

/-- `print_field`. -/
def printField (scrRowSize : ℤ) (fields : List Fid) (highLight : ℕ) (s : w.State) : w.State :=
  let (yLocal, xLocal) := (w.view s).cursor
  printFields w scrRowSize yLocal highLight fields 0 yLocal (xLocal + 3) s

/-- The field filter between two keys: the field that is chosen, the fields with their flags, and
the screen. -/
structure Filter where
  highLight : ℕ
  fields : List Fid
  screen : w.State

/-- What the loop of `show_filter` draws before it waits for a key. -/
def Filter.draw (scrRowSize : ℤ) (f : Filter w) : w.State :=
  let s := w.mvaddstr 0 0 filterHelp f.screen
  let s := w.addstr ['\n'] s
  printField w scrRowSize f.fields f.highLight s

/-- The body of the loop of `show_filter`; the key `q` leaves it. -/
def Filter.step (scrRowSize : ℤ) (press : Option KeyPress) (f : Filter w) :
    Except (Filter w) (Filter w) :=
  let f := { f with screen := f.draw w scrRowSize }
  match press.map KeyPress.key with
  | some .up =>
      .ok { f with highLight := if f.highLight = 0 then f.fields.length - 1 else f.highLight - 1 }
  | some .down =>
      .ok { f with
        highLight := if f.fields.length ≤ f.highLight + 1 then 0 else f.highLight + 1 }
  | some (.char ' ') =>
      .ok { f with
        fields := f.fields.modify f.highLight fun f => { f with displayFlag := !f.displayFlag } }
  | some (.char 'q') => .error f
  | _ => .ok f

/-- `show_filter` clears the screen first. -/
def Filter.start (fields : List Fid) (s : w.State) : Filter w := ⟨0, fields, w.clear s⟩

end Display
end Vmtop
