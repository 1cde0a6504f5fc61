/-
# What text mode prints of the machines of a host

A run in text mode that is not asked for the bandwidth prints its host and nothing else.  The
columns, the height and the place where the display begins never change, so every frame is a
function of the history of the machines, of the clock and of the options (`hostScreen`): how
the files spell what they show, what the table held before and what `malloc` left there is not
seen in it (`text_reports`).
-/

import Vmtop.History.Machines
import Vmtop.Terminal.TextMode

namespace Vmtop

open CText CArray Runs

variable {input : FrameInput} {m : Main} {t : Turn} {g g₀ : Globals} {ms : List Machine}
  {past : List (List Machine)}

/-! ### The frame of a history -/

/-- The tasks that a history leaves: every machine, in thread mode with all its threads behind
it. -/
def hostTasks (g : Globals) (past : List (List Machine)) : List Task :=
  (reported g.arch past).flatMap fun d => d.toTask :: if g.threadMode then d.threads else []

/-- The two lines above the columns: the time, and the number of machines. -/
def hostSummary (num : ℕ) (tm : Option Tm) : Text :=
  "vmtop - ".toList ++ (getTimeStr tm).getD "err to get time".toList ++ " - ".toList ++
    packageVersion ++ "\nDomains: ".toList ++ decimal num ++ " running\n".toList

/-- What text mode prints of a history: the summary, the titles of the columns, and a row for
each task as far as there is room. -/
def hostScreen (g : Globals) (past : List (List Machine)) (tm : Option Tm) (clkTck : ℕ) : Text :=
  hostSummary (reported g.arch past).length tm ++ ['\n'] ++ showHeader g ++
    ((hostTasks g past).take 2044).flatMap (taskRow g clkTck)

/-! ### One turn -/

/-- The globals `g₀` of the start, with what a history makes of the lists. -/
structure Hosted (g₀ : Globals) (past : List (List Machine)) (g : Globals) : Prop where
  globals : g = { g₀ with lists := g.lists, displayLoop := g.displayLoop }
  domains : g.lists.now.domains = reported g₀.arch past
  nodeNum : g.lists.now.nodeNum = 0

/-- Text mode, without the bandwidth. -/
structure Plain (g : Globals) : Prop where
  window : TextWindow g
  resctrlParamEnable : g.resctrlParamEnable = false
  resctrlEnable : g.resctrlEnable = false

/-- A turn begins with the frame of the longer history. -/
theorem beginFrame_hosted (hplain : Plain g₀) (h : Hosted g₀ past g)
    (hshown : ShowsHost g₀.arch ms input.env.refresh) {g' : Globals}
    (hbegin : beginFrame g input = .ok g') : Hosted g₀ (watched g₀.monitorId ms :: past) g' := by
  have hmode : g.scrMode = .text := by rw [h.globals, hplain.window.scrMode]
  have hconfig : g.config = ⟨g₀.arch, g₀.monitorId, false⟩ := by
    rw [h.globals, Globals.config, hplain.resctrlParamEnable]
  have hoff : resctrlEnable g.config input.env = false := by
    rw [hconfig, resctrlEnable, Bool.and_false]
  have hs : SameSamples (reported g₀.arch past) g.lists.now.domains := by
    rw [h.domains]
    exact List.forall₂_same.2 fun _ _ => rfl
  obtain ⟨r, s', hrefresh, hdomains, hnode⟩ := refreshDomains_reported hshown g₀.monitorId hs
  have hsample : sampleFrame g.config input.env g.lists = .ok s' := by
    rw [sampleFrame, hoff, hconfig, hrefresh, ok_bind]
    rfl
  unfold beginFrame at hbegin
  rw [hmode] at hbegin
  dsimp only at hbegin
  rw [hsample, ok_bind, hoff] at hbegin
  cases hbegin
  refine ⟨?_, hdomains, hnode.trans h.nodeNum⟩
  rw [h.globals, hplain.resctrlEnable]

/-- Drawing it leaves it, and so does the rest of the turn. -/
theorem turn_hosted (hplain : Plain g₀) (h : Hosted g₀ past m.g)
    (hshown : ShowsHost g₀.arch ms input.env.refresh) (ht : turn input m = .ok t) :
    Hosted g₀ (watched g₀.monitorId ms :: past) t.frame ∧
      Hosted g₀ (watched g₀.monitorId ms :: past) t.next.g := by
  obtain ⟨g, hbegin, hfields, hdrawn⟩ := turn_drawn ht
  have hg := beginFrame_hosted hplain h hshown hbegin
  have hframe : t.frame = g := by
    have hrange : (List.range g.lists.now.nodeNum.toNat) = [] := by rw [hg.nodeNum]; rfl
    rw [setNodeFlags, hrange] at hfields
    rw [hdrawn, ← Except.ok.inj hfields]
  have hended := (turn_turned ht).ended
  rw [hframe] at hended ⊢
  have hnone : pressed g input = none := by
    rw [pressed, hg.globals, hplain.window.scrMode]
  simp only [endFrame, hnone, Option.map_some, Option.some.injEq, Prod.mk.injEq] at hended
  rw [← hended.1]
  refine ⟨hg, ?_, hg.domains, hg.nodeNum⟩
  dsimp only
  rw [hg.globals]

/-- **The frame is that of the history.** -/
theorem Hosted.screen (hplain : Plain g₀) (h : Hosted g₀ past t.frame) (ht : Turned input m t) :
    t.screen = hostScreen g₀ past input.tm input.clkTck := by
  obtain ⟨head, hsummary, hscreen⟩ := ht.screen
  have hoff : t.frame.resctrlEnable = false := by rw [h.globals, hplain.resctrlEnable]
  have hhead : head = hostSummary (reported g₀.arch past).length input.tm := by
    rw [summary, hoff, if_neg Bool.false_ne_true, DomainList.num, h.domains] at hsummary
    exact (Except.ok.inj hsummary).symm
  have hcolumns : columns t.frame = columns g₀ := by rw [columns, columns, h.globals]
  have hheader : showHeader t.frame = showHeader g₀ := by rw [showHeader, showHeader, hcolumns]
  have hrow : taskRow t.frame input.clkTck = taskRow g₀ input.clkTck := by
    funext task
    rw [taskRow, taskRow, hcolumns, h.globals]
  have hbegin : t.frame.beginTask = 1 := by rw [h.globals, hplain.window.beginTask]
  have hrows : t.frame.scrRowSize = 2048 := by rw [h.globals, hplain.window.scrRowSize]
  have hthreads : t.frame.threadMode = g₀.threadMode := by rw [h.globals]
  have htasks : walked t.frame = hostTasks g₀ past := by
    rw [ht.walked_eq, allTasks, h.domains, hthreads, hostTasks]
  -- the window of text mode begins at the first task and has room for 2044
  have hshown : shownTasks t.frame (walked t.frame) 0 = (hostTasks g₀ past).take 2044 := by
    have hdrop : ((1 : ℤ) - 1 - 0).toNat = 0 := by decide
    have htake : ((2048 : ℤ) - 4 - max (0 + 1 - 1) 0).toNat = 2044 := by decide
    rw [htasks, shownTasks_eq, hbegin, hrows, hdrop, htake, List.drop_zero]
  rw [hostScreen, hscreen, hhead, hheader, showDomains, hshown, hrow]

/-! ### A run -/

/-- The machines of the first `j` frames that are watched, the last frame first. -/
def history (monitorId : ℤ) (hosts : ℕ → List Machine) (j : ℕ) : List (List Machine) :=
  ((List.range j).map fun k => watched monitorId (hosts k)).reverse

theorem history_succ (monitorId : ℤ) (hosts : ℕ → List Machine) (j : ℕ) :
    history monitorId hosts (j + 1) = watched monitorId (hosts j) :: history monitorId hosts j := by
  rw [history, List.range_succ, List.map_append, List.reverse_append]
  rfl

/-- The options set what is not asked for at the start. -/
theorem plain_start (hm : Begins m) (hmode : m.g.scrMode = .text)
    (hparam : m.g.resctrlParamEnable = false) : Plain m.g ∧ Hosted m.g [] m.g := by
  obtain ⟨-, arch, rows, opts, hargs⟩ := hm
  have hother := parseArgs_other hargs
  refine ⟨⟨⟨hmode, ?_, ?_⟩, hparam, ?_⟩, rfl, ?_, ?_⟩ <;> rw [hother] <;> rfl

/-- **Text mode prints the machines of the host.**  In every turn of every run in text mode that
is not asked for the bandwidth, on files that show some machines in each turn, the frame is made
of their history. -/
theorem text_reports (r : MainRun) (hmode : (r.state 0).g.scrMode = .text)
    (hparam : (r.state 0).g.resctrlParamEnable = false) {hosts : ℕ → List Machine}
    (hshown : ∀ j < r.len, ShowsHost (r.state 0).g.arch (hosts j) (r.input j).env.refresh) :
    ∀ j t, j < r.len → turn (r.input j) (r.state j) = .ok t →
      t.screen = hostScreen (r.state 0).g (history (r.state 0).g.monitorId hosts (j + 1))
        (r.input j).tm (r.input j).clkTck := by
  obtain ⟨hplain, hstart⟩ := plain_start r.start hmode hparam
  have hstate : ∀ j ≤ r.len, Hosted (r.state 0).g (history (r.state 0).g.monitorId hosts j)
      (r.state j).g := by
    intro j hj
    induction j with
    | zero => exact hstart
    | succ j ih =>
        obtain ⟨t, ht, hnext⟩ := mainStep_eq_ok (r.next j hj)
        rw [history_succ, ← hnext]
        exact (turn_hosted hplain (ih (Nat.le_of_succ_le hj)) (hshown j hj) ht).2
  intro j t hj ht
  have hframe := (turn_hosted hplain (hstate j hj.le) (hshown j hj) ht).1
  rw [← history_succ] at hframe
  exact hframe.screen hplain (turn_turned ht)

/-- The second frame of a host whose vCPU has run for seven ticks and then for ten. -/
theorem text_reports_host : ∃ (r : MainRun) (t : Turn), r.len = 2 ∧
    turn (r.input 1) (r.state 1) = .ok t ∧
    t.screen = hostScreen textGlobals [[cpuMachine 10], [cpuMachine 7]] none 100 := by
  let hosts (j : ℕ) : List Machine := [cpuMachine (if j = 0 then 7 else 10)]
  let inputs := [terminalTurn (cpuFrame 7) 24 none, terminalTurn (cpuFrame 10) 24 none]
  have hruns : (runAll mainStep inputs ⟨textGlobals, false⟩).toOption.isSome := by decide +kernel
  obtain ⟨m', hm'⟩ := Option.isSome_iff_exists.1 hruns
  have hbegins : Begins ⟨textGlobals, false⟩ := ⟨rfl, .other, fun _ => Task.zero, [.b], rfl⟩
  obtain ⟨r, hlen, hinput, hstate⟩ : ∃ r : MainRun, r.len = 2 ∧
      (∀ j, r.input j = inputs[j]?.getD default) ∧
      ∀ j, runAll mainStep (inputs.take j) ⟨textGlobals, false⟩ = .ok (r.state j) :=
    exists_run (toOption_eq_some.1 hm') hbegins
  have hstart : r.state 0 = ⟨textGlobals, false⟩ := (Except.ok.inj (hstate 0)).symm
  obtain ⟨t, ht, -⟩ := mainStep_eq_ok (r.next 1 (hlen ▸ by decide))
  have hshown : ∀ j < r.len,
      ShowsHost (r.state 0).g.arch (hosts j) (r.input j).env.refresh := by
    intro j hj
    rw [hlen] at hj
    rw [hstart, hinput]
    rcases j with - | - | j
    · exact (showsFrame_cpu 7).host
    · exact (showsFrame_cpu 10).host
    · omega
  have hscreen := text_reports r (by rw [hstart]; rfl) (by rw [hstart]; rfl) hshown 1 t
    (hlen ▸ by decide) ht
  rw [hstart, hinput] at hscreen
  exact ⟨r, t, hlen, ht, hscreen⟩

end Vmtop
