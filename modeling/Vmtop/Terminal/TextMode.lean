/-
# The frames of text mode

Text mode knows no terminal and no keys: the display begins at the first task in every
frame, and the height is the one that `init_parameter` sets (`MainRun.textWindow`).  Tasks
are left out by the same test as on a screen, so a frame is complete exactly when it has
no more tasks than that height leaves room for (`text_complete_iff`), although nothing
scrolls to the others.
-/

import Vmtop.Terminal.Nodes
import Vmtop.Terminal.Scroll

namespace Vmtop

open CText CArray Runs

variable {input : FrameInput} {m : Main} {t : Turn} {g g' : Globals}

/-! ### What is complete -/

/-- The tasks of a frame: every virtual machine, in thread mode with all its threads behind
it. -/
def allTasks (g : Globals) : List Task :=
  g.lists.now.domains.flatMap fun d => d.toTask :: if g.threadMode then d.threads else []

/-- A frame that displays every task once, in the order of the lists. -/
def Complete (g : Globals) : Prop := shownTasks g (walked g) 0 = allTasks g

/-- The threads that are walked are all the threads there are. -/
theorem Turned.walked_eq (h : Turned input m t) : walked t.frame = allTasks t.frame := by
  rw [walked, allTasks]
  refine List.flatMap_congr fun d hd => ?_
  obtain ⟨_, _, hf⟩ := sampleFrame_framed h.sampled
  rw [Domain.lwps_eq (hf.records d hd).length]

/-! ### The window of text mode -/

/-- The start of the display and the height of text mode, as `init_parameter` sets them. -/
structure TextWindow (g : Globals) : Prop where
  scrMode : g.scrMode = .text
  scrRowSize : g.scrRowSize = 2048
  beginTask : g.beginTask = 1

/-- In text mode a turn begins without looking at a terminal. -/
theorem beginFrame_text (hmode : g.scrMode = .text) (h : beginFrame g input = .ok g') :
    g'.scrRowSize = g.scrRowSize := by
  unfold beginFrame at h
  rw [hmode] at h
  obtain ⟨lists, -, h⟩ := bind_eq_ok.1 h
  cases h
  rfl

/-- The window is that of text mode in the frame of a turn and behind it. -/
theorem turn_textWindow (h : turn input m = .ok t) (hm : TextWindow m.g) :
    TextWindow t.frame ∧ TextWindow t.next.g := by
  have hturned := turn_turned h
  obtain ⟨g, hbegin, -, hdrawn⟩ := turn_drawn h
  have hrows : t.frame.scrRowSize = g.scrRowSize := by rw [hdrawn]
  have hframe : TextWindow t.frame := by
    refine ⟨?_, ?_, ?_⟩
    · rw [hturned.framed, hm.scrMode]
    · rw [hrows, beginFrame_text hm.scrMode hbegin, hm.scrRowSize]
    · rw [hturned.framed, hm.beginTask]
  have hkeyed := endFrame_keyed hturned.ended
  have hnone : pressed t.frame input = none := by
    rw [pressed, hframe.scrMode]
  rw [hnone] at hkeyed
  refine ⟨hframe, ?_, ?_, ?_⟩
  · rw [hkeyed.other, hframe.scrMode]
  · rw [hkeyed.other, hframe.scrRowSize]
  · rw [hkeyed.beginTask]
    exact hframe.beginTask

/-- **A run in text mode never moves its window.** -/
theorem MainRun.textWindow (r : MainRun) (hmode : (r.state 0).g.scrMode = .text) :
    ∀ j ≤ r.len, TextWindow (r.state j).g := by
  intro j hj
  induction j with
  | zero =>
      obtain ⟨-, arch, rows, opts, hargs⟩ := r.start
      refine ⟨hmode, ?_, ?_⟩ <;>
        rw [parseArgs_other hargs] <;>
        rfl
  | succ j ih =>
      obtain ⟨t, hturn, hnext⟩ := mainStep_eq_ok (r.next j hj)
      rw [← hnext]
      exact (turn_textWindow hturn (ih (Nat.le_of_succ_le hj))).2

/-! ### What is left out -/

/-- From the first task on, 2044 tasks are displayed. -/
theorem Turned.complete_iff (h : Turned input m t) (hwindow : TextWindow t.frame) :
    Complete t.frame ↔ (allTasks t.frame).length ≤ 2044 := by
  have hdrop : ((1 : ℤ) - 1 - 0).toNat = 0 := by decide
  have htake : ((2048 : ℤ) - 4 - max (0 + 1 - 1) 0).toNat = 2044 := by decide
  rw [Complete, h.walked_eq, shownTasks_eq, hwindow.beginTask, hwindow.scrRowSize, hdrop, htake,
    List.drop_zero, List.take_eq_self_iff]

/-- **A frame of text mode is complete exactly when it has at most 2044 tasks.** -/
theorem text_complete_iff (r : MainRun) (hmode : (r.state 0).g.scrMode = .text) :
    ∀ j t, j < r.len → turn (r.input j) (r.state j) = .ok t →
      (Complete t.frame ↔ (allTasks t.frame).length ≤ 2044) :=
  fun j _ hj ht =>
    (turn_turned ht).complete_iff (turn_textWindow ht (r.textWindow hmode j hj.le)).1

/-! ### A crowded host -/

/-- The globals of text mode. -/
def textGlobals : Globals := { zeroGlobals with scrMode := .text }

/-- In text mode a turn that has taken its snapshot is not held up. -/
theorem exists_textTurn (input : FrameInput) (h : NodesInBounds m.g) (hmode : m.g.scrMode = .text)
    (hended : m.ended = false) {s : Lists}
    (hs : sampleFrame m.g.config input.env m.g.lists = .ok s) : ∃ t, turn input m = .ok t := by
  obtain ⟨g, hbegin, hmodeg⟩ : ∃ g, beginFrame m.g input = .ok g ∧ g.scrMode = .text := by
    unfold beginFrame
    rw [hmode]
    dsimp only
    rw [hs, ok_bind]
    exact ⟨_, rfl, hmode⟩
  have hbounds := beginFrame_inBounds h input
  rw [hbegin] at hbounds
  obtain ⟨⟨frame, screen⟩, hdraw, -⟩ :=
    (drawFrame_ends (E := fun _ => False) hbounds input.tm input.clkTck).exists_ok
  have hframe : frame.scrMode = .text := by
    obtain ⟨head, -, hdraw⟩ := bind_eq_ok.1 hdraw
    obtain ⟨fields, -, hdraw⟩ := bind_eq_ok.1 hdraw
    cases hdraw
    exact hmodeg
  unfold turn
  rw [hended, hbegin]
  simp only [Bool.false_eq_true, if_false, hdraw, endFrame, pressed, hframe, Option.map_some]
  exact ⟨_, rfl⟩

/-- A run in text mode of one turn, on a host of `n` virtual machines. -/
theorem exists_crowdedText {n : ℕ} (hn : n < 2 ^ 31) :
    ∃ (r : MainRun) (t : Turn), 0 < r.len ∧ (r.state 0).g.scrMode = .text ∧
      turn (r.input 0) (r.state 0) = .ok t ∧ (allTasks t.frame).length = n := by
  let input := terminalTurn (crowdedEnv n) 24 none
  let m : Main := ⟨textGlobals, false⟩
  have hm : Begins m := ⟨rfl, .other, fun _ => Task.zero, [.b], rfl⟩
  obtain ⟨⟨r, mid⟩, hrefresh⟩ := refreshDomains_crowded .other hn (Lists.start fun _ => Task.zero)
  have hsample : sampleFrame m.g.config input.env m.g.lists = .ok mid := by
    change sampleFrame ⟨.other, -1, false⟩ (crowdedEnv n) (.start fun _ => Task.zero) = _
    rw [sampleFrame, hrefresh, ok_bind]
    rfl
  obtain ⟨t, ht⟩ := exists_textTurn input hm.inBounds rfl rfl hsample
  have hrun : runAll mainStep [input] m = .ok t.next := by
    rw [runAll, mainStep, ht]
    rfl
  obtain ⟨run, hlen, hinput, hstate⟩ : ∃ run : MainRun, run.len = [input].length ∧
      (∀ j, run.input j = [input][j]?.getD default) ∧
      ∀ j, runAll mainStep ([input].take j) m = .ok (run.state j) := exists_run hrun hm
  have hstart : run.state 0 = m := (Except.ok.inj (hstate 0)).symm
  have hfirst : run.input 0 = input := hinput 0
  refine ⟨run, t, hlen ▸ Nat.zero_lt_one, by rw [hstart]; rfl, by rw [hstart, hfirst, ht], ?_⟩
  have hturned := turn_turned ht
  have hlists : t.frame.lists = mid :=
    Except.ok.inj (hturned.sampled.symm.trans hsample)
  have hthread : t.frame.threadMode = false := by
    rw [hturned.framed]
    rfl
  have hlength : mid.now.domains.length = n := by
    rw [(refreshDomains_rotated hrefresh).now, List.length_map]
    exact scanned_host .other mid.vcpuList hn
  simp [allTasks, hlists, hthread, hlength]

/-- A host of 2044 virtual machines is displayed to the last one. -/
theorem text_complete_iff_full : ∃ (r : MainRun) (t : Turn),
    turn (r.input 0) (r.state 0) = .ok t ∧ (allTasks t.frame).length = 2044 ∧
      Complete t.frame := by
  obtain ⟨r, t, hlen, hmode, ht, hnum⟩ := exists_crowdedText (n := 2044) (by decide)
  exact ⟨r, t, ht, hnum, (text_complete_iff r hmode 0 t hlen ht).2 hnum.le⟩

/-- **A host of 2045 virtual machines loses one.** -/
theorem text_complete_crowded : ¬ ∀ r : MainRun, (r.state 0).g.scrMode = .text →
    ∀ j t, j < r.len → turn (r.input j) (r.state j) = .ok t → Complete t.frame := by
  intro h
  obtain ⟨r, t, hlen, hmode, ht, hnum⟩ := exists_crowdedText (n := 2045) (by decide)
  have hwindow := (turn_textWindow ht (r.textWindow hmode 0 hlen.le)).1
  have hle := ((turn_turned ht).complete_iff hwindow).1 (h r hmode 0 t hlen ht)
  omega

end Vmtop
