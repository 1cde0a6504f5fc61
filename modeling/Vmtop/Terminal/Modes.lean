/-
# What the two modes have in common

A run in text mode is a run that no terminal is asked for: it keeps the height and the width that
`init_parameter` sets, and it waits where the other reads a key.  So for every run on the screen
in which no key is pressed there is a run in text mode that finds the same snapshots, and where
all tasks and all columns fit both of them and every task has a state, the two print the same
(`text_follows`).
-/

import Mathlib.Algebra.Order.BigOperators.Group.List
import Vmtop.Terminal.CommandLine
import Vmtop.Terminal.Fields
import Vmtop.Terminal.Lines
import Vmtop.Terminal.TextMode

namespace Vmtop

open CText CArray Runs

variable {input : FrameInput} {m : Main} {t : Turn} {g g' : Globals} {arch : Arch}

/-! ### A turn -/

/-- The same globals in text mode, with the size that `init_parameter` sets. -/
def asText (g : Globals) : Globals :=
  { g with scrMode := .text, scrRowSize := 2048, scrColSize := 1024 }

theorem beginFrame_asText (hmode : g.scrMode = .term) (h : beginFrame g input = .ok g') :
    beginFrame (asText g) input = .ok (asText g') := by
  unfold beginFrame at h ⊢
  rw [hmode] at h
  obtain ⟨lists, hsample, h⟩ := bind_eq_ok.1 h
  cases h
  have hsample' : sampleFrame (asText g).config input.env (asText g).lists = .ok lists := hsample
  dsimp only [asText] at hsample' ⊢
  rw [hsample', ok_bind]
  rfl

/-- What is drawn in text mode. -/
def textScreen (head : Text) (g : Globals) (clkTck : ℕ) : Text :=
  head ++ ['\n'] ++ showHeader (asText g) ++ showDomains (asText g) clkTck

theorem drawFrame_asText {tm : Option Tm} {clkTck : ℕ} {screen : Text}
    (h : drawFrame g tm clkTck = .ok (g', screen)) : ∃ head,
      screen = head ++ ['\n'] ++ showHeader g' ++ showDomains g' clkTck ∧
      drawFrame (asText g) tm clkTck = .ok (asText g', textScreen head g' clkTck) := by
  obtain ⟨head, hhead, h⟩ := bind_eq_ok.1 h
  obtain ⟨fields, hfields, h⟩ := bind_eq_ok.1 h
  cases h
  have hhead' : summary (asText g) tm = .ok head := hhead
  have hfields' : setNodeFlags (asText g) = .ok fields := hfields
  refine ⟨head, rfl, ?_⟩
  rw [drawFrame, hhead', ok_bind, hfields', ok_bind]
  rfl

/-- Without a key the two modes end a turn alike. -/
theorem endFrame_asText {seconds : ℚ} (hmode : g.scrMode = .term) (hpress : input.press = none)
    (h : endFrame g input = some (g', seconds)) :
    endFrame (asText g) input = some (asText g', seconds) := by
  have hterm : pressed g input = none := by rw [pressed, hmode, hpress]
  have htext : pressed (asText g) input = none := rfl
  rw [endFrame, hterm] at h
  cases h
  rw [endFrame, htext]
  rfl

/-- **Without a key a turn in text mode is the turn on the screen**, but for what the size of the
screen leaves out. -/
theorem turn_asText (hmode : m.g.scrMode = .term) (hpress : input.press = none)
    (h : turn input m = .ok t) : ∃ head t',
      t.screen = head ++ ['\n'] ++ showHeader t.frame ++ showDomains t.frame input.clkTck ∧
      turn input ⟨asText m.g, m.ended⟩ = .ok t' ∧ t'.frame = asText t.frame ∧
      t'.screen = textScreen head t.frame input.clkTck ∧
      t'.next = ⟨asText t.next.g, t.next.ended⟩ := by
  have hframe : t.frame.scrMode = .term := by rw [(turn_turned h).framed, hmode]
  unfold turn at h
  split_ifs at h with hended
  split at h
  · cases h
  · rename_i g hbegin
    split at h
    · cases h
    · rename_i frame screen hdraw
      split at h
      · cases h
      · rename_i g' seconds hend
        cases h
        obtain ⟨head, hscreen, hdraw'⟩ := drawFrame_asText hdraw
        have hend' := endFrame_asText hframe hpress hend
        refine ⟨head, ⟨asText frame, textScreen head frame input.clkTck, seconds,
          ⟨asText g', g'.quitFlag || g'.displayLoop = 0⟩⟩, hscreen, ?_, rfl, rfl, rfl⟩
        simp only [turn, beginFrame_asText hmode hbegin, hdraw', hend']
        rw [if_neg hended]
        rfl

/-! ### A frame that fits -/

/-- How wide the screen is does not matter where it is wide enough. -/
theorem shownFields_wide {scrColSize scrColSize' beginField : ℤ} {fields : List Fid}
    {showdWidth : ℤ} (h : showdWidth + width fields < scrColSize)
    (h' : showdWidth + width fields < scrColSize') (showdField : ℤ) :
    shownFields scrColSize beginField fields showdWidth showdField =
      shownFields scrColSize' beginField fields showdWidth showdField := by
  induction fields generalizing showdWidth showdField with
  | nil => rfl
  | cons f rest ih =>
      rw [shownFields, shownFields]
      by_cases hflag : f.displayFlag = true
      · have hwidth : (width (f :: rest) : ℤ) = f.align + width rest := by
          simp [width, hflag]
        have hroom : ¬ scrColSize ≤ showdWidth + f.align := by omega
        have hroom' : ¬ scrColSize' ≤ showdWidth + f.align := by omega
        have hmore := @ih (showdWidth + f.align) (by omega) (by omega)
        have hless := @ih showdWidth (by omega) (by omega)
        simp only [if_neg hroom, if_neg hroom', hmore, hless]
      · have hwidth : width (f :: rest) = width rest := by
          simp [width, hflag]
        rw [if_neg hflag, if_neg hflag, ih (hwidth ▸ h) (hwidth ▸ h')]

/-- The width of text mode is enough for all columns of the table. -/
theorem width_lt (h : g.fields.map Fid.column = (fields arch).map Fid.column) :
    width g.fields < 1024 := by
  have hall : (((fields arch).map Fid.column).map Fid.align).sum < 1024 := by
    cases arch <;> decide +kernel
  refine lt_of_le_of_lt ?_ hall
  rw [← h, List.map_map]
  have hsub : ((g.fields.filter Fid.displayFlag).map Fid.align).Sublist (g.fields.map Fid.align) :=
    List.filter_sublist.map _
  exact hsub.sum_le_sum fun _ _ => Nat.zero_le _

/-- All tasks and all columns fit both the screen and the size of text mode; and each task has a
state, in whose place the screen would show nothing where text mode prints a NUL. -/
structure Roomy (g : Globals) : Prop where
  wide : Wide g
  tall : (walked g).length ≤ min (g.scrRowSize - 4) 2044
  states : ∀ task ∈ walked g, task.state ≠ nul

/-- Of a task that has a state both modes print the same. -/
theorem printDomainField_of_state {task : Task} (h : task.state ≠ nul) (scrMode : ScrMode)
    (clkTck : ℕ) (delayTime : ℤ) : printDomainField scrMode clkTck delayTime task =
      fun f => pad f.align (cell clkTck delayTime task f) := by
  funext f
  rw [printDomainField, printScr_pad, pad]
  cases scrMode with
  | text => rfl
  | term => rw [printScr, cstr_of_notMem (nul_notMem_cell fun _ => h)]

theorem Roomy.screen (h : Roomy g) (hbegin : 1 ≤ g.beginTask)
    (hcolumns : g.fields.map Fid.column = (fields arch).map Fid.column) (head : Text)
    (clkTck : ℕ) : textScreen head g clkTck =
      head ++ ['\n'] ++ showHeader g ++ showDomains g clkTck := by
  have hcols : columns (asText g) = columns g := by
    refine shownFields_wide ?_ ?_ 0
    · have hwidth := width_lt hcolumns
      change 0 + (width g.fields : ℤ) < 1024
      omega
    · rw [zero_add]
      exact h.wide
  have hwalked : walked (asText g) = walked g := rfl
  have htasks : shownTasks (asText g) (walked (asText g)) 0 = shownTasks g (walked g) 0 := by
    have htall := h.tall
    rw [shownTasks_eq_window hbegin, shownTasks_eq_window (g := asText g) hbegin, window, window,
      hwalked, List.take_of_length_le, List.take_of_length_le]
    · rfl
    · rw [List.length_drop]
      omega
    · rw [List.length_drop]
      change _ ≤ ((2048 : ℤ) - 4).toNat
      omega
  have hrows : (shownTasks g (walked g) 0).flatMap (taskRow (asText g) clkTck) =
      (shownTasks g (walked g) 0).flatMap (taskRow g clkTck) := by
    rw [shownTasks_eq_window hbegin]
    refine List.flatMap_congr fun task htask => ?_
    have hstate := h.states task (List.mem_of_mem_drop (List.mem_of_mem_take htask))
    rw [taskRow, taskRow, hcols, printDomainField_of_state hstate,
      printDomainField_of_state hstate]
    rfl
  rw [textScreen, showHeader, showHeader, showDomains, showDomains, hcols, htasks, hrows]

/-! ### A run -/

/-- `-b` behind the other options asks for text mode. -/
theorem parseArgs_text {opts : List Opt} (h : parseArgs opts g = .ok g') :
    parseArgs (opts ++ [.b]) g = .ok { g' with scrMode := .text } := by
  rw [parseArgs_ok_iff] at h ⊢
  obtain ⟨haccepted, rfl⟩ := h
  refine ⟨?_, ?_⟩
  · intro opt hopt
    rcases List.mem_append.1 hopt with hopt | hopt
    · exact haccepted opt hopt
    · rw [List.mem_singleton.1 hopt]
      rfl
  · simp [settled, lastValue, Opt.delayArg, Opt.countArg, Opt.monitorArg, Opt.isThreads,
      Opt.isText, Opt.isMetered]

/-- **Text mode prints what the screen shows**: for every run on the screen in which no key is
pressed there is a run in text mode, with the same options and one more, that finds the same
snapshots and prints the same frames wherever all tasks and columns fit and each task has a
state. -/
theorem text_follows (r : ScreenRun) (hkeys : ∀ j < r.len, (r.input j).press = none) :
    ∃ r' : MainRun, r'.len = r.len ∧ r'.input = r.input ∧
      (r'.state 0).g = { (r.state 0).g with scrMode := .text } ∧
      ∀ j < r.len, ∀ t, turn (r.input j) (r.state j) = .ok t →
        ∃ t', turn (r'.input j) (r'.state j) = .ok t' ∧ t'.frame.lists = t.frame.lists ∧
          (Roomy t.frame → t'.screen = t.screen) := by
  obtain ⟨hended, -, arch, rows, opts, hargs⟩ := r.start
  have hsize : asText (r.state 0).g = { (r.state 0).g with scrMode := .text } := by
    rw [parseArgs_other hargs]
    rfl
  have hbegins : Begins ⟨asText (r.state 0).g, false⟩ :=
    ⟨rfl, arch, rows, opts ++ [.b], by rw [hsize]; exact parseArgs_text hargs⟩
  have hstart : (⟨asText (r.state 0).g, false⟩ : Main) =
      ⟨asText (r.state 0).g, (r.state 0).ended⟩ := by rw [hended]
  obtain ⟨r', hlen, hstate, hinput, hfollow⟩ := @Run.follow _ _ _ _ _ _
    (fun m input m' => mainStep input m = .ok m') Begins r
    (fun m m' => m' = ⟨asText m.g, m.ended⟩) r.input _ hbegins hstart fun j hj m' hm' => by
      obtain ⟨t, ht, hnext⟩ := r.exists_turn hj
      obtain ⟨head, t', -, ht', -, -, hnext'⟩ := turn_asText (r.scrMode hj.le) (hkeys j hj) ht
      refine ⟨t'.next, ?_, by rw [hnext', hnext]⟩
      rw [hm', mainStep, ht']
      rfl
  refine ⟨r', hlen, hinput, by rw [hstate, hsize], fun j hj t ht => ?_⟩
  obtain ⟨head, t', hscreen, ht', hframe, hscreen', -⟩ :=
    turn_asText (r.scrMode hj.le) (hkeys j hj) ht
  refine ⟨t', by rw [hinput, hfollow j hj.le, ht'], by rw [hframe]; rfl, fun hroomy => ?_⟩
  -- the display of text mode has not moved, so that of the screen has not
  have hbegin : t.frame.beginTask = 1 := by
    have hwindow := (MainRun.textWindow r' (by rw [hstate]; rfl) j (hlen ▸ hj.le)).beginTask
    rw [hfollow j hj.le] at hwindow
    rw [(turn_turned ht).framed]
    exact hwindow
  obtain ⟨arch, hcolumns⟩ := r.columns hj ht
  rw [hscreen', hscreen]
  exact hroomy.screen hbegin.ge hcolumns head _

/-- A turn on a wide terminal, where three virtual machines run. -/
def wideTurn : FrameInput := { terminalTurn (crowdedEnv 3) 24 none with cols := 120 }

/-- The second frame of two. -/
theorem text_follows_wide : ∃ (r : ScreenRun) (r' : MainRun) (t t' : Turn), r.len = 2 ∧
    (r'.state 0).g.scrMode = .text ∧ turn (r.input 1) (r.state 1) = .ok t ∧
    turn (r'.input 1) (r'.state 1) = .ok t' ∧ t'.screen = t.screen ∧
    (walked t.frame).length = 3 := by
  have hframe : (turnAt [wideTurn, wideTurn] ⟨zeroGlobals, false⟩ 1).map (fun t =>
      (decide ((width t.frame.fields : ℤ) < t.frame.scrColSize),
        decide (((walked t.frame).length : ℤ) ≤ min (t.frame.scrRowSize - 4) 2044),
        (walked t.frame).all (fun task => task.state ≠ nul),
        (walked t.frame).length)) = some (true, true, true, 3) := by decide +kernel
  obtain ⟨r, hlen, -, hinput, hturns⟩ := exists_screenRun [wideTurn, wideTurn]
    (m := ⟨zeroGlobals, false⟩) ⟨rfl, rfl, .other, fun _ => Task.zero, [], rfl⟩
    (by decide +kernel)
  obtain ⟨t, hturn, hat⟩ := hturns 1 (by decide)
  rw [hat, Option.map_some, Option.some.injEq] at hframe
  simp only [Prod.mk.injEq, decide_eq_true_eq, List.all_eq_true] at hframe
  obtain ⟨hwide, htall, hstates, hwalked⟩ := hframe
  have hkeys : ∀ j < r.len, (r.input j).press = none := by
    intro j hj
    rw [hinput]
    rw [hlen] at hj
    rcases j with - | - | j
    · rfl
    · rfl
    · exact absurd hj (by simp)
  obtain ⟨r', -, -, hstart, hfollows⟩ := text_follows r hkeys
  obtain ⟨t', hturn', -, hscreen⟩ := hfollows 1 (hlen ▸ by decide) t hturn
  exact ⟨r, r', t, t', hlen, by rw [hstart], hturn, hturn', hscreen ⟨hwide, htall, hstates⟩,
    hwalked⟩

end Vmtop
