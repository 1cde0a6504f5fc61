/-
# The lines of a frame

A frame has two lines of the summary, a blank one, the header, and one for every task that is
displayed.  The summary has more where bandwidth is shown, one for the host and one for every
node (`count_summary`), and a name that holds a line break counts like a line of its own
(`count_showDomains`).
-/

import Vmtop.Terminal.Scroll

namespace Vmtop

open CText CArray Runs

variable {input : FrameInput} {m : Main} {t : Turn} {g : Globals} {clkTck : ℕ} {task : Task}
  {delayTime : ℤ} {f : Fid}

/-! ### The summary -/

/-- The lines of the summary that show the bandwidth. -/
def bandwidthLines (g : Globals) : ℕ :=
  if g.resctrlEnable then 1 + g.lists.now.nodeNum.toNat else 0

theorem newline_notMem_text (t : Tm) : '\n' ∉ t.text := by
  simp only [Tm.text, List.mem_append, List.mem_cons, newline_notMem_decimalInt,
    newline_notMem_decimal2, or_false]
  decide

theorem newline_notMem_getTimeStr (tm : Option Tm) :
    '\n' ∉ (getTimeStr tm).getD "err to get time".toList := by
  have herr : '\n' ∉ "err to get time".toList := by decide
  unfold getTimeStr
  cases tm with
  | none => exact herr
  | some t =>
      rw [Option.bind_some]
      split_ifs
      · exact newline_notMem_text t
      · exact herr

theorem count_numaLine (i : ℕ) (bandwidth : Long) : (numaLine i bandwidth).count '\n' = 1 := by
  have hnode := List.count_eq_zero.2 (notMem_decimal (n := i) (c := '\n') rfl)
  have hvalue := List.count_eq_zero.2 (newline_notMem_decimalInt bandwidth.toInt)
  unfold numaLine
  simp only [List.count_append, hnode, hvalue]
  decide

theorem count_bandwidthText (nodes : List Long) :
    (bandwidthText nodes).count '\n' = 1 + nodes.length := by
  have htotal := List.count_eq_zero.2 (newline_notMem_decimalInt nodes.sum.toInt)
  have htext : "MiB MBM:    ".toList.count '\n' = 0 ∧ " hosttotal\n".toList.count '\n' = 1 := by
    decide
  have hnodes : (nodes.zipIdx.flatMap fun node => numaLine node.2 node.1).count '\n' =
      nodes.length := by
    rw [count_newline_flatMap fun node _ => count_numaLine node.2 node.1]
    simp
  unfold bandwidthText
  rw [List.count_append, List.count_append, List.count_append, htext.1, htext.2, htotal, hnodes]

theorem length_bandwidths {nodes : List Long} (h : bandwidths g = .ok nodes) :
    nodes.length = g.lists.now.nodeNum.toNat := by
  rw [← List.length_range (n := g.lists.now.nodeNum.toNat)]
  unfold bandwidths at h
  generalize List.range g.lists.now.nodeNum.toNat = l at h ⊢
  induction l generalizing nodes with
  | nil =>
      cases h
      rfl
  | cons i l ih =>
      rw [List.mapM_cons] at h
      obtain ⟨b, -, h⟩ := bind_eq_ok.1 h
      obtain ⟨bs, hbs, h⟩ := bind_eq_ok.1 h
      cases h
      rw [List.length_cons, List.length_cons, ih hbs]

theorem count_summary {tm : Option Tm} {head : Text} (h : summary g tm = .ok head) :
    head.count '\n' = 2 + bandwidthLines g := by
  have htime := List.count_eq_zero.2 (newline_notMem_getTimeStr tm)
  have hnum := List.count_eq_zero.2 (notMem_decimal (n := g.lists.now.num) (c := '\n') rfl)
  simp only [summary] at h
  unfold bandwidthLines
  split_ifs at h ⊢ with hon
  · obtain ⟨nodes, hnodes, h⟩ := bind_eq_ok.1 h
    cases h
    simp only [List.count_append, htime, hnum, count_bandwidthText, length_bandwidths hnodes]
    rfl
  · cases h
    simp only [List.count_append, htime, hnum]
    rfl

/-! ### The header and the tasks -/

/-- No title of a column breaks a line. -/
theorem newline_notMem_fields (arch : Arch) : ∀ f ∈ fields arch, '\n' ∉ f.name := by
  cases arch <;> decide +kernel

/-- So the header of a run has one line, whichever columns it displays. -/
theorem ScreenRun.newline_notMem_name (r : ScreenRun) {j : ℕ} (hj : j < r.len)
    (ht : turn (r.input j) (r.state j) = .ok t) : ∀ f ∈ t.frame.fields, '\n' ∉ f.name := by
  intro f hf
  obtain ⟨-, -, arch, rows, opts, hargs⟩ := r.start
  have hcolumns : t.frame.fields.map Fid.column = (fields arch).map Fid.column := by
    have hframe := (turn_turned ht).settings.1.trans (r.settings hj.le)
    refine (congrArg Settings.columns hframe).trans ?_
    rw [Globals.settings, parseArgs_other hargs]
    rfl
  obtain ⟨f₀, hf₀, he⟩ := List.mem_map.1 (hcolumns ▸ List.mem_map_of_mem hf)
  have hname := congrArg Fid.name he
  exact (hname : f₀.name = f.name) ▸ newline_notMem_fields arch f₀ hf₀

/-- Only columns of the table are displayed. -/
theorem shownFields_subset (scrColSize beginField : ℤ) (fields : List Fid)
    (showdWidth showdField : ℤ) :
    shownFields scrColSize beginField fields showdWidth showdField ⊆ fields := by
  induction fields generalizing showdWidth showdField with
  | nil => exact List.Subset.refl _
  | cons f rest ih =>
      rw [shownFields]
      split_ifs
      any_goals exact List.nil_subset _
      any_goals exact List.cons_subset_cons f (ih _ _)
      all_goals exact List.subset_cons_of_subset f (ih _ _)

theorem count_showHeader (h : ∀ f ∈ g.fields, '\n' ∉ f.name) :
    (showHeader g).count '\n' = 1 := by
  unfold showHeader
  have hzero : ∀ f ∈ columns g, (pad f.align f.name).count '\n' = 0 := by
    intro f hf
    rw [count_newline_pad]
    exact List.count_eq_zero.2 (h f (shownFields_subset _ _ _ _ _ hf))
  rw [List.count_append, count_newline_flatMap hzero]
  simp

/-- The line breaks in what a column shows of a task. -/
def breaksIn (task : Task) (f : Fid) : ℕ :=
  match f.fd with
  | .vmname => ((cstr task.vmname).take (f.align - 2)).count '\n'
  | .state => [task.state].count '\n'
  | _ => 0

/-- Of the cell of a column only a name and a state can break a line. -/
theorem count_cell (delayTime : ℤ) (task : Task) (f : Fid) :
    (cell clkTck delayTime task f).count '\n' = breaksIn task f := by
  have hint (z : ℤ) : (decimalInt z).count '\n' = 0 :=
    List.count_eq_zero.2 (newline_notMem_decimalInt z)
  have hnat (n : ℕ) : (decimal n).count '\n' = 0 := List.count_eq_zero.2 (notMem_decimal rfl)
  have hdouble (k : ℕ) (x : Double) : (printDouble k x).count '\n' = 0 :=
    List.count_eq_zero.2 (newline_notMem_printDouble k x)
  unfold cell breaksIn
  cases f.fd with
  | vmname | state => rfl
  | did =>
      dsimp only
      split_ifs
      · exact hint _
      · decide
  | pid | exit => exact hnat _
  | p | node => exact hint _
  | waitmax => exact hdouble 3 (.num _)
  | cpu | st | gue | hyp => exact hdouble 1 _

/-- Only the state can be the NUL that ends what is printed. -/
theorem nul_notMem_cell (hf : f.fd = .state → task.state ≠ nul) :
    nul ∉ cell clkTck delayTime task f := by
  have hint (z : ℤ) : nul ∉ decimalInt z := notMem_decimalInt rfl (by decide) z
  have hnat (n : ℕ) : nul ∉ decimal n := notMem_decimal rfl
  have hdouble (k : ℕ) (x : Double) : nul ∉ printDouble k x :=
    notMem_printDouble rfl (by decide) k x
  unfold cell
  cases hfd : f.fd with
  | vmname => exact fun h => nul_notMem_cstr _ (List.mem_of_mem_take h)
  | state => simpa using (hf hfd).symm
  | did =>
      dsimp only
      split_ifs
      · exact hint _
      · decide
  | pid | exit => exact hnat _
  | p | node => exact hint _
  | waitmax => exact hdouble 3 (.num _)
  | cpu | st | gue | hyp => exact hdouble 1 _

/-- What is printed of a column is padded, and ends at a NUL on the terminal. -/
theorem printScr_pad (scrMode : ScrMode) (width : ℕ) (s : Text) :
    printScr scrMode (pad width s) =
      List.replicate (width - s.length) ' ' ++ printScr scrMode s := by
  cases scrMode with
  | text => rfl
  | term =>
      have hblank : nul ∉ List.replicate (width - s.length) ' ' :=
        fun h => absurd (List.eq_of_mem_replicate h) (by decide)
      exact cstr_append_of_notMem hblank s

/-- That ends no line earlier. -/
theorem count_printScr_cell (scrMode : ScrMode) (delayTime : ℤ) (task : Task) (f : Fid) :
    (printScr scrMode (cell clkTck delayTime task f)).count '\n' = breaksIn task f := by
  cases scrMode with
  | text => exact count_cell delayTime task f
  | term =>
      by_cases hnul : nul ∈ cell clkTck delayTime task f
      · obtain ⟨hfd, hstate⟩ : f.fd = .state ∧ task.state = nul := by
          by_contra hnot
          exact nul_notMem_cell (fun hfd hs => hnot ⟨hfd, hs⟩) hnul
        simp only [printScr, cell, breaksIn, hfd, hstate]
        decide
      · rw [printScr, cstr_of_notMem hnul]
        exact count_cell delayTime task f

/-- The line breaks in what the displayed columns show of a task. -/
def breaksOf (g : Globals) (task : Task) : ℕ := ((columns g).map (breaksIn task)).sum

theorem count_taskRow (g : Globals) (task : Task) :
    (taskRow g clkTck task).count '\n' = 1 + breaksOf g task := by
  have hfield : ∀ f ∈ columns g,
      (printDomainField g.scrMode clkTck g.delayTime task f).count '\n' = breaksIn task f := by
    intro f _
    rw [printDomainField, printScr_pad, List.count_append, count_printScr_cell,
      List.count_eq_zero.2, Nat.zero_add]
    exact fun h => absurd (List.eq_of_mem_replicate h) (by decide)
  unfold taskRow breaksOf
  rw [List.count_append, count_newline_flatMap hfield, Nat.add_comm]
  rfl

/-- The tasks that fit above the four lines, from number `begin_task` on. -/
def window (g : Globals) : List Task :=
  ((walked g).drop (g.beginTask - 1).toNat).take (g.scrRowSize - 4).toNat

/-- The line breaks in the names and states on the screen. -/
def breaks (g : Globals) : ℕ := ((window g).map (breaksOf g)).sum

theorem shownTasks_eq_window (h : 1 ≤ g.beginTask) : shownTasks g (walked g) 0 = window g := by
  rw [shownTasks_eq, window, Int.sub_zero, max_eq_right (by omega), Int.sub_zero]

theorem count_showDomains (h : 1 ≤ g.beginTask) :
    (showDomains g clkTck).count '\n' = (window g).length + breaks g := by
  unfold showDomains breaks
  rw [shownTasks_eq_window h, count_newline_flatMap fun task _ => count_taskRow g task,
    List.sum_map_add]
  simp

/-! ### A turn with bandwidth -/

/-- A turn on a host of one virtual machine where one node is monitored. -/
def meteredTurn (rows : ℤ) : FrameInput := terminalTurn (crowdedEnv 1) rows none

/-- A run that takes one such turn; `f` is what is read off the turn. -/
theorem exists_meteredTurn (rows : ℤ) {V : Type} (f : Turn → V) {v : V}
    (h : (turn (meteredTurn rows) ⟨meteredGlobals, false⟩).toOption.map f = some v) :
    ∃ (r : ScreenRun) (t : Turn), 0 < r.len ∧ r.input 0 = meteredTurn rows ∧
      turn (r.input 0) (r.state 0) = .ok t ∧ f t = v := by
  obtain ⟨t, hturn, hf⟩ := Option.map_eq_some_iff.1 h
  rw [toOption_eq_some] at hturn
  have hrun : runAll mainStep [meteredTurn rows] ⟨meteredGlobals, false⟩ = .ok t.next := by
    simp only [runAll, mainStep, hturn]
    rfl
  obtain ⟨r, hlen, hstart, hinput, -⟩ := exists_screenRun [meteredTurn rows]
    ⟨rfl, rfl, .other, fun _ => Task.zero, [.G], rfl⟩ (by rw [hrun]; rfl)
  refine ⟨r, t, hlen ▸ Nat.zero_lt_one, hinput 0, ?_, hf⟩
  rw [hinput, hstart]
  exact hturn

end Vmtop
