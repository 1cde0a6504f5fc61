/-
# Whether a frame fits the terminal

`show_task` leaves room for four lines above the tasks: two of the summary, a blank one, and the
header.  Nothing leaves room for the lines of the bandwidth, for a name that breaks its line, or
for a line that is longer than the terminal is wide and goes on in the next row.  Of those the
header is none, whose columns stop short of the width; but the summary has no regard to it, and
a value that is wider than its column makes its row longer.  A frame fits the terminal exactly
when it needs none of these rows, or has few enough tasks to leave them (`onTerminal_iff`).
-/

import Vmtop.Lib.Pen
import Vmtop.Terminal.Cells

namespace Vmtop

open CText CArray Windows

variable {input : FrameInput} {m : Main} {t : Turn} {g : Globals} {arch : Arch} {clkTck : ℕ}

/-! ### The lines -/

/-- The bandwidths of the nodes that are monitored. -/
def nodeBandwidths (g : Globals) : List Long :=
  (List.range g.lists.now.nodeNum.toNat).filterMap fun i => (load g.lists.now.bandwidth i).toOption

/-- The line of the clock. -/
def timeLine (tm : Option Tm) : Text :=
  "vmtop - ".toList ++ (getTimeStr tm).getD "err to get time".toList ++ " - ".toList ++
    packageVersion

/-- The line of the number of domains. -/
def runningLine (g : Globals) : Text :=
  "Domains: ".toList ++ decimal g.lists.now.num ++ " running".toList

/-- The line of the bandwidth of the host. -/
def hostLine (nodes : List Long) : Text :=
  "MiB MBM:    ".toList ++ decimalInt nodes.sum.toInt ++ " hosttotal".toList

/-- The line of the bandwidth of a node. -/
def nodeLine (i : ℕ) (bandwidth : Long) : Text :=
  "Node".toList ++ decimal i ++ ":    ".toList ++ decimalInt bandwidth.toInt ++ " mbmtotal".toList

/-- The lines of the summary. -/
def summaryLines (g : Globals) (tm : Option Tm) : List Text :=
  timeLine tm :: runningLine g ::
    if g.resctrlEnable then
      hostLine (nodeBandwidths g) ::
        (nodeBandwidths g).zipIdx.map fun node => nodeLine node.2 node.1
    else []

/-- The lines of the row of a task, one unless the name or the state breaks it. -/
def taskLines (g : Globals) (clkTck : ℕ) (task : Task) : List Text :=
  lines ((columns g).flatMap (printDomainField g.scrMode clkTck g.delayTime task))

theorem nodeBandwidths_eq {nodes : List Long} (h : bandwidths g = .ok nodes) :
    nodeBandwidths g = nodes := by
  unfold bandwidths at h
  unfold nodeBandwidths
  generalize List.range g.lists.now.nodeNum.toNat = l at h ⊢
  induction l generalizing nodes with
  | nil =>
      cases h
      rfl
  | cons i l ih =>
      rw [List.mapM_cons] at h
      obtain ⟨b, hb, h⟩ := bind_eq_ok.1 h
      obtain ⟨bs, hbs, h⟩ := bind_eq_ok.1 h
      cases h
      rw [List.filterMap_cons, toOption_eq_some.2 hb]
      exact congrArg (b :: ·) (ih hbs)

theorem bandwidthText_eq (nodes : List Long) : bandwidthText nodes =
    (hostLine nodes :: nodes.zipIdx.map fun node => nodeLine node.2 node.1).flatMap
      (· ++ ['\n']) := by
  have hhost : " hosttotal\n".toList = " hosttotal".toList ++ ['\n'] := by decide
  have hnode : " mbmtotal\n".toList = " mbmtotal".toList ++ ['\n'] := by decide
  unfold bandwidthText numaLine hostLine nodeLine
  rw [hhost, hnode, List.flatMap_cons, List.flatMap_map]
  simp only [List.append_assoc]

theorem head_eq (g : Globals) (tm : Option Tm) :
    "vmtop - ".toList ++ (getTimeStr tm).getD "err to get time".toList ++ " - ".toList ++
      packageVersion ++ "\nDomains: ".toList ++ decimal g.lists.now.num ++
      " running\n".toList = timeLine tm ++ ['\n'] ++ (runningLine g ++ ['\n']) := by
  have hrunning : " running\n".toList = " running".toList ++ ['\n'] := by decide
  have hdomains : "\nDomains: ".toList = ['\n'] ++ "Domains: ".toList := by decide
  unfold timeLine runningLine
  rw [hrunning, hdomains]
  -- the words of a line play no part
  generalize "vmtop - ".toList = vmtop
  generalize " - ".toList = dash
  generalize "Domains: ".toList = domains
  generalize " running".toList = running
  simp only [List.append_assoc]

/-- What `summary` prints are its lines. -/
theorem summary_eq {tm : Option Tm} {head : Text} (h : summary g tm = .ok head) :
    head = (summaryLines g tm).flatMap (· ++ ['\n']) := by
  unfold summary at h
  dsimp only at h
  rw [head_eq] at h
  rw [summaryLines, List.flatMap_cons, List.flatMap_cons, ← List.append_assoc]
  split_ifs at h ⊢ with hon
  · obtain ⟨nodes, hnodes, h⟩ := bind_eq_ok.1 h
    cases h
    rw [nodeBandwidths_eq hnodes, bandwidthText_eq]
  · cases h
    rw [List.flatMap_nil, List.append_nil]

theorem newline_notMem_timeLine (tm : Option Tm) : '\n' ∉ timeLine tm := by
  have htime := newline_notMem_getTimeStr tm
  unfold timeLine
  exact List.not_mem_append (List.not_mem_append (List.not_mem_append (by decide) htime)
    (by decide)) (by decide)

theorem newline_notMem_runningLine (g : Globals) : '\n' ∉ runningLine g := by
  have hnum : '\n' ∉ decimal g.lists.now.num := notMem_decimal rfl
  unfold runningLine
  exact List.not_mem_append (List.not_mem_append (by decide) hnum) (by decide)

theorem newline_notMem_hostLine (nodes : List Long) : '\n' ∉ hostLine nodes := by
  have hsum := newline_notMem_decimalInt nodes.sum.toInt
  unfold hostLine
  exact List.not_mem_append (List.not_mem_append (by decide) hsum) (by decide)

theorem newline_notMem_nodeLine (i : ℕ) (bandwidth : Long) : '\n' ∉ nodeLine i bandwidth := by
  have hi : '\n' ∉ decimal i := notMem_decimal rfl
  have hbandwidth := newline_notMem_decimalInt bandwidth.toInt
  unfold nodeLine
  exact List.not_mem_append (List.not_mem_append (List.not_mem_append (List.not_mem_append
    (by decide) hi) (by decide)) hbandwidth) (by decide)

/-- None of them is broken. -/
theorem newline_notMem_summaryLines (tm : Option Tm) : ∀ l ∈ summaryLines g tm, '\n' ∉ l := by
  unfold summaryLines
  rw [List.forall_mem_cons, List.forall_mem_cons]
  refine ⟨newline_notMem_timeLine tm, newline_notMem_runningLine g, ?_⟩
  by_cases hon : g.resctrlEnable = true
  · rw [if_pos hon, List.forall_mem_cons, List.forall_mem_map]
    exact ⟨newline_notMem_hostLine _, fun node _ => newline_notMem_nodeLine node.2 node.1⟩
  · rw [if_neg hon]
    exact List.forall_mem_nil _

/-- The lines of a frame. -/
def frameLines (g : Globals) (tm : Option Tm) (clkTck : ℕ) : List Text :=
  summaryLines g tm ++ [[], (columns g).flatMap fun f => pad f.align f.name] ++
    (window g).flatMap (taskLines g clkTck)

/-- What a frame prints are its lines. -/
theorem screen_eq {head : Text} (hhead : summary g input.tm = .ok head) (hbegin : 1 ≤ g.beginTask) :
    head ++ ['\n'] ++ showHeader g ++ showDomains g clkTck =
      (frameLines g input.tm clkTck).flatMap (· ++ ['\n']) := by
  have hrows : ((window g).flatMap (taskLines g clkTck)).flatMap (· ++ ['\n']) =
      (window g).flatMap (taskRow g clkTck) := by
    rw [List.flatMap_assoc]
    exact congrArg (List.flatMap · (window g)) (funext fun task => (lines_spec _).1)
  rw [frameLines, List.flatMap_append, List.flatMap_append, ← summary_eq hhead, hrows,
    showDomains, shownTasks_eq_window hbegin, showHeader, List.flatMap_cons, List.flatMap_cons,
    List.flatMap_nil]
  simp only [List.append_assoc, List.nil_append, List.append_nil]

/-! ### What fits -/

/-- A frame fits the terminal: it takes no more rows than the terminal has, and the row of every
task that is displayed, behind all that is printed before it, ends on one of them. -/
structure OnTerminal (input : FrameInput) (t : Turn) : Prop where
  lines : (height t.frame.scrColSize.toNat t.screen : ℤ) ≤ t.frame.scrRowSize
  tasks : ∀ before task behind,
    shownTasks t.frame (walked t.frame) 0 = before ++ task :: behind →
    ∃ head bottom, t.screen = head ++ showHeader t.frame ++
        (before ++ [task]).flatMap (taskRow t.frame input.clkTck) ++ bottom ∧
      (height t.frame.scrColSize.toNat (head ++ showHeader t.frame ++
        (before ++ [task]).flatMap (taskRow t.frame input.clkTck)) : ℤ) ≤ t.frame.scrRowSize

/-- Where the whole frame fits, each of its rows does. -/
theorem Turned.onTerminal_iff_height (h : Turned input m t) : OnTerminal input t ↔
    (height t.frame.scrColSize.toNat t.screen : ℤ) ≤ t.frame.scrRowSize := by
  refine ⟨OnTerminal.lines, fun hlines => ⟨hlines, fun before task behind hshown => ?_⟩⟩
  obtain ⟨head, -, hscreen⟩ := h.screen
  have happend : before ++ task :: behind = before ++ [task] ++ behind := by
    rw [List.append_assoc, List.singleton_append]
  rw [showDomains, hshown, happend, List.flatMap_append, ← List.append_assoc] at hscreen
  refine ⟨head ++ ['\n'], behind.flatMap (taskRow t.frame input.clkTck), hscreen, ?_⟩
  rw [hscreen] at hlines
  exact (Int.ofNat_le.2 (height_le_append _ _)).trans hlines

/-- The rows that `show_task` leaves no room for: the lines of the bandwidth, the line breaks in
the names and states, and the rows in which lines go on that are longer than the terminal is
wide, for the last line of the frame as far as it reaches. -/
def uncounted (g : Globals) (tm : Option Tm) (clkTck : ℕ) : ℕ :=
  bandwidthLines g + breaks g + folds g.scrColSize.toNat (summaryLines g tm) +
    foldsToLast g.scrColSize.toNat ((window g).flatMap (taskLines g clkTck))

/-- The header stops short of the width of the terminal. -/
theorem length_header_lt (hfields : g.fields.map Fid.column = (fields arch).map Fid.column)
    (hcols : 0 < g.scrColSize) :
    (((columns g).flatMap fun f => pad f.align f.name).length : ℤ) < g.scrColSize := by
  have hsum : (0 : ℤ) + (((columns g).map Fid.align).sum : ℕ) < g.scrColSize :=
    sum_shownFields hcols 0
  rwa [zero_add, ← length_cells fun f hf =>
    length_pad_eq_iff.2 (align_of_mem_columns hfields hf).2.1.le] at hsum

/-- So it does not go on in the next row, and the lines that do are those of the summary and of
the tasks. -/
theorem foldsToLast_frameLines (hfields : g.fields.map Fid.column = (fields arch).map Fid.column)
    (tm : Option Tm) (clkTck : ℕ) :
    foldsToLast g.scrColSize.toNat (frameLines g tm clkTck) =
      folds g.scrColSize.toNat (summaryLines g tm) +
        foldsToLast g.scrColSize.toNat ((window g).flatMap (taskLines g clkTck)) := by
  unfold frameLines
  set header := (columns g).flatMap fun f => pad f.align f.name with hheader
  have hfold : header.length / g.scrColSize.toNat = 0 := by
    rcases lt_or_ge 0 g.scrColSize with hcols | hcols
    · have hlt := length_header_lt hfields hcols
      rw [← hheader] at hlt
      exact Nat.div_eq_of_lt (by omega)
    · rw [Int.toNat_of_nonpos hcols, Nat.div_zero]
  by_cases hrows : (window g).flatMap (taskLines g clkTck) = []
  · have hlast : (header.length - 1) / g.scrColSize.toNat = 0 :=
      Nat.le_zero.1 (hfold ▸ Nat.div_le_div_right (Nat.sub_le ..))
    have htwo : foldsToLast g.scrColSize.toNat [[], header] = 0 := by
      rw [foldsToLast]
      change folds _ [[]] + (header.length - 1) / _ = 0
      rw [hlast, folds_cons, folds_nil, List.length_nil, Nat.zero_div]
    rw [hrows, List.append_nil, foldsToLast_append _ (List.cons_ne_nil _ _), htwo, foldsToLast_nil]
  · rw [foldsToLast_append _ hrows, folds_append, folds_cons, folds_cons, hfold, folds_nil,
      List.length_nil, Nat.zero_div, Nat.add_zero]

/-- **The rows of a frame**: the four that are counted, one for each task, and the others. -/
theorem height_frame (r : ScreenRun) {j : ℕ} (hj : j < r.len)
    (ht : turn (r.input j) (r.state j) = .ok t) (hbegin : 1 ≤ t.frame.beginTask) :
    height t.frame.scrColSize.toNat t.screen = 4 + (window t.frame).length +
      uncounted t.frame (r.input j).tm (r.input j).clkTck := by
  obtain ⟨head, hhead, hscreen⟩ := (turn_turned ht).screen
  obtain ⟨arch, hfields⟩ := r.columns hj ht
  have hnames := r.newline_notMem_name hj ht
  have hlines := hscreen.trans (screen_eq hhead hbegin)
  have hnewline : ∀ l ∈ frameLines t.frame (r.input j).tm (r.input j).clkTck, '\n' ∉ l := by
    have hheader := count_showHeader hnames
    rw [showHeader, List.count_append, List.count_singleton_self] at hheader
    unfold frameLines
    rw [List.forall_mem_append, List.forall_mem_append, List.forall_mem_cons,
      List.forall_mem_singleton]
    refine ⟨⟨newline_notMem_summaryLines _, List.not_mem_nil,
      List.count_eq_zero.1 (Nat.succ.inj hheader)⟩, fun l hl => ?_⟩
    obtain ⟨task, -, hl⟩ := List.mem_flatMap.1 hl
    exact (lines_spec _).2 l hl
  -- the lines are as many as the newlines
  have hcount : t.screen.count '\n' =
      4 + bandwidthLines t.frame + breaks t.frame + (window t.frame).length := by
    rw [hscreen, List.count_append, List.count_append, List.count_append, count_summary hhead,
      count_showHeader hnames, count_showDomains hbegin, List.count_singleton_self]
    omega
  have hlength := length_lines t.screen
  rw [hcount, hlines, lines_flatMap hnewline, List.length_append, List.length_singleton] at hlength
  have hne : frameLines t.frame (r.input j).tm (r.input j).clkTck ≠ [] := by
    rw [← List.length_pos_iff]
    omega
  rw [hlines, height_flatMap hne hnewline, foldsToLast_frameLines hfields, uncounted]
  omega

end Vmtop
