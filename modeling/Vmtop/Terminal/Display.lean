/-
# What stands on the screen

A turn draws its frame over what the turn before, or the field filter, has left on the screen.
Every line that is printed clears what stood behind it, and `show_domains` clears what is left
below, so once the frame is drawn the screen shows its lines and nothing else
(`turn_shows`): the lines that text mode prints, of which the header is shown in reverse.
-/

import Vmtop.Display
import Vmtop.Terminal.Lines

namespace Vmtop
namespace Display

open CText CArray Runs Windows

variable {rows cols : ℕ} {w : Window rows cols} {s : w.State} {p : Page} {g : Globals}
  {clkTck : ℕ}

/-! ### The parts of a frame -/

/-- The summary is drawn as text mode prints it. -/
theorem summary_shows {tm : Option Tm} {head : Text} (h : Displays w s p false)
    (hsummary : Vmtop.summary g tm = .ok head) (hp : (p.writeText false head).Fits rows cols)
    (hprint : ∀ c ∈ head, c = '\n' ∨ Printable c) :
    ∃ s', summary w g tm s = .ok s' ∧ Displays w s' (p.writeText false head) false := by
  simp only [Vmtop.summary] at hsummary
  simp only [summary]
  split_ifs at hsummary ⊢ with hon
  · obtain ⟨nodes, hnodes, hsummary⟩ := bind_eq_ok.1 hsummary
    cases hsummary
    rw [hnodes, ok_bind]
    refine ⟨_, rfl, ?_⟩
    change ∀ c ∈ summaryText _ g.lists.now.num ++ (summaryTotalBandwidth nodes.sum ++
      nodes.zipIdx.flatMap fun node => numaLine node.2 node.1), _ at hprint
    change (p.writeText false (summaryText _ g.lists.now.num ++ (summaryTotalBandwidth nodes.sum ++
      nodes.zipIdx.flatMap fun node => numaLine node.2 node.1))).Fits rows cols at hp
    change Displays w _ (p.writeText false (summaryText _ g.lists.now.num ++
      (summaryTotalBandwidth nodes.sum ++
        nodes.zipIdx.flatMap fun node => numaLine node.2 node.1))) false
    rw [List.forall_mem_append, List.forall_mem_append] at hprint
    rw [Page.writeText_append, Page.writeText_append] at hp ⊢
    have htotal := Page.Fits.of_writeText _ hp
    have hhead := h.addstr (.of_writeText _ htotal) hprint.1
    exact (hhead.addstr htotal hprint.2.1).addstrs hp hprint.2.2
  · cases hsummary
    exact ⟨_, rfl, h.addstr hp hprint⟩

/-- The header is drawn in reverse, but for the newline. -/
theorem showHeader_shows {cells : Text} (h : Displays w s p false)
    (hcells : cells = (columns g).flatMap fun f => pad f.align f.name)
    (hp : ((p.writeText true cells).writeText false ['\n']).Fits rows cols)
    (hprint : ∀ c ∈ cells, c = '\n' ∨ Printable c) :
    Displays w (showHeader w g s) ((p.writeText true cells).writeText false ['\n']) false := by
  subst hcells
  have hdrawn := (h.attr true).addstrs (.of_writeText _ hp) hprint
  exact (hdrawn.attr false).addstr hp (by simp)

/-- The rows of the tasks. -/
theorem showTasks_shows {tasks : List Task} (h : Displays w s p false) (hrows : 0 < rows)
    (hp : (p.writeText false (tasks.flatMap (taskRow g clkTck))).Fits rows cols)
    (hprint : ∀ c ∈ tasks.flatMap (taskRow g clkTck), c = '\n' ∨ Printable c) :
    Displays w (tasks.foldl (showTask w g clkTck) s)
      (p.writeText false (tasks.flatMap (taskRow g clkTck))) false := by
  induction tasks generalizing s p with
  | nil => exact h
  | cons task tasks ih =>
      rw [List.flatMap_cons, List.forall_mem_append] at hprint
      rw [List.flatMap_cons, Page.writeText_append] at hp ⊢
      have hrow : (p.writeText false (taskRow g clkTck task)).Fits rows cols := .of_writeText _ hp
      have hcells := hprint.1
      rw [taskRow, List.forall_mem_append] at hcells
      rw [taskRow, Page.writeText_append] at hrow
      -- the row is cleared before it is drawn
      have hcleared := h.clrtoeol (.of_writeText _ (.of_writeText _ hrow)) hrows
      have hdrawn := (hcleared.addstrs (.of_writeText _ hrow) hcells.1).addstr hrow (by simp)
      rw [← Page.writeText_append] at hdrawn
      exact ih hdrawn hp hprint.2

/-! ### The frame -/

/-- What a frame shows in a row and a column: what is printed there, the header in reverse. -/
def frameGlyph (g : Globals) (screen : Text) (y x : ℕ) : Glyph :=
  ⟨((lines screen).getD y []).getD x ' ',
    decide (y = 3 + bandwidthLines g ∧
      x < ((columns g).flatMap fun f => pad f.align f.name).length)⟩

/-- The page of a text that is written around a line in reverse. -/
theorem glyph_header {head cells text : Text} (hcells : '\n' ∉ cells) (y x : ℕ) :
    ((((Page.empty.writeText false (head ++ ['\n'])).writeText true cells).writeText false
      ['\n']).writeText false text).glyph y x =
        ⟨((lines (head ++ ['\n'] ++ (cells ++ ['\n']) ++ text)).getD y []).getD x ' ',
          decide (y = (head ++ ['\n']).count '\n' ∧ x < cells.length)⟩ := by
  have hfirst := Page.Spells.empty.writeText false (head ++ ['\n'])
  rw [List.nil_append] at hfirst
  have hall := ((hfirst.writeText true cells).writeText false ['\n']).writeText false text
  rw [List.append_assoc (head ++ ['\n'])] at hall
  have hplain := Page.plain_writeText (p := Page.empty) (by simp [Page.Plain, Page.empty])
    (head ++ ['\n'])
  have hbehind := Page.plain_writeText (p := Page.empty) (by simp [Page.Plain, Page.empty]) text
  have hlength := hfirst.length_done
  have hlast := hfirst.last_eq_nil
  generalize Page.empty.writeText false (head ++ ['\n']) = first at *
  have hpage : ((first.writeText true cells).writeText false ['\n']).writeText false text =
      ⟨(first.done ++ [cells.map fun c => ⟨c, true⟩]) ++ (Page.empty.writeText false text).done,
        (Page.empty.writeText false text).last⟩ := by
    rw [Page.writeText_line hcells, hlast, List.nil_append, ← Page.writeText_done]
    simp [Page.writeText, Page.write, Page.empty]
  have hreverse : ((((first.writeText true cells).writeText false ['\n']).writeText false
      text).glyph y x).reverse = decide (y = first.done.length ∧ x < cells.length) := by
    rw [hpage, Page.glyph]
    dsimp only
    rw [List.append_assoc, List.append_assoc]
    by_cases hy : y < first.done.length
    · rw [List.getD_append _ _ _ _ hy, decide_eq_false fun hrow => hy.ne hrow.1]
      exact Page.Plain.reverse_getD (List.forall_mem_append.1 hplain).1 y x
    · rw [List.getD_append_right _ _ _ _ (Nat.not_lt.1 hy)]
      obtain ⟨k, rfl⟩ := Nat.exists_eq_add_of_le (Nat.not_lt.1 hy)
      rw [Nat.add_sub_cancel_left]
      cases k with
      | zero =>
          rw [List.singleton_append, List.getD_cons_zero, Nat.add_zero]
          by_cases hx : x < cells.length
          · rw [List.getD_eq_getElem _ _ (by rwa [List.length_map]), List.getElem_map]
            simp [hx]
          · rw [List.getD_eq_default _ _ (by rw [List.length_map]; exact Nat.not_lt.1 hx)]
            simp [hx, blank]
      | succ k =>
          rw [List.singleton_append, List.getD_cons_succ, decide_eq_false fun hrow => by omega]
          exact hbehind.reverse_getD k x
  have hchar := hall.char_glyph y x
  rw [← hlength, ← hchar, ← hreverse]

/-- A frame ends with a newline. -/
theorem exists_screen_concat (head : Text) (g : Globals) (clkTck : ℕ) (tasks : List Task) :
    ∃ t, head ++ Vmtop.showHeader g ++ tasks.flatMap (taskRow g clkTck) = t ++ ['\n'] := by
  rcases List.eq_nil_or_concat tasks with rfl | ⟨front, task, rfl⟩
  · refine ⟨head ++ (columns g).flatMap fun f => pad f.align f.name, ?_⟩
    rw [Vmtop.showHeader]
    simp
  · refine ⟨head ++ Vmtop.showHeader g ++ front.flatMap (taskRow g clkTck) ++
      (columns g).flatMap (printDomainField g.scrMode clkTck g.delayTime task), ?_⟩
    rw [List.concat_eq_append, List.flatMap_append, List.flatMap_singleton, taskRow]
    simp only [List.append_assoc]

/-- **A frame is all that stands on the screen**, whatever stood there before. -/
theorem drawFrame_shows {g g' : Globals} {tm : Option Tm} {screen : Text}
    (hdraw : Vmtop.drawFrame g tm clkTck = .ok (g', screen))
    (hnames : ∀ f ∈ g'.fields, '\n' ∉ f.name) (hcount : screen.count '\n' ≤ rows)
    (hlines : ∀ l ∈ lines screen, l.length < cols)
    (hprint : ∀ c ∈ screen, c = '\n' ∨ Printable c) (hs : (w.view s).reverse = false) :
    ∃ s', drawFrame w g tm clkTck s = .ok (g', s') ∧ (w.view s').reverse = false ∧
      ∀ y < rows, ∀ x, (w.view s').glyph y x = frameGlyph g' screen y x := by
  obtain ⟨head, hhead, hdraw⟩ := bind_eq_ok.1 hdraw
  obtain ⟨fields, hfields, hdraw⟩ := bind_eq_ok.1 hdraw
  cases hdraw
  set g' : Globals := { g with fields := fields } with hg'
  set cells := (columns g').flatMap fun f => pad f.align f.name with hcells
  have hnewline : '\n' ∉ cells := by
    have hzero := count_showHeader hnames
    rw [Vmtop.showHeader, ← hcells, List.count_append, List.count_singleton_self] at hzero
    exact List.count_eq_zero.1 (Nat.succ.inj hzero)
  have hrow : (head ++ ['\n']).count '\n' = 3 + bandwidthLines g' := by
    rw [List.count_append, count_summary hhead, List.count_singleton_self]
    exact Nat.add_right_comm 2 (bandwidthLines g) 1
  -- the page of the frame, and why it fits
  have hspells := (((Page.Spells.empty.writeText false (head ++ ['\n'])).writeText true
    cells).writeText false ['\n']).writeText false (Vmtop.showDomains g' clkTck)
  rw [List.nil_append, List.append_assoc (head ++ ['\n']) cells] at hspells
  obtain ⟨t, ht⟩ := exists_screen_concat (head ++ ['\n']) g' clkTck (shownTasks g' (walked g') 0)
  have hlast := Page.Spells.last_eq_nil (t := t) (ht ▸ hspells)
  have hfits := hspells.fits ((Nat.lt_or_eq_of_le hcount).imp_right fun heq => ⟨heq, hlast⟩) hlines
  have hfits₃ := Page.Fits.of_writeText _ hfits
  have hfits₁ := Page.Fits.of_writeText _ (Page.Fits.of_writeText _ hfits₃)
  have hrows : 0 < rows := by
    rw [List.count_append, List.count_append, hrow] at hcount
    omega
  have hcols : 0 < cols := Nat.zero_lt_of_lt hfits.last
  simp only [List.forall_mem_append] at hprint
  obtain ⟨⟨⟨hprintHead, -⟩, hprintHeader⟩, hprintRows⟩ := hprint
  -- what is drawn
  rw [Page.writeText_append] at hfits₁
  obtain ⟨s₁, hok, hshows⟩ := summary_shows (Displays.start hrows hcols hs) hhead
    (.of_writeText _ hfits₁) hprintHead
  have hshows₁ := hshows.addstr hfits₁ (by simp)
  rw [← Page.writeText_append] at hshows₁
  have hshows₃ := showHeader_shows hshows₁ hcells hfits₃
    (List.forall_mem_append.1 hprintHeader).1
  have hshows₄ := showTasks_shows hshows₃ hrows hfits hprintRows
  obtain ⟨⟨under, hdrawn⟩, hreverse⟩ := hshows₄
  refine ⟨showDomains w g' clkTck (showHeader w g' (w.addstr ['\n'] s₁)), ?_, ?_, ?_⟩
  · rw [drawFrame]
    dsimp only
    rw [hok, ok_bind, hfields, ok_bind]
  · rw [showDomains, w.view_clrtobot]
    exact hreverse
  · intro y hy x
    rw [showDomains, w.view_clrtobot, hdrawn.clrtobot hfits hy, glyph_header hnewline, hrow]
    rfl

/-! ### Turns -/

/-- A turn up to the key draws the frame that it returns. -/
theorem turn_eq_ok {input : FrameInput} {m : Main} {t : Turn} (h : turn input m = .ok t) :
    ∃ g, beginFrame m.g input = .ok g ∧
      Vmtop.drawFrame g input.tm input.clkTck = .ok (t.frame, t.screen) := by
  unfold turn at h
  split_ifs at h
  split at h
  · cases h
  · rename_i g hbegin
    split at h
    · cases h
    · rename_i frame screen hdraw
      split at h
      · cases h
      · cases h
        exact ⟨g, hbegin, hdraw⟩

/-- In terminal mode a frame is made for the rows that the terminal has. -/
theorem frame_scrRowSize {input : FrameInput} {m : Main} {t : Turn} (h : turn input m = .ok t)
    (hmode : m.g.scrMode = .term) : t.frame.scrRowSize = input.rows := by
  obtain ⟨g, hbegin, -, hdrawn⟩ := turn_drawn h
  rw [hdrawn]
  simp only [beginFrame, hmode] at hbegin
  obtain ⟨lists, -, hbegin⟩ := bind_eq_ok.1 hbegin
  cases hbegin
  rfl

/-- **In every turn of every run the screen shows the frame and nothing else**, where the frame
fits it. -/
theorem turn_shows (r : ScreenRun) {j : ℕ} (hj : j < r.len) {t : Turn}
    (ht : turn (r.input j) (r.state j) = .ok t) (hmode : (r.state j).g.scrMode = .term)
    (w : Window rows cols) (hsize : (r.input j).rows = rows ∧ (r.input j).cols = cols)
    (hcount : (t.screen.count '\n' : ℤ) ≤ t.frame.scrRowSize)
    (hlines : ∀ l ∈ lines t.screen, l.length < (r.input j).cols)
    (hprint : ∀ c ∈ t.screen, c = '\n' ∨ Printable c) (s : w.State)
    (hs : (w.view s).reverse = false) :
    ∃ s', frame w (r.input j) (r.state j).g s = .ok (t.frame, s') ∧
      (w.view s').reverse = false ∧
      ∀ y < rows, ∀ x < cols, (w.view s').glyph y x = frameGlyph t.frame t.screen y x := by
  obtain ⟨g, hbegin, hdraw⟩ := turn_eq_ok ht
  rw [frame_scrRowSize ht hmode, hsize.1] at hcount
  rw [hsize.2] at hlines
  obtain ⟨s', hok, hreverse, hglyph⟩ := drawFrame_shows (w := w) (s := s) hdraw
    (r.newline_notMem_name hj ht) (Int.ofNat_le.1 hcount) (fun l hl => Int.ofNat_lt.1 (hlines l hl))
    hprint hs
  refine ⟨s', ?_, hreverse, fun y hy x _ => hglyph y hy x⟩
  rw [frame, hbegin, ok_bind]
  exact hok

/-- A screen that is full of marks. -/
def marked : View := ⟨fun _ _ => ⟨'x', true⟩, (7, 7), false⟩

/-- Nothing is left of the marks, behind a line or below the last one. -/
theorem turn_shows_metered : ∃ (r : ScreenRun) (t : Turn) (v : View),
    turn (r.input 0) (r.state 0) = .ok t ∧
      frame (.grid 24 80) (r.input 0) (r.state 0).g marked = .ok (t.frame, v) ∧
      (List.range 24).map (fun y => (v.glyph y 4).char) =
        "piM0 D0".toList ++ List.replicate 17 ' ' := by
  have hmetered : (turn (meteredTurn 24) ⟨meteredGlobals, false⟩).toOption.map (fun t =>
      (decide ((t.screen.count '\n' : ℤ) ≤ t.frame.scrRowSize),
        (lines t.screen).all fun l => l.length < 80,
        t.screen.all fun c => c = '\n' ∨ Printable c,
        (List.range 24).map fun y => (frameGlyph t.frame t.screen y 4).char)) =
      some (true, true, true, "piM0 D0".toList ++ List.replicate 17 ' ') := by decide +kernel
  obtain ⟨t, hturn, hframe⟩ := Option.map_eq_some_iff.1 hmetered
  rw [toOption_eq_some] at hturn
  simp only [Prod.mk.injEq, decide_eq_true_eq, List.all_eq_true] at hframe
  obtain ⟨hcount, hlines, hprint, hglyphs⟩ := hframe
  have hrun : runAll mainStep [meteredTurn 24] ⟨meteredGlobals, false⟩ = .ok t.next := by
    simp only [runAll, mainStep, hturn]
    rfl
  obtain ⟨r, hlen, hstart, hinput, -⟩ := exists_screenRun [meteredTurn 24]
    ⟨rfl, rfl, .other, fun _ => Task.zero, [.G], rfl⟩ (by rw [hrun]; rfl)
  have hinput₀ : r.input 0 = meteredTurn 24 := hinput 0
  rw [← hinput₀, ← hstart] at hturn
  have hmode : (r.state 0).g.scrMode = .term := by
    rw [hstart]
    rfl
  have hsize : (r.input 0).rows = (24 : ℕ) ∧ (r.input 0).cols = (80 : ℕ) := by
    rw [hinput₀]
    exact ⟨rfl, rfl⟩
  obtain ⟨v, hv, -, hglyph⟩ := turn_shows r (hlen ▸ Nat.zero_lt_one) hturn hmode (.grid 24 80)
    hsize hcount (fun l hl => by rw [hsize.2]; exact Int.ofNat_lt.2 (hlines l hl)) hprint marked rfl
  refine ⟨r, t, v, hturn, hv, ?_⟩
  rw [← hglyphs]
  refine List.map_congr_left fun y hy => ?_
  exact congrArg Glyph.char (hglyph y (List.mem_range.1 hy) 4 (by decide))

end Display
end Vmtop
