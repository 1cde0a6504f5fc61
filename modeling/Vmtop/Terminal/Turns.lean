/-
# The turns of a run in terminal mode

A turn of the main loop takes a snapshot, draws it, and waits for a key
(`Turned`).  Drawing sets the flags of some columns and nothing else, and a key
changes what is displayed and where it begins; so the options, the build and the
titles of the columns stay what they were at the start (`ScreenRun.settings`), and the
lists of a run on the screen are those of a run of frames (`ScreenRun.lists`).
-/

import Vmtop.History.Records
import Vmtop.Screen

namespace Vmtop

open CText CArray Runs

variable {input : FrameInput} {m : Main} {t : Turn} {g g' : Globals}

/-! ### The parts of a turn -/

/-- A turn begins with a snapshot, and with the size of the terminal. -/
theorem beginFrame_ok (h : beginFrame g input = .ok g') :
    sampleFrame g.config input.env g.lists = .ok g'.lists ∧
      g' = { g with
        scrRowSize := g'.scrRowSize
        scrColSize := g'.scrColSize
        lists := g'.lists
        resctrlEnable := resctrlEnable g.config input.env } := by
  unfold beginFrame at h
  dsimp only at h
  split at h <;>
    obtain ⟨lists, hlists, h⟩ := bind_eq_ok.1 h <;>
    cases h <;>
    exact ⟨hlists, rfl⟩

/-- A column, whether it is displayed or not. -/
def Fid.column (f : Fid) : Fid := { f with displayFlag := false }

/-- Setting flags leaves the columns what they are. -/
theorem map_column_modify (fields : List Fid) (k : ℕ) (flag : Fid → Bool) :
    (fields.modify k fun f => { f with displayFlag := flag f }).map Fid.column =
      fields.map Fid.column := by
  induction fields generalizing k with
  | nil => simp
  | cons f fields ih =>
      cases k with
      | zero => rfl
      | succ k => simp [ih]

theorem setNodeFlags_columns {fields : List Fid} (h : setNodeFlags g = .ok fields) :
    fields.map Fid.column = g.fields.map Fid.column := by
  have hends : Ends (setNodeFlags g) (fun fields : List Fid =>
      fields.map Fid.column = g.fields.map Fid.column) fun _ => True := by
    refine Ends.foldlM (fun fields i _ hfields => ?_) rfl
    dsimp only
    split_ifs
    · exact (map_column_modify _ _ _).trans hfields
    · trivial
  rw [h] at hends
  exact hends

/-- Where the display begins behind a key. -/
def scrolled (key : Option Key) (g : Globals) : ℤ :=
  let taskNum := if g.threadMode then getTaskNum g.lists.now else g.lists.now.num
  match key with
  | some .npage => min (g.beginTask + (g.scrRowSize - 6)) taskNum
  | some .up => min (g.beginTask + 1) taskNum
  | some .ppage => max (g.beginTask - (g.scrRowSize - 6)) 1
  | some .down => max (g.beginTask - 1) 1
  | some (.char 'H') => 1
  | _ => g.beginTask

/-- What a key changes. -/
structure Keyed (key : Option Key) (g g' : Globals) : Prop where
  beginTask : g'.beginTask = scrolled key g
  threadMode : g'.threadMode = if key = some (.char 'H') then !g.threadMode else g.threadMode
  columns : g'.fields.map Fid.column = g.fields.map Fid.column
  other : g' = { g with
    fields := g'.fields
    quitFlag := g'.quitFlag
    beginTask := g'.beginTask
    beginField := g'.beginField
    threadMode := g'.threadMode
    displayLoop := g'.displayLoop }

/-- The filter sets flags. -/
theorem showFilter_columns {delayTime : ℤ} {presses : List (Option KeyPress)} {highLight : ℕ}
    {fields : List Fid} {r : List Fid × ℚ}
    (h : showFilter delayTime presses highLight fields = some r) :
    r.1.map Fid.column = fields.map Fid.column := by
  induction presses generalizing highLight fields r with
  | nil => cases h
  | cons press rest ih =>
      simp only [showFilter] at h
      split at h
      case h_4 =>
        cases h
        rfl
      all_goals
        obtain ⟨r', hr', rfl⟩ := Option.map_eq_some_iff.1 h
        have hfields := ih hr'
      case h_3 => exact hfields.trans (map_column_modify _ _ _)
      all_goals exact hfields

theorem scrollForward_beginTask (scrollSize : ℤ) (g : Globals) :
    (scrollForward scrollSize g).beginTask = min (g.beginTask + scrollSize)
      (if g.threadMode then getTaskNum g.lists.now else g.lists.now.num) := by
  simp only [scrollForward]
  split_ifs <;> omega

theorem scrollBack_beginTask (scrollSize : ℤ) (g : Globals) :
    (scrollBack scrollSize g).beginTask = max (g.beginTask - scrollSize) 1 := by
  simp only [scrollBack]
  split_ifs <;> omega

theorem parseKeys_keyed {filter : List (Option KeyPress)} {key : Key} {seconds : ℚ}
    (h : parseKeys filter key g = some (g', seconds)) : Keyed (some key) g g' := by
  unfold parseKeys at h
  split at h
  case h_1 =>
    obtain ⟨r, hr, h⟩ := Option.map_eq_some_iff.1 h
    cases h
    exact ⟨rfl, rfl, showFilter_columns hr, rfl⟩
  all_goals cases h
  case h_3 => exact ⟨scrollForward_beginTask _ g, rfl, rfl, rfl⟩
  case h_4 => exact ⟨scrollForward_beginTask _ g, rfl, rfl, rfl⟩
  case h_5 => exact ⟨scrollBack_beginTask _ g, rfl, rfl, rfl⟩
  case h_6 => exact ⟨scrollBack_beginTask _ g, rfl, rfl, rfl⟩
  case h_10 hH =>
    refine ⟨?_, (if_neg fun h => hH (Option.some.inj h)).symm, rfl, rfl⟩
    unfold scrolled
    split <;> simp_all
  all_goals exact ⟨rfl, rfl, rfl, rfl⟩

/-- What a turn does behind the drawing. -/
theorem endFrame_keyed {seconds : ℚ} (h : endFrame g input = some (g', seconds)) :
    Keyed ((pressed g input).map KeyPress.key) g g' := by
  obtain ⟨⟨keyed, more⟩, hkeyed, h⟩ := Option.map_eq_some_iff.1 h
  cases h
  cases hpress : pressed g input with
  | none =>
      rw [hpress] at hkeyed
      cases hkeyed
      exact ⟨rfl, rfl, rfl, rfl⟩
  | some press =>
      rw [hpress] at hkeyed
      have hkey := parseKeys_keyed hkeyed
      refine ⟨hkey.beginTask, hkey.threadMode, hkey.columns, ?_⟩
      rw [hkey.other]

/-- A step of the main loop is a turn. -/
theorem mainStep_eq_ok {m' : Main} (h : mainStep input m = .ok m') :
    ∃ t, turn input m = .ok t ∧ t.next = m' := by
  unfold mainStep at h
  cases hturn : turn input m with
  | error e =>
      rw [hturn] at h
      cases h
  | ok t =>
      rw [hturn] at h
      exact ⟨t, rfl, Except.ok.inj h⟩

/-- How a turn comes about. -/
structure Turned (input : FrameInput) (m : Main) (t : Turn) : Prop where
  sampled : sampleFrame m.g.config input.env m.g.lists = .ok t.frame.lists
  framed : t.frame = { m.g with
    scrRowSize := t.frame.scrRowSize
    scrColSize := t.frame.scrColSize
    lists := t.frame.lists
    fields := t.frame.fields
    resctrlEnable := resctrlEnable m.g.config input.env }
  columns : t.frame.fields.map Fid.column = m.g.fields.map Fid.column
  screen : ∃ head, summary t.frame input.tm = .ok head ∧
    t.screen = head ++ ['\n'] ++ showHeader t.frame ++ showDomains t.frame input.clkTck
  ended : endFrame t.frame input = some (t.next.g, t.seconds)

theorem turn_turned (h : turn input m = .ok t) : Turned input m t := by
  unfold turn at h
  split_ifs at h
  split at h
  · cases h
  · rename_i g hbegin
    obtain ⟨hsampled, hother⟩ := beginFrame_ok hbegin
    split at h
    · cases h
    · rename_i frame screen hdraw
      obtain ⟨head, hhead, hdraw⟩ := bind_eq_ok.1 hdraw
      obtain ⟨fields, hfields, hdraw⟩ := bind_eq_ok.1 hdraw
      cases hdraw
      split at h
      · cases h
      · rename_i g' seconds hend
        cases h
        refine ⟨hsampled, ?_, ?_, ⟨head, hhead, rfl⟩, hend⟩
        · dsimp only
          rw [hother]
        · exact (setNodeFlags_columns hfields).trans (by rw [hother])

/-- A turn draws the snapshot it begins with, in which only the flags of the nodes are set. -/
theorem turn_drawn (h : turn input m = .ok t) :
    ∃ g, beginFrame m.g input = .ok g ∧ setNodeFlags g = .ok t.frame.fields ∧
      t.frame = { g with fields := t.frame.fields } := by
  unfold turn at h
  split_ifs at h
  split at h
  · cases h
  · rename_i g hbegin
    split at h
    · cases h
    · rename_i frame screen hdraw
      obtain ⟨head, -, hdraw⟩ := bind_eq_ok.1 hdraw
      obtain ⟨fields, hfields, hdraw⟩ := bind_eq_ok.1 hdraw
      cases hdraw
      split at h
      · cases h
      · cases h
        exact ⟨g, hbegin, hfields, rfl⟩

/-- In terminal mode the key of a turn counts. -/
theorem Turned.pressed (h : Turned input m t) (hmode : m.g.scrMode = .term) :
    pressed t.frame input = input.press := by
  have hframe : t.frame.scrMode = .term := by rw [h.framed, hmode]
  rw [Vmtop.pressed, hframe]

/-! ### Runs on the screen -/

/-- What no turn changes: the options, and the columns but for their flags. -/
structure Settings where
  config : Config
  delayTime : ℤ
  scrMode : ScrMode
  columns : List Fid

def Globals.settings (g : Globals) : Settings :=
  ⟨g.config, g.delayTime, g.scrMode, g.fields.map Fid.column⟩

theorem Turned.settings (h : Turned input m t) :
    t.frame.settings = m.g.settings ∧ t.next.g.settings = m.g.settings := by
  have hframe : t.frame.settings = m.g.settings := by
    rw [Globals.settings, h.columns, h.framed]
    rfl
  have hkeyed := endFrame_keyed h.ended
  refine ⟨hframe, Eq.trans ?_ hframe⟩
  rw [Globals.settings, hkeyed.columns, hkeyed.other]
  rfl

/-- The lists behind a turn are those that were drawn. -/
theorem Turned.lists (h : Turned input m t) : t.next.g.lists = t.frame.lists := by
  rw [(endFrame_keyed h.ended).other]

/-- The options change nothing that is on the screen. -/
theorem parseArgs_other {opts : List Opt} (h : parseArgs opts g = .ok g') :
    g' = { g with
      delayTime := g'.delayTime
      threadMode := g'.threadMode
      displayLoop := g'.displayLoop
      scrMode := g'.scrMode
      monitorId := g'.monitorId
      resctrlParamEnable := g'.resctrlParamEnable } := by
  induction opts generalizing g with
  | nil =>
      cases h
      rfl
  | cons opt opts ih =>
      cases opt <;> simp only [parseArgs] at h <;> try split_ifs at h
      case h | v | unknown => cases h
      all_goals
        have hrest := ih h
        exact hrest

/-- The main loop of vmtop begins, with any options it accepts. -/
def Begins (m : Main) : Prop :=
  m.ended = false ∧ ∃ arch rows opts, parseArgs opts (initParameter arch rows) = .ok m.g

/-- A run of the main loop, on a terminal or in text mode. -/
abbrev MainRun := Run (fun m input m' => mainStep input m = .ok m') Begins

/-- The main loop of vmtop in terminal mode begins, with any options it accepts. -/
def Start (m : Main) : Prop :=
  m.ended = false ∧ m.g.scrMode = .term ∧
    ∃ arch rows opts, parseArgs opts (initParameter arch rows) = .ok m.g

/-- A run of the main loop in terminal mode. -/
abbrev ScreenRun := Run (fun m input m' => mainStep input m = .ok m') Start

namespace ScreenRun

variable (r : ScreenRun) {j : ℕ}

theorem exists_turn (hj : j < r.len) :
    ∃ t, turn (r.input j) (r.state j) = .ok t ∧ t.next = r.state (j + 1) :=
  mainStep_eq_ok (r.next j hj)

/-- The state that a turn of a run leads to. -/
theorem next_eq (hj : j < r.len) (h : turn (r.input j) (r.state j) = .ok t) :
    r.state (j + 1) = t.next := by
  obtain ⟨t', ht', hnext⟩ := r.exists_turn hj
  rw [h] at ht'
  cases ht'
  exact hnext.symm

/-- **No turn changes the options or the columns.** -/
theorem settings (hj : j ≤ r.len) : (r.state j).g.settings = (r.state 0).g.settings := by
  refine r.constant (fun m => m.g.settings) (fun m input m' hstep => ?_) j hj
  obtain ⟨t, hturn, rfl⟩ := mainStep_eq_ok hstep
  exact (turn_turned hturn).settings.2

/-- The columns of a frame are those of the table. -/
theorem columns (hj : j < r.len) (h : turn (r.input j) (r.state j) = .ok t) :
    ∃ arch, t.frame.fields.map Fid.column = (fields arch).map Fid.column := by
  obtain ⟨-, -, arch, rows, opts, hargs⟩ := r.start
  have hframe := (turn_turned h).settings.1.trans (r.settings hj.le)
  refine ⟨arch, (congrArg Settings.columns hframe).trans ?_⟩
  rw [Globals.settings, parseArgs_other hargs]
  rfl

theorem scrMode (hj : j ≤ r.len) : (r.state j).g.scrMode = .term :=
  (congrArg Settings.scrMode (r.settings hj)).trans r.start.2.1

/-- **The lists of a run on the screen are those of a run of frames.** -/
def lists : FrameRun (r.state 0).g.config where
  len := r.len
  state j := (r.state j).g.lists
  input j := (r.input j).env
  start := by
    obtain ⟨-, -, arch, rows, opts, h⟩ := r.start
    refine ⟨rows, ?_⟩
    rw [parseArgs_other h]
    rfl
  next j hj := by
    obtain ⟨t, hturn, hnext⟩ := r.exists_turn hj
    have h := turn_turned hturn
    have hconfig : (r.state j).g.config = (r.state 0).g.config :=
      congrArg Settings.config (r.settings hj.le)
    rw [← hnext, h.lists, ← hconfig]
    exact h.sampled

end ScreenRun

/-! ### The run of given inputs -/

/-- Turn `j` of the inputs. -/
def turnAt (inputs : List FrameInput) (m : Main) (j : ℕ) : Option Turn :=
  (runAll mainStep (inputs.take j) m).toOption.bind fun m =>
    inputs[j]?.bind fun input => (turn input m).toOption

/-- **The run of given inputs**, with its turns. -/
theorem exists_screenRun (inputs : List FrameInput) {m : Main} (hm : Start m)
    (h : (runAll mainStep inputs m).toOption.isSome) :
    ∃ r : ScreenRun, r.len = inputs.length ∧ r.state 0 = m ∧
      (∀ j, r.input j = inputs[j]?.getD default) ∧ ∀ j < inputs.length, ∃ t,
        turn (r.input j) (r.state j) = .ok t ∧ turnAt inputs m j = some t := by
  obtain ⟨m', hm'⟩ := Option.isSome_iff_exists.1 h
  obtain ⟨r, hlen, hinput, hstate⟩ : ∃ r : ScreenRun, r.len = inputs.length ∧
      (∀ j, r.input j = inputs[j]?.getD default) ∧
      ∀ j, runAll mainStep (inputs.take j) m = .ok (r.state j) :=
    exists_run (toOption_eq_some.1 hm') hm
  refine ⟨r, hlen, (Except.ok.inj (hstate 0)).symm, hinput, fun j hj => ?_⟩
  obtain ⟨t, hturn, -⟩ := r.exists_turn (hlen ▸ hj)
  refine ⟨t, hturn, ?_⟩
  rw [hinput, List.getElem?_eq_getElem hj, Option.getD_some] at hturn
  simp only [turnAt, toOption_eq_some.2 (hstate j), List.getElem?_eq_getElem hj, Option.bind_some]
  exact toOption_eq_some.2 hturn

/-- The globals at the start. -/
def zeroGlobals : Globals := initParameter .other fun _ => Task.zero

/-- The globals at the start where bandwidth is asked for. -/
def meteredGlobals : Globals := { zeroGlobals with resctrlParamEnable := true }

/-- A turn on a terminal of 80 columns whose clock does not tell the time. -/
def terminalTurn (env : FrameEnv) (rows : ℤ) (press : Option KeyPress) : FrameInput :=
  ⟨env, rows, 80, none, 100, press, []⟩

/-- A key pressed when a third of the delay time has passed. -/
def earlyKey (key : Key) : KeyPress := ⟨key, 1 / 3, by decide +kernel, by decide +kernel⟩

end Vmtop
