/-
# A window of characters

What stands in a window that a program draws in, and what the calls that draw do to it
(`View`).  A `Window` is any implementation of these calls that does so within its size: what
it does at its edges is left open, but for a newline on the last row, which clears the rest of
that row and is an error.

A program that writes text into a window and clears behind it leaves a page of lines.  A page
that fits the window is drawn as it is written (`Drawn.addstr`), and once the window is cleared to
its bottom nothing else stands in it (`Drawn.clrtobot`), whatever stood there before.  A text that
breaks no line changes nothing but the places that it is written to (`Window.view_mvaddstr`).
-/

import Mathlib.Data.List.GetD
import Vmtop.Lib.CText

namespace Windows

open CText

/-! ### What stands in a window -/

/-- What stands in one place: a character, and whether it is shown in reverse. -/
structure Glyph where
  char : Char
  reverse : Bool
  deriving DecidableEq

/-- What stands in a place that was cleared. -/
def blank : Glyph := ⟨' ', false⟩

/-- A window as a program sees it: what stands in a row and a column, where the cursor is, and
whether characters are written in reverse. -/
structure View where
  glyph : ℕ → ℕ → Glyph
  cursor : ℕ × ℕ
  reverse : Bool

namespace View

/-- The cursor moves to a row and a column. -/
def move (y x : ℕ) (v : View) : View := { v with cursor := (y, x) }

/-- A character is written at the cursor. -/
def put (c : Char) (v : View) : View :=
  { v with
    glyph := fun y x =>
      if y = v.cursor.1 ∧ x = v.cursor.2 then ⟨c, v.reverse⟩ else v.glyph y x
    cursor := (v.cursor.1, v.cursor.2 + 1) }

/-- The row of the cursor is cleared from there on. -/
def clrtoeol (v : View) : View :=
  { v with
    glyph := fun y x => if y = v.cursor.1 ∧ v.cursor.2 ≤ x then blank else v.glyph y x }

/-- The rest of the row is cleared, and the next one begins. -/
def newline (v : View) : View := { v.clrtoeol with cursor := (v.cursor.1 + 1, 0) }

/-- The rest of the row is cleared, and all rows below. -/
def clrtobot (v : View) : View :=
  { v with glyph := fun y x => if v.cursor.1 < y then blank else v.clrtoeol.glyph y x }

/-- A text is written at the cursor, in one row. -/
def written (t : Text) (v : View) : View :=
  { v with
    glyph := fun y x =>
      if y = v.cursor.1 ∧ v.cursor.2 ≤ x ∧ x < v.cursor.2 + t.length then
        ⟨t.getD (x - v.cursor.2) ' ', v.reverse⟩
      else v.glyph y x
    cursor := (v.cursor.1, v.cursor.2 + t.length) }

end View

/-- A character that is written as one glyph. -/
def Printable (c : Char) : Prop := 32 ≤ c.toNat ∧ c.toNat < 127

instance (c : Char) : Decidable (Printable c) := inferInstanceAs (Decidable (_ ∧ _))

/-- A window of `rows` rows and `cols` columns, with the calls that draw in it; those that can
fail say whether they did not. -/
structure Window (rows cols : ℕ) where
  State : Type
  view : State → View
  move : ℕ → ℕ → State → State × Bool
  addch : Char → State → State × Bool
  clrtoeol : State → State
  clrtobot : State → State
  clear : State → State
  /-- `attron(A_REVERSE)` and `attroff(A_REVERSE)`. -/
  attr : Bool → State → State
  move_inside {y x : ℕ} (hy : y < rows) (hx : x < cols) (s : State) :
    (move y x s).2 = true ∧ view (move y x s).1 = (view s).move y x
  move_outside {y x : ℕ} (h : rows ≤ y ∨ cols ≤ x) (s : State) : move y x s = (s, false)
  addch_inside {c : Char} (hc : Printable c) {s : State} (hy : (view s).cursor.1 < rows)
    (hx : (view s).cursor.2 + 1 < cols) :
    (addch c s).2 = true ∧ view (addch c s).1 = (view s).put c
  newline_inside {s : State} (hy : (view s).cursor.1 + 1 < rows) :
    (addch '\n' s).2 = true ∧ view (addch '\n' s).1 = (view s).newline
  newline_last {s : State} (hy : (view s).cursor.1 + 1 = rows) :
    (addch '\n' s).2 = false ∧ view (addch '\n' s).1 = (view s).clrtoeol
  view_clrtoeol (s : State) : view (clrtoeol s) = (view s).clrtoeol
  view_clrtobot (s : State) : view (clrtobot s) = (view s).clrtobot
  clear_glyph (s : State) (y x : ℕ) : (view (clear s)).glyph y x = blank
  clear_reverse (s : State) : (view (clear s)).reverse = (view s).reverse
  view_attr (on : Bool) (s : State) : view (attr on s) = { view s with reverse := on }

variable {rows cols : ℕ}

namespace Window

/-- `printw` of a text: its characters one after another, up to one that is an error. -/
def addstr (w : Window rows cols) : Text → w.State → w.State
  | [], s => s
  | c :: t, s =>
      let (s, ok) := w.addch c s
      if ok then w.addstr t s else s

/-- `mvprintw`, which writes nothing where the cursor cannot move to. -/
def mvaddstr (w : Window rows cols) (y x : ℕ) (t : Text) (s : w.State) : w.State :=
  let (s, ok) := w.move y x s
  if ok then w.addstr t s else s

/-- A window that holds what it shows. -/
def grid (rows cols : ℕ) : Window rows cols where
  State := View
  view v := v
  move y x v := if y < rows ∧ x < cols then (v.move y x, true) else (v, false)
  addch c v :=
    if c = '\n' then if v.cursor.1 + 1 < rows then (v.newline, true) else (v.clrtoeol, false)
    else (v.put c, true)
  clrtoeol := View.clrtoeol
  clrtobot := View.clrtobot
  clear v := { v with glyph := fun _ _ => blank, cursor := (0, 0) }
  attr on v := { v with reverse := on }
  move_inside hy hx _ := by simp [hy, hx]
  move_outside h _ := by
    rw [if_neg]
    omega
  addch_inside {c} hc _ _ _ := by
    have hne : c ≠ '\n' := by
      rintro rfl
      exact absurd hc.1 (by decide)
    simp [hne]
  newline_inside hy := by simp [hy]
  newline_last hy := by simp [hy]
  view_clrtoeol _ := rfl
  view_clrtobot _ := rfl
  clear_glyph _ _ _ := rfl
  clear_reverse _ := rfl
  view_attr _ _ := rfl

end Window

variable {w : Window rows cols} {s : w.State} {reverse : Bool}

/-- Writing nothing changes nothing. -/
theorem View.written_nil (v : View) : v.written [] = v := by
  unfold written
  congr 1
  funext y x
  refine if_neg ?_
  rw [List.length_nil]
  omega

/-- Writing a character and then a text behind it is writing both. -/
theorem View.put_written (c : Char) (t : Text) (v : View) :
    (v.put c).written t = v.written (c :: t) := by
  unfold written put
  congr 1
  · funext y x
    dsimp only
    rw [List.length_cons]
    by_cases hfirst : y = v.cursor.1 ∧ x = v.cursor.2
    · obtain ⟨rfl, rfl⟩ := hfirst
      rw [if_neg (by omega), if_pos ⟨rfl, rfl⟩, if_pos (by omega), Nat.sub_self,
        List.getD_cons_zero]
    · rw [if_neg hfirst]
      by_cases hbehind : y = v.cursor.1 ∧ v.cursor.2 + 1 ≤ x ∧ x < v.cursor.2 + 1 + t.length
      · have hshift : x - v.cursor.2 = x - (v.cursor.2 + 1) + 1 := by omega
        rw [if_pos hbehind, if_pos (by omega), hshift, List.getD_cons_succ]
      · rw [if_neg hbehind, if_neg (by omega)]
  · rw [List.length_cons, Nat.add_assoc, Nat.add_comm 1]

/-- **A text that breaks no line** is written at the cursor, where it fits the row. -/
theorem Window.view_addstr {t : Text} (ht : ∀ c ∈ t, Printable c)
    (hy : (w.view s).cursor.1 < rows) (hx : (w.view s).cursor.2 + t.length < cols) :
    w.view (w.addstr t s) = (w.view s).written t := by
  induction t generalizing s with
  | nil => exact (View.written_nil _).symm
  | cons c t ih =>
      rw [List.forall_mem_cons] at ht
      rw [List.length_cons] at hx
      obtain ⟨hok, hview⟩ := w.addch_inside ht.1 (s := s) hy (by omega)
      have hcursor : (w.view (w.addch c s).1).cursor =
          ((w.view s).cursor.1, (w.view s).cursor.2 + 1) := by
        rw [hview]
        rfl
      rw [addstr]
      dsimp only
      rw [if_pos hok, ih ht.2, hview, View.put_written]
      · rw [hcursor]
        exact hy
      · rw [hcursor]
        dsimp only
        omega

/-- **The same at a place of the window.** -/
theorem Window.view_mvaddstr {t : Text} (ht : ∀ c ∈ t, Printable c) {y x : ℕ} (hy : y < rows)
    (hx : x + t.length < cols) :
    w.view (w.mvaddstr y x t s) = ((w.view s).move y x).written t := by
  obtain ⟨hok, hview⟩ := w.move_inside hy (Nat.lt_of_le_of_lt (Nat.le_add_right x _) hx) s
  rw [mvaddstr]
  dsimp only
  rw [if_pos hok, view_addstr ht (by rw [hview]; exact hy) (by rw [hview]; exact hx), hview]

/-! ### Pages -/

/-- What is written from the top of a window on: the lines that are finished, and the last one. -/
structure Page where
  done : List (List Glyph)
  last : List Glyph

namespace Page

/-- A page on which nothing is written. -/
def empty : Page := ⟨[], []⟩

/-- One more character. -/
def write (reverse : Bool) (p : Page) (c : Char) : Page :=
  if c = '\n' then ⟨p.done ++ [p.last], []⟩ else ⟨p.done, p.last ++ [⟨c, reverse⟩]⟩

/-- One more text. -/
def writeText (reverse : Bool) (p : Page) (t : Text) : Page := t.foldl (write reverse) p

theorem writeText_append (reverse : Bool) (p : Page) (t t' : Text) :
    p.writeText reverse (t ++ t') = (p.writeText reverse t).writeText reverse t' :=
  List.foldl_append

/-- A text that breaks no line is added to the last one. -/
theorem writeText_line {t : Text} (ht : '\n' ∉ t) (reverse : Bool) (p : Page) :
    p.writeText reverse t = ⟨p.done, p.last ++ t.map fun c => ⟨c, reverse⟩⟩ := by
  induction t generalizing p with
  | nil => simp [writeText]
  | cons c t ih =>
      rw [List.mem_cons, not_or] at ht
      have hwrite : p.write reverse c = ⟨p.done, p.last ++ [⟨c, reverse⟩]⟩ :=
        if_neg (Ne.symm ht.1)
      have hcons : p.writeText reverse (c :: t) = (p.write reverse c).writeText reverse t := rfl
      rw [hcons, ih ht.2, hwrite, List.append_assoc]
      rfl

/-- What is written does not depend on the lines that are finished. -/
theorem writeText_done (reverse : Bool) (done : List (List Glyph)) (p : Page) (t : Text) :
    Page.writeText reverse ⟨done ++ p.done, p.last⟩ t =
      ⟨done ++ (p.writeText reverse t).done, (p.writeText reverse t).last⟩ := by
  induction t generalizing p with
  | nil => rfl
  | cons c t ih =>
      have hwrite : Page.write reverse ⟨done ++ p.done, p.last⟩ c =
          ⟨done ++ (p.write reverse c).done, (p.write reverse c).last⟩ := by
        unfold write
        split_ifs
        · rw [List.append_assoc]
        · rfl
      have hcons := ih (p.write reverse c)
      rw [← hwrite] at hcons
      exact hcons

/-- Lines in which nothing is shown in reverse. -/
def Plain (ls : List (List Glyph)) : Prop := ∀ l ∈ ls, ∀ g ∈ l, g.reverse = false

theorem Plain.append {ls ls' : List (List Glyph)} (h : Plain ls) (h' : Plain ls') :
    Plain (ls ++ ls') := List.forall_mem_append.2 ⟨h, h'⟩

/-- What is written without the attribute is not shown in reverse. -/
theorem plain_writeText {p : Page} (h : Plain (p.done ++ [p.last])) (t : Text) :
    Plain ((p.writeText false t).done ++ [(p.writeText false t).last]) := by
  induction t generalizing p with
  | nil => exact h
  | cons c t ih =>
      refine ih (p := p.write false c) ?_
      unfold write
      split_ifs
      · exact h.append (by simp [Plain])
      · have hp := List.forall_mem_append.1 h
        refine Plain.append hp.1 ?_
        intro l hl g hg
        rw [List.mem_singleton.1 hl] at hg
        rcases List.mem_append.1 hg with hlast | hnew
        · exact hp.2 _ (List.mem_singleton_self _) g hlast
        · rw [List.mem_singleton.1 hnew]

theorem Plain.reverse_getD {ls : List (List Glyph)} (h : Plain ls) (y x : ℕ) :
    ((ls.getD y []).getD x blank).reverse = false := by
  by_cases hy : y < ls.length
  · rw [List.getD_eq_getElem _ _ hy]
    by_cases hx : x < ls[y].length
    · rw [List.getD_eq_getElem _ _ hx]
      exact h _ (List.getElem_mem hy) _ (List.getElem_mem hx)
    · rw [List.getD_eq_default _ _ (Nat.not_lt.1 hx)]
      rfl
  · rw [List.getD_eq_default ls _ (Nat.not_lt.1 hy)]
    rfl

/-- What stands in a row and a column of a page. -/
def glyph (p : Page) (y x : ℕ) : Glyph := ((p.done ++ [p.last]).getD y []).getD x blank

/-- A page fits a window: it has no more rows, and they are shorter than the window is wide. -/
structure Fits (rows cols : ℕ) (p : Page) : Prop where
  rows : p.done.length < rows ∨ p.done.length = rows ∧ p.last = []
  done : ∀ l ∈ p.done, l.length < cols
  last : p.last.length < cols

/-- A page that fits after one more character has fitted before. -/
theorem Fits.of_write {reverse : Bool} {p : Page} {c : Char}
    (h : (p.write reverse c).Fits rows cols) : p.Fits rows cols ∧ p.done.length < rows := by
  unfold write at h
  split_ifs at h with hc
  · have hrows := h.rows
    simp only [List.length_append, List.length_singleton] at hrows
    have hlt : p.done.length < rows := by omega
    exact ⟨⟨.inl hlt, fun l hl => h.done l (List.mem_append_left _ hl),
      h.done _ (List.mem_append_right _ (List.mem_singleton_self _))⟩, hlt⟩
  · have hrows := h.rows
    simp only [List.append_ne_nil_of_right_ne_nil _ (List.cons_ne_nil _ _), and_false,
      or_false] at hrows
    have hlast := h.last
    rw [List.length_append, List.length_singleton] at hlast
    exact ⟨⟨.inl hrows, h.done, by omega⟩, hrows⟩

/-- A page that fits after one more text has fitted before. -/
theorem Fits.of_writeText {reverse : Bool} {p : Page} (t : Text)
    (h : (p.writeText reverse t).Fits rows cols) : p.Fits rows cols := by
  induction t generalizing p with
  | nil => exact h
  | cons c t ih => exact (ih (p := p.write reverse c) h).of_write.1

/-- A page spells a text: its lines are those of the text. -/
structure Spells (p : Page) (t : Text) : Prop where
  text : t = p.done.flatMap (fun l => l.map Glyph.char ++ ['\n']) ++ p.last.map Glyph.char
  newline : ∀ l ∈ p.done ++ [p.last], '\n' ∉ l.map Glyph.char

theorem Spells.empty : Spells Page.empty [] := ⟨rfl, by simp [Page.empty]⟩

/-- One more character. -/
theorem Spells.write {p : Page} {t : Text} (h : p.Spells t) (reverse : Bool) (c : Char) :
    (p.write reverse c).Spells (t ++ [c]) := by
  have hnewline := h.newline
  rw [List.forall_mem_append, List.forall_mem_singleton] at hnewline
  unfold Page.write
  split_ifs with hc
  · subst hc
    refine ⟨?_, ?_⟩
    · rw [h.text]
      simp
    · rw [List.forall_mem_append, List.forall_mem_append, List.forall_mem_singleton,
        List.forall_mem_singleton]
      exact ⟨hnewline, by simp⟩
  · refine ⟨?_, ?_⟩
    · rw [h.text]
      simp
    · rw [List.forall_mem_append, List.forall_mem_singleton]
      refine ⟨hnewline.1, ?_⟩
      rw [List.map_append, List.mem_append, not_or]
      exact ⟨hnewline.2, by simpa using Ne.symm hc⟩

/-- One more text. -/
theorem Spells.writeText {p : Page} {t : Text} (h : p.Spells t) (reverse : Bool) (t' : Text) :
    (p.writeText reverse t').Spells (t ++ t') := by
  induction t' generalizing p t with
  | nil =>
      rw [List.append_nil]
      exact h
  | cons c t' ih =>
      have hnext := ih (h.write reverse c)
      rwa [List.append_assoc, List.singleton_append] at hnext

/-- The lines of the text. -/
theorem Spells.lines_eq {p : Page} {t : Text} (h : p.Spells t) :
    lines t = (p.done ++ [p.last]).map (List.map Glyph.char) := by
  obtain ⟨text, hnewline⟩ := h
  rw [List.forall_mem_append, List.forall_mem_singleton] at hnewline
  rw [text]
  clear text
  generalize p.last = last at hnewline ⊢
  generalize p.done = done at hnewline ⊢
  induction done with
  | nil =>
      have hlast := lines_append hnewline.2 []
      rw [List.append_nil] at hlast
      rw [List.flatMap_nil, List.nil_append, hlast]
      simp [lines]
  | cons l done ih =>
      rw [List.forall_mem_cons] at hnewline
      have hcons := ih ⟨hnewline.1.2, hnewline.2⟩
      rw [List.flatMap_cons, List.append_assoc, List.append_assoc, List.singleton_append,
        lines_cons _ _ hnewline.1.1, hcons]
      rfl

/-- Its characters stand where they stand in the text. -/
theorem Spells.char_glyph {p : Page} {t : Text} (h : p.Spells t) (y x : ℕ) :
    (p.glyph y x).char = ((lines t).getD y []).getD x ' ' := by
  rw [h.lines_eq, Page.glyph]
  have hline : ((p.done ++ [p.last]).map (List.map Glyph.char)).getD y [] =
      ((p.done ++ [p.last]).getD y []).map Glyph.char :=
    List.getD_map _ [] (List.map Glyph.char)
  rw [hline]
  exact (List.getD_map _ blank Glyph.char).symm

/-- Behind a newline the last line is empty. -/
theorem Spells.last_eq_nil {p : Page} {t : Text} (h : p.Spells (t ++ ['\n'])) : p.last = [] := by
  by_contra hne
  have hnewline := (List.forall_mem_append.1 h.newline).2 _ (List.mem_singleton_self _)
  have hnil : p.last.map Glyph.char ≠ [] := fun hmap => hne (List.map_eq_nil_iff.1 hmap)
  have hlast := congrArg List.getLast? h.text
  rw [List.getLast?_concat, List.getLast?_append_of_ne_nil _ hnil] at hlast
  exact hnewline (List.mem_of_getLast? hlast.symm)

/-- It has finished as many lines. -/
theorem Spells.length_done {p : Page} {t : Text} (h : p.Spells t) :
    p.done.length = t.count '\n' := by
  have hnewline := h.newline
  rw [List.forall_mem_append, List.forall_mem_singleton] at hnewline
  rw [h.text, List.count_append, List.count_eq_zero.2 hnewline.2, Nat.add_zero]
  have hdone := hnewline.1
  generalize p.done = done at hdone ⊢
  induction done with
  | nil => rfl
  | cons l done ih =>
      rw [List.forall_mem_cons] at hdone
      rw [List.flatMap_cons, List.count_append, List.count_append,
        List.count_eq_zero.2 hdone.1, List.length_cons, ih hdone.2, List.count_singleton_self]
      omega

/-- **A page fits if its text does**: it has no more lines than the window has rows, and ends its
last one, and they are shorter than the window is wide. -/
theorem Spells.fits {p : Page} {t : Text} (h : p.Spells t)
    (hcount : t.count '\n' < rows ∨ t.count '\n' = rows ∧ p.last = [])
    (hlines : ∀ l ∈ lines t, l.length < cols) : p.Fits rows cols := by
  rw [h.lines_eq, List.forall_mem_map, List.forall_mem_append, List.forall_mem_singleton] at hlines
  refine ⟨by rw [h.length_done]; exact hcount, fun l hl => ?_, ?_⟩
  · simpa using hlines.1 l hl
  · simpa using hlines.2

end Page

/-! ### Drawing a page -/

/-- A window in which a page is drawn from the top on, over what stood there. -/
structure Drawn (rows : ℕ) (under : ℕ → ℕ → Glyph) (v : View) (p : Page) : Prop where
  done : ∀ y, (hy : y < p.done.length) → ∀ x, v.glyph y x = p.done[y].getD x blank
  last : ∀ x, (hx : x < p.last.length) → v.glyph p.done.length x = p.last[x]
  under : ∀ y x, p.done.length < y ∨ y = p.done.length ∧ p.last.length ≤ x → v.glyph y x = under y x
  cursor : p.done.length < rows → v.cursor = (p.done.length, p.last.length)
  -- a newline on the last row leaves the cursor there
  full : p.done.length = rows → 0 < rows →
    v.cursor = (rows - 1, (p.done.getLastD []).length)

variable {p : Page} {v : View} {under : ℕ → ℕ → Glyph}

/-- At the top of a window nothing is drawn yet. -/
theorem Drawn.start (hrows : 0 < rows) (hcursor : v.cursor = (0, 0)) :
    Drawn rows v.glyph v Page.empty where
  done := fun _ hy => absurd hy (Nat.not_lt_zero _)
  last := fun _ hx => absurd hx (Nat.not_lt_zero _)
  under := fun _ _ _ => rfl
  cursor := fun _ => hcursor
  full := fun heq => absurd heq hrows.ne

/-- The attribute draws nothing. -/
theorem Drawn.attr (h : Drawn rows under v p) (on : Bool) :
    Drawn rows under { v with reverse := on } p :=
  ⟨h.done, h.last, h.under, h.cursor, h.full⟩

/-- The cursor stands behind what is drawn. -/
theorem Drawn.behind (h : Drawn rows under v p) (hp : p.Fits rows cols) (hrows : 0 < rows) {y : ℕ}
    (hy : y < p.done.length) {x : ℕ} (hcell : y = v.cursor.1 ∧ v.cursor.2 ≤ x ∨ v.cursor.1 < y) :
    p.done[y].getD x blank = blank := by
  rcases hp.rows with hlt | ⟨heq, -⟩
  · rw [h.cursor hlt] at hcell
    omega
  · rw [h.full heq hrows] at hcell
    dsimp only at hcell
    have hlast : y = p.done.length - 1 := by omega
    have hne : p.done ≠ [] := List.ne_nil_of_length_pos (by omega)
    have hrow : p.done[y] = p.done.getLastD [] := by
      rw [List.getLastD_eq_getLast?, List.getLast?_eq_getElem?, List.getElem?_eq_getElem (by omega)]
      simp only [hlast, Option.getD_some]
    rw [hrow, List.getD_eq_default _ _ (by omega)]

/-- Clearing behind the cursor clears nothing that is drawn. -/
theorem Drawn.clrtoeol (h : Drawn rows under v p) (hp : p.Fits rows cols) (hrows : 0 < rows) :
    Drawn rows v.clrtoeol.glyph v.clrtoeol p where
  done := by
    intro y hy x
    dsimp only [View.clrtoeol]
    split_ifs with hcell
    · exact (h.behind hp hrows hy (.inl hcell)).symm
    · exact h.done y hy x
  last := by
    intro x hx
    dsimp only [View.clrtoeol]
    rw [if_neg]
    · exact h.last x hx
    · rcases hp.rows with hlt | ⟨-, hnil⟩
      · rw [h.cursor hlt]
        dsimp only
        omega
      · rw [hnil] at hx
        exact absurd hx (Nat.not_lt_zero _)
  under := fun _ _ _ => rfl
  cursor := h.cursor
  full := h.full

/-- **One character.** -/
theorem Drawn.addch {c : Char} (h : Drawn rows under (w.view s) p)
    (hrev : (w.view s).reverse = reverse)
    (hp : (p.write reverse c).Fits rows cols) (hc : c = '\n' ∨ Printable c) :
    Drawn rows under (w.view (w.addch c s).1) (p.write reverse c) ∧
      (w.view (w.addch c s).1).reverse = reverse ∧
      ((w.addch c s).2 = true ∨ (p.write reverse c).done.length = rows) := by
  obtain ⟨hfits, hlt⟩ := hp.of_write
  have hcursor := h.cursor hlt
  have hrows : 0 < rows := by omega
  by_cases hnew : c = '\n'
  · subst hnew
    have hwrite : p.write reverse '\n' = ⟨p.done ++ [p.last], []⟩ := if_pos rfl
    rw [hwrite]
    -- the row is finished, and cleared behind its last character
    have hdone (y : ℕ) (hy : y < (p.done ++ [p.last]).length) (x : ℕ) :
        (w.view s).clrtoeol.glyph y x = (p.done ++ [p.last])[y].getD x blank := by
      rw [List.length_append, List.length_singleton] at hy
      dsimp only [View.clrtoeol]
      rw [hcursor]
      by_cases heq : y = p.done.length
      · subst heq
        rw [List.getElem_append_right le_rfl]
        simp only [Nat.sub_self, List.getElem_cons_zero, true_and]
        split_ifs with hx
        · rw [List.getD_eq_default _ _ hx]
        · rw [h.last x (by omega), List.getD_eq_getElem _ _ (by omega)]
      · rw [if_neg fun hcell => heq hcell.1, List.getElem_append_left (by omega)]
        exact h.done y (by omega) x
    have hover (y x : ℕ) (hcell : (p.done ++ [p.last]).length < y ∨
        y = (p.done ++ [p.last]).length ∧ ([] : List Glyph).length ≤ x) :
        (w.view s).clrtoeol.glyph y x = under y x := by
      rw [List.length_append, List.length_singleton] at hcell
      dsimp only [View.clrtoeol]
      rw [hcursor, if_neg (by dsimp only; omega)]
      exact h.under y x (by omega)
    by_cases hnext : p.done.length + 1 < rows
    · obtain ⟨hok, hview⟩ := w.newline_inside (s := s) (by rw [hcursor]; exact hnext)
      rw [hview]
      refine ⟨⟨hdone, fun x hx => absurd hx (Nat.not_lt_zero _), hover, fun _ => ?_,
        fun hfull => ?_⟩, hrev, .inl hok⟩
      · simp [View.newline, hcursor]
      · simp only [List.length_append, List.length_singleton] at hfull
        omega
    · have hlast : p.done.length + 1 = rows := by omega
      obtain ⟨-, hview⟩ := w.newline_last (s := s) (by rw [hcursor]; exact hlast)
      rw [hview]
      have hfull : (p.done ++ [p.last]).length = rows := by simpa using hlast
      refine ⟨⟨hdone, fun x hx => absurd hx (Nat.not_lt_zero _), hover, fun hless => ?_,
        fun _ _ => ?_⟩, hrev, .inr hfull⟩
      · exact absurd hfull hless.ne
      · have hrow : rows - 1 = p.done.length := by omega
        simp [View.clrtoeol, hcursor, hrow]
  · have hwrite : p.write reverse c = ⟨p.done, p.last ++ [⟨c, reverse⟩]⟩ := if_neg hnew
    rw [hwrite] at hp ⊢
    have hlast := hp.last
    rw [List.length_append, List.length_singleton] at hlast
    have hinside := w.addch_inside (hc.resolve_left hnew) (s := s) (by rw [hcursor]; exact hlt)
      (by rw [hcursor]; exact hlast)
    obtain ⟨hok, hview⟩ := hinside
    rw [hview]
    refine ⟨⟨fun y hy x => ?_, fun x hx => ?_, fun y x hcell => ?_, fun _ => ?_,
      fun hfull => absurd hfull hlt.ne⟩, hrev, .inl hok⟩
    · dsimp only [View.put]
      rw [hcursor, if_neg fun hcell => hy.ne hcell.1]
      exact h.done y hy x
    · dsimp only [View.put]
      rw [List.length_append, List.length_singleton] at hx
      rw [hcursor, hrev]
      by_cases heq : x = p.last.length
      · subst heq
        rw [if_pos ⟨rfl, rfl⟩]
        simp
      · rw [if_neg fun hcell => heq hcell.2, List.getElem_append_left (by omega)]
        exact h.last x (by omega)
    · rw [List.length_append, List.length_singleton] at hcell
      dsimp only [View.put] at hcell ⊢
      rw [hcursor, if_neg (by dsimp only; omega)]
      exact h.under y x (by omega)
    · simp [View.put, hcursor]

/-- **A text is drawn as it is written**, where the page fits. -/
theorem Drawn.addstr {t : Text} (h : Drawn rows under (w.view s) p)
    (hrev : (w.view s).reverse = reverse) (hp : (p.writeText reverse t).Fits rows cols)
    (ht : ∀ c ∈ t, c = '\n' ∨ Printable c) :
    Drawn rows under (w.view (w.addstr t s)) (p.writeText reverse t) ∧
      (w.view (w.addstr t s)).reverse = reverse := by
  induction t generalizing s p with
  | nil => exact ⟨h, hrev⟩
  | cons c t ih =>
      rw [List.forall_mem_cons] at ht
      have hc : (p.write reverse c).Fits rows cols := Page.Fits.of_writeText t hp
      obtain ⟨hdrawn, hrev', hok⟩ := h.addch hrev hc ht.1
      rw [Window.addstr]
      dsimp only
      split_ifs with hadded
      · exact ih hdrawn hrev' hp ht.2
      · -- the page is full, so nothing else is written
        cases t with
        | nil => exact ⟨hdrawn, hrev'⟩
        | cons c' t =>
            have hnext : ((p.write reverse c).write reverse c').Fits rows cols :=
              Page.Fits.of_writeText t hp
            exact absurd (hok.resolve_left hadded) hnext.of_write.2.ne

/-- **Once the rest is cleared, the page is all that stands in the window.** -/
theorem Drawn.clrtobot (h : Drawn rows under v p) (hp : p.Fits rows cols) {y : ℕ} (hy : y < rows)
    (x : ℕ) : v.clrtobot.glyph y x = p.glyph y x := by
  have hrows : 0 < rows := Nat.zero_lt_of_lt hy
  have hclear := h.clrtoeol hp hrows
  dsimp only [View.clrtobot]
  by_cases hdone : y < p.done.length
  · rw [Page.glyph, List.getD_append _ _ _ _ hdone, List.getD_eq_getElem _ _ hdone]
    split_ifs with hbelow
    · exact (h.behind hp hrows hdone (.inr hbelow)).symm
    · exact hclear.done y hdone x
  · have hlt : p.done.length < rows := (Nat.not_lt.1 hdone).trans_lt hy
    rw [Page.glyph, h.cursor hlt, List.getD_append_right _ _ _ _ (Nat.not_lt.1 hdone)]
    dsimp only
    by_cases heq : y = p.done.length
    · subst heq
      rw [if_neg (Nat.lt_irrefl _), Nat.sub_self, List.getD_cons_zero]
      by_cases hx : x < p.last.length
      · rw [hclear.last x hx, List.getD_eq_getElem _ _ hx]
      · rw [List.getD_eq_default _ _ (Nat.not_lt.1 hx)]
        dsimp only [View.clrtoeol]
        rw [if_pos]
        rw [h.cursor hlt]
        exact ⟨rfl, Nat.not_lt.1 hx⟩
    · have hbelow : [p.last].length ≤ y - p.done.length := by
        rw [List.length_singleton]
        omega
      rw [if_pos (by omega), List.getD_eq_default _ _ hbelow]
      rfl

/-! ### Drawing programs -/

/-- A window in which a page is drawn, and whether what follows is shown in reverse. -/
structure Displays (w : Window rows cols) (s : w.State) (p : Page) (reverse : Bool) : Prop where
  drawn : ∃ under, Drawn rows under (w.view s) p
  reverse : (w.view s).reverse = reverse

theorem Displays.start (hrows : 0 < rows) (hcols : 0 < cols) (hs : (w.view s).reverse = reverse) :
    Displays w (w.move 0 0 s).1 Page.empty reverse := by
  obtain ⟨-, hview⟩ := w.move_inside hrows hcols s
  refine ⟨⟨_, Drawn.start hrows ?_⟩, ?_⟩
  · rw [hview]
    rfl
  · rw [hview]
    exact hs

theorem Displays.attr (h : Displays w s p reverse) (on : Bool) : Displays w (w.attr on s) p on := by
  obtain ⟨⟨under, hdrawn⟩, -⟩ := h
  refine ⟨⟨under, ?_⟩, ?_⟩
  · rw [w.view_attr]
    exact hdrawn.attr on
  · rw [w.view_attr]

theorem Displays.clrtoeol (h : Displays w s p reverse) (hp : p.Fits rows cols) (hrows : 0 < rows) :
    Displays w (w.clrtoeol s) p reverse := by
  obtain ⟨⟨under, hdrawn⟩, hreverse⟩ := h
  refine ⟨⟨(w.view s).clrtoeol.glyph, ?_⟩, ?_⟩
  · rw [w.view_clrtoeol]
    exact hdrawn.clrtoeol hp hrows
  · rw [w.view_clrtoeol]
    exact hreverse

theorem Displays.addstr {t : Text} (h : Displays w s p reverse)
    (hp : (p.writeText reverse t).Fits rows cols) (ht : ∀ c ∈ t, c = '\n' ∨ Printable c) :
    Displays w (w.addstr t s) (p.writeText reverse t) reverse := by
  obtain ⟨⟨under, hdrawn⟩, hreverse⟩ := h
  obtain ⟨hdrawn', hreverse'⟩ := hdrawn.addstr hreverse hp ht
  exact ⟨⟨under, hdrawn'⟩, hreverse'⟩

/-- Several texts, one after another. -/
theorem Displays.addstrs {α : Type} {f : α → Text} {l : List α} (h : Displays w s p reverse)
    (hp : (p.writeText reverse (l.flatMap f)).Fits rows cols)
    (ht : ∀ c ∈ l.flatMap f, c = '\n' ∨ Printable c) :
    Displays w (l.foldl (fun s a => w.addstr (f a) s) s) (p.writeText reverse (l.flatMap f))
      reverse := by
  induction l generalizing s p with
  | nil => exact h
  | cons a l ih =>
      rw [List.flatMap_cons, List.forall_mem_append] at ht
      rw [List.flatMap_cons, Page.writeText_append] at hp ⊢
      exact ih (h.addstr (.of_writeText _ hp) ht.1) hp ht.2

end Windows
