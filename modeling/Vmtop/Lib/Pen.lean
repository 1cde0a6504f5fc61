/-
# Lines that are longer than a screen is wide

A terminal continues a line that has reached its last column on the next row.  So a text takes
as many rows as it has lines, and for every line more the times that it fills a row.  A
newline behind a full row begins another one all the same; only behind the last line is that row
not needed (`height_flatMap`).

A character fills one column, and a row that does not exist (`cols = 0`) is never full.
-/

import Mathlib.Algebra.BigOperators.Group.List.Basic
import Mathlib.Algebra.GroupWithZero.Nat
import Vmtop.Lib.CText

namespace Windows

open CText

/-- How far a text is written: the row in which its last line begins, and the characters of that
line. -/
structure Pen where
  row : ℕ
  written : ℕ

variable (cols : ℕ)

/-- One more character. -/
def Pen.write (p : Pen) (c : Char) : Pen :=
  if c = '\n' then ⟨p.row + p.written / cols + 1, 0⟩ else ⟨p.row, p.written + 1⟩

/-- The rows down to the one in which the last character stands. -/
def Pen.rows (p : Pen) : ℕ := p.row + (p.written - 1) / cols + 1

/-- The rows of a text that ends with a newline. -/
def height (t : Text) : ℕ := (t.dropLast.foldl (Pen.write cols) ⟨0, 0⟩).rows cols

/-- The rows on which lines are continued. -/
def folds (ls : List Text) : ℕ := (ls.map fun l => l.length / cols).sum

/-- The same, where nothing is written behind the last line. -/
def foldsToLast (ls : List Text) : ℕ :=
  folds cols ls.dropLast + ((ls.getLastD []).length - 1) / cols

variable {cols} {ls ls' : List Text} {l : Text}

@[simp] theorem folds_nil : folds cols [] = 0 := rfl

@[simp] theorem folds_cons (l : Text) (ls : List Text) :
    folds cols (l :: ls) = l.length / cols + folds cols ls := by
  simp [folds]

theorem folds_append (ls ls' : List Text) :
    folds cols (ls ++ ls') = folds cols ls + folds cols ls' := by
  simp [folds]

@[simp] theorem foldsToLast_nil : foldsToLast cols [] = 0 := by
  simp [foldsToLast]

/-- What is written before the last line is continued as it is. -/
theorem foldsToLast_append (ls : List Text) (h : ls' ≠ []) :
    foldsToLast cols (ls ++ ls') = folds cols ls + foldsToLast cols ls' := by
  obtain ⟨front, l, rfl⟩ := List.eq_nil_or_concat ls' |>.resolve_left h
  rw [foldsToLast, foldsToLast, List.concat_eq_append, ← List.append_assoc, List.dropLast_concat,
    List.dropLast_concat, List.getLastD_concat, List.getLastD_concat, folds_append, Nat.add_assoc]

/-- A text that breaks no line adds to the last one. -/
theorem Pen.foldl_line (hl : '\n' ∉ l) (p : Pen) :
    l.foldl (Pen.write cols) p = ⟨p.row, p.written + l.length⟩ := by
  induction l generalizing p with
  | nil => rfl
  | cons c l ih =>
      rw [List.mem_cons, not_or] at hl
      rw [List.foldl_cons, ih hl.2, write, if_neg (Ne.symm hl.1), List.length_cons]
      simp only [Pen.mk.injEq, true_and]
      omega

/-- Writing on does not lead up. -/
theorem Pen.rows_le_foldl (t : Text) (p : Pen) :
    p.rows cols ≤ (t.foldl (Pen.write cols) p).rows cols := by
  induction t generalizing p with
  | nil => exact le_rfl
  | cons c t ih =>
      refine le_trans ?_ (ih (p.write cols c))
      have hlast : (p.written - 1) / cols ≤ p.written / cols := Nat.div_le_div_right (Nat.sub_le ..)
      unfold rows write
      split_ifs
      · have hempty : (0 - 1) / cols = 0 := Nat.zero_div cols
        dsimp only
        omega
      · exact Nat.succ_le_succ (Nat.add_le_add_left hlast _)

/-- The rows of what stands first are among those of the text. -/
theorem height_le_append (t t' : Text) : height cols t ≤ height cols (t ++ t') := by
  rcases List.eq_nil_or_concat t' with rfl | ⟨front, c, rfl⟩
  · rw [List.append_nil]
  · obtain ⟨last, hlast⟩ := t.dropLast_prefix
    rw [height, height, List.concat_eq_append, ← List.append_assoc, List.dropLast_concat,
      List.foldl_append]
    conv_rhs => rw [← hlast, List.foldl_append]
    exact (Pen.rows_le_foldl last _).trans (Pen.rows_le_foldl front _)

/-- Lines that are ended take a row each, and those on which they are continued. -/
theorem Pen.foldl_lines (h : ∀ l ∈ ls, '\n' ∉ l) (y : ℕ) :
    (ls.flatMap (· ++ ['\n'])).foldl (Pen.write cols) ⟨y, 0⟩ =
      ⟨y + ls.length + folds cols ls, 0⟩ := by
  induction ls generalizing y with
  | nil => rfl
  | cons l ls ih =>
      rw [List.forall_mem_cons] at h
      rw [List.flatMap_cons, List.foldl_append, List.foldl_append, Pen.foldl_line h.1,
        List.foldl_cons, List.foldl_nil, write, if_pos rfl, ih h.2, List.length_cons, folds_cons]
      simp only [Pen.mk.injEq, and_true, Nat.zero_add]
      omega

/-- **The rows that lines take.** -/
theorem height_flatMap (hne : ls ≠ []) (h : ∀ l ∈ ls, '\n' ∉ l) :
    height cols (ls.flatMap (· ++ ['\n'])) = ls.length + foldsToLast cols ls := by
  obtain ⟨front, l, rfl⟩ := (List.eq_nil_or_concat ls).resolve_left hne
  rw [List.concat_eq_append, List.forall_mem_append, List.forall_mem_singleton] at h
  rw [List.concat_eq_append, height, List.flatMap_append, List.flatMap_singleton,
    ← List.append_assoc, List.dropLast_concat, List.foldl_append, Pen.foldl_lines h.1,
    Pen.foldl_line h.2, Pen.rows, foldsToLast, List.dropLast_concat, List.getLastD_concat,
    List.length_append, List.length_singleton, Nat.zero_add]
  dsimp only
  rw [Nat.zero_add]
  omega

/-- A text is its lines, and none of them is broken. -/
theorem lines_spec (t : Text) :
    (lines t).flatMap (· ++ ['\n']) = t ++ ['\n'] ∧ ∀ l ∈ lines t, '\n' ∉ l := by
  induction t with
  | nil => exact ⟨rfl, List.forall_mem_singleton.2 List.not_mem_nil⟩
  | cons c t ih =>
      by_cases hc : c = '\n'
      · subst hc
        have hcons := lines_cons [] t List.not_mem_nil
        rw [List.nil_append] at hcons
        rw [hcons, List.flatMap_cons, ih.1]
        exact ⟨rfl, List.forall_mem_cons.2 ⟨List.not_mem_nil, ih.2⟩⟩
      · have happend := lines_append (c := [c]) (by simpa using Ne.symm hc) t
        rw [List.singleton_append] at happend
        obtain ⟨first, more, hlines⟩ : ∃ first more, lines t = first :: more :=
          List.exists_cons_of_ne_nil (List.splitOn_ne_nil '\n' t)
        rw [hlines, List.flatMap_cons, List.forall_mem_cons] at ih
        rw [happend, hlines, List.modifyHead_cons, List.flatMap_cons, List.forall_mem_cons,
          List.append_assoc, List.append_assoc, ← List.append_assoc first, ih.1]
        refine ⟨rfl, ?_, ih.2.2⟩
        rw [List.singleton_append, List.mem_cons, not_or]
        exact ⟨Ne.symm hc, ih.2.1⟩

/-- As many as there are newlines, and the one behind them. -/
theorem length_lines (t : Text) : (lines t).length = t.count '\n' + 1 := by
  have hcount := congrArg (List.count '\n') (lines_spec t).1
  have hline : ∀ l ∈ lines t, (l ++ ['\n']).count '\n' = 1 := by
    intro l hl
    rw [List.count_append, List.count_eq_zero.2 ((lines_spec t).2 l hl),
      List.count_singleton_self]
  rw [List.count_flatMap, List.count_append, List.count_singleton_self] at hcount
  rw [← hcount]
  have hmap : (lines t).map (List.count '\n' ∘ (· ++ ['\n'])) = (lines t).map fun _ => 1 :=
    List.map_congr_left hline
  rw [hmap]
  simp

/-- A line of a full row, with its newline in the row behind, and the two below. -/
example : height 3 "abc\nd\n".toList = 3 ∧ height 3 "d\nabc\n".toList = 2 := by decide

end Windows
