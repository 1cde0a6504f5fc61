/-
# Paging through the tasks

A page key moves `begin_task` by `scr_row_size - 6`, and a frame displays the
`scr_row_size - 4` tasks from there on.  So two pages overlap, and pressing the key again
and again displays every task: forward from the first task until `begin_task` is the
last one, and back from any task until it is the first (`paging_covers`).  What
`parse_keys` does not let it pass is the number of tasks that `show_domains` walks.
-/

import Vmtop.Terminal.TextMode

namespace Vmtop

open CText CArray Runs

variable {input : FrameInput} {m : Main} {t : Turn} {g : Globals} {n : ℕ} {k : ℤ}

/-! ### Pressing a key again and again -/

/-- The number of tasks that `parse_keys` does not scroll past. -/
def taskNum (g : Globals) : ℤ := if g.threadMode then getTaskNum g.lists.now else g.lists.now.num

/-- The globals behind `n` presses of a key, while the tasks and the terminal stay as they
are; `none` while the field filter is open. -/
def presses (key : Key) (g : Globals) : ℕ → Option Globals
  | 0 => some g
  | n + 1 => (presses key g n).bind fun g => (parseKeys [] key g).map Prod.fst

/-- Pressing `key` again and again takes the display to the task `goal`, and moves nothing
else: it stays within the tasks, and when it comes there first, each of the tasks from `1`
to `last` was displayed in one of the frames. -/
structure PagesTo (key : Key) (g : Globals) (goal last : ℤ) : Prop where
  inRange : ∀ n, ∃ g', presses key g n = some g' ∧ g' = { g with beginTask := g'.beginTask } ∧
    1 ≤ g'.beginTask ∧ g'.beginTask ≤ taskNum g
  reaches : ∃ n, (presses key g n).map Globals.beginTask = some goal ∧
    (∀ i < n, (presses key g i).map Globals.beginTask ≠ some goal) ∧
    ∀ k, 1 ≤ k → k ≤ last → ∃ i ≤ n, ∃ g', presses key g i = some g' ∧ isShown g' k = true

/-- A task is displayed when it is one of the `scr_row_size - 4` from `begin_task` on. -/
theorem isShown_iff : isShown g k = true ↔
    g.beginTask ≤ k ∧ k ≤ g.beginTask + (g.scrRowSize - 5) := by
  simp only [isShown, Bool.not_eq_true', Bool.or_eq_false_iff, decide_eq_false_iff_not, Int.not_lt]
  omega

/-- Where the display is behind `n` pages forward. -/
theorem presses_npage (hrows : 6 ≤ g.scrRowSize) (hbegin : g.beginTask ≤ taskNum g) (n : ℕ) :
    presses .npage g n =
      some { g with beginTask := min (g.beginTask + n * (g.scrRowSize - 6)) (taskNum g) } := by
  induction n with
  | zero =>
      rw [Nat.cast_zero, zero_mul, add_zero, min_eq_left hbegin]
      rfl
  | succ n ih =>
      have hstep : ∀ b : ℤ, (parseKeys [] .npage { g with beginTask := b }).map Prod.fst =
          some { g with beginTask := min (b + (g.scrRowSize - 6)) (taskNum g) } := fun b => by
        have hscroll := scrollForward_beginTask (g.scrRowSize - 6) { g with beginTask := b }
        change some (scrollForward (g.scrRowSize - 6) { g with beginTask := b }) = _
        refine congrArg some ?_
        rw [← show _ = min (b + (g.scrRowSize - 6)) (taskNum g) from hscroll]
        rfl
      rw [presses, ih, Option.bind_some, hstep, Nat.cast_succ, add_mul, one_mul]
      congr 2
      omega

/-- Where the display is behind `n` pages back. -/
theorem presses_ppage (hrows : 6 ≤ g.scrRowSize) (hbegin : 1 ≤ g.beginTask) (n : ℕ) :
    presses .ppage g n =
      some { g with beginTask := max (g.beginTask - n * (g.scrRowSize - 6)) 1 } := by
  induction n with
  | zero =>
      rw [Nat.cast_zero, zero_mul, sub_zero, max_eq_left hbegin]
      rfl
  | succ n ih =>
      have hstep : ∀ b : ℤ, (parseKeys [] .ppage { g with beginTask := b }).map Prod.fst =
          some { g with beginTask := max (b - (g.scrRowSize - 6)) 1 } := fun b => by
        have hscroll := scrollBack_beginTask (g.scrRowSize - 6) { g with beginTask := b }
        change some (scrollBack (g.scrRowSize - 6) { g with beginTask := b }) = _
        refine congrArg some ?_
        rw [← show _ = max (b - (g.scrRowSize - 6)) 1 from hscroll]
        rfl
      rw [presses, ih, Option.bind_some, hstep, Nat.cast_succ, add_mul, one_mul]
      congr 2
      omega

/-! ### The pages -/

/-- The fewest pages that are `d` tasks long together. -/
theorem exists_pages {page : ℤ} (hpage : 0 < page) (d : ℤ) :
    ∃ n : ℕ, d ≤ n * page ∧ ∀ i < n, i * page < d := by
  have hlong : ∃ n : ℕ, d ≤ n * page :=
    ⟨d.toNat, (Int.self_le_toNat d).trans (le_mul_of_one_le_right (Int.natCast_nonneg _) hpage)⟩
  exact ⟨Nat.find hlong, Nat.find_spec hlong, fun i hi => Int.not_le.1 (Nat.find_min hlong hi)⟩

/-- For less, no more pages are needed. -/
theorem pages_le {page d d' : ℤ} {n n' : ℕ} (h : d ≤ n * page) (h' : ∀ i < n', i * page < d')
    (hle : d' ≤ d) : n' ≤ n := by
  by_contra hlt
  exact absurd (h' n (Nat.not_le.1 hlt)) (Int.not_lt.2 (hle.trans h))

/-- **From the first task forward to the last.** -/
theorem pagesTo_npage (hrows : 7 ≤ g.scrRowSize) (hbegin : g.beginTask = 1)
    (htasks : 1 ≤ taskNum g) : PagesTo .npage g (taskNum g) (taskNum g) := by
  have hpage : 0 < g.scrRowSize - 6 := by omega
  have hpress := presses_npage (g := g) (by omega) (by omega)
  rw [hbegin] at hpress
  have hnonneg : ∀ n : ℕ, 0 ≤ n * (g.scrRowSize - 6) := fun n =>
    Int.mul_nonneg (Int.natCast_nonneg n) hpage.le
  constructor
  · intro n
    have := hnonneg n
    refine ⟨_, hpress n, rfl, ?_, ?_⟩ <;> dsimp only <;> omega
  · obtain ⟨n, hn, hfirst⟩ := exists_pages hpage (taskNum g - 1)
    refine ⟨n, ?_, fun i hi => ?_, fun k hk hlast => ?_⟩
    · rw [hpress, Option.map_some, Option.some_inj]
      dsimp only
      omega
    · have := hfirst i hi
      rw [hpress, Option.map_some, Ne, Option.some_inj]
      dsimp only
      omega
    · -- the page before would end in front of the task
      obtain ⟨i, hi, hbefore⟩ := exists_pages hpage (k - (g.scrRowSize - 6))
      refine ⟨i, pages_le hn hbefore (by omega), _, hpress i, ?_⟩
      rw [isShown_iff]
      dsimp only
      cases i with
      | zero => omega
      | succ i =>
          have hlt := hbefore i (Nat.lt_succ_self i)
          rw [Nat.cast_succ, add_mul, one_mul] at hi ⊢
          omega

/-- **From any task back to the first.** -/
theorem pagesTo_ppage (hrows : 7 ≤ g.scrRowSize) (hbegin : 1 ≤ g.beginTask)
    (hle : g.beginTask ≤ taskNum g) : PagesTo .ppage g 1 g.beginTask := by
  have hpage : 0 < g.scrRowSize - 6 := by omega
  have hpress := presses_ppage (g := g) (by omega) hbegin
  have hnonneg : ∀ n : ℕ, 0 ≤ n * (g.scrRowSize - 6) := fun n =>
    Int.mul_nonneg (Int.natCast_nonneg n) hpage.le
  constructor
  · intro n
    have := hnonneg n
    refine ⟨_, hpress n, rfl, ?_, ?_⟩ <;> dsimp only <;> omega
  · obtain ⟨n, hn, hfirst⟩ := exists_pages hpage (g.beginTask - 1)
    refine ⟨n, ?_, fun i hi => ?_, fun k hk hlast => ?_⟩
    · rw [hpress, Option.map_some, Option.some_inj]
      dsimp only
      omega
    · have := hfirst i hi
      rw [hpress, Option.map_some, Ne, Option.some_inj]
      dsimp only
      omega
    · -- the page before would begin behind the task
      obtain ⟨i, hi, hbefore⟩ := exists_pages hpage (g.beginTask - k)
      refine ⟨i, pages_le hn hbefore (by omega), _, hpress i, ?_⟩
      rw [isShown_iff]
      dsimp only
      cases i with
      | zero => omega
      | succ i =>
          have hlt := hbefore i (Nat.lt_succ_self i)
          rw [Nat.cast_succ, add_mul, one_mul] at hi ⊢
          omega

/-- **Paging skips no task** of the lists of a frame, whatever the terminal, and threads
displayed or not; and the tasks it counts are those that are walked. -/
theorem paging_covers (h : turn input m = .ok t) (hlists : g.lists = t.frame.lists)
    (hrows : 7 ≤ g.scrRowSize) (htasks : walked g ≠ []) :
    taskNum g = (walked g).length ∧
      (g.beginTask = 1 → PagesTo .npage g (taskNum g) (taskNum g)) ∧
      (1 ≤ g.beginTask → g.beginTask ≤ taskNum g → PagesTo .ppage g 1 g.beginTask) := by
  have hcounted : Counted g.lists.now := hlists ▸ (turn_turned h).counted
  have hlength : taskNum g = (walked g).length := (length_walked hcounted).symm
  have hpos := List.length_pos_of_ne_nil htasks
  exact ⟨hlength, fun hbegin => pagesTo_npage hrows hbegin (by omega), pagesTo_ppage hrows⟩

/-- A hundred tasks on a terminal of 24 rows: from the first task forward to the last, and
from the last back to the first. -/
theorem paging_covers_crowded : ∃ g : Globals, taskNum g = 100 ∧ g.scrRowSize = 24 ∧
    PagesTo .npage { g with beginTask := 1 } 100 100 ∧
    PagesTo .ppage { g with beginTask := 100 } 1 100 := by
  obtain ⟨r, t, -, -, ht, hnum⟩ := exists_crowdedText (n := 100) (by decide)
  let g : Globals := { t.frame with scrRowSize := 24 }
  have hwalked : (walked g).length = 100 :=
    (congrArg List.length (turn_turned ht).walked_eq).trans hnum
  have hne : walked g ≠ [] := fun hnil => by
    rw [hnil] at hwalked
    cases hwalked
  have hrows : (7 : ℤ) ≤ 24 := by decide
  have hlast : (1 : ℤ) ≤ 100 := by decide
  obtain ⟨hcount, hforward, -⟩ := paging_covers ht (g := { g with beginTask := 1 }) rfl hrows hne
  obtain ⟨-, -, hback⟩ := paging_covers ht (g := { g with beginTask := 100 }) rfl hrows hne
  have htasks : taskNum g = 100 := hcount.trans (congrArg Nat.cast hwalked)
  have hpages := hforward rfl
  rw [show taskNum { g with beginTask := 1 } = 100 from htasks] at hpages
  exact ⟨g, htasks, rfl, hpages, hback hlast htasks.ge⟩

end Vmtop
