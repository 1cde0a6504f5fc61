/-
# Where the display begins

`show_task` displays the tasks from number `begin_task` on, `scr_row_size - 4` of them
(`shownTasks_eq`).  Two keys move `begin_task` back, and do not let it fall below `1`;
two move it forward, and do not let it pass the number of tasks, which may be `0`, or
do not look at how far a page is.  Nothing looks at it when tasks disappear.  So it is
in range in every frame exactly when the keys and the tasks keep it there
(`scroll_in_range_iff`).
-/

import Vmtop.Terminal.Turns

namespace Vmtop

open CText CArray Runs

variable {input : FrameInput} {m : Main} {t : Turn} {g : Globals}

/-! ### The window -/

/-- **The tasks that are displayed**, of those from number `k + 1` on. -/
theorem shownTasks_eq (g : Globals) (ts : List Task) (k : ℤ) :
    shownTasks g ts k = (ts.drop (g.beginTask - 1 - k).toNat).take
      (g.scrRowSize - 4 - max (k + 1 - g.beginTask) 0).toNat := by
  induction ts generalizing k with
  | nil => simp [shownTasks]
  | cons task ts ih =>
      have hshown : isShown g (k + 1) = true ↔
          g.beginTask ≤ k + 1 ∧ k + 1 - g.beginTask ≤ g.scrRowSize - 5 := by
        simp [isShown]
      rw [shownTasks, ih]
      split_ifs with h
      · rw [hshown] at h
        obtain ⟨n, hn⟩ : ∃ n, (g.scrRowSize - 4 - max (k + 1 - g.beginTask) 0).toNat = n + 1 :=
          Nat.exists_eq_add_one.2 (by omega)
        have hrest : (g.scrRowSize - 4 - max (k + 1 + 1 - g.beginTask) 0).toNat = n := by omega
        have h₀ : (g.beginTask - 1 - k).toNat = 0 := by omega
        have h₁ : (g.beginTask - 1 - (k + 1)).toNat = 0 := by omega
        rw [hn, hrest, h₀, h₁, List.drop_zero, List.drop_zero, List.take_succ_cons]
      · rw [hshown, not_and] at h
        rcases lt_or_ge (k + 1) g.beginTask with hlt | hge
        · have hdrop : (g.beginTask - 1 - k).toNat = (g.beginTask - 1 - (k + 1)).toNat + 1 := by
            omega
          have htake : max (k + 1 + 1 - g.beginTask) 0 = max (k + 1 - g.beginTask) 0 := by omega
          rw [hdrop, htake, List.drop_succ_cons]
        · have hpast := h hge
          have h₀ : (g.scrRowSize - 4 - max (k + 1 - g.beginTask) 0).toNat = 0 := by omega
          have h₁ : (g.scrRowSize - 4 - max (k + 1 + 1 - g.beginTask) 0).toNat = 0 := by omega
          rw [h₀, h₁, List.take_zero, List.take_zero]

/-! ### The number of tasks -/

/-- A list of tasks that `getTaskNum` counts right: every domain has as many threads as it
says. -/
def Counted (list : DomainList) : Prop :=
  ∀ d ∈ list.domains, (d.lwps.length : ℤ) = d.nlwp

theorem Turned.counted (h : Turned input m t) : Counted t.frame.lists.now := by
  intro d hd
  obtain ⟨_, _, hf⟩ := sampleFrame_framed h.sampled
  have href := hf.records d hd
  have hpos := href.nlwp_pos
  rw [Domain.lwps_eq href.length, href.length]
  omega

/-- The tasks that the display walks are the ones that the keys count. -/
theorem length_walked (h : Counted g.lists.now) : ((walked g).length : ℤ) =
    if g.threadMode then getTaskNum g.lists.now else g.lists.now.num := by
  rw [walked, DomainList.num, getTaskNum, DomainList.num]
  unfold Counted at h
  generalize g.lists.now.domains = domains at h ⊢
  induction domains with
  | nil => simp
  | cons d ds ih =>
      rw [List.forall_mem_cons] at h
      have hlwps := h.1
      have hds := ih h.2
      rw [List.flatMap_cons, List.length_append, List.length_cons, List.length_cons, List.map_cons,
        List.sum_cons]
      split_ifs at hds ⊢
      · omega
      · rw [List.length_nil]
        omega

/-! ### The range -/

/-- The display begins at a task, if there is one, and shows one where it has room. -/
structure ScrollInRange (g : Globals) : Prop where
  one_le : 1 ≤ g.beginTask
  le : g.beginTask ≤ max 1 (walked g).length
  shown : walked g ≠ [] → 5 ≤ g.scrRowSize → shownTasks g (walked g) 0 ≠ []

theorem scrollInRange_iff :
    ScrollInRange g ↔ 1 ≤ g.beginTask ∧ g.beginTask ≤ max 1 (walked g).length := by
  refine ⟨fun h => ⟨h.one_le, h.le⟩, fun ⟨hone, hle⟩ => ⟨hone, hle, fun hne hrows => ?_⟩⟩
  have hpos := List.length_pos_of_ne_nil hne
  rw [shownTasks_eq, ← List.length_pos_iff, List.length_take, List.length_drop]
  omega

/-- A key, pressed in the frame `g`, keeps the position in range where the next frame has
`tasks` tasks: a key that moves it forward needs a task, and the page key a page that does
not take it below `1`; and no key may leave it behind the tasks that are then there. -/
def ScrollKept (key : Option Key) (g : Globals) (tasks : ℕ) : Prop :=
  match key with
  | some .npage => walked g ≠ [] ∧ 7 ≤ g.beginTask + g.scrRowSize ∧
      (g.beginTask + g.scrRowSize - 6 ≤ max 1 tasks ∨ (walked g).length ≤ max 1 tasks)
  | some .up => walked g ≠ [] ∧
      (g.beginTask + 1 ≤ max 1 tasks ∨ (walked g).length ≤ max 1 tasks)
  | some .ppage => g.beginTask - (g.scrRowSize - 6) ≤ max 1 tasks
  | some .down => g.beginTask - 1 ≤ max 1 tasks
  | some (.char 'H') => True
  | _ => g.beginTask ≤ max 1 tasks

theorem scrollKept_iff {key : Option Key} {tasks : ℕ} (hg : ScrollInRange g)
    (hcounted : Counted g.lists.now) :
    (1 ≤ scrolled key g ∧ scrolled key g ≤ max 1 tasks) ↔ ScrollKept key g tasks := by
  have hlen := length_walked hcounted
  have hone := hg.one_le
  unfold scrolled ScrollKept
  rw [← hlen, ← List.length_pos_iff]
  dsimp only
  split <;> simp <;> omega

/-! ### The runs -/

/-- The display of a turn begins where the turn before left it. -/
theorem Turned.beginTask {input' : FrameInput} {t' : Turn} (h : Turned input m t)
    (h' : Turned input' t.next t') (hmode : m.g.scrMode = .term) :
    t'.frame.beginTask = scrolled (input.press.map KeyPress.key) t.frame := by
  have hkeyed := endFrame_keyed h.ended
  rw [h.pressed hmode] at hkeyed
  rw [h'.framed, hkeyed.beginTask]

/-- The first turn begins at the first task. -/
theorem Start.beginTask (hm : Start m) (h : Turned input m t) : t.frame.beginTask = 1 := by
  obtain ⟨-, -, arch, rows, opts, hargs⟩ := hm
  rw [h.framed, parseArgs_other hargs]
  rfl

/-- **The display begins in range in every frame exactly when every key and every change of
the tasks keeps it there.** -/
theorem scroll_in_range_iff (r : ScreenRun) :
    (∀ j t, j < r.len → turn (r.input j) (r.state j) = .ok t → ScrollInRange t.frame) ↔
      ∀ j t t', j + 1 < r.len → turn (r.input j) (r.state j) = .ok t →
        turn (r.input (j + 1)) (r.state (j + 1)) = .ok t' →
        ScrollKept ((r.input j).press.map KeyPress.key) t.frame (walked t'.frame).length := by
  have hstep : ∀ {j t t'}, j + 1 < r.len → turn (r.input j) (r.state j) = .ok t →
      turn (r.input (j + 1)) (r.state (j + 1)) = .ok t' → ScrollInRange t.frame →
      (ScrollInRange t'.frame ↔
        ScrollKept ((r.input j).press.map KeyPress.key) t.frame (walked t'.frame).length) := by
    intro j t t' hj ht ht' hrange
    have h := turn_turned ht
    have h' := turn_turned ht'
    rw [r.next_eq (Nat.lt_of_succ_lt hj) ht] at h'
    rw [scrollInRange_iff, h.beginTask h' (r.scrMode (Nat.le_of_succ_le (Nat.le_of_succ_le hj)))]
    exact scrollKept_iff hrange h.counted
  constructor
  · intro h j t t' hj ht ht'
    exact (hstep hj ht ht' (h j t (Nat.lt_of_succ_lt hj) ht)).1 (h (j + 1) t' hj ht')
  · intro h j
    induction j with
    | zero =>
        intro t _ ht
        have hfirst := r.start.beginTask (turn_turned ht)
        rw [scrollInRange_iff]
        omega
    | succ j ih =>
        intro t' hj ht'
        obtain ⟨t, ht, -⟩ := r.exists_turn (Nat.lt_of_succ_lt hj)
        exact (hstep hj ht ht' (ih t (Nat.lt_of_succ_lt hj) ht)).2 (h j t t' hj ht ht')

/-- A frame on a host that runs no virtual machine. -/
def idleFrame : FrameEnv := { (default : FrameEnv) with refresh := ⟨some [], some []⟩ }

/-- **The key that moves forward takes the display before the first task** where there is
none. -/
theorem scroll_in_range_idle : ¬ ∀ (r : ScreenRun) (j : ℕ) (t : Turn), j < r.len →
    turn (r.input j) (r.state j) = .ok t → ScrollInRange t.frame := by
  intro h
  let inputs := [terminalTurn idleFrame 24 (some (earlyKey .up)), terminalTurn idleFrame 24 none]
  obtain ⟨r, hlen, -, -, hturns⟩ := exists_screenRun inputs (m := ⟨zeroGlobals, false⟩)
    ⟨rfl, rfl, .other, fun _ => Task.zero, [], rfl⟩ (by decide +kernel)
  obtain ⟨t, hturn, hat⟩ := hturns 1 (by decide)
  have hrange := h r 1 t (hlen ▸ by decide) hturn
  have hbegin : (turnAt inputs ⟨zeroGlobals, false⟩ 1).map (·.frame.beginTask) = some 0 := by
    decide +kernel
  rw [hat, Option.map_some, Option.some.injEq] at hbegin
  have := hrange.one_le
  omega

end Vmtop
