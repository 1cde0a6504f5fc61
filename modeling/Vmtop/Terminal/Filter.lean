/-
# What the field filter sets

The filter turns the flag of the highlighted column over with every space, and what it
leaves is what the run goes on with (`turn_visible_next`).  But `show_header` sets the
flags of the nodes there are in every frame, to whether bandwidth is shown
(`turn_visible_frame`).  So a choice lasts exactly as long as no frame sets the column,
or sets it to what was chosen (`choice_lasts_iff`).
-/

import Mathlib.Algebra.Ring.Parity
import Vmtop.Terminal.Turns

namespace Vmtop

open CText CArray Runs

variable {input : FrameInput} {m : Main} {t : Turn} {g g' : Globals} {k : ℕ}

/-! ### Flags -/

/-- Whether column `k` of a table is displayed; `none` where there is no such column. -/
def flagAt (fields : List Fid) (k : ℕ) : Option Bool := fields[k]?.map Fid.displayFlag

/-- Whether field `k` is displayed. -/
def visible (g : Globals) (k : ℕ) : Option Bool := flagAt g.fields k

theorem flagAt_modify (fields : List Fid) (i k : ℕ) (flag : Fid → Bool) :
    flagAt (fields.modify i fun f => { f with displayFlag := flag f }) k =
      if i = k then fields[k]?.map flag else flagAt fields k := by
  rw [flagAt, List.getElem?_modify]
  split_ifs with hik
  · simp [Function.comp_def]
  · simp [flagAt]

/-! ### The header -/

/-- `show_header` sets field `k`: it is the column of one of the nodes there are. -/
def HeaderSets (g : Globals) (k : ℕ) : Prop :=
  fdNode0 g.arch ≤ k ∧ k < fdNode0 g.arch + g.lists.now.nodeNum.toNat

instance (g : Globals) (k : ℕ) : Decidable (HeaderSets g k) :=
  inferInstanceAs (Decidable (_ ∧ _))

/-- What `show_header` leaves of a flag. -/
theorem setNodeFlags_flagAt {fields' : List Fid} (h : setNodeFlags g = .ok fields') (k : ℕ) :
    flagAt fields' k =
      if HeaderSets g k then (visible g k).map fun _ => g.resctrlEnable else visible g k := by
  have hiff : HeaderSets g k ↔
      ∃ i ∈ List.range g.lists.now.nodeNum.toNat, fdNode0 g.arch + i = k := by
    constructor
    · rintro ⟨hle, hlt⟩
      exact ⟨k - fdNode0 g.arch, List.mem_range.2 (by omega), by omega⟩
    · rintro ⟨i, hi, rfl⟩
      rw [List.mem_range] at hi
      exact ⟨by omega, by omega⟩
  rw [if_congr hiff rfl rfl, visible]
  unfold setNodeFlags at h
  generalize g.fields = start at h ⊢
  generalize List.range g.lists.now.nodeNum.toNat = nodes at h ⊢
  -- a node that is set again is set to the same
  induction nodes generalizing start with
  | nil =>
      cases h
      simp
  | cons i nodes ih =>
      rw [List.foldlM_cons] at h
      obtain ⟨fields₁, hset, h⟩ := bind_eq_ok.1 h
      dsimp only at hset
      split_ifs at hset
      cases hset
      rw [ih _ h, flagAt_modify]
      by_cases hi : fdNode0 g.arch + i = k
      · have hmem : ∃ j ∈ i :: nodes, fdNode0 g.arch + j = k := ⟨i, List.mem_cons_self, hi⟩
        rw [if_pos hi, if_pos hmem]
        split_ifs
        · simp [flagAt, Function.comp_def]
        · simp [flagAt, Function.comp_def]
      · have hmem : (∃ j ∈ i :: nodes, fdNode0 g.arch + j = k) ↔
            ∃ j ∈ nodes, fdNode0 g.arch + j = k := by
          simp [hi]
        rw [if_neg hi, if_congr hmem rfl rfl]

/-- **What a frame shows of a field**: what the state before has of it, except the column of a
node. -/
theorem turn_visible_frame (h : turn input m = .ok t) (k : ℕ) :
    visible t.frame k =
      if HeaderSets t.frame k then (visible m.g k).map fun _ => t.frame.resctrlEnable
      else visible m.g k := by
  obtain ⟨g, hbegin, hfields, hdrawn⟩ := turn_drawn h
  have hstart : visible g k = visible m.g k := by
    rw [visible, (beginFrame_ok hbegin).2]
    rfl
  have hsets : HeaderSets t.frame k ↔ HeaderSets g k := by rw [hdrawn, HeaderSets, HeaderSets]
  have hon : t.frame.resctrlEnable = g.resctrlEnable := by rw [hdrawn]
  rw [if_congr hsets rfl rfl, hon, ← hstart]
  exact setNodeFlags_flagAt hfields k

/-! ### The filter -/

/-- The spaces that are pressed on field `k` of a table of `n`, until the filter is quit. -/
def spaces (n k : ℕ) : List (Option KeyPress) → ℕ → ℕ
  | [], _ => 0
  | press :: rest, highLight =>
      match press.map KeyPress.key with
      | some .up => spaces n k rest (if highLight = 0 then n - 1 else highLight - 1)
      | some .down => spaces n k rest (if n ≤ highLight + 1 then 0 else highLight + 1)
      | some (.char ' ') => spaces n k rest highLight + if highLight = k then 1 else 0
      | some (.char 'q') => 0
      | _ => spaces n k rest highLight

/-- A flag after `n` spaces. -/
def turnedOver (n : ℕ) (flag : Option Bool) : Option Bool :=
  if Odd n then flag.map not else flag

theorem turnedOver_succ (n : ℕ) (flag : Option Bool) :
    turnedOver (n + 1) flag = turnedOver n (flag.map not) := by
  have htwice : (flag.map not).map not = flag := by
    cases flag <;> simp
  unfold turnedOver
  rw [if_congr Nat.odd_add_one rfl rfl, htwice]
  exact ite_not _ _ _

/-- **Only the spaces on a field change it.** -/
theorem showFilter_flagAt {delayTime : ℤ} {presses : List (Option KeyPress)} {highLight : ℕ}
    {fields : List Fid} {r : List Fid × ℚ}
    (h : showFilter delayTime presses highLight fields = some r) (k : ℕ) :
    flagAt r.1 k = turnedOver (spaces fields.length k presses highLight) (flagAt fields k) := by
  induction presses generalizing highLight fields r with
  | nil => cases h
  | cons press rest ih =>
      simp only [showFilter] at h
      split at h
      case h_4 hkey =>
        cases h
        simp only [spaces, hkey]
        rfl
      all_goals
        rename_i hkey
        obtain ⟨r', hr', rfl⟩ := Option.map_eq_some_iff.1 h
        have hrest := ih hr'
      case h_1 | h_2 =>
        simp only [spaces, hkey]
        exact hrest
      case h_3 =>
        simp only [spaces, hkey]
        rw [hrest, List.length_modify, flagAt_modify]
        split_ifs
        · rw [turnedOver_succ, flagAt, Option.map_map]
          rfl
        · rfl
      case h_5 =>
        rw [hrest, spaces]
        split <;> simp_all

theorem parseKeys_visible {filter : List (Option KeyPress)} {key : Key} {seconds : ℚ}
    (h : parseKeys filter key g = some (g', seconds)) (k : ℕ) :
    visible g' k =
      turnedOver (if key = .char 'f' then spaces g.fields.length k filter 0 else 0)
        (visible g k) := by
  unfold parseKeys at h
  split at h
  case h_1 =>
    obtain ⟨r, hr, h⟩ := Option.map_eq_some_iff.1 h
    cases h
    rw [if_pos rfl]
    exact showFilter_flagAt hr k
  case h_10 hf _ _ _ _ _ _ _ _ =>
    cases h
    rw [if_neg hf]
    rfl
  all_goals
    cases h
    rfl

/-- The spaces on field `k` in the visit of a turn, if there is one. -/
def toggles (input : FrameInput) (m : Main) (k : ℕ) : ℕ :=
  if input.press.map KeyPress.key = some (.char 'f') then
    spaces m.g.fields.length k input.filter 0
  else 0

/-- **What a turn leaves of a field**: what the frame shows of it, turned over by every space
that is pressed on it. -/
theorem turn_visible_next (h : turn input m = .ok t) (hmode : m.g.scrMode = .term) (k : ℕ) :
    visible t.next.g k = turnedOver (toggles input m k) (visible t.frame k) := by
  have hturned := turn_turned h
  have hlen : t.frame.fields.length = m.g.fields.length := by
    rw [← List.length_map (f := Fid.column), hturned.columns, List.length_map]
  obtain ⟨⟨keyed, more⟩, hkeyed, hend⟩ := Option.map_eq_some_iff.1 hturned.ended
  have hnext : visible t.next.g k = visible keyed k :=
    congrArg (fun p : Globals × ℚ => visible p.1 k) hend.symm
  rw [hturned.pressed hmode] at hkeyed
  rw [hnext, toggles, ← hlen]
  cases hpress : input.press with
  | none =>
      rw [hpress] at hkeyed
      cases hkeyed
      rfl
  | some press =>
      rw [hpress] at hkeyed
      rw [parseKeys_visible hkeyed, Option.map_some, if_congr Option.some_inj rfl rfl]

/-! ### Choices -/

/-- Turn `i` draws one of the frames behind the visit of turn `j`, and no visit between them
turns field `k` over again. -/
def Since (r : ScreenRun) (k j i : ℕ) : Prop :=
  j < i ∧ i < r.len ∧ ∀ l, j < l → l < i → ¬ Odd (toggles (r.input l) (r.state l) k)

/-- The choice of turn `j` is what is left of it as long as no frame sets the column to
something else. -/
theorem visible_since (r : ScreenRun) {j : ℕ}
    (ht : turn (r.input j) (r.state j) = .ok t)
    (hodd : Odd (toggles (r.input j) (r.state j) k))
    (hset : ∀ i t', Since r k j i → turn (r.input i) (r.state i) = .ok t' →
      HeaderSets t'.frame k → ∀ flag ∈ visible t.frame k, t'.frame.resctrlEnable = !flag) :
    ∀ i t', Since r k j i → turn (r.input i) (r.state i) = .ok t' →
      visible t'.frame k = (visible t.frame k).map not := by
  intro i
  induction i with
  | zero => exact fun _ h => absurd h.1 (Nat.not_lt_zero j)
  | succ i ih =>
      intro t' hsince ht'
      obtain ⟨hlt, hlen, hnone⟩ := hsince
      have hstate : visible (r.state (i + 1)).g k = (visible t.frame k).map not := by
        obtain ⟨t₁, ht₁, hnext⟩ := r.exists_turn (Nat.lt_of_succ_lt hlen)
        rw [← hnext, turn_visible_next ht₁ (r.scrMode (Nat.le_of_succ_le hlen.le))]
        rcases Nat.lt_succ_iff_lt_or_eq.1 hlt with hji | rfl
        · rw [turnedOver, if_neg (hnone i hji (Nat.lt_succ_self i))]
          exact ih t₁ ⟨hji, Nat.lt_of_succ_lt hlen, fun l hl hli =>
            hnone l hl (Nat.lt_succ_of_lt hli)⟩ ht₁
        · rw [ht] at ht₁
          cases ht₁
          rw [turnedOver, if_pos hodd]
      rw [turn_visible_frame ht', hstate]
      split_ifs with hheader
      · have hflag := hset (i + 1) t' ⟨hlt, hlen, hnone⟩ ht' hheader
        cases hv : visible t.frame k with
        | none => rfl
        | some flag => rw [Option.map_some, Option.map_some, hflag flag hv]
      · rfl

/-- **A choice lasts exactly as long as every frame in which the field is the column of a node
shows bandwidth as it was chosen.**  Spaces on other fields never change it. -/
theorem choice_lasts_iff (r : ScreenRun) (k : ℕ) :
    (∀ j t, j < r.len → turn (r.input j) (r.state j) = .ok t →
      visible (r.state (j + 1)).g k =
        turnedOver (toggles (r.input j) (r.state j) k) (visible t.frame k)) ∧
    ∀ j t, j < r.len → turn (r.input j) (r.state j) = .ok t →
      Odd (toggles (r.input j) (r.state j) k) →
      ((∀ i t', Since r k j i → turn (r.input i) (r.state i) = .ok t' →
        visible t'.frame k = (visible t.frame k).map not) ↔
      ∀ i t', Since r k j i → turn (r.input i) (r.state i) = .ok t' →
        HeaderSets t'.frame k → ∀ flag ∈ visible t.frame k, t'.frame.resctrlEnable = !flag) := by
  refine ⟨fun j t hj ht => ?_, fun j t hj ht hodd =>
    ⟨fun h i t' hsince ht' hheader flag hflag => ?_, visible_since r ht hodd⟩⟩
  · rw [r.next_eq hj ht]
    exact turn_visible_next ht (r.scrMode hj.le) k
  · have hshown := h i t' hsince ht'
    rw [turn_visible_frame ht', if_pos hheader, (hflag : visible t.frame k = some flag),
      Option.map_some, Option.map_eq_some_iff] at hshown
    obtain ⟨_, -, hset⟩ := hshown
    exact hset

/-! ### A node that cannot be hidden -/

/-- A turn on a host where one node is monitored, with these keys in the filter. -/
def filterTurn (keys : List Key) : FrameInput :=
  { terminalTurn (crowdedEnv 1) 24 (some (earlyKey (.char 'f'))) with
    filter := keys.map fun key => some (earlyKey key) }

/-- The inputs of two turns, in the first of which the filter is visited. -/
def filterInputs (keys : List Key) : List FrameInput :=
  [filterTurn keys, terminalTurn (crowdedEnv 1) 24 none]

theorem exists_filterRun (keys : List Key)
    (h : (runAll mainStep (filterInputs keys) ⟨meteredGlobals, false⟩).toOption.isSome) :
    ∃ (r : ScreenRun) (t t' : Turn), 0 < r.len ∧
      turn (r.input 0) (r.state 0) = .ok t ∧ turn (r.input 1) (r.state 1) = .ok t' ∧
      turnAt (filterInputs keys) ⟨meteredGlobals, false⟩ 0 = some t ∧
      turnAt (filterInputs keys) ⟨meteredGlobals, false⟩ 1 = some t' ∧
      ∀ k, Since r k 0 1 ∧
        toggles (r.input 0) (r.state 0) k =
          toggles (filterTurn keys) ⟨meteredGlobals, false⟩ k := by
  obtain ⟨r, hlen, hstart, hinput, hturns⟩ := exists_screenRun (filterInputs keys)
    ⟨rfl, rfl, .other, fun _ => Task.zero, [.G], rfl⟩ h
  obtain ⟨t, hturn, hat⟩ := hturns 0 Nat.zero_lt_two
  obtain ⟨t', hturn', hat'⟩ := hturns 1 Nat.one_lt_two
  refine ⟨r, t, t', hlen ▸ Nat.zero_lt_two, hturn, hturn', hat, hat', fun k => ⟨?_, ?_⟩⟩
  · exact ⟨Nat.zero_lt_one, hlen ▸ Nat.one_lt_two, fun l hl hl' => by omega⟩
  · rw [hstart, hinput]
    rfl

/-- The first column stays hidden once it is. -/
theorem choice_lasts_iff_did : ∃ (r : ScreenRun) (t t' : Turn),
    turn (r.input 0) (r.state 0) = .ok t ∧ turn (r.input 1) (r.state 1) = .ok t' ∧
    visible t'.frame 0 = (visible t.frame 0).map not := by
  obtain ⟨r, t, t', hlen, hturn, hturn', -, -, hk⟩ :=
    exists_filterRun [.char ' ', .char 'q'] (by decide +kernel)
  refine ⟨r, t, t', hturn, hturn', ((choice_lasts_iff r 0).2 0 t hlen hturn ?_).2
    (fun i t' _ _ hheader => ?_) 1 t' (hk 0).1 hturn'⟩
  · rw [(hk 0).2]
    decide +kernel
  · have hpos : fdNode0 t'.frame.arch ≠ 0 := by
      cases t'.frame.arch <;> decide
    exact absurd (Nat.le_zero.1 hheader.1) hpos

/-- **A column of a node that the user hides is back in the next frame.** -/
theorem choice_undone : ¬ ∀ (r : ScreenRun) (k j : ℕ) (t : Turn), j < r.len →
    turn (r.input j) (r.state j) = .ok t → Odd (toggles (r.input j) (r.state j) k) →
    ∀ i t', Since r k j i → turn (r.input i) (r.state i) = .ok t' →
      visible t'.frame k = (visible t.frame k).map not := by
  intro h
  -- from the first column, sixteen steps up lead to the column of the first node
  let keys := List.replicate maxNodeNum Key.up ++ [.char ' ', .char 'q']
  obtain ⟨r, t, t', hlen, hturn, hturn', hat, hat', hk⟩ :=
    exists_filterRun keys (by decide +kernel)
  have hlasts := h r (fdNode0 .other) 0 t hlen hturn (by rw [(hk _).2]; decide +kernel) 1 t'
    (hk _).1 hturn'
  have hshown : ∀ j : Fin 2, (turnAt (filterInputs keys) ⟨meteredGlobals, false⟩ j).map
      (fun t => visible t.frame (fdNode0 .other)) = some (some true) := by decide +kernel
  have hfirst := hshown 0
  have hnext := hshown 1
  rw [show ((0 : Fin 2) : ℕ) = 0 from rfl, hat, Option.map_some, Option.some.injEq] at hfirst
  rw [show ((1 : Fin 2) : ℕ) = 1 from rfl, hat', Option.map_some, Option.some.injEq] at hnext
  rw [hfirst, hnext] at hlasts
  cases hlasts

end Vmtop
