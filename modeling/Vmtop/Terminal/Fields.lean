/-
# Where the scrolled columns begin

`did` and `vmname` stay where they are, and `begin_field` counts the other columns that are
displayed: on a wide screen these are the ones from number `begin_field` on
(`filter_columns`).  The key that moves forward stops in front of the number of all
columns that are displayed, with the two that do not scroll among them; and the filter does
not look at `begin_field`.  So it may leave the columns on either side: past the last one,
where two stay in place, and at `0` or in front of the last, where none does.  It is in
range in every frame exactly when the keys and the columns keep it there
(`fields_in_range_iff`).
-/

import Vmtop.Terminal.Paging

namespace Vmtop

open CText CArray Runs

variable {input : FrameInput} {m : Main} {t : Turn} {g g' : Globals}

/-! ### The columns that scroll -/

/-- A column that stays where it is. -/
def Fid.pinned (f : Fid) : Bool := f.fd = .did || f.fd = .vmname

/-- A column that is displayed and scrolls. -/
def Fid.scrolls (f : Fid) : Bool := f.displayFlag && !f.pinned

/-- The columns that are displayed and scroll. -/
def scrollable (g : Globals) : List Fid := g.fields.filter Fid.scrolls

/-- The number of columns that are displayed and stay where they are. -/
def pinnedNum (g : Globals) : ℕ := g.fields.countP fun f => f.displayFlag && f.pinned

/-- The width of all the columns that are displayed. -/
def width (fields : List Fid) : ℕ := ((fields.filter Fid.displayFlag).map Fid.align).sum

/-- The screen is wide enough for all the columns that are displayed. -/
def Wide (g : Globals) : Prop := (width g.fields : ℤ) < g.scrColSize

/-- `get_show_field_num` counts those that do not scroll, too. -/
theorem getShowFieldNum_eq (g : Globals) :
    getShowFieldNum g.fields = (scrollable g).length + pinnedNum g := by
  unfold getShowFieldNum scrollable pinnedNum
  induction g.fields with
  | nil => rfl
  | cons f fields ih =>
      rw [List.filter_cons, List.countP_cons, List.countP_cons]
      cases hflag : f.displayFlag <;> cases hpinned : f.pinned <;>
        simp only [Fid.scrolls, hflag, hpinned] <;> simp at ih ⊢ <;> omega

/-- **On a wide screen the columns that scroll are displayed from number `begin_field` on.** -/
theorem filter_shownFields {scrColSize beginField : ℤ} {fields : List Fid} {showdWidth : ℤ}
    (hwide : showdWidth + width fields < scrColSize) (showdField : ℤ) :
    (shownFields scrColSize beginField fields showdWidth showdField).filter Fid.scrolls =
      (fields.filter Fid.scrolls).drop (beginField - 1 - showdField).toNat := by
  induction fields generalizing showdWidth showdField with
  | nil => simp [shownFields]
  | cons f rest ih =>
      rw [shownFields]
      by_cases hflag : f.displayFlag = true
      · have hwidth : (width (f :: rest) : ℤ) = f.align + width rest := by
          simp [width, hflag]
        have hroom : ¬ scrColSize ≤ showdWidth + f.align := by omega
        have hrest : showdWidth + f.align + width rest < scrColSize := by omega
        rw [if_pos hflag]
        by_cases hpin : f.fd = .did ∨ f.fd = .vmname
        · have hscroll : f.scrolls = false := by
            rcases hpin with hfd | hfd <;> simp [Fid.scrolls, Fid.pinned, hfd]
          rw [if_pos hpin, if_neg hroom, List.filter_cons_of_neg (by simp [hscroll]),
            List.filter_cons_of_neg (by simp [hscroll]), ih hrest]
        · have hscroll : f.scrolls = true := by
            simpa [Fid.scrolls, Fid.pinned, hflag] using hpin
          rw [if_neg hpin, List.filter_cons_of_pos hscroll (l := rest)]
          split_ifs with hbegin
          · have h₀ : (beginField - 1 - showdField).toNat = 0 := by omega
            have h₁ : (beginField - 1 - (showdField + 1)).toNat = 0 := by omega
            rw [List.filter_cons_of_pos hscroll, ih hrest, h₀, h₁, List.drop_zero, List.drop_zero]
          · have hdrop : (beginField - 1 - showdField).toNat =
                (beginField - 1 - (showdField + 1)).toNat + 1 := by omega
            rw [ih (by omega), hdrop, List.drop_succ_cons]
      · have hwidth : width (f :: rest) = width rest := by
          simp [width, hflag]
        have hscroll : f.scrolls = false := by
          simp [Fid.scrolls, hflag]
        rw [if_neg hflag, List.filter_cons_of_neg (by simp [hscroll]), ih (hwidth ▸ hwide)]

theorem filter_columns (hwide : Wide g) :
    (columns g).filter Fid.scrolls = (scrollable g).drop (g.beginField - 1).toNat := by
  unfold columns scrollable
  rw [filter_shownFields (by rw [zero_add]; exact hwide), sub_zero]

/-! ### The range -/

/-- The columns of a frame can be scrolled: the first is a column; where the screen is wide and
a column scrolls, one is displayed; and the key that moves forward comes to every column that is
not behind it. -/
structure FieldsInRange (g : Globals) : Prop where
  one_le : 1 ≤ g.beginField
  shown : scrollable g ≠ [] → Wide g → ∃ f ∈ columns g, f.scrolls = true
  reached : ∀ b k : ℤ, 1 ≤ b → b ≤ k → k ≤ (scrollable g).length →
    ∃ n, (presses .right { g with beginField := b } n).map Globals.beginField = some k

/-- Where the columns are behind `n` presses of the key that moves forward. -/
theorem presses_right (g : Globals) (n : ℕ) :
    presses .right g (n + 1) = some { g with
      beginField := min (g.beginField + (n + 1)) (getShowFieldNum g.fields - 1) } := by
  have hstep : ∀ b : ℤ, (parseKeys [] .right { g with beginField := b }).map Prod.fst =
      some { g with beginField := min (b + 1) (getShowFieldNum g.fields - 1) } := by
    intro b
    simp only [parseKeys, Option.map_some]
    congr 2
    split_ifs <;> omega
  induction n with
  | zero =>
      rw [Nat.cast_zero, zero_add]
      exact hstep g.beginField
  | succ n ih =>
      rw [presses, ih, Option.bind_some, hstep, Nat.cast_succ]
      congr 2
      omega

/-- **Every column is reached exactly when one stays in place**, or no two scroll. -/
theorem reached_iff : (∀ b k : ℤ, 1 ≤ b → b ≤ k → k ≤ (scrollable g).length →
      ∃ n, (presses .right { g with beginField := b } n).map Globals.beginField = some k) ↔
    1 ≤ pinnedNum g ∨ (scrollable g).length ≤ 1 := by
  have hnum := getShowFieldNum_eq g
  have hpress (b : ℤ) (n : ℕ) := presses_right { g with beginField := b } n
  constructor
  · intro h
    by_contra hnot
    obtain ⟨n, hn⟩ := h 1 (scrollable g).length (le_refl 1) (by omega) (le_refl _)
    cases n with
    | zero =>
        have hone : (1 : ℤ) = (scrollable g).length := Option.some.inj hn
        omega
    | succ n =>
        rw [hpress, Option.map_some, Option.some_inj] at hn
        dsimp only at hn
        omega
  · intro h b k hb hle hk
    rcases hle.eq_or_lt with rfl | hlt
    · exact ⟨0, rfl⟩
    · obtain ⟨n, hn⟩ : ∃ n : ℕ, b + (n + 1) = k := ⟨(k - b - 1).toNat, by omega⟩
      refine ⟨n + 1, ?_⟩
      rw [hpress, Option.map_some, Option.some_inj]
      dsimp only
      omega

/-- **When the columns are in range.** -/
theorem fieldsInRange_iff : FieldsInRange g ↔ 1 ≤ g.beginField ∧
    (scrollable g ≠ [] → Wide g → g.beginField ≤ (scrollable g).length) ∧
    (1 ≤ pinnedNum g ∨ (scrollable g).length ≤ 1) := by
  have hshown (hone : 1 ≤ g.beginField) (hwide : Wide g) :
      (∃ f ∈ columns g, f.scrolls = true) ↔ g.beginField ≤ (scrollable g).length := by
    have hlength : ((columns g).filter Fid.scrolls).length =
        (scrollable g).length - (g.beginField - 1).toNat := by
      rw [filter_columns hwide, List.length_drop]
    constructor
    · rintro ⟨f, hf, hscrolls⟩
      have hpos := List.length_pos_of_mem (List.mem_filter.2 ⟨hf, hscrolls⟩)
      omega
    · intro hle
      obtain ⟨f, hf⟩ : ∃ f, f ∈ (columns g).filter Fid.scrolls :=
        List.exists_mem_of_length_pos (by omega)
      exact ⟨f, List.mem_filter.1 hf⟩
  constructor
  · rintro ⟨hone, hdisplay, hreached⟩
    refine ⟨hone, fun hne hwide => ?_, reached_iff.1 hreached⟩
    exact (hshown hone hwide).1 (hdisplay hne hwide)
  · rintro ⟨hone, hle, hpinned⟩
    exact ⟨hone, fun hne hwide => (hshown hone hwide).2 (hle hne hwide), reached_iff.2 hpinned⟩

/-! ### The keys -/

/-- Where the columns begin behind a key. -/
def moved (key : Option Key) (g : Globals) : ℤ :=
  match key with
  | some .left => max (g.beginField - 1) 1
  | some .right => min (g.beginField + 1) (getShowFieldNum g.fields - 1)
  | _ => g.beginField

theorem parseKeys_beginField {filter : List (Option KeyPress)} {key : Key} {seconds : ℚ}
    (h : parseKeys filter key g = some (g', seconds)) : g'.beginField = moved (some key) g := by
  unfold parseKeys at h
  split at h
  case h_1 =>
    obtain ⟨r, -, h⟩ := Option.map_eq_some_iff.1 h
    cases h
    rfl
  all_goals cases h
  case h_7 =>
    simp only [moved]
    split_ifs <;> omega
  case h_8 =>
    simp only [moved]
    split_ifs <;> omega
  case h_10 hleft hright _ =>
    unfold moved
    split <;> simp_all
  all_goals rfl

/-- The columns of a turn begin where the turn before left them. -/
theorem Turned.beginField {input' : FrameInput} {t' : Turn} (h : Turned input m t)
    (h' : Turned input' t.next t') (hmode : m.g.scrMode = .term) :
    t'.frame.beginField = moved (input.press.map KeyPress.key) t.frame := by
  obtain ⟨⟨keyed, more⟩, hkeyed, hnext⟩ := Option.map_eq_some_iff.1 h.ended
  rw [h.pressed hmode] at hkeyed
  have hkept : t.next.g.beginField = keyed.beginField := by rw [← (Prod.mk.inj hnext).1]
  rw [h'.framed, hkept]
  cases hpress : input.press with
  | none =>
      rw [hpress] at hkeyed
      cases hkeyed
      rfl
  | some press =>
      rw [hpress] at hkeyed
      exact parseKeys_beginField hkeyed

/-- The first turn begins at the first column. -/
theorem Start.beginField (hm : Start m) (h : Turned input m t) : t.frame.beginField = 1 := by
  obtain ⟨-, -, arch, rows, opts, hargs⟩ := hm
  rw [h.framed, parseArgs_other hargs]
  rfl

/-- A key, pressed in the frame `g`, keeps the columns in range where `next` is the next frame:
the key that moves forward needs two columns, scrolling or not; and where `next` has columns
that scroll, and is wide enough for all it displays, no key may leave them behind the last. -/
def FieldKept (key : Option Key) (g next : Globals) : Prop :=
  (key = some .right → 2 ≤ getShowFieldNum g.fields) ∧
    (scrollable next ≠ [] → Wide next →
      match key with
      | some .left => g.beginField - 1 ≤ (scrollable next).length
      | some .right => g.beginField + 1 ≤ (scrollable next).length ∨
          getShowFieldNum g.fields - 1 ≤ (scrollable next).length
      | _ => g.beginField ≤ (scrollable next).length)

theorem fieldKept_iff {key : Option Key} {next : Globals} (hone : 1 ≤ g.beginField) :
    (1 ≤ moved key g ∧
      (scrollable next ≠ [] → Wide next → moved key g ≤ (scrollable next).length)) ↔
      FieldKept key g next := by
  unfold FieldKept
  refine and_congr ?_ (imp_congr_right fun hne => imp_congr_right fun _ => ?_)
  · unfold moved
    split
    · simp
    · simp only [forall_const]
      omega
    · rename_i hright
      exact iff_of_true hone fun hkey => absurd hkey hright
  · have hpos := List.length_pos_of_ne_nil hne
    unfold moved
    split
    · omega
    · omega
    · rfl

/-! ### The runs -/

/-- One column stays in place, or no two scroll. -/
def Reaching (g : Globals) : Prop := 1 ≤ pinnedNum g ∨ (scrollable g).length ≤ 1

/-- **The columns are in range in every frame exactly when every key and every change of the
columns keeps them there**, and one of those that stay in place is displayed beside any two
that scroll. -/
theorem fields_in_range_iff (r : ScreenRun) :
    (∀ j t, j < r.len → turn (r.input j) (r.state j) = .ok t → FieldsInRange t.frame) ↔
      (∀ j t, j < r.len → turn (r.input j) (r.state j) = .ok t → Reaching t.frame) ∧
      ∀ j t t', j + 1 < r.len → turn (r.input j) (r.state j) = .ok t →
        turn (r.input (j + 1)) (r.state (j + 1)) = .ok t' →
        FieldKept ((r.input j).press.map KeyPress.key) t.frame t'.frame := by
  have hstep : ∀ {j t t'}, j + 1 < r.len → turn (r.input j) (r.state j) = .ok t →
      turn (r.input (j + 1)) (r.state (j + 1)) = .ok t' → 1 ≤ t.frame.beginField →
      ((1 ≤ t'.frame.beginField ∧ (scrollable t'.frame ≠ [] → Wide t'.frame →
          t'.frame.beginField ≤ (scrollable t'.frame).length)) ↔
        FieldKept ((r.input j).press.map KeyPress.key) t.frame t'.frame) := by
    intro j t t' hj ht ht' hone
    have h := turn_turned ht
    have h' := turn_turned ht'
    rw [r.next_eq (Nat.lt_of_succ_lt hj) ht] at h'
    rw [h.beginField h' (r.scrMode (Nat.le_of_succ_le (Nat.le_of_succ_le hj)))]
    exact fieldKept_iff hone
  constructor
  · intro h
    refine ⟨fun j t hj ht => (fieldsInRange_iff.1 (h j t hj ht)).2.2, fun j t t' hj ht ht' => ?_⟩
    have hrange := fieldsInRange_iff.1 (h (j + 1) t' hj ht')
    exact (hstep hj ht ht' (h j t (Nat.lt_of_succ_lt hj) ht).one_le).1 ⟨hrange.1, hrange.2.1⟩
  · rintro ⟨hreach, hkept⟩ j
    induction j with
    | zero =>
        intro t hj ht
        have hfirst := r.start.beginField (turn_turned ht)
        refine fieldsInRange_iff.2 ⟨hfirst.ge, fun hne _ => ?_, hreach 0 t hj ht⟩
        have hpos := List.length_pos_of_ne_nil hne
        omega
    | succ j ih =>
        intro t' hj ht'
        obtain ⟨t, ht, -⟩ := r.exists_turn (Nat.lt_of_succ_lt hj)
        have hone := (ih t (Nat.lt_of_succ_lt hj) ht).one_le
        have hrange := (hstep hj ht ht' hone).2 (hkept j t t' hj ht ht')
        exact fieldsInRange_iff.2 ⟨hrange.1, hrange.2, hreach (j + 1) t' hj ht'⟩

/-- A turn on a wide terminal of a host that runs no virtual machine, where the key that moves
forward is pressed. -/
def rightTurn : FrameInput :=
  { terminalTurn idleFrame 24 (some (earlyKey .right)) with cols := 200 }

/-- **Past the last column**: ten columns scroll at the start, and the key that is pressed ten
times goes on to the eleventh. -/
theorem fields_in_range_right : ¬ ∀ (r : ScreenRun) (j : ℕ) (t : Turn), j < r.len →
    turn (r.input j) (r.state j) = .ok t → FieldsInRange t.frame := by
  intro h
  let inputs := List.replicate 11 rightTurn
  obtain ⟨r, hlen, -, -, hturns⟩ := exists_screenRun inputs (m := ⟨zeroGlobals, false⟩)
    ⟨rfl, rfl, .other, fun _ => Task.zero, [], rfl⟩ (by decide +kernel)
  obtain ⟨t, hturn, hat⟩ := hturns 10 (by decide)
  have hrange := fieldsInRange_iff.1 (h r 10 t (hlen ▸ by decide) hturn)
  have hframe : (turnAt inputs ⟨zeroGlobals, false⟩ 10).map (fun t => (t.frame.beginField,
      (scrollable t.frame).length, width t.frame.fields, t.frame.scrColSize)) =
        some (11, 10, 99, 200) := by
    decide +kernel
  rw [hat, Option.map_some] at hframe
  simp only [Option.some.injEq, Prod.mk.injEq] at hframe
  obtain ⟨hbegin, hlength, hwidth, hcols⟩ := hframe
  have hne : scrollable t.frame ≠ [] := List.ne_nil_of_length_pos (by omega)
  have hwide : Wide t.frame := by
    unfold Wide
    omega
  have := hrange.2.1 hne hwide
  omega

end Vmtop
