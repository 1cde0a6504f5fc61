/-
# Whether the rows line up with the header

The header and the rows print the same columns, each padded to its width.  Padding
never cuts, and only the name is cut before; so a row lines up with the header exactly
while its values fit (`lines_up_iff`).  A value fits its column, and leaves a blank in
front of it, when it has fewer characters than the column is wide: an integer when
it lies between powers of ten, a number with decimals when it stays below the half that is
rounded up to one (`length_cell_le_iff`).  Such a number has been rounded in every step of its
computation, so for the counter behind it that bound is taken back step by step (`percentCut`,
`waitmaxCut`).

On the terminal a record without a state leaves its column a character short: the NUL that
stands for the state ends what `printw` writes.
-/

import Vmtop.Terminal.Lines

namespace Vmtop

open CText CArray Rounding

variable {g : Globals} {arch : Arch} {clkTck : ℕ} {task : Task} {delayTime : ℤ} {f : Fid}

/-! ### What lines up -/

/-- A text that is padded to a width, with at least one blank in front of it. -/
def Spaced (width : ℕ) (s : Text) : Prop := ∃ n, pad width s = List.replicate (n + 1) ' ' ++ s

/-- The row of a task lines up with the header: they are as long as each other, and below the
width of the screen; each cell has the width of its column; and a blank stands between two
values, and between two titles. -/
structure LinesUp (clkTck : ℕ) (g : Globals) (task : Task) : Prop where
  length : (taskRow g clkTck task).length = (showHeader g).length
  cells : ∀ f ∈ columns g, (pad f.align f.name).length = f.align ∧
    (printDomainField g.scrMode clkTck g.delayTime task f).length = f.align
  gaps : ∀ f ∈ (columns g).tail, Spaced f.align f.name ∧
    Spaced f.align (cell clkTck g.delayTime task f)
  total : ((columns g).flatMap (printDomainField g.scrMode clkTck g.delayTime task)).length <
    g.scrColSize

/-! ### What fits -/

/-- An integer of at most `width` characters. -/
def IntFits (width : ℕ) (z : ℤ) : Prop := -10 ^ (width - 1) < z ∧ z < 10 ^ width

/-- How far a counter of `unit` a second may grow in `delayTime` seconds for a percentage of at most
`width` characters: the bound of the percentage, taken back through the two divisions, the
multiplication by 100 and the conversion to `double`. -/
def percentCut (width : ℕ) (unit delayTime : ℚ) : Cut :=
  ((((((decimalsCut 1 width).unround 53).scale delayTime).unround 53).scale
    (toDouble unit)).unround 53 |>.scale (1 / 100)).unround 53

/-- The nanoseconds that are shown as milliseconds of at most `width` characters: the bound, taken
back through the division and the conversion to `float`. -/
def waitmaxCut (width : ℕ) : Cut :=
  (((decimalsCut 3 width).unround 24).scale (10 ^ 6)).unround 24

/-- A percentage of at most `width` characters, of a counter that grew by `n` of `unit` a second:
all the vCPUs together do not reach the next power of ten, or the counter keeps the percentage
below it; where there is nothing to divide by, the counter must not grow. -/
def PercentFits (width : ℕ) (delayTime smpVcpus : ℤ) (n : U64) (unit : ℚ) : Prop :=
  100 * smpVcpus < 10 ^ (width - 2) ∨
    if unit = 0 ∨ delayTime = 0 then n.toNat = 0
    else (percentCut width unit delayTime).Below n.toNat

/-- What a record may hold for column `fd` to show it in `width` characters. -/
def ValueFits (width clkTck : ℕ) (delayTime : ℤ) (task : Task) : Fd → Prop
  | .vmname | .state => True
  | .did => task.type = .isDomain → IntFits width task.domainId
  | .pid => (task.pid % 2 ^ 32).toNat < 10 ^ width
  | .exit v => (task.delta v).toNat < 10 ^ width
  | .p => IntFits width task.processor
  | .waitmax => (waitmaxCut width).Below task.stMax.toNat
  | .node i => task.bandwidthUpdatedSucc = true → IntFits width (task.ctlBandwidth i).toInt
  | .cpu => PercentFits width delayTime task.smpVcpus (task.delta .utime + task.delta .stime) clkTck
  | .st => PercentFits width delayTime task.smpVcpus (task.delta .steal) (10 ^ 9)
  | .gue => PercentFits width delayTime task.smpVcpus (task.delta .gtime) (10 ^ 9)
  | .hyp => PercentFits width delayTime task.smpVcpus
      (task.delta .vcpuUtime - task.delta .gtime + task.delta .vcpuStime) (10 ^ 9)

/-- The values of a task fit the columns on the screen, which is not empty: the first column is
filled at most, and behind it one character is left; and a terminal that shows the state has one
to show. -/
structure RowFits (clkTck : ℕ) (g : Globals) (task : Task) : Prop where
  screen : 0 < g.scrColSize
  first : ∀ f ∈ (columns g).head?, ValueFits f.align clkTck g.delayTime task f.fd
  others : ∀ f ∈ (columns g).tail, ValueFits (f.align - 1) clkTck g.delayTime task f.fd
  state : g.scrMode = .term → (∃ f ∈ columns g, f.fd = .state) → task.state ≠ nul

/-- **A percentage is below its bound exactly when its counter is below the bound that is taken
back.** -/
theorem below_usage_iff {width : ℕ} {unit delayTime : ℚ} (hunit : 0 < unit) (hdelay : 0 < delayTime)
    {n : ℚ} (hn : 0 ≤ n) :
    (decimalsCut 1 width).Below
        (toDouble (toDouble (toDouble (toDouble n * 100) / toDouble unit) / delayTime)) ↔
      (percentCut width unit delayTime).Below n := by
  have hbits : 0 < 53 := by decide
  have hunit' := toDouble_pos hunit
  have hscaled : toDouble n * 100 = toDouble n / (1 / 100) := by ring
  have hcount : 0 ≤ toDouble n * 100 := mul_nonneg (toDouble_nonneg hn) (by norm_num)
  have hseconds : 0 ≤ toDouble (toDouble n * 100) / toDouble unit :=
    div_nonneg (toDouble_nonneg hcount) hunit'.le
  -- the bounds, from the percentage to the counter
  have h₁ := Cut.unround_pos hbits (decimalsCut_pos 1 width)
  have h₂ := Cut.unround_pos hbits (Cut.scale_pos hdelay h₁)
  have h₃ := Cut.unround_pos hbits (Cut.scale_pos hunit' h₂)
  rw [percentCut]
  calc _ ↔ ((decimalsCut 1 width).unround 53).Below
          (toDouble (toDouble (toDouble n * 100) / toDouble unit) / delayTime) :=
        Cut.below_roundBits_iff hbits (decimalsCut_pos 1 _)
          (div_nonneg (toDouble_nonneg hseconds) hdelay.le)
    _ ↔ (((decimalsCut 1 width).unround 53).scale delayTime).Below
          (toDouble (toDouble (toDouble n * 100) / toDouble unit)) := Cut.below_div_iff hdelay
    _ ↔ _ := Cut.below_roundBits_iff hbits (Cut.scale_pos hdelay h₁) hseconds
    _ ↔ _ := Cut.below_div_iff hunit'
    _ ↔ _ := Cut.below_roundBits_iff hbits (Cut.scale_pos hunit' h₂) hcount
    _ ↔ Cut.Below _ (toDouble n) := by rw [hscaled, Cut.below_div_iff (by norm_num)]
    _ ↔ _ := Cut.below_roundBits_iff hbits (Cut.scale_pos (by norm_num) h₃) hn

/-- The same for the longest wait of a vCPU. -/
theorem below_waitmax_iff {width : ℕ} {n : ℚ} (hn : 0 ≤ n) :
    (decimalsCut 3 width).Below (toFloat (toFloat n / 10 ^ 6)) ↔ (waitmaxCut width).Below n := by
  have hbits : 0 < 24 := by decide
  have hmillion : (0 : ℚ) < 10 ^ 6 := by norm_num
  have h₁ := Cut.unround_pos hbits (decimalsCut_pos 3 width)
  rw [waitmaxCut]
  calc _ ↔ ((decimalsCut 3 width).unround 24).Below (toFloat n / 10 ^ 6) :=
        Cut.below_roundBits_iff hbits (decimalsCut_pos 3 _)
          (div_nonneg (roundBits_nonneg hn) hmillion.le)
    _ ↔ _ := Cut.below_div_iff hmillion
    _ ↔ _ := Cut.below_roundBits_iff hbits (Cut.scale_pos hmillion h₁) hn

/-- All vCPUs together fit when they stay below the power of ten: a whole number is below the half
in front of it as soon as it is below it. -/
theorem length_mostUsage_le_iff {width : ℕ} (hwidth : 4 ≤ width) (hsmp : 0 ≤ task.smpVcpus) :
    (fixed 1 (100 * task.smpVcpus)).length ≤ width ↔ 100 * task.smpVcpus < 10 ^ (width - 2) := by
  have hmost : (0 : ℚ) ≤ 100 * task.smpVcpus :=
    mul_nonneg (by norm_num) (Int.cast_nonneg hsmp)
  have hpower : (10 : ℚ) ^ (width - 1) = 10 ^ (width - 2) * 10 := by
    rw [← pow_succ]
    congr 1
    omega
  have hcast : (100 * task.smpVcpus : ℤ) + 1 ≤ 10 ^ (width - 2) ↔
      (100 * task.smpVcpus : ℚ) + 1 ≤ 10 ^ (width - 2) := by
    rw [← Int.cast_le (R := ℚ)]
    push_cast
    rfl
  rw [length_fixed_le_iff Nat.one_pos (by omega) hmost, hpower, pow_one, Int.lt_iff_add_one_le,
    hcast]
  constructor
  · intro h
    refine hcast.1 ?_
    rw [← Int.lt_iff_add_one_le, ← Int.cast_lt (R := ℚ)]
    push_cast
    linarith
  · intro h
    linarith

/-- What `justify_usage` brings into range is as long as the vCPUs or the usage allow. -/
theorem length_justified_le_iff {width : ℕ} (hwidth : 4 ≤ width) (hsmp : 0 ≤ task.smpVcpus) {q : ℚ}
    (hq : 0 ≤ q) : (printDouble 1 (justifyUsage (.num q) task)).length ≤ width ↔
      100 * task.smpVcpus < 10 ^ (width - 2) ∨ (decimalsCut 1 width).Below q := by
  rw [← length_mostUsage_le_iff hwidth hsmp]
  have hmost : (0 : ℚ) ≤ 100 * task.smpVcpus :=
    mul_nonneg (by norm_num) (Int.cast_nonneg hsmp)
  unfold justifyUsage
  dsimp only
  rw [length_fixed_le_iff_below Nat.one_pos (by omega) hmost]
  split_ifs with hmin
  · rw [printDouble, length_fixed_le_iff_below Nat.one_pos (by omega) hmost]
    exact ⟨Or.inl, fun h => h.elim id fun hbelow => hbelow.mono hmin⟩
  · rw [printDouble, length_fixed_le_iff_below Nat.one_pos (by omega) hq]
    exact ⟨Or.inr, fun h => h.elim (fun hbelow => hbelow.mono (not_le.1 hmin).le) id⟩

/-- Where there is nothing to divide by, nothing is shown of a counter that has not grown, and the
most of one that has. -/
theorem length_undivided_le_iff {width : ℕ} (hwidth : 4 ≤ width) (hsmp : 0 ≤ task.smpVcpus)
    (still : Prop) [Decidable still] :
    (printDouble 1 (justifyUsage (if still then .nan else .inf) task)).length ≤ width ↔
      100 * task.smpVcpus < 10 ^ (width - 2) ∨ still := by
  by_cases hstill : still
  · have hnan : "nan".toList.length ≤ 4 := by decide
    rw [if_pos hstill]
    exact iff_of_true (hnan.trans hwidth) (Or.inr hstill)
  · rw [if_neg hstill, or_iff_left hstill]
    exact length_mostUsage_le_iff hwidth hsmp

/-- **A percentage fits exactly when its counter and its vCPUs keep it small.** -/
theorem length_percent_le_iff {width : ℕ} (hwidth : 4 ≤ width) (hdelay : 0 ≤ delayTime)
    (hsmp : 0 ≤ task.smpVcpus) {n : U64} {unit : ℚ} (hunit : 0 ≤ unit) :
    (printDouble 1 (justifyUsage (usagePercent toDouble n unit delayTime) task)).length ≤ width ↔
      PercentFits width delayTime task.smpVcpus n unit := by
  have hcast : (0 : ℚ) ≤ n.toNat := Nat.cast_nonneg _
  have hcount : 0 ≤ toDouble (toDouble n.toNat * 100) :=
    toDouble_nonneg (mul_nonneg (toDouble_nonneg hcast) (by norm_num))
  have hquiet : toDouble (toDouble n.toNat * 100) = 0 ↔ n.toNat = 0 := by
    rw [toDouble_eq_zero_iff (mul_nonneg (toDouble_nonneg hcast) (by norm_num)), mul_eq_zero,
      or_iff_left (by norm_num), toDouble_eq_zero_iff hcast, Nat.cast_eq_zero]
  unfold PercentFits usagePercent
  by_cases hzero : unit = 0
  · have hround : toDouble 0 = 0 := roundBits_zero 53
    have hdivided : (Double.num (toDouble (toDouble n.toNat * 100))).div toDouble 0 =
        if toDouble (toDouble n.toNat * 100) = 0 then .nan else .inf := by
      rw [Double.div, if_pos rfl]
    rw [if_pos (Or.inl hzero), hzero, hround, hdivided, ← hquiet]
    -- the delay time no longer matters
    rw [← length_undivided_le_iff hwidth hsmp]
    split_ifs <;> rfl
  · have hpos : 0 < toDouble unit := toDouble_pos (lt_of_le_of_ne hunit (Ne.symm hzero))
    have hdivided : (Double.num (toDouble (toDouble n.toNat * 100))).div toDouble (toDouble unit) =
        .num (toDouble (toDouble (toDouble n.toNat * 100) / toDouble unit)) := if_neg hpos.ne'
    have hseconds : 0 ≤ toDouble (toDouble n.toNat * 100) / toDouble unit :=
      div_nonneg hcount hpos.le
    rw [hdivided, Double.div]
    by_cases hstill : delayTime = 0
    · have hquotient : toDouble (toDouble (toDouble n.toNat * 100) / toDouble unit) = 0 ↔
          n.toNat = 0 := by
        rw [toDouble_eq_zero_iff hseconds, div_eq_zero_iff, or_iff_left hpos.ne', hquiet]
      rw [if_pos (Or.inr hstill), if_pos (by rw [hstill, Int.cast_zero]), ← hquotient]
      exact length_undivided_le_iff hwidth hsmp _
    · have hdelay' : (0 : ℚ) < delayTime :=
        Int.cast_pos.2 (lt_of_le_of_ne hdelay (Ne.symm hstill))
      rw [if_neg (not_or.2 ⟨hzero, hstill⟩), if_neg hdelay'.ne', length_justified_le_iff hwidth hsmp
        (toDouble_nonneg (div_nonneg (toDouble_nonneg hseconds) hdelay'.le)),
        below_usage_iff (lt_of_le_of_ne hunit (Ne.symm hzero)) hdelay' hcast]

/-- **A value fits exactly when the record holds one that does.** -/
theorem length_cell_le_iff {width : ℕ} (hwidth : 4 ≤ width)
    (hname : f.fd = .vmname → f.align - 2 ≤ width) (hwaitmax : f.fd = .waitmax → 5 ≤ width)
    (hdelay : 0 ≤ delayTime) (hsmp : 0 ≤ task.smpVcpus) :
    (cell clkTck delayTime task f).length ≤ width ↔
      ValueFits width clkTck delayTime task f.fd := by
  have hint (z : ℤ) : (decimalInt z).length ≤ width ↔ IntFits width z :=
    length_decimalInt_le_iff (by omega)
  have hnat (n : ℕ) : (decimal n).length ≤ width ↔ n < 10 ^ width :=
    length_decimal_le_iff (by omega)
  have hnano : (0 : ℚ) ≤ 10 ^ 9 := by positivity
  unfold cell
  cases hfd : f.fd with
  | vmname =>
      refine iff_of_true ?_ trivial
      exact (List.length_take_le _ _).trans (hname hfd)
  | did =>
      dsimp only [ValueFits]
      split_ifs with htype
      · rw [hint, forall_prop_of_true htype]
      · exact iff_of_true (le_trans (by decide) hwidth) fun h => absurd h htype
  | pid => exact hnat _
  | exit v => exact hnat _
  | state =>
      have hone : [task.state].length ≤ 4 := Nat.one_le_ofNat
      exact iff_of_true (hone.trans hwidth) trivial
  | p => exact hint _
  | waitmax =>
      have hstMax : (0 : ℚ) ≤ task.stMax.toNat := Nat.cast_nonneg _
      have hshown : 0 ≤ toFloat (toFloat task.stMax.toNat / 10 ^ 6) :=
        roundBits_nonneg (div_nonneg (roundBits_nonneg hstMax) (by norm_num))
      dsimp only [ValueFits]
      rw [length_fixed_le_iff_below (by decide) (hwaitmax hfd) hshown, below_waitmax_iff hstMax]
  | node i =>
      dsimp only [ValueFits]
      split_ifs with hupdated
      · rw [hint, forall_prop_of_true hupdated]
      · exact iff_of_true (le_trans (by decide) hwidth) fun h => absurd h hupdated
  | cpu => exact length_percent_le_iff hwidth hdelay hsmp (Nat.cast_nonneg clkTck)
  | st | gue | hyp => exact length_percent_le_iff hwidth hdelay hsmp hnano

/-! ### The rows -/

theorem spaced_iff {width : ℕ} {s : Text} : Spaced width s ↔ s.length < width := by
  constructor
  · rintro ⟨n, hn⟩
    have hlength := congrArg List.length hn
    rw [length_pad, List.length_append, List.length_replicate] at hlength
    omega
  · intro h
    refine ⟨width - s.length - 1, ?_⟩
    rw [pad, Nat.sub_add_cancel (by omega)]

/-- A text fills its width when it is not longer. -/
theorem length_pad_eq_iff {width : ℕ} {s : Text} :
    (pad width s).length = width ↔ s.length ≤ width := by
  rw [length_pad]
  omega

/-- What the columns of the table leave room for. -/
theorem align_fields (arch : Arch) : ∀ f ∈ fields arch,
    5 ≤ f.align ∧ f.name.length < f.align ∧ (f.fd = .waitmax → 6 ≤ f.align) := by
  cases arch <;> decide +kernel

/-- A column of a frame is one of the table, displayed or not. -/
theorem align_of_mem_columns (hfields : g.fields.map Fid.column = (fields arch).map Fid.column)
    (hf : f ∈ columns g) :
    5 ≤ f.align ∧ f.name.length < f.align ∧ (f.fd = .waitmax → 6 ≤ f.align) := by
  have hmem : f ∈ g.fields := shownFields_subset _ _ _ _ _ hf
  obtain ⟨f₀, hf₀, he⟩ := List.mem_map.1 (hfields ▸ List.mem_map_of_mem hmem)
  rw [Fid.column, Fid.column, Fid.mk.injEq] at he
  obtain ⟨hname, -, halign, hfd⟩ := he
  have hroom := align_fields arch f₀ hf₀
  rwa [halign, hname, hfd] at hroom

/-- The columns that are displayed stay below the width of the screen. -/
theorem sum_shownFields {scrColSize beginField : ℤ} {fields : List Fid} {showdWidth : ℤ}
    (hroom : showdWidth < scrColSize) (showdField : ℤ) :
    showdWidth +
      ((shownFields scrColSize beginField fields showdWidth showdField).map Fid.align).sum <
        scrColSize := by
  induction fields generalizing showdWidth showdField with
  | nil =>
      rw [shownFields, List.map_nil, List.sum_nil, Nat.cast_zero, add_zero]
      exact hroom
  | cons f rest ih =>
      rw [shownFields]
      split_ifs with hflag hpin hfull hbegin hfull
      · rwa [List.map_nil, List.sum_nil, Nat.cast_zero, add_zero]
      · rw [List.map_cons, List.sum_cons, Nat.cast_add, ← add_assoc]
        exact ih (Int.not_le.1 hfull) _
      · rwa [List.map_nil, List.sum_nil, Nat.cast_zero, add_zero]
      · rw [List.map_cons, List.sum_cons, Nat.cast_add, ← add_assoc]
        exact ih (Int.not_le.1 hfull) _
      · exact ih hroom _
      · exact ih hroom _

/-- Cells that have the widths of their columns are as long as these together. -/
theorem length_cells {cells : List Fid} {text : Fid → Text}
    (h : ∀ f ∈ cells, (text f).length = f.align) :
    (cells.flatMap text).length = (cells.map Fid.align).sum := by
  rw [List.length_flatMap]
  exact congrArg List.sum (List.map_congr_left h)

theorem mem_head?_or_mem_tail {α : Type*} {a : α} {l : List α} (h : a ∈ l) :
    a ∈ l.head? ∨ a ∈ l.tail := by
  cases l with
  | nil => cases h
  | cons b l =>
      rcases List.mem_cons.1 h with rfl | hl
      · exact Or.inl rfl
      · exact Or.inr hl

/-- A cell has the width of its column when its value fits, and is no NUL on the terminal. -/
theorem length_printDomainField_iff (scrMode : ScrMode) (halign : 0 < f.align) :
    (printDomainField scrMode clkTck delayTime task f).length = f.align ↔
      (cell clkTck delayTime task f).length ≤ f.align ∧
        (scrMode = .term → f.fd = .state → task.state ≠ nul) := by
  rw [printDomainField, printScr_pad, List.length_append, List.length_replicate]
  cases scrMode with
  | text =>
      have hmode : ScrMode.text ≠ .term := by decide
      rw [printScr, and_iff_left fun h => absurd h hmode]
      omega
  | term =>
      rw [printScr]
      by_cases hstate : f.fd = .state → task.state ≠ nul
      · rw [cstr_of_notMem (nul_notMem_cell hstate), and_iff_left fun _ => hstate]
        omega
      · obtain ⟨hfd, hnul⟩ := Classical.not_imp.1 hstate
        have hcell : cell clkTck delayTime task f = [nul] := by
          simp only [cell, hfd, not_not.1 hnul]
        rw [hcell]
        refine iff_of_false ?_ fun h => hstate (h.2 rfl)
        change f.align - 1 + 0 ≠ f.align
        omega

/-- **A row lines up with the header exactly when its values fit**, for columns of the table,
displayed or not, and a record with no negative number of vCPUs. -/
theorem lines_up_iff (hfields : g.fields.map Fid.column = (fields arch).map Fid.column)
    (hdelay : 0 ≤ g.delayTime) (hsmp : 0 ≤ task.smpVcpus) :
    LinesUp clkTck g task ↔ RowFits clkTck g task := by
  have hroom : ∀ f ∈ columns g, _ := fun f => align_of_mem_columns (f := f) hfields
  have hfull : ∀ f ∈ columns g, (cell clkTck g.delayTime task f).length ≤ f.align ↔
      ValueFits f.align clkTck g.delayTime task f.fd := fun f hf => by
    obtain ⟨halign, -, hwaitmax⟩ := hroom f hf
    exact length_cell_le_iff (by omega) (fun _ => Nat.sub_le ..)
      (fun hfd => (hwaitmax hfd).trans' (by decide)) hdelay hsmp
  have hspaced : ∀ f ∈ columns g, Spaced f.align (cell clkTck g.delayTime task f) ↔
      ValueFits (f.align - 1) clkTck g.delayTime task f.fd := fun f hf => by
    obtain ⟨halign, -, hwaitmax⟩ := hroom f hf
    rw [spaced_iff, ← length_cell_le_iff (by omega) (fun _ => by omega)
      (fun hfd => by have := hwaitmax hfd; omega) hdelay hsmp]
    omega
  have hprinted : ∀ f ∈ columns g,
      (printDomainField g.scrMode clkTck g.delayTime task f).length = f.align ↔
        (cell clkTck g.delayTime task f).length ≤ f.align ∧
          (g.scrMode = .term → f.fd = .state → task.state ≠ nul) := fun f hf =>
    length_printDomainField_iff g.scrMode (Nat.zero_lt_of_lt (hroom f hf).1)
  constructor
  · intro h
    refine ⟨(Int.natCast_nonneg _).trans_lt h.total, fun f hf => ?_, fun f hf => ?_, ?_⟩
    · have hmem := List.mem_of_mem_head? hf
      exact (hfull f hmem).1 ((hprinted f hmem).1 (h.cells f hmem).2).1
    · exact (hspaced f (List.mem_of_mem_tail hf)).1 (h.gaps f hf).2
    · rintro hterm ⟨f, hf, hfd⟩
      exact ((hprinted f hf).1 (h.cells f hf).2).2 hterm hfd
  · rintro ⟨hscreen, hfirst, hothers, hstate⟩
    have hcells : ∀ f ∈ columns g, (pad f.align f.name).length = f.align ∧
        (printDomainField g.scrMode clkTck g.delayTime task f).length = f.align := by
      intro f hf
      refine ⟨length_pad_eq_iff.2 (hroom f hf).2.1.le, (hprinted f hf).2 ⟨?_, ?_⟩⟩
      · rcases mem_head?_or_mem_tail hf with hhead | htail
        · exact (hfull f hf).2 (hfirst f hhead)
        · exact (spaced_iff.1 ((hspaced f hf).2 (hothers f htail))).le
      · exact fun hterm hfd => hstate hterm ⟨f, hf, hfd⟩
    have hrow := length_cells fun f hf => (hcells f hf).2
    have hheader := length_cells fun f hf => (hcells f hf).1
    refine ⟨?_, hcells, fun f hf => ?_, ?_⟩
    · rw [taskRow, showHeader, List.length_append, List.length_append, hrow, hheader]
    · have hmem := List.mem_of_mem_tail hf
      exact ⟨spaced_iff.2 (hroom f hmem).2.1, (hspaced f hmem).2 (hothers f hf)⟩
    · rw [hrow]
      have hsum : (0 : ℤ) + (((columns g).map Fid.align).sum : ℕ) < g.scrColSize :=
        sum_shownFields hscreen 0
      rwa [zero_add] at hsum

/-! ### A column that is full -/

instance (width : ℕ) (z : ℤ) : Decidable (IntFits width z) :=
  inferInstanceAs (Decidable (_ ∧ _))

instance (width : ℕ) (delayTime smpVcpus : ℤ) (n : U64) (unit : ℚ) :
    Decidable (PercentFits width delayTime smpVcpus n unit) :=
  inferInstanceAs (Decidable (_ ∨ _))

instance (width clkTck : ℕ) (delayTime : ℤ) (task : Task) :
    ∀ fd, Decidable (ValueFits width clkTck delayTime task fd)
  | .vmname | .state => .isTrue trivial
  | .did => inferInstanceAs (Decidable (_ → _))
  | .pid => inferInstanceAs (Decidable (_ < _))
  | .exit _ => inferInstanceAs (Decidable (_ < _))
  | .p => inferInstanceAs (Decidable (IntFits ..))
  | .waitmax => inferInstanceAs (Decidable (Cut.Below ..))
  | .node _ => inferInstanceAs (Decidable (_ → _))
  | .cpu | .st | .gue | .hyp => inferInstanceAs (Decidable (PercentFits ..))

instance (clkTck : ℕ) (g : Globals) (task : Task) : Decidable (RowFits clkTck g task) :=
  decidable_of_iff
    ((0 : ℤ) < g.scrColSize ∧
      (∀ f ∈ (columns g).head?, ValueFits f.align clkTck g.delayTime task f.fd) ∧
      (∀ f ∈ (columns g).tail, ValueFits (f.align - 1) clkTck g.delayTime task f.fd) ∧
      (g.scrMode = .term → (∃ f ∈ columns g, f.fd = .state) → task.state ≠ nul))
    ⟨fun ⟨h₁, h₂, h₃, h₄⟩ => ⟨h₁, h₂, h₃, h₄⟩, fun ⟨h₁, h₂, h₃, h₄⟩ => ⟨h₁, h₂, h₃, h₄⟩⟩

/-- The longest wait that leaves a blank in front of it, a little less than ten seconds. -/
example : (waitmaxCut 8).Below 9999999488 ∧ ¬ (waitmaxCut 8).Below 9999999489 := by
  decide +kernel

/-- The rows of the second frame of a host of three virtual machines line up. -/
theorem lines_up_iff_host : ∃ (r : ScreenRun) (t : Turn), turn (r.input 1) (r.state 1) = .ok t ∧
    (walked t.frame).length = 3 ∧ ∀ task ∈ walked t.frame, LinesUp 100 t.frame task := by
  let host := terminalTurn (crowdedEnv 3) 24 none
  have hframe : (turnAt [host, host] ⟨zeroGlobals, false⟩ 1).map (fun t =>
      (decide (0 ≤ t.frame.delayTime), (walked t.frame).length, (walked t.frame).all fun task =>
        decide (0 ≤ task.smpVcpus) && decide (RowFits 100 t.frame task))) =
      some (true, 3, true) := by decide +kernel
  obtain ⟨r, hlen, -, -, hturns⟩ := exists_screenRun [host, host]
    (m := ⟨zeroGlobals, false⟩) ⟨rfl, rfl, .other, fun _ => Task.zero, [], rfl⟩
    (by decide +kernel)
  obtain ⟨t, hturn, hat⟩ := hturns 1 (by decide)
  rw [hat, Option.map_some, Option.some.injEq] at hframe
  simp only [Prod.mk.injEq, decide_eq_true_eq, List.all_eq_true, Bool.and_eq_true] at hframe
  obtain ⟨hdelay, hwalked, hfits⟩ := hframe
  obtain ⟨_, hfields⟩ := r.columns (hlen ▸ by decide) hturn
  refine ⟨r, t, hturn, hwalked, fun task htask => ?_⟩
  exact (lines_up_iff hfields hdelay (hfits task htask).1).2 (hfits task htask).2

/-- The domain `id`, which did nothing. -/
def idleDomain (id : ℤ) : Task := { Task.zero with domainId := id, state := 'S' }

/-- **The domain with the id 100000 is moved out of its columns.** -/
theorem lines_up_wide_id : ¬ ∀ (g : Globals) (arch : Arch) (clkTck : ℕ) (task : Task),
    g.fields.map Fid.column = (fields arch).map Fid.column → 0 ≤ g.delayTime →
    0 ≤ task.smpVcpus → LinesUp clkTck g task := by
  intro h
  have hlength := (h zeroGlobals .other 100 (idleDomain 100000) rfl (by decide) (by decide)).length
  exact absurd hlength (by decide +kernel)

end Vmtop
