/-
# A well-formed `vcpu_stat` table

Every row of the table (`TableRow`) starts with a numeral for each column, set off by blanks
and tabs, and may go on with anything up to the end of its line.  `get_vcpu_list` takes over
the first `MAX_VCPU_NUM` rows as they are, each numeral in the field of its column, whatever
the entries of its array held before; and `get_vcpu_stat` hands a thread the counters of the
first row with its pid (`getVcpuList_reads`).
-/

import Vmtop.Refresh.Columns
import Vmtop.Refresh.Rows

namespace Vmtop

open CText CArray Reordered

variable {arch : Arch}

/-! ### The rows -/

/-- A column shows a numeral that its field can hold. -/
def Shows (item : FileItem) (numeral : Text) : Prop :=
  IsNumeral numeral ∧
    numeralValue numeral < if item.getFun = some .pid then 2 ^ 31 else 2 ^ 64

/-- A row of the table, without its newline: `cells` are the numerals of the columns, each
with the blanks in front of it, and `more` is what follows them. -/
structure TableRow (arch : Arch) where
  cells : List (Text × Text)
  more : Text
  shows : List.Forall₂ (fun item cell => Shows item cell.2) (vcpuStatStab arch) cells
  blanks : ∀ cell ∈ cells, ∀ c ∈ cell.1, c = ' ' ∨ c = '\t'
  apart : ∀ cell ∈ cells.tail, cell.1 ≠ []
  more_blank : ∀ c ∈ more.head?, c = ' ' ∨ c = '\t'
  newline_notMem : '\n' ∉ more
  fits : (cells.flatMap fun cell => cell.1 ++ cell.2).length + more.length < bufSize - 2

namespace TableRow

variable (row : TableRow arch)

/-- The line of the row. -/
def text : Text := (row.cells.flatMap fun cell => cell.1 ++ cell.2) ++ row.more

/-- The number in the first column. -/
def pid : ℕ := row.cells.head?.elim 0 fun cell => numeralValue cell.2

end TableRow

/-- Every column has a field, and the record holds the number of the column in it. -/
def Held (t : Task) : List FileItem → List (Text × Text) → Prop :=
  List.Forall₂ fun item cell => ∃ slot, item.getFun = some slot ∧
    slot.load t = (numeralValue cell.2 : ℤ)

/-- The text of a table. -/
def tableText (rows : List (TableRow arch)) : Text := rows.flatMap fun row => row.text ++ ['\n']

/-- A thread that was given the counters of a row: its other fields are those of `dom`. -/
structure Copied (row : TableRow arch) (dom t : Task) : Prop where
  counters : Held t (vcpuStatStab arch).tail row.cells.tail
  frame : t = { dom with dfx := t.dfx, stMax := t.stMax }
  others : ∀ v, .dfx v ∉ slots (vcpuStatStab arch) → t.dfx v = dom.dfx v

/-- What a reader of the table may rely on, once `get_vcpu_list` has returned `r`. -/
structure ReadsTable (rows : List (TableRow arch)) (old : VcpuList) (r : ℤ) (new : VcpuList) :
    Prop where
  result : r = (min rows.length maxVcpuNum : ℕ)
  num : new.num = min rows.length maxVcpuNum
  held : ∀ (i : ℕ) (hi : i < rows.length) (hmax : i < maxVcpuNum),
    Held (new.rows ⟨i, hmax⟩) (vcpuStatStab arch) rows[i].cells
  untouched : ∀ i : Fin maxVcpuNum, rows.length ≤ i → new.rows i = old.rows i
  absent : ∀ dom : Task, (rows.take maxVcpuNum).find? (fun row => row.pid = dom.pid) = none →
    getVcpuStat arch dom new = (0, dom)
  copied : ∀ (dom : Task) (row : TableRow arch),
    (rows.take maxVcpuNum).find? (fun row => row.pid = dom.pid) = some row →
    ∃ t, getVcpuStat arch dom new = (1, t) ∧ Copied row dom t

/-! ### One line -/

theorem isBlank_of_blank {c : Char} (h : c = ' ' ∨ c = '\t') : isBlank c = true := by
  rcases h with rfl | rfl <;> decide

theorem not_isBlank_of_isDigit {c : Char} (h : c.isDigit = true) : isBlank c = false := by
  by_contra hc
  rw [Bool.not_eq_false] at hc
  simp only [isBlank, Bool.or_eq_true, decide_eq_true_eq] at hc
  rcases hc with ((rfl | rfl) | rfl) | rfl <;> exact absurd h (by decide)

/-- The numerals are the first tokens of their line. -/
theorem tokens_cells {cells : List (Text × Text)} {more : Text}
    (hnumeral : ∀ cell ∈ cells, IsNumeral cell.2)
    (hblanks : ∀ cell ∈ cells, ∀ c ∈ cell.1, c = ' ' ∨ c = '\t')
    (hapart : ∀ cell ∈ cells.tail, cell.1 ≠ [])
    (hmore : ∀ c ∈ more.head?, isBlank c = true) :
    tokens isBlank ((cells.flatMap fun cell => cell.1 ++ cell.2) ++ more) =
      cells.map Prod.snd ++ tokens isBlank more := by
  induction cells with
  | nil => rfl
  | cons cell cells ih =>
      rw [List.forall_mem_cons] at hnumeral hblanks
      rw [List.tail_cons] at hapart
      have hrest : ∀ c ∈ ((cells.flatMap fun cell => cell.1 ++ cell.2) ++ more).head?,
          isBlank c = true := by
        cases cells with
        | nil => exact hmore
        | cons next cells =>
            obtain ⟨d, run, hrun⟩ :=
              List.exists_cons_of_ne_nil (hapart next List.mem_cons_self)
            intro c hc
            simp only [List.flatMap_cons, hrun, List.cons_append, List.head?_cons,
              Option.mem_some_iff] at hc
            rw [← hc]
            exact isBlank_of_blank (hblanks.2 next List.mem_cons_self d (by simp [hrun]))
      rw [List.flatMap_cons, List.append_assoc, List.append_assoc,
        tokens_append_delims fun c hc => isBlank_of_blank (hblanks.1 c hc),
        tokens_append hnumeral.1.1 (fun c hc => not_isBlank_of_isDigit (hnumeral.1.2 c hc)) hrest,
        ih hnumeral.2 hblanks.2 fun cell hcell => hapart cell (List.mem_of_mem_tail hcell)]
      rfl

/-- The pid is read as an `unsigned int`, every other column as an `unsigned long long`. -/
theorem vcpuStatStab_format {item : FileItem} (h : item ∈ vcpuStatStab arch) :
    item.format = if item.getFun = some .pid then .uint else .ulong := by
  revert item
  cases arch <;> decide

/-- Every column has a field. -/
theorem exists_getFun {item : FileItem} (h : item ∈ vcpuStatStab arch) :
    ∃ slot, item.getFun = some slot := by
  rw [← Option.isSome_iff_exists]
  revert item
  cases arch <;> decide

/-- What a conversion stores of a numeral. -/
theorem load_sscanf {item : FileItem} (hitem : item ∈ vcpuStatStab arch) {numeral : Text}
    (h : Shows item numeral) {slot : Slot} (hslot : item.getFun = some slot) (t : Task) :
    slot.load (sscanf [.into item.format slot.store] numeral t) = numeralValue numeral := by
  obtain ⟨hnumeral, hlt⟩ := h
  have hlt' : numeralValue numeral < 2 ^ 64 := by
    split_ifs at hlt <;> omega
  have hscan : strtoul numeral = some (numeralValue numeral, []) := by
    have h : strtoul (numeral ++ []) = _ := strtoul_digits hnumeral hlt' (by simp)
    rwa [List.append_nil] at h
  have hstored : (UInt64.ofNat (numeralValue numeral)).toNat = numeralValue numeral :=
    UInt64.toNat_ofNat_of_lt' hlt'
  rw [hslot] at hlt
  rw [vcpuStatStab_format hitem, hslot]
  cases slot with
  | pid =>
      rw [if_pos rfl] at hlt ⊢
      have hmod : numeralValue numeral % 2 ^ 32 = numeralValue numeral :=
        Nat.mod_eq_of_lt (by omega)
      simp only [sscanf, Conv.scan, hscan, Option.map_some, hmod, Slot.load, Slot.store]
      exact toInt32_of_lt hlt
  | stMax =>
      rw [if_neg (by simp)]
      simp only [sscanf, Conv.scan, hscan, Option.map_some, Slot.load, Slot.store,
        Int.toNat_natCast, hstored]
  | dfx v =>
      rw [if_neg (by simp)]
      simp only [sscanf, Conv.scan, hscan, Option.map_some, Slot.load, Slot.store,
        Int.toNat_natCast, Function.update_self, hstored]

/-- **The numerals of a line are in the fields of their columns** once it has been scanned. -/
theorem fillRow_held {stab : List FileItem} {cells : List (Text × Text)}
    (hshows : List.Forall₂ (fun item cell => Shows item cell.2) stab cells)
    (hmem : ∀ item ∈ stab, item ∈ vcpuStatStab arch) (hn : (slots stab).Nodup)
    (rest : List Text) (t : Task) :
    Held (fillRow stab (cells.map Prod.snd ++ rest) t) stab cells := by
  induction hshows generalizing t with
  | nil => exact .nil
  | @cons item cell stab cells hcell _ ih =>
      rw [List.forall_mem_cons] at hmem
      obtain ⟨slot, hslot⟩ := exists_getFun hmem.1
      rw [List.map_cons, List.cons_append, fillRow]
      unfold slots at hn
      rw [List.filterMap_cons_some hslot, List.nodup_cons] at hn
      refine .cons ⟨slot, hslot, ?_⟩ (ih hmem.2 hn.2 _)
      rw [hslot, Option.elim_some, fillRow_of_notMem hn.1]
      exact load_sscanf hmem.1 hcell hslot t

/-! ### The table -/

namespace TableRow

variable (row : TableRow arch)

theorem isNumeral_of_mem {cell : Text × Text} (h : cell ∈ row.cells) : IsNumeral cell.2 := by
  obtain ⟨item, -, hshows⟩ := (UpToOrder.of_forall₂ row.shows).exists_left h
  exact hshows.1

/-- The cells have nothing but digits, blanks and tabs. -/
theorem notMem_cells {c : Char} (hdigit : c.isDigit = false) (hspace : c ≠ ' ') (htab : c ≠ '\t') :
    c ∉ row.cells.flatMap fun cell => cell.1 ++ cell.2 := by
  intro hc
  obtain ⟨cell, hcell, hc⟩ := List.mem_flatMap.1 hc
  rcases List.mem_append.1 hc with hc | hc
  · rcases row.blanks cell hcell c hc with h | h
    · exact hspace h
    · exact htab h
  · exact (row.isNumeral_of_mem hcell).notMem hdigit hc

theorem newline_notMem_text : '\n' ∉ row.text := by
  rw [text, List.mem_append, not_or]
  exact ⟨row.notMem_cells (by decide) (by decide) (by decide), row.newline_notMem⟩

/-- **A row is scanned into its fields**, whatever its line has behind them. -/
theorem scanRow_held (t : Task) :
    Held (scanRow arch (row.text ++ ['\n']) t) (vcpuStatStab arch) row.cells := by
  have hnul : nul ∉ row.cells.flatMap fun cell => cell.1 ++ cell.2 :=
    row.notMem_cells (by decide) (by decide) (by decide)
  have hbehind : ∀ c ∈ (cstr (row.more ++ ['\n'])).head?, isBlank c = true := by
    intro c hc
    have hhead : c ∈ (row.more ++ ['\n']).head? := head?_of_cstr hc
    cases hmore : row.more with
    | nil =>
        rw [hmore] at hhead
        cases hhead
        decide
    | cons d more =>
        rw [hmore] at hhead
        refine isBlank_of_blank (row.more_blank c ?_)
        rw [hmore]
        exact hhead
  rw [scanRow, text, List.append_assoc, cstr_append_of_notMem hnul,
    tokens_cells (fun _ => row.isNumeral_of_mem) row.blanks row.apart hbehind]
  exact fillRow_held row.shows (fun _ => id) (vcpuStatStab_slots arch).1 _ t

/-- The pid is in the first column. -/
theorem pid_eq {t : Task} (h : Held t (vcpuStatStab arch) row.cells) : t.pid = row.pid := by
  have hstab : vcpuStatStab arch = FileItem.gf .uint .pid :: (vcpuStatStab arch).tail := rfl
  rw [Held, hstab] at h
  obtain ⟨cell, cells, ⟨slot, hslot, hcell⟩, -, hcells⟩ := List.forall₂_cons_left_iff.1 h
  cases hslot
  rw [pid, hcells]
  exact hcell

end TableRow

variable (rows : List (TableRow arch)) (l : VcpuList)

/-- The lines of a table are its rows. -/
theorem chunks_tableText :
    chunks (bufSize - 2) (tableText rows) = rows.map fun row => row.text ++ ['\n'] := by
  have hlines : tableText rows = (rows.map TableRow.text).flatMap (· ++ ['\n']) := by
    rw [tableText, List.flatMap_map]
  have hfits : ∀ line ∈ rows.map TableRow.text, '\n' ∉ line ∧ line.length < bufSize - 2 := by
    intro line hline
    obtain ⟨row, -, rfl⟩ := List.mem_map.1 hline
    refine ⟨row.newline_notMem_text, ?_⟩
    rw [TableRow.text, List.length_append]
    exact row.fits
  have hchunks : chunks (bufSize - 2) (tableText rows) =
      (rows.map TableRow.text).map (· ++ ['\n']) := by
    rw [hlines]
    exact chunks_lines _ hfits
  rw [hchunks, List.map_map]
  rfl

theorem tableText_num : (getVcpuList arch (some (tableText rows)) l).2.num =
    min rows.length maxVcpuNum := by
  rw [getVcpuList_num, rowLines, chunks_tableText, List.length_take, List.length_map, Nat.min_comm]

/-- **The rows of the array hold the rows of the table**, in their order. -/
theorem tableText_held {i : ℕ} (hi : i < rows.length) (hmax : i < maxVcpuNum) :
    Held ((getVcpuList arch (some (tableText rows)) l).2.rows ⟨i, hmax⟩) (vcpuStatStab arch)
      rows[i].cells := by
  have hline : i < (rowLines (tableText rows)).length := by
    rw [rowLines, chunks_tableText, List.length_take, List.length_map]
    omega
  have hrow : (rowLines (tableText rows))[i] = rows[i].text ++ ['\n'] := by
    simp only [rowLines, chunks_tableText, List.getElem_take, List.getElem_map]
  have hfin : ((⟨i, hmax⟩ : Fin maxVcpuNum) : ℕ) < (rowLines (tableText rows)).length := hline
  rw [getVcpuList_rows (tableText rows) l hfin]
  change Held (scanRow arch (rowLines (tableText rows))[i] _) _ _
  rw [hrow]
  exact rows[i].scanRow_held _

/-- The same for the rows in use, as a list. -/
theorem table_held : List.Forall₂ (fun row t => Held t (vcpuStatStab arch) row.cells)
    (rows.take maxVcpuNum) (getVcpuList arch (some (tableText rows)) l).2.table := by
  rw [List.forall₂_iff_get]
  have hlength : (getVcpuList arch (some (tableText rows)) l).2.table.length =
      (rows.take maxVcpuNum).length := by
    rw [VcpuList.table, List.length_ofFn, tableText_num, List.length_take, Nat.min_comm]
  refine ⟨hlength.symm, fun i hi hi' => ?_⟩
  have hi₂ := hi
  rw [List.length_take, lt_min_iff] at hi₂
  simp only [VcpuList.table, List.get_eq_getElem, List.getElem_take, List.getElem_ofFn]
  exact tableText_held rows l hi₂.2 hi₂.1

/-- The first row with a pid is found. -/
theorem row_held (pid : ℤ) : ((rows.take maxVcpuNum).find? fun row => row.pid = pid).Rel
    (fun row t => Held t (vcpuStatStab arch) row.cells)
    ((getVcpuList arch (some (tableText rows)) l).2.row pid) := by
  refine rel_find? (table_held rows l) fun row t h => ?_
  rw [row.pid_eq h]

/-- The rows behind the table are left alone. -/
theorem tableText_untouched {i : Fin maxVcpuNum} (hi : rows.length ≤ i) :
    (getVcpuList arch (some (tableText rows)) l).2.rows i = l.rows i := by
  have hnone : (rows.map fun row => row.text ++ ['\n'])[(i : ℕ)]? = none := by
    rw [List.getElem?_eq_none_iff, List.length_map]
    exact hi
  simp only [getVcpuList, chunks_tableText, getVcpuListLoop_rows, Nat.sub_zero, hnone,
    Option.elim_none, ite_self]

/-! ### The counters of a thread -/

/-- A thread takes over every counter of the row with its pid. -/
theorem copied_of_row {row : TableRow arch} {dom vcpu : Task}
    (hrow : l.row dom.pid = some vcpu) (h : Held vcpu (vcpuStatStab arch) row.cells) :
    ∃ t, getVcpuStat arch dom l = (1, t) ∧ Copied row dom t := by
  have hfound : getVcpuStat arch dom l = (1, (getVcpuStat arch dom l).2) := by
    unfold getVcpuStat
    rw [hrow]
  have hload : ∀ item ∈ (vcpuStatStab arch).tail, ∀ slot, item.getFun = some slot →
      slot.load (getVcpuStat arch dom l).2 = slot.load vcpu := by
    intro item hitem slot hget
    unfold getVcpuStat
    rw [hrow]
    exact (load_copyWalk _ slot dom vcpu).trans (if_pos (List.mem_filterMap.2 ⟨item, hitem, hget⟩))
  refine ⟨_, hfound, ?_, getVcpuStat_frame dom l, fun v hv => ?_⟩
  · have hstab : vcpuStatStab arch = FileItem.gf .uint .pid :: (vcpuStatStab arch).tail := rfl
    rw [Held, hstab] at h
    obtain ⟨cell, cells, -, htail, hcells⟩ := List.forall₂_cons_left_iff.1 h
    rw [hcells]
    refine ((List.forall₂_and_left _ _).2 ⟨hload, htail⟩).imp ?_
    rintro item cell ⟨hsame, slot, hget, hcell⟩
    exact ⟨slot, hget, (hsame slot hget).trans hcell⟩
  · have hnot : v ∉ vcpuCounters arch := by
      rw [mem_vcpuCounters_iff]
      exact fun h => hv (((List.tail_sublist _).filterMap _).subset h)
    rw [getVcpuStat_dfx, if_neg hnot]

/-- **A well-formed table is read as it stands.** -/
theorem getVcpuList_reads : ReadsTable rows l (getVcpuList arch (some (tableText rows)) l).1
    (getVcpuList arch (some (tableText rows)) l).2 where
  result := congrArg Nat.cast (tableText_num rows l)
  num := tableText_num rows l
  held _ hi hmax := tableText_held rows l hi hmax
  untouched _ hi := tableText_untouched rows l hi
  absent dom hnone := by
    have hrow := row_held rows l dom.pid
    rw [hnone] at hrow
    unfold getVcpuStat
    rw [eq_none_of_rel_none hrow]
  copied dom row hsome := by
    have hrow := row_held rows l dom.pid
    rw [hsome] at hrow
    obtain ⟨vcpu, hvcpu, hheld⟩ := exists_of_rel_some hrow
    exact copied_of_row _ hvcpu hheld

/-- A row with `5` in every column, and a word behind them. -/
def fiveRow (arch : Arch) : TableRow arch where
  cells := (vcpuStatStab arch).map fun _ => (" \t".toList, "5".toList)
  more := " more".toList
  shows := by
    rw [List.forall₂_map_right_iff, List.forall₂_same]
    refine fun item _ => ⟨by decide, ?_⟩
    split_ifs <;> decide
  blanks cell hcell c hc := by
    obtain ⟨item, -, rfl⟩ := List.mem_map.1 hcell
    simpa using hc
  apart := by cases arch <;> decide
  more_blank c hc := by
    cases hc
    exact Or.inl rfl
  newline_notMem := by decide
  fits := by cases arch <;> decide

example : ((getVcpuStat .aarch64 { Task.zero with pid := 5 } (getVcpuList .aarch64
    (some (tableText [fiveRow .aarch64])) ⟨fun _ => Task.zero, 0, Nat.zero_le _⟩).2).2.dfx .exits,
      (fiveRow .aarch64).pid) = (5, 5) := by decide +kernel

end Vmtop
