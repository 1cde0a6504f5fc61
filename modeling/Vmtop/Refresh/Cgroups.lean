/-
# The id in the cgroup file

`get_id_from_cgroup` takes what `fgets` puts into its buffer for a line, stops at the first
buffer that has both strings, and has `atoi` convert what stands behind the second one.  So
the id is that of the first line that is numbered exactly where this buffer shows the numeral
of that line and an `int` holds it (`getIdFromCgroup_idOf_iff`).  A file whose lines fit
the buffer and have a numeral wherever they have both strings is read right
(`attributable_of_lines`); `atoi` turns a name that is no numeral into the id 0.
-/

import Vmtop.Refresh.Host

namespace Vmtop

open CText CArray

variable {sys : Sys} {pid : ℤ} {s d line : Text}

/-! ### The lines -/

/-- What the name of a controller is searched for. -/
def cpusetMark : Text := "cpuset:".toList

/-- What stands in front of the id of a domain. -/
def machineMark : Text := "machine-qemu\\x2d".toList

/-- The line has both strings, and directly behind the second one a numeral of value `n`. -/
def Numbered (line : Text) (n : ℕ) : Prop :=
  cpusetMark <:+: line ∧ ∃ a ds b, line = a ++ machineMark ++ ds ++ b ∧ IsNumeral ds ∧
    (∀ c ∈ b.head?, c.isDigit = false) ∧ numeralValue ds = n

/-- No line of the file is numbered. -/
def Unnumbered (s : Text) : Prop := ∀ line ∈ lines s, ∀ n, ¬ Numbered line n

/-- The first line of the file that is numbered has the numeral `n`. -/
def FirstNumbered (s : Text) (n : ℕ) : Prop :=
  ∃ before line after, lines s = before ++ line :: after ∧
    (∀ line' ∈ before, ∀ m, ¬ Numbered line' m) ∧ Numbered line n

/-- The id of a process whose cgroup file is `s`. -/
def IdOf (s : Text) (r : ℤ) : Prop :=
  (∃ n : ℕ, FirstNumbered s n ∧ r = n) ∨ Unnumbered s ∧ r = -1

/-! ### The buffers -/

/-- What stands behind the second string, in a buffer that has both. -/
def markedText (buf : Text) : Option Text :=
  if strstr cpusetMark (cstr buf) = none then none
  else (strstr machineMark (cstr buf)).map fun tmp => tmp.drop machineMark.length

/-- The same in the first such buffer. -/
def firstMarked (s : Text) : Option Text := (chunks (bufSize - 2) s).findSome? markedText

/-- What the loop converts. -/
theorem cgroupLoop_eq (bufs : List Text) :
    cgroupLoop bufs = (bufs.findSome? markedText).elim (-1) atoi := by
  induction bufs with
  | nil => rfl
  | cons buf bufs ih =>
      have hbuf : cgroupLoop (buf :: bufs) = if strstr cpusetMark (cstr buf) = none then
          cgroupLoop bufs else (strstr machineMark (cstr buf)).elim (cgroupLoop bufs) fun tmp =>
            atoi (tmp.drop machineMark.length) := by
        rw [cgroupLoop]
        unfold cpusetMark machineMark
        split_ifs
        · rfl
        · cases strstr "machine-qemu\\x2d".toList (cstr buf) <;> rfl
      rw [hbuf, List.findSome?_cons, markedText, ih]
      split_ifs
      · rfl
      · cases strstr machineMark (cstr buf) <;> rfl

theorem getIdFromCgroup_eq (hfile : sys.file (cgroupPath pid) = some s) :
    getIdFromCgroup sys pid = (firstMarked s).elim (-1) atoi := by
  rw [getIdFromCgroup, hfile]
  exact cgroupLoop_eq _

/-- A numbered line is one that shows a digit behind the second string. -/
theorem exists_numbered_iff : (∃ n, Numbered line n) ↔
    cpusetMark <:+: line ∧ ∃ k : Char, k.isDigit = true ∧ machineMark ++ [k] <:+: line := by
  constructor
  · rintro ⟨n, hcpuset, a, ds, b, rfl, ⟨hne, hds⟩, -, -⟩
    obtain ⟨k, ds, rfl⟩ := List.exists_cons_of_ne_nil hne
    exact ⟨hcpuset, k, hds k List.mem_cons_self, a, ds ++ b, by simp⟩
  · rintro ⟨hcpuset, k, hk, a, b, rfl⟩
    obtain ⟨ds, rest, hsplit, hds, hrest⟩ := exists_numeral hk b
    refine ⟨_, hcpuset, a, ds, rest, ?_, hds, hrest, rfl⟩
    simp only [List.append_assoc, List.cons_append, List.nil_append, hsplit]

/-- What a buffer that has both strings looks like. -/
theorem markedText_eq_some {buf : Text} : markedText buf = some d ↔
    cpusetMark <:+: cstr buf ∧ strstr machineMark (cstr buf) = some (machineMark ++ d) := by
  rw [markedText, ← strstr_isSome_iff, Option.isSome_iff_ne_none]
  split_ifs with hcpuset
  · simp [hcpuset]
  · rw [Option.map_eq_some_iff, and_iff_right hcpuset]
    constructor
    · rintro ⟨tmp, htmp, rfl⟩
      rw [htmp, List.prefix_iff_eq_append.1 (prefix_of_strstr htmp).1]
    · exact fun h => ⟨_, h, List.drop_left⟩

theorem markedText_isSome_iff {buf : Text} :
    (markedText buf).isSome ↔ cpusetMark <:+: cstr buf ∧ machineMark <:+: cstr buf := by
  rw [markedText, ← strstr_isSome_iff, ← strstr_isSome_iff, Option.isSome_iff_ne_none]
  split_ifs with hcpuset
  · simp [hcpuset]
  · simp [hcpuset, Option.isSome_iff_ne_none]

/-- A buffer that shows a digit is part of a numbered line. -/
theorem exists_numbered_of_marked {k : Char} {rest : Text} (hk : k.isDigit = true)
    (h : firstMarked s = some (k :: rest)) : ∃ line ∈ lines s, ∃ n, Numbered line n := by
  obtain ⟨buf, hbuf, hmarked⟩ := List.exists_of_findSome?_eq_some h
  obtain ⟨hcpuset, hmachine⟩ := markedText_eq_some.1 hmarked
  obtain ⟨line, hline, c, hpart, hc⟩ := exists_line_of_mem_chunks hbuf
  -- text without a newline that is in the buffer is in the line
  have hwithin {needle : Text} (hn : '\n' ∉ needle) (hneedle : needle <:+: cstr buf) :
      needle <:+: line := by
    have hstart : cstr buf <+: buf := List.takeWhile_prefix _
    have hbuf := hneedle.trans hstart.isInfix
    rcases hc with rfl | rfl
    · exact hbuf.trans hpart
    · exact (infix_of_infix_concat hn hbuf).trans hpart
  refine ⟨line, hline, exists_numbered_iff.2 ⟨hwithin (by decide) hcpuset, k, hk, hwithin ?_ ?_⟩⟩
  · have hmark : '\n' ∉ machineMark := by decide
    have hkn : '\n' ≠ k := by
      rintro rfl
      exact absurd hk (by decide)
    simp [hmark, hkn]
  · obtain ⟨a, ha⟩ := (prefix_of_strstr hmachine).2
    exact ⟨a, rest, by rw [← ha]; simp⟩

/-! ### When the id is right -/

/-- The first buffer that has both strings shows what the file says. -/
structure Attributable (s : Text) : Prop where
  /-- Where no buffer has both, no line is numbered. -/
  seen : firstMarked s = none → Unnumbered s
  /-- A numeral is, in the low 32 bits, that of the first numbered line. -/
  numeral : ∀ ds rest, firstMarked s = some (ds ++ rest) → IsNumeral ds →
    (∀ c ∈ rest.head?, c.isDigit = false) →
    ∃ n < 2 ^ 31, FirstNumbered s n ∧ numeralValue ds < 2 ^ 63 - 1 ∧ numeralValue ds % 2 ^ 32 = n
  /-- A number behind white space or a sign, which is no numeral, is the id nevertheless. -/
  padded : ∀ d neg n rest, firstMarked s = some d → (∀ c ∈ d.head?, c.isDigit = false) →
    scanNumeral d = some (neg, n, rest) →
    (∃ m : ℕ, FirstNumbered s m ∧ toInt32 (clampLong neg n) = m) ∨
      Unnumbered s ∧ toInt32 (clampLong neg n) = -1
  /-- Where no number is, the first numbered line has the numeral 0. -/
  name : ∀ d, firstMarked s = some d → scanNumeral d = none → FirstNumbered s 0

/-- A numeral becomes the id `n` when its low 32 bits are `n` and it does not saturate. -/
theorem toInt32_min_eq_iff (v n : ℕ) : toInt32 (min (v : ℤ) (2 ^ 63 - 1)) = n ↔
    n < 2 ^ 31 ∧ v < 2 ^ 63 - 1 ∧ v % 2 ^ 32 = n := by
  rw [toInt32, Int.bmod_def]
  omega

/-- What `atoi` makes of a number. -/
theorem atoi_of_some {neg : Bool} {n : ℕ} {rest : Text} (h : scanNumeral d = some (neg, n, rest)) :
    atoi d = toInt32 (clampLong neg n) := by
  rw [atoi, atol, strtol, h]
  rfl

theorem atoi_of_none (h : scanNumeral d = none) : atoi d = 0 := by
  rw [atoi, atol, strtol, h]
  rfl

/-- Where the id is right, the first buffer with both strings shows it. -/
theorem attributable_of_idOf (h : IdOf s ((firstMarked s).elim (-1) atoi)) : Attributable s where
  seen hnone := by
    rw [hnone] at h
    rcases h with ⟨n, -, hn⟩ | ⟨hun, -⟩
    · exact absurd hn (by simp)
    · exact hun
  numeral ds rest hsome hds hrest := by
    rw [hsome, Option.elim_some, atoi_digits hds hrest] at h
    rcases h with ⟨n, hfirst, hn⟩ | ⟨hun, -⟩
    · obtain ⟨hlt, hval⟩ := (toInt32_min_eq_iff _ _).1 hn
      exact ⟨n, hlt, hfirst, hval⟩
    · -- a digit that a buffer shows is part of a numbered line
      obtain ⟨k, ds', hcons⟩ := List.exists_cons_of_ne_nil hds.1
      rw [hcons, List.cons_append] at hsome
      obtain ⟨line, hline, n, hn⟩ :=
        exists_numbered_of_marked (hds.2 k (hcons ▸ List.mem_cons_self)) hsome
      exact absurd hn (hun line hline n)
  padded d neg n rest hsome _ hscan := by
    rwa [hsome, Option.elim_some, atoi_of_some hscan] at h
  name d hsome hscan := by
    rw [hsome, Option.elim_some, atoi_of_none hscan] at h
    rcases h with ⟨n, hfirst, hn⟩ | ⟨-, hn⟩
    · obtain rfl : n = 0 := by omega
      exact hfirst
    · exact absurd hn (by decide)

/-- And where it shows it, the id is right. -/
theorem Attributable.idOf (h : Attributable s) : IdOf s ((firstMarked s).elim (-1) atoi) := by
  cases hmarked : firstMarked s with
  | none => exact Or.inr ⟨h.seen hmarked, rfl⟩
  | some d =>
      rw [Option.elim_some]
      by_cases hhead : ∀ c ∈ d.head?, c.isDigit = false
      · cases hscan : scanNumeral d with
        | none => exact Or.inl ⟨0, h.name d hmarked hscan, atoi_of_none hscan⟩
        | some p =>
            rw [atoi_of_some hscan]
            exact h.padded d _ _ _ hmarked hhead hscan
      · push Not at hhead
        obtain ⟨k, hk, hdigit⟩ := hhead
        obtain ⟨d, rfl⟩ := List.head?_eq_some_iff.1 hk
        obtain ⟨ds, rest, hsplit, hds, hrest⟩ := exists_numeral ((Bool.not_eq_false _).mp hdigit) d
        rw [hsplit] at hmarked ⊢
        obtain ⟨n, hlt, hfirst, hval⟩ := h.numeral ds rest hmarked hds hrest
        rw [atoi_digits hds hrest]
        exact Or.inl ⟨n, hfirst, (toInt32_min_eq_iff _ _).2 ⟨hlt, hval⟩⟩

/-- **The id is right exactly where the first buffer with both strings shows it.** -/
theorem idOf_atoi_iff (s : Text) :
    IdOf s ((firstMarked s).elim (-1) atoi) ↔ Attributable s :=
  ⟨attributable_of_idOf, Attributable.idOf⟩

/-- A line that fits the buffer and has a numeral that fits an `int` wherever it has both
strings. -/
structure PlainLine (line : Text) : Prop where
  fits : line.length < bufSize - 2
  newline_notMem : '\n' ∉ line
  nul_notMem : nul ∉ line
  numeral : ∀ d, markedText line = some d → ∃ ds rest, d = ds ++ rest ∧ IsNumeral ds ∧
    (∀ c ∈ rest.head?, c.isDigit = false) ∧ numeralValue ds < 2 ^ 31

/-- A numbered line has both strings. -/
theorem marked_of_numbered {n : ℕ} (hnul : nul ∉ line) (h : Numbered line n) :
    (markedText line).isSome := by
  obtain ⟨hcpuset, a, ds, b, hline, -⟩ := h
  rw [markedText_isSome_iff, cstr_of_notMem hnul]
  exact ⟨hcpuset, a, ds ++ b, by rw [hline]; simp⟩

/-- The newline of a line is no part of what is searched for in it. -/
theorem markedText_newline (hnul : nul ∉ line) :
    markedText (line ++ ['\n']) = (markedText line).map (· ++ ['\n']) := by
  have hnul' : nul ∉ line ++ ['\n'] := by
    rw [List.mem_append, not_or]
    exact ⟨hnul, by decide⟩
  cases hmarked : markedText line with
  | some d =>
      obtain ⟨hcpuset, hmachine⟩ := markedText_eq_some.1 hmarked
      rw [cstr_of_notMem hnul] at hcpuset hmachine
      refine markedText_eq_some.2 ?_
      rw [cstr_of_notMem hnul', strstr_append hmachine, List.append_assoc]
      exact ⟨hcpuset.trans (List.prefix_append _ _).isInfix, rfl⟩
  | none =>
      rw [Option.map_none, ← Option.not_isSome_iff_eq_none, markedText_isSome_iff,
        cstr_of_notMem hnul']
      rintro ⟨hcpuset, hmachine⟩
      have hsome : (markedText line).isSome := by
        rw [markedText_isSome_iff, cstr_of_notMem hnul]
        exact ⟨infix_of_infix_concat (by decide) hcpuset,
          infix_of_infix_concat (by decide) hmachine⟩
      rw [hmarked] at hsome
      cases hsome

namespace PlainLine

/-- A line without both strings is not numbered. -/
theorem not_numbered (h : PlainLine line) (hnone : markedText (line ++ ['\n']) = none) (n : ℕ) :
    ¬ Numbered line n := by
  intro hn
  have hsome := marked_of_numbered h.nul_notMem hn
  rw [markedText_newline h.nul_notMem, Option.map_eq_none_iff] at hnone
  rw [hnone] at hsome
  cases hsome

/-- One with both is numbered, and `atoi` reads the number. -/
theorem numbered (h : PlainLine line) (hd : markedText (line ++ ['\n']) = some d) :
    ∃ n : ℕ, Numbered line n ∧ atoi d = n := by
  rw [markedText_newline h.nul_notMem, Option.map_eq_some_iff] at hd
  obtain ⟨d, hd, rfl⟩ := hd
  obtain ⟨ds, rest, rfl, hds, hrest, hlt⟩ := h.numeral d hd
  obtain ⟨hcpuset, hmachine⟩ := markedText_eq_some.1 hd
  rw [cstr_of_notMem h.nul_notMem] at hcpuset hmachine
  obtain ⟨a, ha⟩ := (prefix_of_strstr hmachine).2
  refine ⟨numeralValue ds, ⟨hcpuset, a, ds, rest, by rw [← ha]; simp, hds, hrest, rfl⟩, ?_⟩
  have hrest' : ∀ c ∈ (rest ++ ['\n']).head?, c.isDigit = false := by
    cases rest with
    | nil =>
        intro c hc
        cases hc
        rfl
    | cons c rest => exact hrest
  rw [List.append_assoc, atoi_digits hds hrest', toInt32_min_eq_iff]
  omega

end PlainLine

/-- The lines of such a file are its buffers. -/
theorem firstMarked_lines {ls : List Text} (h : ∀ line ∈ ls, PlainLine line) :
    firstMarked (ls.flatMap (· ++ ['\n'])) =
      ls.findSome? fun line => markedText (line ++ ['\n']) := by
  have hchunks : chunks (bufSize - 2) (ls.flatMap (· ++ ['\n'])) = ls.map (· ++ ['\n']) :=
    chunks_lines ls fun line hline => ⟨(h line hline).newline_notMem, (h line hline).fits⟩
  rw [firstMarked, hchunks, List.findSome?_map]
  rfl

/-- **A file of such lines shows its id.** -/
theorem attributable_of_lines {ls : List Text} (h : ∀ line ∈ ls, PlainLine line) :
    Attributable (ls.flatMap (· ++ ['\n'])) := by
  refine attributable_of_idOf ?_
  rw [firstMarked_lines h]
  have hlines : lines (ls.flatMap (· ++ ['\n'])) = ls ++ [[]] :=
    lines_flatMap fun line hline => (h line hline).newline_notMem
  cases hfound : ls.findSome? fun line => markedText (line ++ ['\n']) with
  | none =>
      refine Or.inr ⟨fun line hline n hn => ?_, rfl⟩
      rw [hlines, List.mem_append, List.mem_singleton] at hline
      rcases hline with hline | rfl
      · exact (h line hline).not_numbered (List.findSome?_eq_none_iff.1 hfound line hline) n hn
      · exact absurd (List.infix_nil.1 hn.1) (by decide)
  | some d =>
      obtain ⟨before, line, after, rfl, hd, hbefore⟩ := List.findSome?_eq_some_iff.1 hfound
      obtain ⟨n, hn, hatoi⟩ := (h line (by simp)).numbered hd
      refine Or.inl ⟨n, ⟨before, line, after ++ [[]], ?_, ?_, hn⟩, hatoi⟩
      · rw [hlines, List.append_assoc, List.cons_append]
      · intro line' hline'
        exact (h line' (List.mem_append_left _ hline')).not_numbered (hbefore line' hline')

/-- **The id is that of the first numbered line exactly where the first buffer that has both
strings shows it.** -/
theorem getIdFromCgroup_idOf_iff (hfile : sys.file (cgroupPath pid) = some s) :
    IdOf s (getIdFromCgroup sys pid) ↔ Attributable s := by
  rw [getIdFromCgroup_eq hfile]
  exact idOf_atoi_iff s

/-- The id of a domain is read from the line that libvirt makes for it. -/
theorem getIdFromCgroup_idOf_iff_host :
    IdOf (cgroupLine 7 ++ ['\n']) (getIdFromCgroup (hostSys 1 7 []) 1) := by
  refine (getIdFromCgroup_idOf_iff (by decide +kernel)).2 ?_
  have hmarked : markedText (cgroupLine 7) = some ("7".toList ++ cgroupTail) := by decide +kernel
  have hplain : PlainLine (cgroupLine 7) :=
    { fits := by decide +kernel
      newline_notMem := by decide +kernel
      nul_notMem := by decide +kernel
      numeral := fun d hd => by
        rw [hmarked] at hd
        cases hd
        refine ⟨_, cgroupTail, rfl, by decide, fun c hc => ?_, by decide⟩
        cases hc
        rfl }
  have h := attributable_of_lines (List.forall_mem_singleton.2 hplain)
  rwa [List.flatMap_singleton] at h

/-- **A name without a number is the id 0.** -/
theorem getIdFromCgroup_name : ¬ ∀ (sys : Sys) (pid : ℤ) (s : Text),
    sys.file (cgroupPath pid) = some s → IdOf s (getIdFromCgroup sys pid) := by
  intro h
  let s := "4:cpuset:/machine-qemu\\x2dvm.scope\n".toList
  have hid := h { hostSys 1 7 [] with file := fun _ => some s } 1 s rfl
  rw [getIdFromCgroup_eq rfl, idOf_atoi_iff] at hid
  have hmarked : firstMarked s = some "vm.scope\n".toList := by decide +kernel
  obtain ⟨before, line, after, hlines, -, hnumbered⟩ := hid.name _ hmarked (by decide +kernel)
  obtain ⟨-, k, hk, hpart⟩ := exists_numbered_iff.1 ⟨0, hnumbered⟩
  -- the only digit is the one of the marker itself
  have hall : ((lines s).all fun line => line.all fun k =>
      !k.isDigit || !decide (machineMark ++ [k] <:+: line)) = true := by decide +kernel
  have hline := List.all_eq_true.1 hall line (by rw [hlines]; simp)
  have hnone := List.all_eq_true.1 hline k (hpart.subset (by simp))
  simp [hk, hpart] at hnone

end Vmtop
