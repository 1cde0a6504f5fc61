/-
# Text as C sees it

A `char` array is a list of characters, and a C string is what stands in it
before the first NUL.  The functions below are the ones of `<string.h>` and
`<stdio.h>` that a program reading line-oriented files uses, in the form ISO C
gives them: `strstr` and `strrchr` search one string, `fgets` takes a file apart
into lines, cutting a line that does not fit its buffer, and `strtok_r`, called
until it returns `NULL`, yields the nonempty pieces between delimiters
(`tokens`).
-/

import Mathlib.Data.List.Basic
import Mathlib.Data.List.Infix

namespace CText

/-- The contents of a `char` array or of a file. -/
abbrev Text := List Char

/-- The byte that ends a C string. -/
def nul : Char := Char.ofNat 0

/-- The string that starts at the head of a `char` array. -/
def cstr (m : Text) : Text := m.takeWhile (· != nul)

/-- `isspace`: the blank and the five control characters `\t \n \v \f \r`. -/
def isSpace (c : Char) : Bool := c = ' ' || (9 ≤ c.toNat && c.toNat ≤ 13)

/-- `strstr`: the rest of the string from the first occurrence of `needle`. -/
def strstr (needle : Text) : Text → Option Text
  | [] => if needle.isEmpty then some [] else none
  | c :: s => if needle.isPrefixOf (c :: s) then some (c :: s) else strstr needle s

/-- `strrchr`: the offset of the last occurrence of `c`. -/
def strrchr (c : Char) : Text → Option ℕ
  | [] => none
  | d :: s =>
      match strrchr c s with
      | some i => some (i + 1)
      | none => if d = c then some 0 else none

/-- `fgets` into a buffer with room for `room` characters before the NUL: the
characters up to and including the first newline, but no more than fit, and
what is left of the file. -/
def fgets : ℕ → Text → Text × Text
  | _, [] => ([], [])
  | 0, s => ([], s)
  | room + 1, c :: s =>
      if c = '\n' then ([c], s) else (c :: (fgets room s).1, (fgets room s).2)

/-- The buffers that `while (fgets(..))` sees, at most `fuel` of them. -/
def fgetsLoop (room : ℕ) : ℕ → Text → List Text
  | 0, _ => []
  | fuel + 1, s =>
      if s.isEmpty then [] else (fgets room s).1 :: fgetsLoop room fuel (fgets room s).2

/-- All the buffers that `while (fgets(..))` sees: every call takes a character,
so the length of the file is fuel enough. -/
def chunks (room : ℕ) (s : Text) : List Text := fgetsLoop room s.length s

/-- What `strtok_r` returns, call after call, until `NULL`. -/
def tokens (delim : Char → Bool) (s : Text) : List Text :=
  (s.splitOnP delim).filter fun t => !t.isEmpty

/-- An `unsigned` in decimal, as `%u` prints it. -/
def decimal (n : ℕ) : Text := Nat.toDigits 10 n

/-- An `int` in decimal, as `%d` prints it. -/
def decimalInt (z : ℤ) : Text := if z < 0 then '-' :: decimal z.natAbs else decimal z.natAbs

/-- A nonnegative number in decimal with at least two digits, as `%02d` prints it. -/
def decimal2 (n : ℕ) : Text := if n < 10 then '0' :: decimal n else decimal n

/-- What `strstr` returns starts with the needle. -/
theorem prefix_of_strstr {needle s r : Text} (h : strstr needle s = some r) :
    needle <+: r ∧ r <:+ s := by
  induction s with
  | nil =>
      simp only [strstr] at h
      split_ifs at h with hn
      cases h
      simp [List.isEmpty_iff.1 hn]
  | cons c s ih =>
      rw [strstr] at h
      split_ifs at h with hp
      · cases h
        exact ⟨List.isPrefixOf_iff_prefix.1 hp, List.suffix_rfl⟩
      · exact ⟨(ih h).1, (ih h).2.trans (List.suffix_cons c s)⟩

/-- **Text behind the first occurrence does not move it.** -/
theorem strstr_append {needle s r : Text} (h : strstr needle s = some r) (t : Text) :
    strstr needle (s ++ t) = some (r ++ t) := by
  induction s with
  | nil =>
      simp only [strstr] at h
      split_ifs at h with hn
      cases h
      rw [List.isEmpty_iff.1 hn]
      cases t <;> simp [strstr]
  | cons c s ih =>
      rw [strstr] at h
      rw [List.cons_append, strstr]
      split_ifs at h with hp
      · cases h
        rw [if_pos]
        · rfl
        · rw [List.isPrefixOf_iff_prefix] at hp ⊢
          exact hp.trans (List.prefix_append (c :: s) t)
      · rw [if_neg, ih h]
        obtain ⟨hpre, hsuf⟩ := prefix_of_strstr h
        have hlen : needle.length ≤ (c :: s).length :=
          (hpre.length_le.trans hsuf.length_le).trans (Nat.le_succ _)
        rw [List.isPrefixOf_iff_prefix] at hp ⊢
        exact fun h => hp (List.prefix_of_prefix_length_le h (List.prefix_append (c :: s) t) hlen)

/-- **`strstr` finds what occurs.** -/
theorem strstr_isSome_iff {needle s : Text} : (strstr needle s).isSome ↔ needle <:+: s := by
  induction s with
  | nil =>
      rw [strstr, List.infix_nil]
      cases needle <;> simp
  | cons c s ih =>
      rw [strstr, List.infix_cons_iff, ← ih, ← List.isPrefixOf_iff_prefix]
      split_ifs with hp
      · simp [hp]
      · simp [hp]

/-- Text without the last character still has all that does not end in it. -/
theorem infix_of_infix_concat {needle s : Text} {c : Char} (hc : c ∉ needle)
    (h : needle <:+: s ++ [c]) : needle <:+: s := by
  obtain ⟨a, b, hab⟩ := h
  rcases List.eq_nil_or_concat' b with rfl | ⟨b, d, rfl⟩
  · rcases List.eq_nil_or_concat' needle with rfl | ⟨needle, d, rfl⟩
    · exact List.nil_infix
    · rw [List.append_nil, ← List.append_assoc] at hab
      have hd := (List.append_inj' hab rfl).2
      cases hd
      exact absurd (by simp) hc
  · rw [← List.append_assoc] at hab
    exact ⟨a, b, (List.append_inj' hab rfl).1⟩

theorem strrchr_of_notMem {c : Char} {s : Text} (h : c ∉ s) : strrchr c s = none := by
  induction s with
  | nil => rfl
  | cons d s ih =>
      rw [List.mem_cons, not_or] at h
      rw [strrchr, ih h.2, if_neg (Ne.symm h.1)]

/-- What `strrchr` finds is the character. -/
theorem getElem?_of_strrchr {c : Char} {s : Text} {i : ℕ} (h : strrchr c s = some i) :
    s[i]? = some c := by
  induction s generalizing i with
  | nil => cases h
  | cons d s ih =>
      rw [strrchr] at h
      cases hs : strrchr c s with
      | some k =>
          rw [hs] at h
          cases h
          exact ih hs
      | none =>
          rw [hs] at h
          dsimp only at h
          split_ifs at h with hd
          cases h
          rw [hd]
          rfl

theorem lt_of_strrchr {c : Char} {s : Text} {i : ℕ} (h : strrchr c s = some i) : i < s.length :=
  (List.getElem?_eq_some_iff.1 (getElem?_of_strrchr h)).1

/-- **`strrchr` finds the last occurrence.** -/
theorem strrchr_append {c : Char} {b : Text} (h : c ∉ b) (a : Text) :
    strrchr c (a ++ c :: b) = some a.length := by
  induction a with
  | nil => rw [List.nil_append, strrchr, strrchr_of_notMem h, if_pos rfl, List.length_nil]
  | cons d a ih => rw [List.cons_append, strrchr, ih, List.length_cons]

/-- A string with a character in it, taken apart at its last occurrence. -/
theorem exists_last_of_mem {c : Char} {s : Text} (h : c ∈ s) : ∃ a b, s = a ++ c :: b ∧ c ∉ b := by
  induction s with
  | nil => cases h
  | cons d s ih =>
      by_cases hs : c ∈ s
      · obtain ⟨a, b, rfl, hb⟩ := ih hs
        exact ⟨d :: a, b, rfl, hb⟩
      · obtain rfl : c = d := (List.mem_cons.1 h).resolve_right hs
        exact ⟨[], s, rfl, hs⟩

/-- A nonempty file gives `fgets` something to read as long as there is room. -/
theorem fgets_rest_length (room : ℕ) (s : Text) (hs : s ≠ []) :
    (fgets (room + 1) s).2.length < s.length := by
  induction room generalizing s with
  | zero =>
      obtain ⟨c, s, rfl⟩ := List.exists_cons_of_ne_nil hs
      cases s <;> simp [fgets]
  | succ room ih =>
      obtain ⟨c, s, rfl⟩ := List.exists_cons_of_ne_nil hs
      rw [fgets]
      split_ifs with hc
      · simp
      · rcases eq_or_ne s [] with rfl | hne
        · simp [fgets]
        · simpa using Nat.lt_succ_of_lt (ih s hne)

/-- **The fuel of `chunks` is enough**: more of it yields the same buffers. -/
theorem fgetsLoop_fuel (room fuel : ℕ) (s : Text) (hf : s.length ≤ fuel) :
    fgetsLoop (room + 1) fuel s = chunks (room + 1) s := by
  unfold chunks
  induction fuel using Nat.strong_induction_on generalizing s with
  | _ fuel ih =>
      rcases eq_or_ne s [] with rfl | hne
      · cases fuel <;> simp [fgetsLoop]
      · obtain ⟨c, t, rfl⟩ := List.exists_cons_of_ne_nil hne
        obtain ⟨fuel, rfl⟩ : ∃ k, fuel = k + 1 := ⟨fuel - 1, by simp at hf; omega⟩
        have hlt := fgets_rest_length room (c :: t) hne
        simp only [List.length_cons] at hf hlt ⊢
        simp only [fgetsLoop, List.isEmpty_cons, Bool.false_eq_true, if_false]
        rw [ih fuel (by omega) _ (by omega)]
        rcases Nat.lt_or_ge t.length fuel with h | h
        · rw [ih t.length (by omega) _ (by omega)]
        · rw [show t.length = fuel by omega, ih fuel (by omega) _ (by omega)]

/-- **One turn of `while (fgets(..))`**: a nonempty file yields its first buffer
and then the buffers of what that buffer left. -/
theorem chunks_of_ne_nil (room : ℕ) (s : Text) (hs : s ≠ []) :
    chunks (room + 1) s = (fgets (room + 1) s).1 :: chunks (room + 1) (fgets (room + 1) s).2 := by
  have hlt := fgets_rest_length room s hs
  obtain ⟨c, t, rfl⟩ := List.exists_cons_of_ne_nil hs
  rw [← fgetsLoop_fuel room t.length (fgets (room + 1) (c :: t)).2 (by simp at hlt; omega)]
  simp [chunks, fgetsLoop]

/-! ### Tokens -/

/-- Delimiters in front of a token are skipped. -/
theorem tokens_append_delims {delim : Char → Bool} {run : Text} (h : ∀ c ∈ run, delim c = true)
    (s : Text) : tokens delim (run ++ s) = tokens delim s := by
  induction run with
  | nil => rfl
  | cons c run ih =>
      rw [List.forall_mem_cons] at h
      rw [← ih h.2, List.cons_append]
      simp [tokens, List.splitOnP_cons_eq_if_modifyHead, h.1]

/-- **A word is a token**, if a delimiter follows. -/
theorem tokens_append {delim : Char → Bool} {word rest : Text} (hne : word ≠ [])
    (hword : ∀ c ∈ word, delim c = false) (hrest : ∀ c ∈ rest.head?, delim c = true) :
    tokens delim (word ++ rest) = word :: tokens delim rest := by
  unfold tokens
  cases rest with
  | nil =>
      rw [List.append_nil, List.splitOnP_eq_singleton hword]
      simp [hne]
  | cons c rest =>
      have hc : delim c = true := hrest c rfl
      rw [List.splitOnP_append_cons_of_forall_mem hword c hc, List.splitOnP_cons_eq_if_modifyHead,
        if_pos hc]
      simp [hne]

/-- The string in front of the first NUL. -/
theorem cstr_append_nul {s : Text} (hs : nul ∉ s) (rest : Text) : cstr (s ++ nul :: rest) = s := by
  have h : ∀ c ∈ s, (c != nul) = true := fun c hc => bne_iff_ne.2 fun he => hs (he ▸ hc)
  rw [cstr, List.takeWhile_append_of_pos h]
  simp

/-- What stands behind a NUL is no part of a string. -/
theorem cstr_append (s rest : Text) : cstr (s ++ nul :: rest) = cstr s := by
  unfold cstr
  induction s with
  | nil => rfl
  | cons c s ih =>
      rw [List.cons_append, List.takeWhile_cons, List.takeWhile_cons, ih]

/-- Nor does a NUL behind it change what has none. -/
theorem cstr_append_of_notMem {s : Text} (hs : nul ∉ s) (rest : Text) :
    cstr (s ++ rest) = s ++ cstr rest :=
  List.takeWhile_append_of_pos fun _ hc => bne_iff_ne.2 fun he => hs (he ▸ hc)

theorem head?_of_cstr {s : Text} {c : Char} (h : c ∈ (cstr s).head?) : c ∈ s.head? := by
  cases s with
  | nil => exact h
  | cons d s =>
      unfold cstr at h
      rw [List.takeWhile_cons] at h
      split_ifs at h
      · exact h
      · cases h

/-- A string has no NUL in it. -/
theorem nul_notMem_cstr (s : Text) : nul ∉ cstr s := by
  intro h
  have hne := List.all_eq_true.1 (List.all_takeWhile (p := (· != nul)) (l := s)) nul h
  simp at hne

/-- Text without a NUL is a string as it stands. -/
theorem cstr_of_notMem {s : Text} (hs : nul ∉ s) : cstr s = s := by
  have h : ∀ c ∈ s, (c != nul) = true := fun c hc => bne_iff_ne.2 fun he => hs (he ▸ hc)
  simpa [cstr] using @List.takeWhile_append_of_pos _ _ s [] h

/-- A line that fits the buffer is read whole. -/
theorem fgets_line {line : Text} {room : ℕ} (hn : '\n' ∉ line) (hl : line.length < room)
    (rest : Text) : fgets room (line ++ '\n' :: rest) = (line ++ ['\n'], rest) := by
  induction line generalizing room with
  | nil =>
      obtain ⟨room, rfl⟩ := Nat.exists_eq_add_of_lt hl
      simp [fgets]
  | cons c line ih =>
      obtain ⟨room, rfl⟩ : ∃ k, room = k + 1 := ⟨room - 1, by simp at hl; omega⟩
      rw [List.mem_cons, not_or] at hn
      rw [List.cons_append, fgets, if_neg (Ne.symm hn.1), ih hn.2 (by simpa using hl)]
      rfl

/-- **A file whose lines fit the buffer is read line by line.** -/
theorem chunks_lines (lines : List Text) {room : ℕ}
    (h : ∀ line ∈ lines, '\n' ∉ line ∧ line.length < room + 1) :
    chunks (room + 1) (lines.flatMap (· ++ ['\n'])) = lines.map (· ++ ['\n']) := by
  induction lines with
  | nil => rfl
  | cons line lines ih =>
      rw [List.forall_mem_cons] at h
      have hsplit : (line :: lines).flatMap (· ++ ['\n']) =
          line ++ '\n' :: lines.flatMap (· ++ ['\n']) := by simp
      rw [hsplit, chunks_of_ne_nil _ _ (by simp), fgets_line h.1.1 h.1.2, ih h.2, List.map_cons]

/-- A file of one line that fits the buffer. -/
theorem chunks_line {line : Text} {room : ℕ} (hn : '\n' ∉ line) (hl : line.length < room + 1) :
    chunks (room + 1) (line ++ ['\n']) = [line ++ ['\n']] := by
  have h := chunks_lines [line] (List.forall_mem_singleton.2 ⟨hn, hl⟩)
  rwa [List.flatMap_singleton] at h

/-! ### Lines -/

/-- The lines of a file; behind the last newline stands one more. -/
def lines (s : Text) : List Text := s.splitOn '\n'

/-- What stands in front of a file is part of its first line. -/
theorem lines_append {c : Text} (hc : '\n' ∉ c) (s : Text) :
    lines (c ++ s) = (lines s).modifyHead (c ++ ·) := by
  unfold lines
  induction c with
  | nil => exact (congrFun List.modifyHead_id _).symm
  | cons d c ih =>
      rw [List.mem_cons, not_or] at hc
      rw [List.cons_append, List.splitOn_cons_eq_if_modifyHead, ih hc.2, if_neg]
      · simp [Function.comp_def]
      · simpa using Ne.symm hc.1

theorem lines_cons (line s : Text) (hn : '\n' ∉ line) :
    lines (line ++ '\n' :: s) = line :: lines s := by
  rw [lines_append hn]
  unfold lines
  rw [List.splitOn_cons_eq_if_modifyHead]
  simp

/-- The lines that a file was made of. -/
theorem lines_flatMap {ls : List Text} (h : ∀ line ∈ ls, '\n' ∉ line) :
    lines (ls.flatMap (· ++ ['\n'])) = ls ++ [[]] := by
  induction ls with
  | nil => rfl
  | cons line ls ih =>
      rw [List.forall_mem_cons] at h
      have hsplit : (line :: ls).flatMap (· ++ ['\n']) =
          line ++ '\n' :: ls.flatMap (· ++ ['\n']) := by simp
      rw [hsplit, lines_cons _ _ h.1, ih h.2, List.cons_append]

/-- What `fgets` takes is the beginning of the first line, or all of it with its newline. -/
theorem fgets_split (room : ℕ) (s : Text) : ∃ c, '\n' ∉ c ∧
    ((fgets room s).1 = c ∧ s = c ++ (fgets room s).2 ∨
      (fgets room s).1 = c ++ ['\n'] ∧ s = c ++ '\n' :: (fgets room s).2) := by
  induction room generalizing s with
  | zero => exact ⟨[], by simp, Or.inl (by cases s <;> simp [fgets])⟩
  | succ room ih =>
      cases s with
      | nil => exact ⟨[], by simp, Or.inl (by simp [fgets])⟩
      | cons d s =>
          rw [fgets]
          split_ifs with hd
          · exact ⟨[], by simp, Or.inr (by simp [hd])⟩
          · obtain ⟨c, hc, h⟩ := ih s
            refine ⟨d :: c, by simp [hc, Ne.symm hd], h.imp ?_ ?_⟩
            · exact fun h => ⟨by rw [h.1], congrArg (d :: ·) h.2⟩
            · exact fun h => ⟨by rw [h.1]; rfl, congrArg (d :: ·) h.2⟩

/-- **A buffer holds a part of one line**, and perhaps its newline. -/
theorem exists_line_of_mem_chunks {room : ℕ} {s buf : Text} (h : buf ∈ chunks room s) :
    ∃ line ∈ lines s, ∃ c, c <:+: line ∧ (buf = c ∨ buf = c ++ ['\n']) := by
  unfold chunks at h
  generalize s.length = fuel at h
  induction fuel generalizing s with
  | zero => cases h
  | succ fuel ih =>
      rw [fgetsLoop] at h
      split_ifs at h
      · cases h
      · obtain ⟨c, hc, ⟨hbuf, hs⟩ | ⟨hbuf, hs⟩⟩ := fgets_split room s
        · obtain ⟨first, more, hlines⟩ :=
            List.exists_cons_of_ne_nil (List.splitOn_ne_nil '\n' (fgets room s).2)
          rw [hs, lines_append hc]
          unfold lines at ih ⊢
          rw [hlines, List.modifyHead_cons]
          rcases List.mem_cons.1 h with rfl | h
          · exact ⟨c ++ first, List.mem_cons_self, c, (List.prefix_append c first).isInfix,
              Or.inl hbuf⟩
          · obtain ⟨line, hline, c', hpart, hbuf'⟩ := ih h
            rw [hlines] at hline
            rcases List.mem_cons.1 hline with rfl | hline
            · exact ⟨c ++ line, List.mem_cons_self, c',
                hpart.trans (List.suffix_append c line).isInfix, hbuf'⟩
            · exact ⟨line, List.mem_cons_of_mem _ hline, c', hpart, hbuf'⟩
        · rw [hs, lines_cons _ _ hc]
          rcases List.mem_cons.1 h with rfl | h
          · exact ⟨c, List.mem_cons_self, c, List.infix_rfl, Or.inr hbuf⟩
          · obtain ⟨line, hline, hpart⟩ := ih h
            exact ⟨line, List.mem_cons_of_mem _ hline, hpart⟩

end CText
