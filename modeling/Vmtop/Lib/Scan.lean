/-
# Numbers read from text

`strtol`, `strtoul`, `atoi` and `sscanf` on a 64-bit machine.  All of them skip
white space, take an optional sign and then the decimal digits; they differ in
what they do with the number.  A value beyond the range of `long` or
`unsigned long` saturates, and storing a `long` into an `int` keeps the low
32 bits, which is what the GNU C library does where ISO C leaves the result
undefined.

A format of `sscanf` is a list of directives over a record type `σ`: a blank
skips white space, a suppressed conversion (`%*d`) reads and drops a value, and
an assigned one stores it in a field.  The first conversion that fails ends the
scan and leaves the remaining fields alone (`sscanf`).
-/

import Mathlib.Algebra.Ring.Int.Defs
import Mathlib.Algebra.Ring.Nat
import Mathlib.Data.List.TakeWhile
import Vmtop.Lib.CText

namespace CText

/-- The largest `unsigned long`. -/
def ulongMax : ℕ := 2 ^ 64 - 1

/-- What the conversions to a number share: past the white space and the sign,
whether the sign was `-`, the value of the digits, and the rest of the string;
`none` when there is no digit. -/
def scanNumeral (s : Text) : Option (Bool × ℕ × Text) :=
  let s := s.dropWhile isSpace
  let neg := s.head? == some '-'
  let s := if neg || s.head? == some '+' then s.tail else s
  let digits := s.takeWhile Char.isDigit
  if digits.isEmpty then none
  else some (neg, Nat.ofDigitChars 10 digits 0, s.dropWhile Char.isDigit)

/-- The low 32 bits as an `int`: what a wider integer becomes when stored in one. -/
def toInt32 (z : ℤ) : ℤ := z.bmod (2 ^ 32)

/-- A signed numeral as a `long`, saturating. -/
def clampLong (neg : Bool) (n : ℕ) : ℤ :=
  if neg then max (-n) (-2 ^ 63) else min n (2 ^ 63 - 1)

/-- A signed numeral as an `unsigned long`, saturating; `-n` is `n` negated
modulo `2^64`. -/
def clampULong (neg : Bool) (n : ℕ) : ℕ :=
  if ulongMax < n then ulongMax else if neg then (2 ^ 64 - n) % 2 ^ 64 else n

/-- `strtol(s, &end, 10)`: the value and what `end` points to, or `none` when `end`
stays at `s`. -/
def strtol (s : Text) : Option (ℤ × Text) :=
  (scanNumeral s).map fun (neg, n, rest) => (clampLong neg n, rest)

/-- `strtoul(s, &end, 10)`, likewise. -/
def strtoul (s : Text) : Option (ℕ × Text) :=
  (scanNumeral s).map fun (neg, n, rest) => (clampULong neg n, rest)

/-- `atol`: `0` on text that is no number. -/
def atol (s : Text) : ℤ := (strtol s).elim 0 Prod.fst

/-- `atoi`: `(int) strtol(s, NULL, 10)`. -/
def atoi (s : Text) : ℤ := toInt32 (atol s)

/-- The conversions of `sscanf`: `%c`, `%d`, `%ld`, `%u`, `%lu` or `%llu`, and `%s`. -/
inductive Conv
  | char | int | long | uint | ulong | str
  deriving DecidableEq, Repr

/-- One conversion: the value it reads and the rest of the string.  The value of
`%s` is not kept; the formats here only skip words. -/
def Conv.scan : Conv → Text → Option (ℤ × Text)
  | .char, [] => none
  | .char, c :: s => some (c.toNat, s)
  | .int, s => (strtol s).map fun (v, rest) => (toInt32 v, rest)
  | .long, s => strtol s
  | .uint, s => (strtoul s).map fun (v, rest) => ((v % 2 ^ 32 : ℕ), rest)
  | .ulong, s => (strtoul s).map fun (v, rest) => ((v : ℤ), rest)
  | .str, s =>
      let s := s.dropWhile isSpace
      if s.isEmpty then none else some (0, s.dropWhile fun c => !isSpace c)

/-- An element of a format over the record type `σ`. -/
inductive Directive (σ : Type*)
  | blank
  | skip (conv : Conv)
  | into (conv : Conv) (store : ℤ → σ → σ)

/-- `sscanf`: run the format over the string, storing into the record, until a
conversion fails. -/
def sscanf {σ : Type*} : List (Directive σ) → Text → σ → σ
  | [], _, r => r
  | .blank :: fmt, s, r => sscanf fmt (s.dropWhile isSpace) r
  | .skip conv :: fmt, s, r =>
      match conv.scan s with
      | none => r
      | some (_, rest) => sscanf fmt rest r
  | .into conv store :: fmt, s, r =>
      match conv.scan s with
      | none => r
      | some (v, rest) => sscanf fmt rest (store v r)

/-- `P` is kept by what the directive stores. -/
def Directive.Keeps {σ : Type*} (P : σ → Prop) : Directive σ → Prop
  | .into _ store => ∀ v r, P r → P (store v r)
  | _ => True

/-- **What no store of a format changes, `sscanf` does not change**, wherever in the
format it stops. -/
theorem sscanf_keeps {σ : Type*} {P : σ → Prop} {fmt : List (Directive σ)}
    (hP : ∀ d ∈ fmt, d.Keeps P) (s : Text) {r : σ} (hr : P r) : P (sscanf fmt s r) := by
  induction fmt generalizing s r with
  | nil => exact hr
  | cons d fmt ih =>
      rw [List.forall_mem_cons] at hP
      cases d with
      | blank => exact ih hP.2 _ hr
      | skip conv =>
          rw [sscanf]
          cases conv.scan s with
          | none => exact hr
          | some p => exact ih hP.2 _ hr
      | into conv store =>
          rw [sscanf]
          cases conv.scan s with
          | none => exact hr
          | some p => exact ih hP.2 _ (hP.1 _ _ hr)

/-- `R` between two records is kept when the directive stores the same value in both. -/
def Directive.Respects {σ : Type*} (R : σ → σ → Prop) : Directive σ → Prop
  | .into _ store => ∀ v r r', R r r' → R (store v r) (store v r')
  | _ => True

/-- **What is read does not depend on the record**: two records that agree as far as
`R` says, and on which every store keeps that agreement, agree after the scan. -/
theorem sscanf_congr {σ : Type*} {R : σ → σ → Prop} {fmt : List (Directive σ)}
    (hR : ∀ d ∈ fmt, d.Respects R) (s : Text) {r r' : σ} (hr : R r r') :
    R (sscanf fmt s r) (sscanf fmt s r') := by
  induction fmt generalizing s r r' with
  | nil => exact hr
  | cons d fmt ih =>
      rw [List.forall_mem_cons] at hR
      cases d with
      | blank => exact ih hR.2 _ hr
      | skip conv =>
          simp only [sscanf]
          cases conv.scan s with
          | none => exact hr
          | some p => exact ih hR.2 _ hr
      | into conv store =>
          simp only [sscanf]
          cases conv.scan s with
          | none => exact hr
          | some p => exact ih hR.2 _ (hR.1 _ _ _ hr)

/-- The values that a scan stores, where no conversion fails. -/
def scanValues {σ : Type*} : List (Directive σ) → Text → Option (List ℤ)
  | [], _ => some []
  | .blank :: fmt, s => scanValues fmt (s.dropWhile isSpace)
  | .skip conv :: fmt, s => (conv.scan s).bind fun p => scanValues fmt p.2
  | .into conv _ :: fmt, s =>
      (conv.scan s).bind fun p => (scanValues fmt p.2).map fun vs => p.1 :: vs

/-- Values stored in the order of a format, `0` for one that is missing. -/
def storeAll {σ : Type*} : List (Directive σ) → List ℤ → σ → σ
  | [], _, r => r
  | .blank :: fmt, vs, r => storeAll fmt vs r
  | .skip _ :: fmt, vs, r => storeAll fmt vs r
  | .into _ store :: fmt, vs, r => storeAll fmt vs.tail (store (vs.headD 0) r)

/-- **A scan whose conversions all succeed stores all its values**, the same in every record. -/
theorem sscanf_of_scanValues {σ : Type*} {fmt : List (Directive σ)} {s : Text} {vs : List ℤ}
    (h : scanValues fmt s = some vs) (r : σ) : sscanf fmt s r = storeAll fmt vs r := by
  induction fmt generalizing s vs r with
  | nil => rfl
  | cons d fmt ih =>
      cases d with
      | blank => exact ih h r
      | skip conv =>
          obtain ⟨p, hp, hrest⟩ := Option.bind_eq_some_iff.1 h
          rw [sscanf, hp]
          exact ih hrest r
      | into conv store =>
          obtain ⟨p, hp, h⟩ := Option.bind_eq_some_iff.1 h
          obtain ⟨ws, hrest, rfl⟩ := Option.map_eq_some_iff.1 h
          rw [sscanf, hp]
          exact ih hrest (store p.1 r)

/-- **A scan with a conversion that fails does not reach the last field.** -/
theorem sscanf_of_scanValues_none {σ : Type*} {P : σ → Prop} {fmt : List (Directive σ)}
    (hP : ∀ d ∈ fmt, d.Keeps P) {conv : Conv} {store : ℤ → σ → σ} {s : Text} {r : σ}
    (h : scanValues (fmt ++ [.into conv store]) s = none) (hr : P r) :
    P (sscanf (fmt ++ [.into conv store]) s r) := by
  induction fmt generalizing s r with
  | nil =>
      rw [List.nil_append, sscanf]
      cases hscan : conv.scan s with
      | none => exact hr
      | some p =>
          rw [List.nil_append, scanValues, hscan] at h
          cases h
  | cons d fmt ih =>
      rw [List.forall_mem_cons] at hP
      cases d with
      | blank => exact ih hP.2 h hr
      | skip conv' =>
          rw [List.cons_append, scanValues] at h
          rw [List.cons_append, sscanf]
          cases hscan : conv'.scan s with
          | none => exact hr
          | some p => exact ih hP.2 (by rwa [hscan] at h) hr
      | into conv' store' =>
          rw [List.cons_append, scanValues] at h
          rw [List.cons_append, sscanf]
          cases hscan : conv'.scan s with
          | none => exact hr
          | some p =>
              rw [hscan, Option.bind_some, Option.map_eq_none_iff] at h
              exact ih hP.2 h (hP.1 _ _ hr)

/-! ### Numerals -/

/-- A decimal numeral: digits and nothing else. -/
def IsNumeral (s : Text) : Prop := s ≠ [] ∧ ∀ c ∈ s, c.isDigit = true

instance (s : Text) : Decidable (IsNumeral s) :=
  decidable_of_iff ((!s.isEmpty && s.all Char.isDigit) = true) (by simp [IsNumeral])

/-- The number that it stands for. -/
def numeralValue (s : Text) : ℕ := Nat.ofDigitChars 10 s 0

/-- The first digits of a numeral stand for no more than the whole. -/
theorem numeralValue_take_le (k : ℕ) (s : Text) : numeralValue (s.take k) ≤ numeralValue s := by
  have hsplit : numeralValue s = 10 ^ (s.drop k).length * numeralValue (s.take k) +
      numeralValue (s.drop k) := by
    rw [numeralValue, ← List.take_append_drop k s, Nat.ofDigitChars_append,
      Nat.ofDigitChars_eq_ofDigitChars_zero, List.take_append_drop]
    rfl
  have hpos : 1 ≤ 10 ^ (s.drop k).length := Nat.one_le_pow _ _ (by decide)
  have hmul := Nat.mul_le_mul_right (numeralValue (s.take k)) hpos
  omega

theorem isDigit_iff {c : Char} : c.isDigit = true ↔ 48 ≤ c.toNat ∧ c.toNat ≤ 57 := by
  simp only [Char.isDigit, Bool.and_eq_true, decide_eq_true_eq, ge_iff_le,
    UInt32.le_iff_toNat_le]
  rfl

theorem not_isSpace_of_isDigit {c : Char} (hc : c.isDigit = true) : isSpace c = false := by
  have h := isDigit_iff.1 hc
  have hne : c ≠ ' ' := by
    rintro rfl
    exact absurd h (by decide)
  simp [isSpace, hne]
  omega

/-- A character that is no digit is in no numeral. -/
theorem IsNumeral.notMem {s : Text} (h : IsNumeral s) {c : Char} (hc : c.isDigit = false) :
    c ∉ s := fun hmem => absurd (h.2 c hmem) (by simp [hc])

/-- The digits of a numeral end where it ends, if no digit follows. -/
theorem span_digits {ds rest : Text} (hds : ∀ c ∈ ds, c.isDigit = true)
    (hr : ∀ c ∈ rest.head?, c.isDigit = false) :
    (ds ++ rest).takeWhile Char.isDigit = ds ∧ (ds ++ rest).dropWhile Char.isDigit = rest := by
  rw [List.takeWhile_append_of_pos hds, List.dropWhile_append_of_pos hds]
  cases rest with
  | nil => simp
  | cons d rest => simp [hr d rfl]

/-- Text that begins with a digit begins with a numeral. -/
theorem exists_numeral {c : Char} (hc : c.isDigit = true) (s : Text) :
    ∃ ds rest, c :: s = ds ++ rest ∧ IsNumeral ds ∧ ∀ d ∈ rest.head?, d.isDigit = false := by
  refine ⟨(c :: s).takeWhile Char.isDigit, (c :: s).dropWhile Char.isDigit,
    List.takeWhile_append_dropWhile.symm, ⟨?_, fun d hd => List.mem_takeWhile_imp hd⟩, ?_⟩
  · rw [List.takeWhile_cons_of_pos hc]
    exact List.cons_ne_nil _ _
  · intro d hd
    have h := List.head?_dropWhile_not Char.isDigit (c :: s)
    rw [Option.mem_def.1 hd] at h
    exact h

/-- **A numeral is read whole**, as far as the first character behind it that is no digit. -/
theorem scanNumeral_digits {ds rest : Text} (h : IsNumeral ds)
    (hr : ∀ c ∈ rest.head?, c.isDigit = false) :
    scanNumeral (ds ++ rest) = some (false, numeralValue ds, rest) := by
  obtain ⟨htake, hdrop⟩ := span_digits h.2 hr
  obtain ⟨c, cs, hds⟩ := List.exists_cons_of_ne_nil h.1
  have hc : c.isDigit = true := h.2 c (hds ▸ List.mem_cons_self)
  have hsign : ∀ d : Char, d.isDigit = false → c ≠ d := by
    rintro d hd rfl
    exact absurd (hc.symm.trans hd) (by decide)
  have hspace : (ds ++ rest).dropWhile isSpace = ds ++ rest := by
    rw [hds, List.cons_append, List.dropWhile_cons_of_neg]
    simp [not_isSpace_of_isDigit hc]
  have hhead : (ds ++ rest).head? = some c := by rw [hds]; rfl
  simp [scanNumeral, hspace, hhead, htake, hdrop, numeralValue, h.1, hsign '-' rfl, hsign '+' rfl]

/-- A numeral saturates as a `long`. -/
theorem strtol_digits {ds rest : Text} (h : IsNumeral ds)
    (hr : ∀ c ∈ rest.head?, c.isDigit = false) :
    strtol (ds ++ rest) = some (min (numeralValue ds : ℤ) (2 ^ 63 - 1), rest) := by
  rw [strtol, scanNumeral_digits h hr]
  rfl

theorem strtoul_digits {ds rest : Text} (h : IsNumeral ds) (hlt : numeralValue ds < 2 ^ 64)
    (hr : ∀ c ∈ rest.head?, c.isDigit = false) :
    strtoul (ds ++ rest) = some (numeralValue ds, rest) := by
  have hle : ¬ ulongMax < numeralValue ds := by
    unfold ulongMax
    omega
  simp [strtoul, scanNumeral_digits h hr, clampULong, hle]

/-- A `long` that was read is one. -/
theorem atol_mem (s : Text) : -2 ^ 63 ≤ atol s ∧ atol s < 2 ^ 63 := by
  unfold atol strtol
  cases hscan : scanNumeral s with
  | none => exact ⟨by decide, by decide⟩
  | some v =>
      obtain ⟨neg, n, rest⟩ := v
      dsimp only [Option.map_some, Option.elim_some]
      unfold clampLong
      split_ifs <;> omega

/-- An `int` in range is stored unchanged. -/
theorem toInt32_of_mem {z : ℤ} (hz : -2 ^ 31 ≤ z ∧ z < 2 ^ 31) : toInt32 z = z := by
  unfold toInt32
  rw [Int.bmod_def]
  omega

theorem toInt32_of_lt {n : ℕ} (hn : n < 2 ^ 31) : toInt32 n = n :=
  toInt32_of_mem (by omega)

theorem atoi_digits {ds rest : Text} (h : IsNumeral ds)
    (hr : ∀ c ∈ rest.head?, c.isDigit = false) :
    atoi (ds ++ rest) = toInt32 (min (numeralValue ds : ℤ) (2 ^ 63 - 1)) := by
  rw [atoi, atol, strtol_digits h hr, Option.elim_some]

/-! ### Numerals that were printed -/

theorem isDigit_of_mem_decimal {n : ℕ} {c : Char} (hc : c ∈ decimal n) : c.isDigit = true :=
  Nat.isDigit_of_mem_toDigits (by decide) (by decide) hc

theorem isNumeral_decimal (n : ℕ) : IsNumeral (decimal n) :=
  ⟨Nat.toDigits_ne_nil, fun _ => isDigit_of_mem_decimal⟩

theorem numeralValue_decimal (n : ℕ) : numeralValue (decimal n) = n :=
  Nat.ofDigitChars_toDigits (by decide) (by decide)

/-- A character that is no digit is in no number. -/
theorem notMem_decimal {n : ℕ} {c : Char} (hc : c.isDigit = false) : c ∉ decimal n :=
  (isNumeral_decimal n).notMem hc

/-- A number is not empty. -/
theorem decimal_isEmpty (n : ℕ) : (decimal n).isEmpty = false := by
  simp [decimal, Nat.toDigits_ne_nil]

/-- **A printed number is read back**, as far as the first character behind it that is
no digit. -/
theorem scanNumeral_decimal (n : ℕ) {rest : Text} (hr : ∀ c ∈ rest.head?, c.isDigit = false) :
    scanNumeral (decimal n ++ rest) = some (false, n, rest) := by
  rw [scanNumeral_digits (isNumeral_decimal n) hr, numeralValue_decimal]

/-- So is a signed one. -/
theorem scanNumeral_decimalInt (z : ℤ) {rest : Text} (hr : ∀ c ∈ rest.head?, c.isDigit = false) :
    scanNumeral (decimalInt z ++ rest) = some (decide (z < 0), z.natAbs, rest) := by
  unfold decimalInt
  split_ifs with hz
  · obtain ⟨htake, hdrop⟩ := span_digits (isNumeral_decimal z.natAbs).2 hr
    have hspace : ('-' :: (decimal z.natAbs ++ rest)).dropWhile isSpace =
        '-' :: (decimal z.natAbs ++ rest) := List.dropWhile_cons_of_neg (by decide)
    have hval : Nat.ofDigitChars 10 (decimal z.natAbs) 0 = z.natAbs :=
      numeralValue_decimal z.natAbs
    simp [scanNumeral, hspace, htake, hdrop, hval, decimal_isEmpty, hz]
  · rw [scanNumeral_decimal z.natAbs hr, decide_eq_false hz]

theorem strtol_decimalInt {z : ℤ} (hz : -2 ^ 63 ≤ z ∧ z < 2 ^ 63) {rest : Text}
    (hr : ∀ c ∈ rest.head?, c.isDigit = false) :
    strtol (decimalInt z ++ rest) = some (z, rest) := by
  have hclamp : clampLong (decide (z < 0)) z.natAbs = z := by
    unfold clampLong
    by_cases hneg : z < 0
    · rw [if_pos (decide_eq_true hneg)]
      omega
    · rw [if_neg (by simpa using hneg)]
      omega
  simp only [strtol, scanNumeral_decimalInt z hr, Option.map_some, hclamp]

theorem strtoul_decimal {n : ℕ} (hn : n < 2 ^ 64) {rest : Text}
    (hr : ∀ c ∈ rest.head?, c.isDigit = false) : strtoul (decimal n ++ rest) = some (n, rest) := by
  have hval := numeralValue_decimal n
  rw [strtoul_digits (isNumeral_decimal n) (by omega) hr, hval]

theorem atoi_decimal {n : ℕ} (hn : n < 2 ^ 31) {rest : Text}
    (hr : ∀ c ∈ rest.head?, c.isDigit = false) : atoi (decimal n ++ rest) = n := by
  have hmin : min (n : ℤ) (2 ^ 63 - 1) = n := by omega
  rw [atoi_digits (isNumeral_decimal n) hr, numeralValue_decimal, hmin]
  exact toInt32_of_lt hn

/-- The signed and the truncated numbers: `-1` as an `unsigned long`, and the
`int` that keeps the low 32 bits of `2^32 + 7`. -/
example : strtoul " -1 ".toList = some (2 ^ 64 - 1, [' ']) ∧ atoi "4294967303".toList = 7 := by
  decide

end CText
