/-
# Values as `printf` writes them

The conversions `%*s`, `%*c`, `%*d` and `%*.1f` of a terminal program: a value is
written as text and padded on the left to the width of its column, which never cuts
it (`pad`).  A `double` is a rational number, or what a division by zero leaves
(`Double`); every operation rounds its result (`toDouble`, `toFloat`).  The sign of a NaN
is not modelled, which some machines print.

A program that counts its lines relies on values that do not break them:
`newline_notMem_decimalInt` and `newline_notMem_printDouble`.  One that lines up its
columns relies on values that fit their width, which are those of a range
(`length_decimalInt_le_iff`, `length_fixed_le_iff`).
-/

import Vmtop.Lib.Rounding
import Vmtop.Lib.Scan

namespace CText

open Rounding

/-- `%*s`: padded on the left to `width`. -/
def pad (width : ℕ) (s : Text) : Text := List.replicate (width - s.length) ' ' ++ s

/-- `%.*f`: a number with a fixed number of decimals. -/
def fixed (decimals : ℕ) (q : ℚ) : Text :=
  let n := roundEven (q * 10 ^ decimals)
  let fraction := decimal (n.natAbs % 10 ^ decimals)
  (if n < 0 then ['-'] else []) ++ decimal (n.natAbs / 10 ^ decimals) ++
    '.' :: (List.replicate (decimals - fraction.length) '0' ++ fraction)

/-- What a number is as a `double`, whose numbers have 53 binary digits. -/
def toDouble (q : ℚ) : ℚ := roundBits 53 q

/-- What a number is as a `float`, whose numbers have 24. -/
def toFloat (q : ℚ) : ℚ := roundBits 24 q

theorem toDouble_pos {q : ℚ} (hq : 0 < q) : 0 < toDouble q := roundBits_pos (by decide) hq

theorem toDouble_nonneg {q : ℚ} (hq : 0 ≤ q) : 0 ≤ toDouble q := roundBits_nonneg hq

/-- Only zero is rounded to zero. -/
theorem toDouble_eq_zero_iff {q : ℚ} (hq : 0 ≤ q) : toDouble q = 0 ↔ q = 0 := by
  refine ⟨fun h => ?_, fun h => ?_⟩
  · by_contra hne
    exact (toDouble_pos (lt_of_le_of_ne hq (Ne.symm hne))).ne' h
  · rw [h]
    exact roundBits_zero 53

/-- A `double` that divisions of numbers that are not negative produce. -/
inductive Double
  | num (q : ℚ)
  | inf
  | nan
  deriving DecidableEq

/-- `x / y`, for a number `y` that is not negative; `round` is what becomes of the result. -/
def Double.div (round : ℚ → ℚ) (x : Double) (y : ℚ) : Double :=
  match x with
  | .num q => if y = 0 then if q = 0 then .nan else .inf else .num (round (q / y))
  | x => x

/-- `%.*f`. -/
def printDouble (decimals : ℕ) : Double → Text
  | .num q => fixed decimals q
  | .inf => "inf".toList
  | .nan => "nan".toList

/-- Padding breaks no line. -/
theorem count_newline_pad (width : ℕ) (s : Text) :
    (pad width s).count '\n' = s.count '\n' := by
  rw [pad, List.count_append, List.count_replicate]
  simp

/-- Texts that are written one after another break the lines that each of them breaks. -/
theorem count_newline_flatMap {α : Type*} {f : α → Text} {breaks : α → ℕ} {l : List α}
    (h : ∀ a ∈ l, (f a).count '\n' = breaks a) : (l.flatMap f).count '\n' = (l.map breaks).sum := by
  rw [List.count_flatMap]
  exact congrArg List.sum (List.map_congr_left h)

variable {c : Char}

theorem notMem_decimalInt (hc : c.isDigit = false) (hsign : c ≠ '-') (z : ℤ) :
    c ∉ decimalInt z := by
  unfold decimalInt
  split_ifs
  · rw [List.mem_cons, not_or]
    exact ⟨hsign, notMem_decimal hc⟩
  · exact notMem_decimal hc

theorem newline_notMem_decimalInt (z : ℤ) : '\n' ∉ decimalInt z :=
  notMem_decimalInt rfl (by decide) z

theorem newline_notMem_decimal2 (n : ℕ) : '\n' ∉ decimal2 n := by
  unfold decimal2
  split_ifs
  · simp [notMem_decimal]
  · exact notMem_decimal rfl

/-- A number with decimals has digits, a sign and a point, and what is none has letters. -/
theorem notMem_printDouble (hc : c.isDigit = false) (hother : c ∉ "-.infa".toList) (decimals : ℕ)
    (x : Double) : c ∉ printDouble decimals x := by
  simp only [String.reduceToList, List.mem_cons, List.not_mem_nil, or_false, not_or] at hother
  obtain ⟨hsign, hpoint, hi, hn, hf, ha⟩ := hother
  cases x with
  | num q =>
      simp only [printDouble, fixed, List.mem_append, List.mem_cons, List.mem_replicate, not_or]
      refine ⟨⟨?_, notMem_decimal hc⟩, hpoint, fun h => ?_, notMem_decimal hc⟩
      · split_ifs
        · simpa using hsign
        · exact List.not_mem_nil
      · rw [h.2] at hc
        exact absurd hc (by decide)
  | inf => simp [printDouble, hi, hn, hf]
  | nan => simp [printDouble, hn, ha]

theorem newline_notMem_printDouble (decimals : ℕ) (x : Double) :
    '\n' ∉ printDouble decimals x :=
  notMem_printDouble rfl (by decide) decimals x

/-! ### Widths -/

theorem length_pad (width : ℕ) (s : Text) : (pad width s).length = max width s.length := by
  rw [pad, List.length_append, List.length_replicate]
  omega

theorem length_decimal_le_iff {n width : ℕ} (hwidth : 0 < width) :
    (decimal n).length ≤ width ↔ n < 10 ^ width :=
  Nat.length_toDigits_le_iff (by decide) hwidth

/-- A sign takes a digit of the width. -/
theorem length_decimalInt_le_iff {z : ℤ} {width : ℕ} (hwidth : 1 < width) :
    (decimalInt z).length ≤ width ↔ -10 ^ (width - 1) < z ∧ z < 10 ^ width := by
  have hpos : (0 : ℤ) < 10 ^ (width - 1) := by positivity
  have hpos' : (0 : ℤ) < 10 ^ width := by positivity
  unfold decimalInt
  split_ifs with hz
  · have habs : (z.natAbs : ℤ) = -z := Int.ofNat_natAbs_of_nonpos hz.le
    rw [List.length_cons, ← Nat.le_sub_iff_add_le hwidth.le,
      length_decimal_le_iff (Nat.sub_pos_of_lt hwidth), ← Int.ofNat_lt, habs, Nat.cast_pow,
      Nat.cast_ofNat]
    omega
  · have habs : (z.natAbs : ℤ) = z := Int.natAbs_of_nonneg (Int.not_lt.1 hz)
    rw [length_decimal_le_iff (Nat.zero_lt_of_lt hwidth), ← Int.ofNat_lt, habs, Nat.cast_pow,
      Nat.cast_ofNat]
    omega

/-- **What a number with decimals may be to fit its width.** -/
theorem length_fixed_le_iff {decimals width : ℕ} (hdecimals : 0 < decimals)
    (hwidth : decimals + 2 ≤ width) {q : ℚ} (hq : 0 ≤ q) :
    (fixed decimals q).length ≤ width ↔ q * 10 ^ decimals < 10 ^ (width - 1) - 1 / 2 := by
  have hpos : 0 ≤ roundEven (q * 10 ^ decimals) := roundEven_nonneg (by positivity)
  have heven : (10 ^ (width - 1) : ℤ) % 2 = 0 := by
    have hsucc : width - 1 = (width - 2) + 1 := by omega
    rw [hsucc, pow_succ]
    omega
  have hround := roundEven_lt_iff (q := q * 10 ^ decimals) heven
  rw [Int.cast_pow, Int.cast_ofNat] at hround
  rw [← hround]
  unfold fixed
  generalize roundEven (q * 10 ^ decimals) = n at hpos
  dsimp only
  have hten : 0 < 10 ^ decimals := by positivity
  have hfraction : (decimal (n.natAbs % 10 ^ decimals)).length ≤ decimals :=
    (length_decimal_le_iff hdecimals).2 (Nat.mod_lt _ hten)
  have hlength : width - 1 = (width - decimals - 1) + decimals := by omega
  rw [if_neg (Int.not_lt.2 hpos), List.nil_append, List.length_append, List.length_cons,
    List.length_append, List.length_replicate]
  have hsplit : (decimal (n.natAbs / 10 ^ decimals)).length +
      (decimals - (decimal (n.natAbs % 10 ^ decimals)).length +
        (decimal (n.natAbs % 10 ^ decimals)).length + 1) ≤ width ↔
      (decimal (n.natAbs / 10 ^ decimals)).length ≤ width - decimals - 1 := by omega
  rw [hsplit, length_decimal_le_iff (by omega), Nat.div_lt_iff_lt_mul hten, ← pow_add, ← hlength,
    ← Int.ofNat_lt, Int.natAbs_of_nonneg hpos, Nat.cast_pow, Nat.cast_ofNat]

/-- The numbers that are printed with so many decimals in `width` characters: those below the half
behind the last of them. -/
def decimalsCut (decimals width : ℕ) : Cut := .under ((10 ^ (width - 1) - 1 / 2) / 10 ^ decimals)

theorem length_fixed_le_iff_below {decimals width : ℕ} (hdecimals : 0 < decimals)
    (hwidth : decimals + 2 ≤ width) {q : ℚ} (hq : 0 ≤ q) :
    (fixed decimals q).length ≤ width ↔ (decimalsCut decimals width).Below q := by
  rw [length_fixed_le_iff hdecimals hwidth hq, decimalsCut, Cut.below_under,
    lt_div_iff₀ (by positivity)]

theorem decimalsCut_pos (decimals width : ℕ) : 0 < (decimalsCut decimals width).bound := by
  have hone : (1 : ℚ) ≤ 10 ^ (width - 1) := one_le_pow₀ (by norm_num)
  exact div_pos (by linarith) (by positivity)

/-- Half of a tenth goes to the even digit. -/
example : pad 8 (fixed 1 (25 / 2)) = "    12.5".toList ∧ fixed 1 (1 / 4) = "0.2".toList := by
  decide +kernel

end CText
