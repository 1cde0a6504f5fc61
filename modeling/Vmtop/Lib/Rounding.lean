/-
# Rounding to so many binary digits

The binary floating-point formats keep a fixed number of significant binary digits, 24 in
a `float` and 53 in a `double`, and an operation gives the nearest number that has no
more, of two such the one whose last digit is even (`roundBits`).  Numbers are not negative here,
and an exponent is never out of range.

A value that was rounded several times on its way stays below a bound exactly when the number
it was made of stays below another one: the bound is taken back through each
operation (`Cut.scale`, `Cut.unround`), and behind a rounding it is the middle between the last
number below it and the next one, which itself goes to the even one (`below_roundBits_iff`).
-/

import Mathlib.Data.Int.Log
import Mathlib.Data.Rat.Floor
import Mathlib.Tactic.FieldSimp
import Mathlib.Tactic.Linarith

namespace Rounding

/-! ### To an integer -/

/-- The nearest integer, of two the even one. -/
def roundEven (q : ℚ) : ℤ :=
  let n := ⌊q⌋
  if q - n < 1 / 2 then n
  else if 1 / 2 < q - n then n + 1
  else if n % 2 = 0 then n else n + 1

/-- An integer that is nearer to a number than any half. -/
theorem nearest_le_iff {q : ℚ} {k n : ℤ} (hlow : k - 1 / 2 < q) (hhigh : q < k + 1 / 2) :
    k ≤ n ↔ q < n + 1 / 2 ∨ q = n + 1 / 2 ∧ n % 2 = 0 := by
  constructor
  · intro h
    have hcast : (k : ℚ) ≤ n := Int.cast_le.2 h
    exact Or.inl (by linarith)
  · intro h
    by_contra hnot
    have hsucc : n + 1 ≤ k := by omega
    have hcast : (n : ℚ) + 1 ≤ k := by exact_mod_cast hsucc
    rcases h with h | ⟨h, -⟩ <;> linarith

/-- **What is rounded to a number or less**: what lies below the half behind it, and that half if
the number is even. -/
theorem roundEven_le_iff {q : ℚ} {n : ℤ} :
    roundEven q ≤ n ↔ q < n + 1 / 2 ∨ q = n + 1 / 2 ∧ n % 2 = 0 := by
  have hle : (⌊q⌋ : ℚ) ≤ q := Int.floor_le q
  have hlt : q < ⌊q⌋ + 1 := Int.lt_floor_add_one q
  unfold roundEven
  generalize ⌊q⌋ = k at hle hlt
  dsimp only
  split_ifs with hbelow habove heven
  · exact nearest_le_iff (by linarith) (by linarith)
  · refine nearest_le_iff ?_ ?_ <;>
      push_cast <;>
      linarith
  all_goals
    -- the half behind `k`
    have hhalf : q = k + 1 / 2 := by linarith
    have hbefore : q < n + 1 / 2 ↔ k < n := by rw [hhalf, add_lt_add_iff_right, Int.cast_lt]
    have hsame : q = n + 1 / 2 ↔ k = n := by rw [hhalf, add_left_inj, Int.cast_inj]
    rw [hbefore, hsame]
    omega

theorem roundEven_le {q : ℚ} {n : ℤ} (h : q ≤ n) : roundEven q ≤ n :=
  roundEven_le_iff.2 (Or.inl (by linarith))

theorem le_roundEven {q : ℚ} {n : ℤ} (h : (n : ℚ) ≤ q) : n ≤ roundEven q := by
  by_contra hnot
  have hpred : roundEven q ≤ n - 1 := by omega
  rw [roundEven_le_iff] at hpred
  push_cast at hpred
  rcases hpred with h' | ⟨h', -⟩ <;> linarith

theorem roundEven_nonneg {q : ℚ} (hq : 0 ≤ q) : 0 ≤ roundEven q :=
  le_roundEven (by exact_mod_cast hq)

/-- Rounding stays below an even number as long as it stays below the half in front of it. -/
theorem roundEven_lt_iff {q : ℚ} {n : ℤ} (hn : n % 2 = 0) : roundEven q < n ↔ q < n - 1 / 2 := by
  have hodd : ¬ (n - 1) % 2 = 0 := by omega
  rw [← Int.le_sub_one_iff, roundEven_le_iff, and_iff_right_of_imp fun h => absurd h hodd]
  push_cast
  rw [or_iff_left hodd]
  constructor <;> intro h <;> linarith

/-! ### To so many digits -/

/-- What the last of `bits` digits of a number counts. -/
def ulp (bits : ℕ) (q : ℚ) : ℚ := 2 ^ (Int.log 2 q + 1 - bits)

/-- The nearest number of `bits` digits. -/
def roundBits (bits : ℕ) (q : ℚ) : ℚ := roundEven (q / ulp bits q) * ulp bits q

theorem ulp_pos (bits : ℕ) (q : ℚ) : 0 < ulp bits q := zpow_pos (by norm_num) _

theorem roundBits_nonneg {bits : ℕ} {q : ℚ} (hq : 0 ≤ q) : 0 ≤ roundBits bits q := by
  have hround : 0 ≤ roundEven (q / ulp bits q) :=
    roundEven_nonneg (div_nonneg hq (ulp_pos bits q).le)
  exact mul_nonneg (Int.cast_nonneg hround) (ulp_pos bits q).le

@[simp] theorem roundBits_zero (bits : ℕ) : roundBits bits 0 = 0 := by
  simp [roundBits, roundEven]

/-- All the digits together count what the digit in front of them does. -/
theorem pow_mul_ulp (bits : ℕ) (e : ℤ) :
    ((2 ^ bits : ℤ) : ℚ) * 2 ^ (e + 1 - bits : ℤ) = 2 ^ (e + 1) := by
  rw [Int.cast_pow, Int.cast_ofNat, ← zpow_natCast, ← zpow_add₀ (by norm_num)]
  congr 1
  omega

theorem pow_pred_mul_ulp {bits : ℕ} (hbits : 0 < bits) (e : ℤ) :
    ((2 ^ (bits - 1) : ℤ) : ℚ) * 2 ^ (e + 1 - bits : ℤ) = 2 ^ e := by
  rw [Int.cast_pow, Int.cast_ofNat, ← zpow_natCast, ← zpow_add₀ (by norm_num)]
  congr 1
  omega

/-- The exponent of a number is that of the last power of two in front of it. -/
theorem zpow_le_iff_le_log {e : ℤ} {q : ℚ} (hq : 0 < q) : 2 ^ e ≤ q ↔ e ≤ Int.log 2 q := by
  exact_mod_cast Int.zpow_le_iff_le_log (b := 2) (by norm_num) hq

/-- The power of two in front of a number is one in front of the number that it is rounded to. -/
theorem zpow_le_roundBits {bits : ℕ} (hbits : 0 < bits) {e : ℤ} {q : ℚ} (h : 2 ^ e ≤ q) :
    2 ^ e ≤ roundBits bits q := by
  have hq : 0 < q := (zpow_pos (by norm_num) e).trans_le h
  have hlog : (2 : ℚ) ^ Int.log 2 q ≤ q := (zpow_le_iff_le_log hq).2 le_rfl
  have hexp : e ≤ Int.log 2 q := (zpow_le_iff_le_log hq).1 h
  have hround : (2 ^ (bits - 1) : ℤ) ≤ roundEven (q / ulp bits q) := by
    refine le_roundEven ?_
    rw [le_div_iff₀ (ulp_pos bits q), ulp, pow_pred_mul_ulp hbits]
    exact hlog
  calc (2 : ℚ) ^ e ≤ 2 ^ Int.log 2 q := zpow_le_zpow_right₀ (by norm_num) hexp
    _ = ((2 ^ (bits - 1) : ℤ) : ℚ) * ulp bits q := (pow_pred_mul_ulp hbits _).symm
    _ ≤ roundBits bits q := by
      refine mul_le_mul_of_nonneg_right ?_ (ulp_pos bits q).le
      exact_mod_cast hround

theorem roundBits_pos {bits : ℕ} (hbits : 0 < bits) {q : ℚ} (hq : 0 < q) :
    0 < roundBits bits q := by
  have hlog : (2 : ℚ) ^ Int.log 2 q ≤ q := (zpow_le_iff_le_log hq).2 le_rfl
  exact (zpow_pos (by norm_num) _).trans_le (zpow_le_roundBits hbits hlog)

/-- And the one behind it is one behind that number, or that number. -/
theorem roundBits_le_zpow (bits : ℕ) {e : ℤ} {q : ℚ} (hq : 0 < q) (h : q < 2 ^ e) :
    roundBits bits q ≤ 2 ^ e := by
  have hlog : q < (2 : ℚ) ^ (Int.log 2 q + 1) := by
    rw [← not_le, zpow_le_iff_le_log hq]
    omega
  have hexp : Int.log 2 q + 1 ≤ e := by
    rw [← not_le, zpow_le_iff_le_log hq] at h
    omega
  have hround : roundEven (q / ulp bits q) ≤ (2 ^ bits : ℤ) := by
    refine roundEven_le ?_
    rw [div_le_iff₀ (ulp_pos bits q), ulp, pow_mul_ulp]
    exact hlog.le
  calc roundBits bits q ≤ ((2 ^ bits : ℤ) : ℚ) * ulp bits q := by
        refine mul_le_mul_of_nonneg_right ?_ (ulp_pos bits q).le
        exact_mod_cast hround
    _ = 2 ^ (Int.log 2 q + 1) := pow_mul_ulp bits _
    _ ≤ 2 ^ e := zpow_le_zpow_right₀ (by norm_num) hexp

/-! ### Bounds -/

/-- The numbers below a bound, and the bound itself if it is `closed`. -/
structure Cut where
  bound : ℚ
  closed : Bool

namespace Cut

/-- `q` is one of them. -/
def Below (c : Cut) (q : ℚ) : Prop := if c.closed then q ≤ c.bound else q < c.bound

instance (c : Cut) (q : ℚ) : Decidable (c.Below q) :=
  inferInstanceAs (Decidable (if c.closed then q ≤ c.bound else q < c.bound))

/-- The numbers below `bound`. -/
def under (bound : ℚ) : Cut := ⟨bound, false⟩

/-- The numbers that are below the bound once they are divided by `a`. -/
def scale (a : ℚ) (c : Cut) : Cut := { c with bound := c.bound * a }

/-- The exponent of the last power of two below the bound. -/
def exponent (c : Cut) : ℤ :=
  if c.closed then Int.log 2 c.bound else Int.clog 2 c.bound - 1

/-- The distance of the numbers of `bits` digits behind that power. -/
def step (bits : ℕ) (c : Cut) : ℚ := 2 ^ (c.exponent + 1 - bits)

/-- The last of them below the bound. -/
def last (bits : ℕ) (c : Cut) : ℤ :=
  if c.closed then ⌊c.bound / c.step bits⌋ else ⌈c.bound / c.step bits⌉ - 1

/-- The numbers that are below the bound once they are rounded to `bits` digits. -/
def unround (bits : ℕ) (c : Cut) : Cut :=
  ⟨(c.last bits + 1 / 2) * c.step bits, c.last bits % 2 = 0⟩

variable {c : Cut} {bits : ℕ} {q : ℚ}

theorem below_under {bound : ℚ} : (under bound).Below q ↔ q < bound := Iff.rfl

theorem below_of_lt (h : q < c.bound) : c.Below q := by
  unfold Below
  split_ifs
  · exact h.le
  · exact h

theorem Below.le (h : c.Below q) : q ≤ c.bound := by
  unfold Below at h
  split_ifs at h
  · exact h
  · exact h.le

theorem below_div_iff {a : ℚ} (ha : 0 < a) : c.Below (q / a) ↔ (c.scale a).Below q := by
  unfold Below scale
  split_ifs
  · exact div_le_iff₀ ha
  · exact div_lt_iff₀ ha

theorem step_pos (bits : ℕ) (c : Cut) : 0 < c.step bits := zpow_pos (by norm_num) _

/-- The numbers below a bound that is positive are so up to a power of two. -/
theorem below_exponent (hc : 0 < c.bound) : c.Below (2 ^ c.exponent) := by
  unfold Below exponent
  split_ifs
  · exact_mod_cast Int.zpow_log_le_self (b := 2) (by norm_num) hc
  · exact_mod_cast Int.zpow_pred_clog_lt_self (b := 2) (by norm_num) hc

theorem not_below_exponent (c : Cut) : ¬ c.Below (2 ^ (c.exponent + 1)) := by
  unfold Below exponent
  split_ifs
  · rw [not_le]
    exact_mod_cast Int.lt_zpow_succ_log_self (b := 2) (by norm_num) c.bound
  · rw [not_lt, sub_add_cancel]
    exact_mod_cast Int.self_le_zpow_clog (b := 2) (by norm_num) c.bound

/-- Of the multiples of the distance those up to the last one are below the bound. -/
theorem below_mul_step {m : ℤ} : c.Below (m * c.step bits) ↔ m ≤ c.last bits := by
  have hstep := c.step_pos bits
  unfold Below last
  split_ifs
  · rw [Int.le_floor, le_div_iff₀ hstep]
  · rw [Int.le_sub_one_iff, Int.lt_ceil, lt_div_iff₀ hstep]

theorem le_last (hbits : 0 < bits) (hc : 0 < c.bound) : (2 ^ (bits - 1) : ℤ) ≤ c.last bits := by
  rw [← below_mul_step, step, pow_pred_mul_ulp hbits]
  exact below_exponent hc

theorem last_lt (bits : ℕ) (c : Cut) : c.last bits < (2 ^ bits : ℤ) := by
  rw [← not_le, ← below_mul_step, step, pow_mul_ulp]
  exact c.not_below_exponent

theorem unround_pos (hbits : 0 < bits) (hc : 0 < c.bound) : 0 < (c.unround bits).bound := by
  have hlast : (0 : ℤ) < c.last bits := (by positivity : (0 : ℤ) < 2 ^ (bits - 1)).trans_le
    (le_last hbits hc)
  have hcast : (0 : ℚ) < c.last bits := by exact_mod_cast hlast
  exact mul_pos (by linarith) (c.step_pos bits)

theorem scale_pos {a : ℚ} (ha : 0 < a) (hc : 0 < c.bound) : 0 < (c.scale a).bound := mul_pos hc ha

/-- What is below a bound is so together with what is smaller. -/
theorem Below.mono {q' : ℚ} (h : c.Below q') (hq : q ≤ q') : c.Below q := by
  unfold Below at h ⊢
  split_ifs at h ⊢
  · exact hq.trans h
  · exact hq.trans_lt h

/-- **A number is below the bound once it is rounded exactly when it is below the middle
behind the last number that is.** -/
theorem below_roundBits_iff (hbits : 0 < bits) (hc : 0 < c.bound) (hq : 0 ≤ q) :
    c.Below (roundBits bits q) ↔ (c.unround bits).Below q := by
  have hstep := c.step_pos bits
  have hlast := le_last hbits hc
  have hlt := last_lt bits c
  have hlow : (2 : ℚ) ^ c.exponent ≤ c.last bits * c.step bits := by
    rw [← pow_pred_mul_ulp hbits c.exponent]
    exact mul_le_mul_of_nonneg_right (by exact_mod_cast hlast) hstep.le
  have hhigh : (c.last bits + 1 : ℚ) * c.step bits ≤ 2 ^ (c.exponent + 1) := by
    rw [← pow_mul_ulp bits c.exponent]
    refine mul_le_mul_of_nonneg_right ?_ hstep.le
    exact_mod_cast hlt
  have hmiddle : (c.last bits + 1 / 2 : ℚ) * c.step bits =
      c.last bits * c.step bits + c.step bits / 2 := by ring
  rcases hq.eq_or_lt with rfl | hpos
  · rw [roundBits_zero]
    exact iff_of_true ((below_exponent hc).mono (zpow_nonneg (by norm_num) _))
      (below_of_lt (unround_pos hbits hc))
  rcases lt_or_ge q (2 ^ c.exponent) with hsmall | hlarge
  · -- a smaller exponent: both are below
    have hround := roundBits_le_zpow bits hpos hsmall
    refine iff_of_true ((below_exponent hc).mono hround) (below_of_lt ?_)
    change q < (c.last bits + 1 / 2) * c.step bits
    linarith
  rcases lt_or_ge q (2 ^ (c.exponent + 1)) with hwithin | hbeyond
  · -- the exponent of the bound: the digits decide
    have hlog : Int.log 2 q = c.exponent := by
      rw [zpow_le_iff_le_log hpos] at hlarge
      rw [← not_le, zpow_le_iff_le_log hpos] at hwithin
      omega
    have hulp : ulp bits q = c.step bits := by rw [ulp, hlog, step]
    rw [roundBits, hulp, below_mul_step, roundEven_le_iff, div_lt_iff₀ hstep, div_eq_iff hstep.ne']
    unfold unround Below
    by_cases heven : c.last bits % 2 = 0
    · simp only [heven, and_true, decide_true, if_true]
      exact le_iff_lt_or_eq.symm
    · simp only [heven, and_false, or_false, decide_false, Bool.false_eq_true, if_false]
  · -- a larger exponent: neither is
    have hround := zpow_le_roundBits hbits hbeyond
    refine iff_of_false (fun h => c.not_below_exponent (h.mono hround)) fun h => ?_
    have hq' : q ≤ (c.last bits + 1 / 2) * c.step bits := h.le
    linarith

end Cut

/-- The last `float` below `10000 - 1 / 2000` is `10000 - 1 / 1024`, and what is rounded to it lies
up to the middle behind it. -/
example : ((Cut.under (10000 - 1 / 2000)).unround 24).bound = 10000 - 1 / 2048 := by decide +kernel

end Rounding
