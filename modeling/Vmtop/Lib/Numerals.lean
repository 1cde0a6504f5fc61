/-
# Lines of numbers that are printed and scanned

A `Numeral` is a number as it stands in a line, with the directive of a format that
reads it and what that does to the record.  Its fields say that it is written with
digits and a sign, that it is no longer than a 64-bit number, and that scanning it has
that effect.  There is one for each conversion: `int`, `long` and `ulong` store
their value, `skipInt`, `skipUint` and `skipWord` read it and drop it.

A format and a line with the same numerals in the same order fit together: scanning the
line stores every value where its directive says (`sscanf_written`).
-/

import Mathlib.Algebra.Order.Group.Nat
import Vmtop.Lib.Scan

namespace CText

variable {σ : Type*}

/-- A number in a line, and what scanning it does to a record. -/
structure Numeral (σ : Type*) where
  text : Text
  directive : Directive σ
  effect : σ → σ
  ne_nil : text ≠ []
  plain : ∀ c ∈ text, c.isDigit = true ∨ c = '-'
  width : text.length ≤ 20
  reads : ∀ (fmt : List (Directive σ)) (rest : Text) (r : σ),
    (∀ c ∈ rest.head?, isSpace c = true) →
    sscanf (directive :: fmt) (text ++ rest) r = sscanf fmt rest (effect r)

/-! ### How numbers are written -/

theorem plain_decimal (n : ℕ) : ∀ c ∈ decimal n, c.isDigit = true ∨ c = '-' := fun _ hc =>
  Or.inl (isDigit_of_mem_decimal hc)

theorem plain_decimalInt (z : ℤ) : ∀ c ∈ decimalInt z, c.isDigit = true ∨ c = '-' := by
  unfold decimalInt
  split_ifs
  · exact List.forall_mem_cons.2 ⟨Or.inr rfl, plain_decimal _⟩
  · exact plain_decimal _

theorem decimal_ne_nil (n : ℕ) : decimal n ≠ [] := Nat.toDigits_ne_nil

theorem decimalInt_ne_nil (z : ℤ) : decimalInt z ≠ [] := by
  unfold decimalInt
  split_ifs
  · exact List.cons_ne_nil _ _
  · exact decimal_ne_nil _

theorem length_decimal_le {n k : ℕ} (hk : 0 < k) (hn : n < 10 ^ k) : (decimal n).length ≤ k :=
  (Nat.length_toDigits_le_iff (by decide) hk).2 hn

theorem length_decimal_uint64 (n : UInt64) : (decimal n.toNat).length ≤ 20 :=
  length_decimal_le (by decide) (n.toNat_lt.trans (by decide))

/-- A 64-bit number with its sign. -/
theorem length_decimalInt_le {z : ℤ} (hz : -2 ^ 63 ≤ z ∧ z < 2 ^ 63) :
    (decimalInt z).length ≤ 20 := by
  have hdigits : (decimal z.natAbs).length ≤ 19 := length_decimal_le (by decide) (by omega)
  unfold decimalInt
  split_ifs
  · rw [List.length_cons]
    omega
  · omega

/-- No digit follows where a blank does. -/
theorem not_isDigit_of_isSpace {rest : Text} (h : ∀ c ∈ rest.head?, isSpace c = true) :
    ∀ c ∈ rest.head?, c.isDigit = false := by
  intro c hc
  by_contra hd
  rw [Bool.not_eq_false] at hd
  exact absurd (h c hc) (by simp [not_isSpace_of_isDigit hd])

/-- No number has a blank in it. -/
theorem not_isSpace_of_plain {c : Char} (h : c.isDigit = true ∨ c = '-') : isSpace c = false := by
  rcases h with h | rfl
  · exact not_isSpace_of_isDigit h
  · decide

/-! ### The conversions -/

namespace Numeral

theorem int32_mem_int64 (z : Int32) : -2 ^ 63 ≤ z.toInt ∧ z.toInt < 2 ^ 63 := by
  have hle := z.le_toInt
  have hlt := z.toInt_lt
  omega

/-- A number for `%d`. -/
def int (z : Int32) (store : ℤ → σ → σ) : Numeral σ where
  text := decimalInt z.toInt
  directive := .into .int store
  effect := store z.toInt
  ne_nil := decimalInt_ne_nil _
  plain := plain_decimalInt _
  width := length_decimalInt_le (int32_mem_int64 z)
  reads fmt rest r hr := by
    simp only [sscanf, Conv.scan,
      strtol_decimalInt (int32_mem_int64 z) (not_isDigit_of_isSpace hr), Option.map_some,
      toInt32_of_mem ⟨z.le_toInt, z.toInt_lt⟩]

/-- A number for `%ld`. -/
def long (z : Int64) (store : ℤ → σ → σ) : Numeral σ where
  text := decimalInt z.toInt
  directive := .into .long store
  effect := store z.toInt
  ne_nil := decimalInt_ne_nil _
  plain := plain_decimalInt _
  width := length_decimalInt_le ⟨z.le_toInt, z.toInt_lt⟩
  reads fmt rest r hr := by
    simp only [sscanf, Conv.scan,
      strtol_decimalInt ⟨z.le_toInt, z.toInt_lt⟩ (not_isDigit_of_isSpace hr)]

/-- A number for `%lu` or `%llu`. -/
def ulong (n : UInt64) (store : ℤ → σ → σ) : Numeral σ where
  text := decimal n.toNat
  directive := .into .ulong store
  effect := store n.toNat
  ne_nil := decimal_ne_nil _
  plain := plain_decimal _
  width := length_decimal_uint64 n
  reads fmt rest r hr := by
    simp only [sscanf, Conv.scan, strtoul_decimal n.toNat_lt (not_isDigit_of_isSpace hr),
      Option.map_some]

/-- A number for `%*d`, of any width up to 64 bits. -/
def skipInt (z : Int64) : Numeral σ where
  text := decimalInt z.toInt
  directive := .skip .int
  effect := id
  ne_nil := decimalInt_ne_nil _
  plain := plain_decimalInt _
  width := length_decimalInt_le ⟨z.le_toInt, z.toInt_lt⟩
  reads fmt rest r hr := by
    simp only [sscanf, Conv.scan, strtol_decimalInt ⟨z.le_toInt, z.toInt_lt⟩
      (not_isDigit_of_isSpace hr), Option.map_some, id_eq]

/-- A number for `%*u`, likewise. -/
def skipUint (n : UInt64) : Numeral σ where
  text := decimal n.toNat
  directive := .skip .uint
  effect := id
  ne_nil := decimal_ne_nil _
  plain := plain_decimal _
  width := length_decimal_uint64 n
  reads fmt rest r hr := by
    simp only [sscanf, Conv.scan, strtoul_decimal n.toNat_lt (not_isDigit_of_isSpace hr),
      Option.map_some, id_eq]

/-- A number for `%*s`. -/
def skipWord (n : UInt64) : Numeral σ where
  text := decimal n.toNat
  directive := .skip .str
  effect := id
  ne_nil := decimal_ne_nil _
  plain := plain_decimal _
  width := length_decimal_uint64 n
  reads fmt rest r hr := by
    obtain ⟨c, ds, hds⟩ := List.exists_cons_of_ne_nil (decimal_ne_nil n.toNat)
    have hblank : ∀ c ∈ decimal n.toNat, (!isSpace c) = true := fun c hc => by
      rw [not_isSpace_of_isDigit (isDigit_of_mem_decimal hc), Bool.not_false]
    have hspace : (decimal n.toNat ++ rest).dropWhile isSpace = decimal n.toNat ++ rest := by
      have hc := hblank c (by rw [hds]; exact List.mem_cons_self)
      rw [hds, List.cons_append, List.dropWhile_cons_of_neg (by simpa using hc)]
    have hword : (decimal n.toNat ++ rest).dropWhile (fun c => !isSpace c) = rest := by
      rw [List.dropWhile_append_of_pos hblank]
      cases rest with
      | nil => rfl
      | cons d rest => simp [hr d rfl]
    have hempty : (decimal n.toNat ++ rest).isEmpty = false := by rw [hds]; rfl
    simp only [sscanf, Conv.scan, hspace, hempty, hword, Bool.false_eq_true, if_false, id_eq]

end Numeral

/-! ### Lines -/

/-- The numbers of a line, each behind a blank. -/
def written (ns : List (Numeral σ)) : Text := ns.flatMap fun n => ' ' :: n.text

/-- The format that reads them. -/
def formatOf (ns : List (Numeral σ)) : List (Directive σ) :=
  ns.flatMap fun n => [.blank, n.directive]

/-- **Scanning a line of numbers stores each of them where its directive says.** -/
theorem sscanf_written (ns : List (Numeral σ)) {rest : Text}
    (hr : ∀ c ∈ rest.head?, isSpace c = true) (r : σ) :
    sscanf (formatOf ns) (written ns ++ rest) r = ns.foldl (fun r n => n.effect r) r := by
  induction ns generalizing r with
  | nil => rfl
  | cons n ns ih =>
      obtain ⟨c, ds, hds⟩ := List.exists_cons_of_ne_nil n.ne_nil
      have hc : isSpace c = false :=
        not_isSpace_of_plain (n.plain c (by rw [hds]; exact List.mem_cons_self))
      -- the blank in front of the number is skipped, and nothing of the number is
      have hblank : (' ' :: (n.text ++ (written ns ++ rest))).dropWhile isSpace =
          n.text ++ (written ns ++ rest) := by
        rw [hds, List.dropWhile_cons_of_pos (by decide), List.cons_append,
          List.dropWhile_cons_of_neg (by simp [hc])]
      have hnext : ∀ c ∈ (written ns ++ rest).head?, isSpace c = true := by
        cases ns with
        | nil => exact hr
        | cons m ns =>
            rintro c ⟨⟩
            decide
      have htext : written (n :: ns) ++ rest = ' ' :: (n.text ++ (written ns ++ rest)) := by
        simp only [written, List.flatMap_cons, List.cons_append, List.append_assoc]
      have hformat : formatOf (n :: ns) = .blank :: n.directive :: formatOf ns := by
        simp only [formatOf, List.flatMap_cons, List.cons_append, List.nil_append]
      rw [htext, hformat, sscanf, hblank, n.reads _ _ _ hnext, ih, List.foldl_cons]

/-- A line is made of digits, signs and blanks. -/
theorem mem_written {ns : List (Numeral σ)} {c : Char} (hc : c ∈ written ns) :
    c.isDigit = true ∨ c = '-' ∨ c = ' ' := by
  obtain ⟨n, -, hc⟩ := List.mem_flatMap.1 hc
  rcases List.mem_cons.1 hc with rfl | hc
  · exact Or.inr (Or.inr rfl)
  · exact (n.plain c hc).imp_right Or.inl

theorem length_written_le (ns : List (Numeral σ)) : (written ns).length ≤ 21 * ns.length := by
  induction ns with
  | nil => exact Nat.zero_le _
  | cons n ns ih =>
      have hn := n.width
      simp only [written, List.flatMap_cons, List.length_append, List.length_cons] at ih ⊢
      omega

end CText
