/-
# Counters read again and again

A sampler reads a counter of some object at successive moments and reports what
happened since the reading before.  The reports here follow a three-way rule:
nothing for an object that was not there before, the increase where the counter
did not go back, and the report of the reading before where it did
(`threeWay`).

The records of a counter are linked by `Prev`, from a reading to the one before
it of the same object.  However the counter moves, a report is `0` or a
difference of two readings linked by `Prev` further down the chain
(`Reported.traced`, and `MadeOf` says which), so it exceeds no reading
(`Traced.le_reading`); and while the counter never goes back, the reports add up
to its increase (`sum_increments`).
-/

import Mathlib.Algebra.BigOperators.Intervals
import Mathlib.Algebra.Order.Sub.Basic
import Mathlib.Data.List.Nodup
import Mathlib.Logic.Relation
import Mathlib.Order.WellFounded

namespace Sampled

variable {R α β : Type*}

/-! ### The rule -/

/-- The report on a reading `v`: `old` is the reading before it and what was
reported there, or `none` when there was none. -/
def threeWay [LE α] [DecidableLE α] [Zero α] [Sub α] (old : Option (α × α)) (v : α) : α :=
  match old with
  | none => 0
  | some (w, reported) => if w ≤ v then v - w else reported

/-- The rule commutes with a map that keeps the order, the zero and the
differences that do not wrap, such as the value of a machine word. -/
theorem map_threeWay [LE α] [DecidableLE α] [Zero α] [Sub α] [LE β] [DecidableLE β] [Zero β]
    [Sub β] (f : α → β) (h0 : f 0 = 0) (hle : ∀ v w, f w ≤ f v ↔ w ≤ v)
    (hsub : ∀ v w, w ≤ v → f (v - w) = f v - f w) (old : Option (α × α)) (v : α) :
    f (threeWay old v) = threeWay (old.map (Prod.map f f)) (f v) := by
  cases old with
  | none => exact h0
  | some o =>
      simp only [threeWay, Option.map_some, Prod.map, hle]
      split_ifs with h
      · exact hsub _ _ h
      · rfl

/-- Where the counter did not go back, what was reported on the reading before is not used. -/
theorem threeWay_congr [LE α] [DecidableLE α] [Zero α] [Sub α] {old old' : Option (α × α)} {v : α}
    (h : old.map Prod.fst = old'.map Prod.fst) (hle : ∀ o ∈ old, o.1 ≤ v) :
    threeWay old v = threeWay old' v := by
  cases old with
  | none =>
      rw [Option.map_none, eq_comm, Option.map_eq_none_iff] at h
      rw [h]
  | some o =>
      obtain ⟨o', rfl, ho⟩ := Option.map_eq_some_iff.1 h.symm
      have hv := hle o rfl
      rw [threeWay, threeWay, if_pos hv, ho, if_pos hv]

section Rule

variable [LinearOrder α] [Zero α] [Sub α]

variable (Prev : R → R → Prop) (value delta : R → α)

/-- What is reported on `r` is nothing, or comes from the record `o` before it: as
an increase since `o`, or as what was reported on `o` when the counter went back. -/
def Reported (r : R) : Prop :=
  delta r = 0 ∨ ∃ o, Prev r o ∧
    ((value o ≤ value r ∧ delta r = value r - value o) ∨ (value r < value o ∧ delta r = delta o))

variable {Prev value delta}

/-- A record that follows the three-way rule is `Reported`. -/
theorem Reported.of_threeWay {r : R} (old : Option R) (hold : ∀ o, old = some o → Prev r o)
    (h : delta r = threeWay (old.map fun o => (value o, delta o)) (value r)) :
    Reported Prev value delta r := by
  cases old with
  | none => exact Or.inl h
  | some o =>
      refine Or.inr ⟨o, hold o rfl, ?_⟩
      simp only [Option.map_some, threeWay] at h
      split_ifs at h with hle
      · exact Or.inl ⟨hle, h⟩
      · exact Or.inr ⟨lt_of_not_ge hle, h⟩

variable (Prev value delta) in
/-- What is reported on `r` is `0` or the difference of two consecutive readings that do
not go back, `y` and then `x`, down the chain from `r`. -/
def Traced (r : R) : Prop :=
  delta r = 0 ∨ ∃ x y, Relation.ReflTransGen Prev r x ∧ Prev x y ∧ value y ≤ value x ∧
    delta r = value x - value y

/-- **A report is a difference of two consecutive readings.**  The induction goes down
the chain: a counter that went back hands on the report of the record before. -/
theorem Reported.traced (hwf : WellFounded fun o r => Prev r o)
    (h : ∀ r, Reported Prev value delta r) (r : R) : Traced Prev value delta r := by
  induction r using hwf.induction with
  | _ r ih =>
      rcases h r with h0 | ⟨o, ho, ⟨hle, hd⟩ | ⟨-, hd⟩⟩
      · exact Or.inl h0
      · exact Or.inr ⟨r, o, .refl, ho, hle, hd⟩
      · rcases ih o ho with h0 | ⟨x, y, hx, hy, hle, he⟩
        · exact Or.inl (hd.trans h0)
        · exact Or.inr ⟨x, y, .head ho hx, hy, hle, hd.trans he⟩

end Rule

/-- **A report exceeds no reading**: some reading down the chain is at least as large. -/
theorem Traced.le_reading [LinearOrder α] [AddCommMonoid α] [CanonicallyOrderedAdd α] [Sub α]
    [OrderedSub α] {Prev : R → R → Prop} {value delta : R → α} {r : R}
    (h : Traced Prev value delta r) :
    ∃ x, Relation.ReflTransGen Prev r x ∧ delta r ≤ value x := by
  rcases h with h0 | ⟨x, y, hx, -, -, he⟩
  · exact ⟨r, .refl, h0.le.trans zero_le⟩
  · exact ⟨x, hx, he ▸ tsub_le_self⟩

/-! ### The readings behind a report -/

section MadeOf

variable [LE α]

/-- The report on `r` was made of the readings `x` and `y`: of `r` and the record before it,
or, where the counter went back, of those that the report of that record was made of. -/
inductive MadeOf (Prev : R → R → Prop) (value : R → α) : R → R → R → Prop
  | here {r o : R} : Prev r o → value o ≤ value r → MadeOf Prev value r r o
  | back {r o x y : R} : Prev r o → ¬ value o ≤ value r → MadeOf Prev value o x y →
      MadeOf Prev value r x y

variable {Prev : R → R → Prop} {value : R → α} {r x y : R}

/-- The readings are consecutive, and the counter does not go back between them. -/
theorem MadeOf.consecutive (h : MadeOf Prev value r x y) : Prev x y ∧ value y ≤ value x := by
  induction h with
  | here ho hle => exact ⟨ho, hle⟩
  | back _ _ _ ih => exact ih

/-- **A report that follows the three-way rule is the difference of its readings.** -/
theorem MadeOf.delta_eq [DecidableLE α] [Zero α] [Sub α] (h : MadeOf Prev value r x y)
    (delta : R → α)
    (hrule : ∀ r o, Prev r o → delta r = threeWay (some (value o, delta o)) (value r)) :
    delta r = value x - value y := by
  induction h with
  | here ho hle => rw [hrule _ _ ho, threeWay, if_pos hle]
  | back ho hlt _ ih => rw [hrule _ _ ho, threeWay, if_neg hlt, ih]

end MadeOf

/-! ### Reports from a history -/

section Report

variable [LE α] [DecidableLE α] [Zero α] [Sub α] {H : Type*}

/-- What the rule alone reports on a reading of a counter: `look` says what the readings of the
past, the newest first, showed of it, if they showed it. -/
def report (look : H → Option α) : List H → α → α
  | [], _ => 0
  | h :: past, v => threeWay ((look h).map fun w => (w, report look past w)) v

/-- A counter that the last reading did not show starts from nothing. -/
theorem report_of_none {look : H → Option α} {past : List H} (h : past.head?.bind look = none)
    (v : α) : report look past v = 0 := by
  cases past with
  | nil => rfl
  | cons x past =>
      rw [List.head?_cons, Option.bind_some] at h
      rw [report, h]
      rfl

end Report

/-! ### Reports that add up -/

/-- **While a counter never goes back, its reports telescope**: from reading `a`
to reading `b` they add up to the increase. -/
theorem sum_increments [AddCommMonoid α] [PartialOrder α] [CanonicallyOrderedAdd α]
    [Sub α] [OrderedSub α] (value delta : ℕ → α) {a b : ℕ} (hab : a ≤ b)
    (hmono : ∀ k, a ≤ k → k < b → value k ≤ value (k + 1))
    (hdelta : ∀ k, a ≤ k → k < b → delta (k + 1) = value (k + 1) - value k) :
    value a ≤ value b ∧ ∑ k ∈ Finset.Ico a b, delta (k + 1) = value b - value a := by
  induction b, hab using Nat.le_induction with
  | base => simp
  | succ b hab ih =>
      obtain ⟨hle, hsum⟩ := ih (fun k ha hb => hmono k ha (Nat.lt_succ_of_lt hb))
        fun k ha hb => hdelta k ha (Nat.lt_succ_of_lt hb)
      have hstep := hmono b hab (Nat.lt_succ_self b)
      refine ⟨hle.trans hstep, ?_⟩
      rw [Finset.sum_Ico_succ_top hab, hsum, hdelta b hab (Nat.lt_succ_self b), add_comm,
        tsub_add_tsub_cancel hstep hle]

/-! ### Records found by a key -/

/-- Where the keys of a list are distinct, the first record with the key of `x` is `x`. -/
theorem find?_key_eq [DecidableEq β] (key : R → β) {l : List R} (hn : (l.map key).Nodup) {x : R}
    (hx : x ∈ l) : l.find? (fun y => key y = key x) = some x := by
  induction l with
  | nil => cases hx
  | cons y l ih =>
      rw [List.map_cons, List.nodup_cons] at hn
      rcases List.mem_cons.1 hx with rfl | hx
      · simp
      · have hne : key y ≠ key x := fun he => hn.1 (he ▸ List.mem_map_of_mem hx)
        rw [List.find?_cons_of_neg (by simpa using hne)]
        exact ih hn.2 hx

end Sampled
