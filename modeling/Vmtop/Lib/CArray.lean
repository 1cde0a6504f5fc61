/-
# Arrays of fixed size, with the subscript checked

An array of `n` elements is a function on `Fin n`.  A subscript that the program
computes need not be below `n`; in C the access is then undefined, and here it
is the fault `outOfBounds`.  A program that never faults is one all of whose
accesses are within bounds, so that is how safety of its subscripts is stated.
The other fault is the use of a pointer that points to no object.

`Ends x P E` is what a program of such accesses is specified by: a postcondition
for its result and one for its fault, with the rules for a sequence (`Ends.bind`)
and a loop (`Ends.foldlM`).
-/

import Mathlib.Data.Fin.Basic
import Mathlib.Logic.Function.Basic

namespace CArray

/-- Undefined behaviour: a subscript past the end of an array, or the use of a
pointer into nothing. -/
inductive Fault
  | outOfBounds (index size : ℕ)
  | badPointer
  deriving DecidableEq, Repr

/-- The array of `n` elements of type `α`. -/
abbrev Arr (n : ℕ) (α : Type*) := Fin n → α

universe u

variable {n : ℕ} {α β : Type u}

/-- `a[i]` as a value. -/
def load (a : Arr n α) (i : ℕ) : Except Fault α :=
  if h : i < n then .ok (a ⟨i, h⟩) else .error (.outOfBounds i n)

/-- `a[i] = x`. -/
def store (a : Arr n α) (i : ℕ) (x : α) : Except Fault (Arr n α) :=
  if h : i < n then .ok (Function.update a ⟨i, h⟩ x) else .error (.outOfBounds i n)

@[simp] theorem load_of_lt (a : Arr n α) {i : ℕ} (h : i < n) : load a i = .ok (a ⟨i, h⟩) :=
  dif_pos h

@[simp] theorem store_of_lt (a : Arr n α) {i : ℕ} (h : i < n) (x : α) :
    store a i x = .ok (Function.update a ⟨i, h⟩ x) :=
  dif_pos h

@[simp] theorem ok_bind {ε : Type*} (a : α) (f : α → Except ε β) :
    (Except.ok a >>= f) = f a :=
  rfl

/-- A computation has a result exactly when it faults nowhere. -/
theorem toOption_eq_some {ε : Type*} {x : Except ε α} {a : α} :
    x.toOption = some a ↔ x = .ok a := by
  cases x <;> simp [Except.toOption]

/-- A computation that faults nowhere and goes on with `f` has a result exactly
when `f` has one there. -/
theorem bind_eq_ok {ε : Type*} {x : Except ε α} {f : α → Except ε β} {b : β} :
    x >>= f = .ok b ↔ ∃ a, x = .ok a ∧ f a = .ok b := by
  cases x with
  | error e =>
      constructor
      · intro h
        cases h
      · rintro ⟨_, h, -⟩
        cases h
  | ok a =>
      constructor
      · intro h
        exact ⟨a, rfl, h⟩
      · rintro ⟨_, h, hf⟩
        cases h
        exact hf

/-! ### What a store leaves -/

section Stores

variable {a b : Arr n α} {i j : ℕ} {x y : α}

/-- An access that has a result is within bounds. -/
theorem lt_of_load (h : load a i = .ok x) : i < n := by
  unfold load at h
  split_ifs at h with hi
  exact hi

theorem lt_of_store (h : store a i x = .ok b) : i < n := by
  unfold store at h
  split_ifs at h with hi
  exact hi

/-- The element stored is read back. -/
theorem load_of_store (h : store a i x = .ok b) : load b i = .ok x := by
  have hi := lt_of_store h
  rw [store_of_lt a hi] at h
  cases h
  rw [load_of_lt _ hi, Function.update_self]

/-- The other elements are as they were. -/
theorem load_of_store_ne (h : store a i x = .ok b) (hne : j ≠ i) : load b j = load a j := by
  have hi := lt_of_store h
  rw [store_of_lt a hi] at h
  cases h
  unfold load
  split_ifs with hj
  · rw [Function.update_of_ne fun heq => hne (congrArg Fin.val heq)]
  · rfl

/-- An array is what its loads find. -/
theorem ext_load (h : ∀ i, load a i = load b i) : a = b := by
  funext ⟨i, hi⟩
  have hload := h i
  rw [load_of_lt a hi, load_of_lt b hi] at hload
  exact Except.ok.inj hload

/-- A store changes nothing exactly when the element is there already. -/
theorem store_eq_self_iff (h : store a i x = .ok b) (hold : load a i = .ok y) :
    b = a ↔ x = y := by
  constructor
  · rintro rfl
    exact Except.ok.inj ((load_of_store h).symm.trans hold)
  · rintro rfl
    refine ext_load fun j => ?_
    by_cases hj : j = i
    · rw [hj, load_of_store h, hold]
    · exact load_of_store_ne h hj

/-- **An array filled from the front**: once `k` is written, too, it is filled below `k + 1`. -/
theorem update_filled (f g : Arr n α) (k : Fin n) :
    Function.update (fun m : Fin n => if m.val < k.val then f m else g m) k (f k) =
      fun m => if m.val < k.val + 1 then f m else g m := by
  funext m
  rw [Function.update_apply]
  by_cases hm : m = k
  · subst hm
    rw [if_pos rfl, if_pos (Nat.lt_succ_self _)]
  · have hlt : m.val < k.val + 1 ↔ m.val < k.val := by
      have := Fin.val_ne_of_ne hm
      omega
    simp only [if_neg hm, hlt]

end Stores

/-! ### Postconditions -/

/-- `x` ends in a result with `P` or in a fault with `E`. -/
def Ends (x : Except Fault α) (P : α → Prop) (E : Fault → Prop) : Prop :=
  match x with
  | .ok a => P a
  | .error e => E e

variable {x : Except Fault α} {P P' : α → Prop} {Q : β → Prop} {E E' : Fault → Prop}

theorem Ends.mono (h : Ends x P E) (hP : ∀ a, P a → P' a) (hE : ∀ e, E e → E' e) :
    Ends x P' E' := by
  cases x with
  | ok a => exact hP a h
  | error e => exact hE e h

/-- What is known of a result is known where it is used. -/
theorem Ends.with_eq (h : Ends x P E) : Ends x (fun a => x = .ok a ∧ P a) E := by
  cases x with
  | ok a => exact ⟨rfl, h⟩
  | error e => exact h

/-- A computation that cannot fault has a result. -/
theorem Ends.exists_ok (h : Ends x P fun _ => False) : ∃ a, x = .ok a ∧ P a := by
  cases x with
  | ok a => exact ⟨a, rfl, h⟩
  | error e => exact h.elim

/-- A sequence goes on from the results of its first part. -/
theorem Ends.bind {f : α → Except Fault β} (hx : Ends x P E) (hf : ∀ a, P a → Ends (f a) Q E) :
    Ends (x >>= f) Q E := by
  cases x with
  | ok a => exact hf a hx
  | error e => exact hx

/-- **A loop keeps what its body keeps.** -/
theorem Ends.foldlM {γ : Type*} {f : α → γ → Except Fault α} {l : List γ}
    (hf : ∀ a, ∀ i ∈ l, P a → Ends (f a i) P E) {a : α} (ha : P a) : Ends (l.foldlM f a) P E := by
  induction l generalizing a with
  | nil => exact ha
  | cons i l ih =>
      rw [List.foldlM_cons]
      exact (hf a i List.mem_cons_self ha).bind fun b hb =>
        ih (fun c j hj => hf c j (List.mem_cons_of_mem _ hj)) hb

/-- A loop over elements, each of which faults only as `E` says. -/
theorem Ends.mapM {γ : Type*} {f : γ → Except Fault α} {l : List γ}
    (hf : ∀ i ∈ l, Ends (f i) (fun _ => True) E) : Ends (l.mapM f) (fun _ => True) E := by
  induction l with
  | nil => trivial
  | cons i l ih =>
      rw [List.forall_mem_cons] at hf
      rw [List.mapM_cons]
      exact hf.1.bind fun _ _ => (ih hf.2).bind fun _ _ => trivial

/-- An access within bounds has a result. -/
theorem ends_load (a : Arr n α) {i : ℕ} (hi : i < n) : Ends (load a i) (fun _ => True) E := by
  rw [load_of_lt a hi]
  trivial

theorem ends_store (a : Arr n α) {i : ℕ} (hi : i < n) (b : α) :
    Ends (store a i b) (fun _ => True) E := by
  rw [store_of_lt a hi]
  trivial

end CArray
