/-
# Runs of a system that takes one input after another

A system is a step relation between states, with an input for every step, and a
set of initial states.  A `Run` is a finite run of it: its states and inputs are
indexed by the number of steps taken, and the fields `start` and `next` say that
it is one.  What every step preserves holds in every state of a run
(`Run.invariant`).

Where a step is a function that may fault, a list of inputs determines the run
(`runAll`).  It ends without a given kind of fault exactly when every step that
it comes to does (`runAll_safe_iff`).
-/

import Mathlib.Data.List.Basic
import Mathlib.Data.Nat.Init

namespace Runs

variable {S I : Type*}

/-- A run of `len` steps of `step` from a state in `init`. -/
structure Run (step : S → I → S → Prop) (init : S → Prop) where
  len : ℕ
  state : ℕ → S
  input : ℕ → I
  start : init (state 0)
  next : ∀ j < len, step (state j) (input j) (state (j + 1))

variable {step : S → I → S → Prop} {init : S → Prop}

/-- **What holds initially and is preserved by every step holds along the run.** -/
theorem Run.invariant (r : Run step init) {P : S → Prop} (h₀ : ∀ s, init s → P s)
    (hstep : ∀ s i s', step s i s' → P s → P s') : ∀ j ≤ r.len, P (r.state j) := by
  intro j hj
  induction j with
  | zero => exact h₀ _ r.start
  | succ j ih => exact hstep _ _ _ (r.next j hj) (ih (Nat.le_of_succ_le hj))

/-- What every step keeps is the same along the run. -/
theorem Run.constant {V : Type*} (r : Run step init) (f : S → V)
    (hstep : ∀ s i s', step s i s' → f s' = f s) : ∀ j ≤ r.len, f (r.state j) = f (r.state 0) := by
  intro j hj
  induction j with
  | zero => rfl
  | succ j ih => exact (hstep _ _ _ (r.next j hj)).trans (ih (Nat.le_of_succ_le hj))

/-- **A run that another system follows**: where every step of a run can be matched by a step of
the other system, from a state that corresponds and with an input given for it, the whole run
can. -/
theorem Run.follow {T J : Type*} {step' : T → J → T → Prop} {init' : T → Prop}
    (r : Run step init) {R : S → T → Prop} (inputs : ℕ → J) {t₀ : T} (ht₀ : init' t₀)
    (h₀ : R (r.state 0) t₀)
    (hstep : ∀ j < r.len, ∀ t, R (r.state j) t →
      ∃ t', step' t (inputs j) t' ∧ R (r.state (j + 1)) t') :
    ∃ r' : Run step' init', r'.len = r.len ∧ r'.state 0 = t₀ ∧ r'.input = inputs ∧
      ∀ j ≤ r.len, R (r.state j) (r'.state j) := by
  have hruns : ∀ n ≤ r.len, ∃ state : ℕ → T, state 0 = t₀ ∧
      (∀ j < n, step' (state j) (inputs j) (state (j + 1))) ∧ ∀ j ≤ n, R (r.state j) (state j) := by
    intro n hn
    induction n with
    | zero =>
        refine ⟨fun _ => t₀, rfl, nofun, fun j hj => ?_⟩
        rw [Nat.le_zero.1 hj]
        exact h₀
    | succ n ih =>
        obtain ⟨state, hstart, hnext, hrel⟩ := ih (Nat.le_of_succ_le hn)
        obtain ⟨t', ht', hR⟩ := hstep n hn (state n) (hrel n (Nat.le_refl n))
        -- the states so far, and the one that the matching step leads to
        refine ⟨fun j => if j ≤ n then state j else t', ?_, fun j hj => ?_, fun j hj => ?_⟩ <;>
          dsimp only
        · rw [if_pos (Nat.zero_le n)]
          exact hstart
        · rcases Nat.lt_succ_iff_lt_or_eq.1 hj with hlt | rfl
          · rw [if_pos (Nat.le_of_lt hlt), if_pos (Nat.succ_le_of_lt hlt)]
            exact hnext j hlt
          · rw [if_pos (Nat.le_refl j), if_neg (Nat.not_succ_le_self j)]
            exact ht'
        · rcases Nat.le_succ_iff.1 hj with hle | rfl
          · rw [if_pos hle]
            exact hrel j hle
          · rw [if_neg (Nat.not_succ_le_self n)]
            exact hR
  obtain ⟨state, hstart, hnext, hrel⟩ := hruns r.len (Nat.le_refl _)
  exact ⟨⟨r.len, state, inputs, hstart ▸ ht₀, hnext⟩, rfl, hstart, rfl, hrel⟩

/-- **Two runs in step**: a run that its own system follows, from the same state. -/
theorem Run.simulate (r : Run step init) {R : S → S → Prop} (inputs : ℕ → I)
    (h₀ : R (r.state 0) (r.state 0))
    (hstep : ∀ j < r.len, ∀ t, R (r.state j) t →
      ∃ t', step t (inputs j) t' ∧ R (r.state (j + 1)) t') :
    ∃ r' : Run step init, r'.len = r.len ∧ r'.state 0 = r.state 0 ∧ r'.input = inputs ∧
      ∀ j ≤ r.len, R (r.state j) (r'.state j) :=
  r.follow inputs r.start h₀ hstep

/-! ### Steps that may fault -/

variable {E : Type*}

/-- The state after all the inputs, or the first fault. -/
def runAll (f : I → S → Except E S) : List I → S → Except E S
  | [], s => .ok s
  | i :: is, s =>
      match f i s with
      | .ok s' => runAll f is s'
      | .error e => .error e

/-- `P` holds of every step that is taken, and of the one that faults. -/
def EveryStep (f : I → S → Except E S) (P : I → S → Prop) : List I → S → Prop
  | [], _ => True
  | i :: is, s => P i s ∧ ∀ s', f i s = .ok s' → EveryStep f P is s'

variable {f : I → S → Except E S} {is : List I} {s s' : S}

/-- **A run is safe exactly when its steps are**: where `P` says of a single step that
it ends in no fault of the kind `Bad`, no run does exactly when `P` holds of every
step. -/
theorem runAll_safe_iff {Bad : E → Prop} {P : I → S → Prop}
    (hP : ∀ i s, (∀ e, Bad e → f i s ≠ .error e) ↔ P i s) (is : List I) (s : S) :
    (∀ e, Bad e → runAll f is s ≠ .error e) ↔ EveryStep f P is s := by
  induction is generalizing s with
  | nil => simp [runAll, EveryStep]
  | cons i is ih =>
      rw [EveryStep, ← hP i s]
      cases hf : f i s with
      | error e => simp [runAll, hf]
      | ok s' => simp [runAll, hf, ih s']

/-- **What every step keeps holds at the end, and a fault is one of a step where it holds.** -/
theorem runAll_invariant {P : S → Prop} {Q : E → Prop}
    (hok : ∀ i s s', P s → f i s = .ok s' → P s') (herr : ∀ i s e, P s → f i s = .error e → Q e)
    (is : List I) (hs : P s) :
    (∀ s', runAll f is s = .ok s' → P s') ∧ ∀ e, runAll f is s = .error e → Q e := by
  induction is generalizing s with
  | nil =>
      constructor
      · intro s' h
        cases h
        exact hs
      · intro e h
        cases h
  | cons i is ih =>
      rw [runAll]
      cases hf : f i s with
      | ok t => exact ih (hok i s t hs hf)
      | error e =>
          constructor
          · intro s' h
            cases h
          · intro e' h
            cases h
            exact herr i s e hs hf

/-- **Two systems in step**: where every step of one that ends in no fault is matched by the
other, from states that correspond, so is a whole run. -/
theorem runAll_simulate {T : Type*} {g : I → T → Except E T} {R : S → T → Prop}
    (hstep : ∀ i s t s', R s t → f i s = .ok s' → ∃ t', g i t = .ok t' ∧ R s' t') {t : T}
    (hst : R s t) (h : runAll f is s = .ok s') : ∃ t', runAll g is t = .ok t' ∧ R s' t' := by
  induction is generalizing s t with
  | nil =>
      cases h
      exact ⟨t, rfl, hst⟩
  | cons i is ih =>
      rw [runAll] at h
      cases hf : f i s with
      | error e => simp [hf] at h
      | ok u =>
          rw [hf] at h
          obtain ⟨u', hu', hR⟩ := hstep i s t u hst hf
          rw [runAll, hu']
          exact ih hR h

/-- **A run that a history explains**: where every input shows something, and a step from a state
that is what a history makes of it leads to what the longer history makes, a run ends in what all
that it was shown makes. -/
theorem runAll_history {A : Type*} {Shows : A → I → Prop} {R : List A → S → Prop}
    (hstep : ∀ past a i s, Shows a i → R past s → ∃ s', f i s = .ok s' ∧ R (a :: past) s')
    {as past : List A} (h : List.Forall₂ Shows as is) (hs : R past s) :
    ∃ s', runAll f is s = .ok s' ∧ R (as.reverse ++ past) s' := by
  induction h generalizing past s with
  | nil => exact ⟨s, rfl, hs⟩
  | @cons a i as is ha _ ih =>
      obtain ⟨t, ht, hR⟩ := hstep past a i s ha hs
      obtain ⟨s', hs', hR'⟩ := ih hR
      rw [runAll, ht]
      refine ⟨s', hs', ?_⟩
      rw [List.reverse_cons, List.append_assoc]
      exact hR'

/-- What has run to the end has run to every step before. -/
theorem runAll_take (h : runAll f is s = .ok s') (j : ℕ) : ∃ t, runAll f (is.take j) s = .ok t := by
  induction is generalizing s j with
  | nil => exact ⟨s, by simp [runAll]⟩
  | cons i is ih =>
      cases j with
      | zero => exact ⟨s, rfl⟩
      | succ j =>
          rw [runAll] at h
          cases hf : f i s with
          | error e => simp [hf] at h
          | ok t =>
              rw [hf] at h
              obtain ⟨u, hu⟩ := ih h j
              exact ⟨u, by simpa [runAll, hf] using hu⟩

theorem runAll_append (is is' : List I) (s : S) :
    runAll f (is ++ is') s =
      match runAll f is s with
      | .ok t => runAll f is' t
      | .error e => .error e := by
  induction is generalizing s with
  | nil => rfl
  | cons i is ih =>
      rw [List.cons_append, runAll, runAll]
      cases f i s with
      | error e => rfl
      | ok t => exact ih t

/-- A run that ends with two inputs ends with their two steps. -/
theorem runAll_pair {i i' : I} (h : runAll f (is ++ [i, i']) s = .ok s') :
    ∃ t t', f i t = .ok t' ∧ f i' t' = .ok s' := by
  rw [runAll_append] at h
  cases hbefore : runAll f is s with
  | error e => simp [hbefore] at h
  | ok t =>
      simp only [hbefore, runAll] at h
      cases hfirst : f i t with
      | error e => simp [hfirst] at h
      | ok t' =>
          simp only [hfirst] at h
          cases hlast : f i' t' with
          | error e => simp [hlast] at h
          | ok u =>
              simp only [hlast, Except.ok.injEq] at h
              exact ⟨t, t', hfirst, h ▸ hlast⟩

/-- **The run of a list of inputs**: its states are the ones the inputs lead to. -/
theorem exists_run [Inhabited I] (h : runAll f is s = .ok s') (hs : init s) :
    ∃ r : Run (fun s i s' => f i s = .ok s') init, r.len = is.length ∧
      (∀ j, r.input j = is[j]?.getD default) ∧
      ∀ j, runAll f (is.take j) s = .ok (r.state j) := by
  choose state hstate using runAll_take h
  have h0 : state 0 = s := by simpa [runAll] using (hstate 0).symm
  refine ⟨⟨is.length, state, fun j => is[j]?.getD default, h0 ▸ hs, fun j hj => ?_⟩, rfl,
    fun _ => rfl, hstate⟩
  have hnext := hstate (j + 1)
  rw [List.take_add_one, List.getElem?_eq_getElem hj, Option.toList_some, runAll_append, hstate j]
    at hnext
  simp only [List.getElem?_eq_getElem hj, Option.getD_some]
  simp only [runAll] at hnext
  cases hf : f is[j] (state j) with
  | error e => simp [hf] at hnext
  | ok t =>
      rw [hf] at hnext
      simpa using hnext

end Runs
