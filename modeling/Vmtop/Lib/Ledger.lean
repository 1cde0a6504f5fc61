/-
# A ledger of what a program holds

A program in C opens files and allocates memory, and has to give all of it back.  A
ledger keeps, for every kind of thing, the handles that are held.  `acquire` enters a handle
that was never given out before, and `release` strikes one out; to release a handle that is
not held is undefined in C, and the fault `badPointer` here.  So a program that ends in no
fault has released nothing twice, and what it has not released is in the ledger.

`Follows L x y R` says that the program `x`, which keeps a ledger, does from `L` what the
program `y` does that keeps none, and how their results and the ledger behind are related.
A program is `Balanced` when it returns what the other returns and holds then what it held
before; `Grown` says for the others what they keep, and how much is lost.
-/

import Mathlib.Data.Finset.Card
import Mathlib.Data.List.Nodup
import Vmtop.Lib.CArray

namespace Ledgers

open CArray

variable {K α β γ δ : Type} {k k' : K} {h h' : ℕ}

/-- What is held: for every kind the handles, and the next one to be given out. -/
structure Ledger (K : Type) where
  held : K → Finset ℕ
  next : ℕ
  lt_next : ∀ k, ∀ h ∈ held k, h < next

namespace Ledger

variable {L : Ledger K}

/-- Nothing is held. -/
def empty : Ledger K := ⟨fun _ => ∅, 0, fun _ _ h => absurd h (Finset.notMem_empty _)⟩

/-- A new handle is not held yet. -/
theorem next_notMem (L : Ledger K) (k : K) : L.next ∉ L.held k := fun h =>
  absurd (L.lt_next k _ h) (lt_irrefl _)

variable [DecidableEq K]

/-- A new handle of the kind `k` is held. -/
def enter (L : Ledger K) (k : K) : Ledger K where
  held := Function.update L.held k (insert L.next (L.held k))
  next := L.next + 1
  lt_next k' h hh := by
    by_cases hk : k' = k
    · subst hk
      rw [Function.update_self, Finset.mem_insert] at hh
      rcases hh with rfl | hh
      · exact Nat.lt_succ_self _
      · exact Nat.lt_succ_of_lt (L.lt_next _ h hh)
    · rw [Function.update_of_ne hk] at hh
      exact Nat.lt_succ_of_lt (L.lt_next _ h hh)

/-- The handle `h` is held no more. -/
def strike (L : Ledger K) (k : K) (h : ℕ) : Ledger K where
  held := Function.update L.held k ((L.held k).erase h)
  next := L.next
  lt_next k' h' hh := by
    by_cases hk : k' = k
    · subst hk
      rw [Function.update_self] at hh
      exact L.lt_next _ h' (Finset.mem_of_mem_erase hh)
    · rw [Function.update_of_ne hk] at hh
      exact L.lt_next _ h' hh

theorem mem_enter : h ∈ (L.enter k).held k' ↔ h ∈ L.held k' ∨ k' = k ∧ h = L.next := by
  by_cases hk : k' = k
  · subst hk
    simp only [enter, Function.update_self, Finset.mem_insert, true_and]
    exact or_comm
  · simp only [enter, Function.update_of_ne hk, hk, false_and, or_false]

theorem mem_strike : h' ∈ (L.strike k h).held k' ↔ h' ∈ L.held k' ∧ ¬ (k' = k ∧ h' = h) := by
  by_cases hk : k' = k
  · subst hk
    simp only [strike, Function.update_self, Finset.mem_erase, true_and]
    exact and_comm
  · simp only [strike, Function.update_of_ne hk, hk, false_and, not_false_iff, and_true]

/-- What was entered and is struck out leaves no trace. -/
theorem held_strike_enter (L : Ledger K) (k : K) : ((L.enter k).strike k L.next).held = L.held := by
  funext k'
  ext h
  rw [mem_strike, mem_enter]
  have := L.next_notMem k'
  constructor
  · rintro ⟨hold | hnew, hne⟩
    · exact hold
    · exact absurd hnew hne
  · intro hold
    refine ⟨Or.inl hold, ?_⟩
    rintro ⟨-, rfl⟩
    exact this hold

end Ledger

/-! ### Programs -/

/-- A program that keeps a ledger, and may fault. -/
abbrev Prog (K α : Type) := StateT (Ledger K) (Except Fault) α

/-- Opening or allocating something of the kind `k`. -/
def acquire [DecidableEq K] (k : K) : Prog K ℕ := fun L => .ok (L.next, L.enter k)

/-- Closing or freeing it. -/
def release [DecidableEq K] (k : K) (h : ℕ) : Prog K Unit := fun L =>
  if h ∈ L.held k then .ok ((), L.strike k h) else .error .badPointer

/-- Releasing every handle of a list. -/
def releaseAll [DecidableEq K] (k : K) : List ℕ → Prog K Unit
  | [] => pure ()
  | h :: hs => do
      release k h
      releaseAll k hs

/-- A computation that leaves the ledger alone. -/
def plain (x : Except Fault α) : Prog K α := fun L => x.map fun a => (a, L)

/-! ### What a program does -/

/-- From the ledger `L` the program `x` does what `y` does: it faults where `y` faults, and else
`R` relates its result, that of `y`, and the ledger behind. -/
def Follows (L : Ledger K) (x : Prog K β) (y : Except Fault α) (R : β → α → Ledger K → Prop) :
    Prop :=
  match y with
  | .error e => x L = .error e
  | .ok a => ∃ b L', x L = .ok (b, L') ∧ R b a L'

theorem bind_run {x : Prog K α} {f : α → Prog K β} {L L' : Ledger K} {a : α}
    (hx : x L = .ok (a, L')) : (x >>= f) L = f a L' := by
  change (x L >>= fun p => f p.1 p.2) = _
  rw [hx]
  rfl

theorem bind_error {x : Prog K α} {f : α → Prog K β} {L : Ledger K} {e : Fault}
    (hx : x L = .error e) : (x >>= f) L = .error e := by
  change (x L >>= fun p => f p.1 p.2) = _
  rw [hx]
  rfl

theorem plain_bind (a : α) (f : α → Prog K β) : (plain (.ok a) >>= f) = f a := rfl

section Follows

variable {L L₁ : Ledger K} {x x' : Prog K β} {y : Except Fault α}
  {R R' : β → α → Ledger K → Prop} {S : δ → γ → Ledger K → Prop}

/-- A program is followed from where it has come to. -/
theorem Follows.of_run (hx : Follows L₁ x' y R) (hrun : x L = x' L₁) : Follows L x y R := by
  unfold Follows at hx ⊢
  rw [hrun]
  exact hx

theorem Follows.mono (hx : Follows L x y R) (hR : ∀ b a L', R b a L' → R' b a L') :
    Follows L x y R' := by
  cases y with
  | error e => exact hx
  | ok a =>
      obtain ⟨b, L', hx, h⟩ := hx
      exact ⟨b, L', hx, hR b a L' h⟩

/-- A sequence goes on from the results and the ledger of its first part. -/
theorem Follows.bind {f : β → Prog K δ} {g : α → Except Fault γ} (hx : Follows L x y R)
    (hf : ∀ b a L', R b a L' → Follows L' (f b) (g a) S) : Follows L (x >>= f) (y >>= g) S := by
  cases y with
  | error e => exact bind_error hx
  | ok a =>
      obtain ⟨b, L', hx, h⟩ := hx
      exact (hf b a L' h).of_run (bind_run hx)

theorem Follows.pure {b : β} {a : α} (h : R b a L) : Follows L (Pure.pure b) (.ok a) R :=
  ⟨b, L, rfl, h⟩

theorem follows_plain {R : α → α → Ledger K → Prop} (h : ∀ a, R a a L) :
    Follows L (plain y) y R := by
  cases y with
  | error e => rfl
  | ok a => exact ⟨a, L, rfl, h a⟩

variable [DecidableEq K]

theorem Follows.acquire {f : ℕ → Prog K β} (hf : Follows (L.enter k) (f L.next) y R) :
    Follows L (Ledgers.acquire k >>= f) y R :=
  hf.of_run (bind_run rfl)

theorem Follows.release {f : Unit → Prog K β} (hh : h ∈ L.held k)
    (hf : Follows (L.strike k h) (f ()) y R) : Follows L (Ledgers.release k h >>= f) y R :=
  hf.of_run (bind_run (if_pos hh))

/-- **All the handles of a list are released**, when they are held and none stands in it twice. -/
theorem releaseAll_run {hs : List ℕ} (hnodup : hs.Nodup) (hheld : ∀ h ∈ hs, h ∈ L.held k) :
    ∃ L', releaseAll k hs L = .ok ((), L') ∧
      ∀ k' h, h ∈ L'.held k' ↔ h ∈ L.held k' ∧ ¬ (k' = k ∧ h ∈ hs) := by
  induction hs generalizing L with
  | nil => exact ⟨L, rfl, by simp⟩
  | cons h hs ih =>
      rw [List.nodup_cons] at hnodup
      rw [List.forall_mem_cons] at hheld
      obtain ⟨L', hrun, hL'⟩ := ih (L := L.strike k h) hnodup.2 fun h' hh' =>
        Ledger.mem_strike.2 ⟨hheld.2 h' hh', fun heq => hnodup.1 (heq.2 ▸ hh')⟩
      refine ⟨L', (bind_run (if_pos hheld.1)).trans hrun, fun k' h' => ?_⟩
      rw [hL', Ledger.mem_strike, List.mem_cons]
      tauto

end Follows

/-! ### Balanced programs -/

/-- `x` does what `y` does, and holds behind it what it held before. -/
def Balanced (x : Prog K α) (y : Except Fault α) : Prop :=
  ∀ L, Follows L x y fun b a L' => b = a ∧ L'.held = L.held

section Balanced

variable {x : Prog K α} {y : Except Fault α} {z : Except Fault β} {v : α} {L : Ledger K}
  {R : β → γ → Ledger K → Prop}

theorem Balanced.pure (v : α) : Balanced (K := K) (Pure.pure v) (.ok v) := fun _ =>
  Follows.pure ⟨rfl, rfl⟩

theorem balanced_plain (y : Except Fault α) : Balanced (K := K) (plain y) y := fun _ =>
  follows_plain fun _ => ⟨rfl, rfl⟩

/-- Behind a balanced part the same is held. -/
theorem Balanced.follows {f : α → Prog K β} {g : α → Except Fault γ} (hx : Balanced x y)
    (hf : ∀ a L', L'.held = L.held → Follows L' (f a) (g a) R) :
    Follows L (x >>= f) (y >>= g) R :=
  (hx L).bind fun b a L' hR => by
    obtain ⟨rfl, hheld⟩ := hR
    exact hf b L' hheld

theorem Balanced.bind {f : α → Prog K β} {g : α → Except Fault β} (hx : Balanced x y)
    (hf : ∀ a, y = .ok a → Balanced (f a) (g a)) : Balanced (x >>= f) (y >>= g) := fun L => by
  cases y with
  | error e => exact bind_error (hx L)
  | ok a =>
      obtain ⟨b, L', hrun, rfl, hheld⟩ := hx L
      exact ((hf b rfl L').mono fun _ _ _ h => ⟨h.1, h.2.trans hheld⟩).of_run (bind_run hrun)

/-- A balanced part whose result is known. -/
theorem Balanced.then_follows {f : α → Prog K β} {z : Except Fault γ} (hx : Balanced x (.ok v))
    (hf : ∀ L', L'.held = L.held → Follows L' (f v) z R) : Follows L (x >>= f) z R := by
  obtain ⟨b, L', hrun, rfl, hheld⟩ := hx L
  exact (hf L' hheld).of_run (bind_run hrun)

theorem Balanced.seq {f : α → Prog K β} (hx : Balanced x (.ok v)) (hf : Balanced (f v) z) :
    Balanced (x >>= f) z := fun _ =>
  hx.then_follows fun L' hheld => (hf L').mono fun _ _ _ h => ⟨h.1, h.2.trans hheld⟩

/-- A loop of turns that are balanced where `P` holds, and keep it. -/
theorem Balanced.foldlM {f : α → β → Prog K α} {g : α → β → Except Fault α} {P : α → Prop}
    (hf : ∀ a i, P a → Balanced (f a i) (g a i)) (hP : ∀ a i b, P a → g a i = .ok b → P b)
    (l : List β) {a : α} (ha : P a) : Balanced (l.foldlM f a) (l.foldlM g a) := by
  induction l generalizing a with
  | nil => exact .pure a
  | cons i l ih =>
      rw [List.foldlM_cons, List.foldlM_cons]
      exact (hf a i ha).bind fun b hb => ih (hP a i b ha hb)

variable [DecidableEq K]

/-- **What is opened and closed again leaves nothing.** -/
theorem balanced_released (k : K) (v : α) :
    Balanced (do
      let h ← acquire k
      release k h
      pure v) (.ok v) := fun L =>
  Follows.acquire <| Follows.release (Ledger.mem_enter.2 (Or.inr ⟨rfl, rfl⟩)) <|
    Follows.pure ⟨rfl, L.held_strike_enter k⟩

end Balanced

/-! ### What a program keeps -/

/-- Behind `L` the handles `kept k` are held, too, and `lost k` more, which nothing names. -/
structure Grown (kept : K → List ℕ) (lost : K → ℕ) (L L' : Ledger K) : Prop where
  grows : ∀ k, ∃ gone : List ℕ, gone.length = lost k ∧ (kept k ++ gone).Nodup ∧
    (∀ h ∈ kept k ++ gone, h ∉ L.held k) ∧
    ∀ h, h ∈ L'.held k ↔ h ∈ L.held k ∨ h ∈ kept k ++ gone

section Grown

variable {kept kept' : K → List ℕ} {lost lost' : K → ℕ} {L L₁ L' : Ledger K}

theorem Grown.of_held_eq (h : L'.held = L.held) : Grown (fun _ => []) (fun _ => 0) L L' where
  grows k := ⟨[], rfl, List.nodup_nil, by simp, by simp [h]⟩

/-- **Nothing is kept and nothing lost exactly when the same is held.** -/
theorem Grown.held_eq_iff (h : Grown kept lost L L') :
    L'.held k = L.held k ↔ kept k = [] ∧ lost k = 0 := by
  obtain ⟨gone, hlength, -, hnew, hheld⟩ := h.grows k
  rw [← hlength, List.length_eq_zero_iff, ← List.append_eq_nil_iff]
  constructor
  · intro heq
    refine List.eq_nil_iff_forall_not_mem.2 fun h hh => hnew h hh ?_
    rw [← heq]
    exact (hheld h).2 (Or.inr hh)
  · intro hnil
    ext h
    rw [hheld, hnil]
    simp

/-- What one part keeps, and then another. -/
theorem Grown.trans (h₁ : Grown kept lost L L₁) (h₂ : Grown kept' lost' L₁ L') :
    Grown (fun k => kept k ++ kept' k) (fun k => lost k + lost' k) L L' where
  grows k := by
    obtain ⟨gone, hlength, hnodup, hnew, hheld⟩ := h₁.grows k
    obtain ⟨gone', hlength', hnodup', hnew', hheld'⟩ := h₂.grows k
    have hperm : ((kept k ++ gone) ++ (kept' k ++ gone')).Perm
        ((kept k ++ kept' k) ++ (gone ++ gone')) := by
      rw [List.append_assoc, List.append_assoc]
      exact (List.perm_append_comm_assoc gone (kept' k) gone').append_left _
    have hmem (h : ℕ) : h ∈ (kept k ++ kept' k) ++ (gone ++ gone') ↔
        h ∈ kept k ++ gone ∨ h ∈ kept' k ++ gone' := by
      rw [← hperm.mem_iff, List.mem_append]
    refine ⟨gone ++ gone', by simp [hlength, hlength'], hperm.nodup_iff.1 ?_, fun h hh => ?_,
      fun h => ?_⟩
    · refine List.nodup_append.2 ⟨hnodup, hnodup', ?_⟩
      rintro h hh _ hh' rfl
      exact hnew' h hh' ((hheld h).2 (Or.inr hh))
    · rcases (hmem h).1 hh with hh | hh
      · exact hnew h hh
      · exact fun hold => hnew' h hh ((hheld h).2 (Or.inl hold))
    · rw [hheld', hheld, hmem]
      exact or_assoc

/-- What is kept and not named any more is lost. -/
theorem Grown.lose (h : Grown kept lost L L') :
    Grown (fun _ => []) (fun k => lost k + (kept k).length) L L' where
  grows k := by
    obtain ⟨gone, hlength, hnodup, hnew, hheld⟩ := h.grows k
    refine ⟨kept k ++ gone, ?_, hnodup, hnew, hheld⟩
    rw [List.length_append, hlength]
    exact Nat.add_comm _ _

variable [DecidableEq K]

/-- A new handle is kept. -/
theorem grown_enter (L : Ledger K) (k : K) :
    Grown (fun k' => if k' = k then [L.next] else []) (fun _ => 0) L (L.enter k) where
  grows k' := by
    refine ⟨[], rfl, ?_, fun h hh => ?_, fun h => ?_⟩
    · split_ifs <;> simp
    · split_ifs at hh with hk
      · rw [List.append_nil, List.mem_singleton] at hh
        exact hh ▸ L.next_notMem k'
      · cases hh
    · rw [Ledger.mem_enter]
      split_ifs with hk <;> simp [hk]

/-- What was kept of one kind is all given back. -/
theorem Grown.releaseAll {hs : List ℕ}
    (hg : Grown (fun k' => if k' = k then hs else []) (fun _ => 0) L L') :
    ∃ L'', Ledgers.releaseAll k hs L' = .ok ((), L'') ∧ L''.held = L.held := by
  have hgrows (k' : K) : (if k' = k then hs else []).Nodup ∧
      (∀ h ∈ if k' = k then hs else [], h ∉ L.held k') ∧
      ∀ h, h ∈ L'.held k' ↔ h ∈ L.held k' ∨ h ∈ if k' = k then hs else [] := by
    obtain ⟨gone, hlength, hall⟩ := hg.grows k'
    rw [List.eq_nil_of_length_eq_zero hlength, List.append_nil] at hall
    exact hall
  obtain ⟨hnodup, -, hheld⟩ := hgrows k
  rw [if_pos rfl] at hnodup
  simp only [if_true] at hheld
  obtain ⟨L'', hrun, hL''⟩ := releaseAll_run hnodup fun h hh => (hheld h).2 (Or.inr hh)
  refine ⟨L'', hrun, ?_⟩
  funext k'
  ext h
  obtain ⟨-, hnew, hheld'⟩ := hgrows k'
  rw [hL'', hheld']
  by_cases hk : k' = k
  · simp only [hk, if_true, true_and] at hnew ⊢
    have := hnew h
    tauto
  · simp [hk]

/-- A handle that was held before may be released behind. -/
theorem Grown.strike (hg : Grown kept lost L L') (hh : h ∈ L.held k) :
    h ∈ L'.held k ∧ Grown kept lost (L.strike k h) (L'.strike k h) := by
  constructor
  · obtain ⟨_, -, -, -, hheld⟩ := hg.grows k
    exact (hheld h).2 (Or.inl hh)
  · constructor
    intro k'
    obtain ⟨gone, hlength, hnodup, hnew, hheld⟩ := hg.grows k'
    refine ⟨gone, hlength, hnodup, fun h' hh' hold => ?_, fun h' => ?_⟩
    · exact hnew h' hh' (Ledger.mem_strike.1 hold).1
    · rw [Ledger.mem_strike, Ledger.mem_strike, hheld]
      have hne : h' ∈ kept k' ++ gone → ¬ (k' = k ∧ h' = h) := by
        rintro hmem ⟨rfl, rfl⟩
        exact hnew h' hmem hh
      tauto

end Grown

end Ledgers
