/-
# Lists up to their order

Two lists are the same up to their order and a relation when they are so as multisets
(`UpToOrder`).  Maps and filters that respect the relation keep this, and so does the lookup
of a key that is unique (`UpToOrder.find?`): a program that finds its records by key and
adds up what they hold does not see in which order it got them.
-/

import Mathlib.Data.Multiset.Filter

namespace Reordered

variable {α β γ δ κ : Type*} {R : α → β → Prop} {l : List α} {l' : List β}

/-- What corresponds to something is something. -/
theorem exists_of_rel_some {a : α} {y : Option β} (h : (some a).Rel R y) :
    ∃ b, y = some b ∧ R a b := by
  cases h with
  | some hab => exact ⟨_, rfl, hab⟩

theorem eq_none_of_rel_none {y : Option β} (h : (none : Option α).Rel R y) : y = none := by
  cases h
  rfl

/-- Of two lists that correspond position by position, the first elements with a property that
they share correspond. -/
theorem rel_find? {p : α → Bool} {q : β → Bool} (h : List.Forall₂ R l l')
    (hpq : ∀ a b, R a b → p a = q b) : (l.find? p).Rel R (l'.find? q) := by
  induction h with
  | nil => exact .none
  | @cons a b l l' hab _ ih =>
      rw [List.find?_cons, List.find?_cons, hpq a b hab]
      cases q b with
      | true => exact .some hab
      | false => exact ih

/-- What corresponds position by position to something that does so to a third list corresponds
to that list. -/
theorem forall₂_comp {S : β → γ → Prop} {T : α → γ → Prop} {l'' : List γ}
    (h : List.Forall₂ R l l') (h' : List.Forall₂ S l' l'')
    (hcomp : ∀ a b x, R a b → S b x → T a x) : List.Forall₂ T l l'' := by
  induction h generalizing l'' with
  | nil =>
      cases h'
      exact .nil
  | cons hab _ ih =>
      cases h' with
      | cons hbx hrest => exact .cons (hcomp _ _ _ hab hbx) (ih hrest)

/-- The elements of two lists correspond, in whatever order. -/
abbrev UpToOrder (R : α → β → Prop) (l : List α) (l' : List β) : Prop :=
  Multiset.Rel R (l : Multiset α) (l' : Multiset β)

/-- Elements that correspond position by position do so. -/
theorem UpToOrder.of_forall₂ (h : List.Forall₂ R l l') : UpToOrder R l l' := by
  induction h with
  | nil => exact .zero
  | cons hab _ ih => exact .cons hab ih

theorem UpToOrder.of_perm {l l' : List α} (h : l.Perm l') : UpToOrder (· = ·) l l' :=
  Multiset.rel_eq.2 (Multiset.coe_eq_coe.2 h)

theorem UpToOrder.length_eq (h : UpToOrder R l l') : l.length = l'.length :=
  Multiset.card_eq_card_of_rel h

theorem UpToOrder.symm (h : UpToOrder R l l') : UpToOrder (flip R) l' l :=
  Multiset.rel_flip.2 h

theorem UpToOrder.exists_right (h : UpToOrder R l l') {a : α} (ha : a ∈ l) : ∃ b ∈ l', R a b :=
  Multiset.exists_mem_of_rel_of_mem h (Multiset.mem_coe.2 ha)

theorem UpToOrder.exists_left (h : UpToOrder R l l') {b : β} (hb : b ∈ l') : ∃ a ∈ l, R a b :=
  h.symm.exists_right hb

/-- Correspondences compose. -/
theorem UpToOrder.comp {S : β → γ → Prop} {l'' : List γ} (h : UpToOrder R l l')
    (h' : UpToOrder S l' l'') : UpToOrder (Relation.Comp R S) l l'' := by
  have hcomp (s : Multiset α) (t : Multiset β) (hst : s.Rel R t) :
      ∀ u : Multiset γ, t.Rel S u → s.Rel (Relation.Comp R S) u := by
    induction hst with
    | zero =>
        intro u hu
        rw [Multiset.rel_zero_left] at hu
        rw [hu]
        exact .zero
    | cons hab _ ih =>
        intro u hu
        obtain ⟨c, u, hbc, hrest, rfl⟩ := Multiset.rel_cons_left.1 hu
        exact .cons ⟨_, hab, hbc⟩ (ih u hrest)
  exact hcomp _ _ h _ h'

theorem UpToOrder.map {S : γ → δ → Prop} {f : α → γ} {g : β → δ} (h : UpToOrder R l l')
    (hfg : ∀ a ∈ l, ∀ b ∈ l', R a b → S (f a) (g b)) : UpToOrder S (l.map f) (l'.map g) :=
  Multiset.rel_map.2 (h.mono hfg)

/-- **What a filter makes of two such lists corresponds again**, where it drops and keeps
elements that correspond alike. -/
theorem UpToOrder.filterMap {S : γ → δ → Prop} {f : α → Option γ} {g : β → Option δ}
    (h : UpToOrder R l l') (hfg : ∀ a ∈ l, ∀ b ∈ l', R a b → (f a).Rel S (g b)) :
    UpToOrder S (l.filterMap f) (l'.filterMap g) := by
  have hrel (s : Multiset α) (t : Multiset β)
      (hst : s.Rel (fun a b => (f a).Rel S (g b)) t) :
      (s.filterMap f).Rel S (t.filterMap g) := by
    induction hst with
    | zero => exact .zero
    | @cons a b s t hab _ ih =>
        cases hf : f a with
        | none =>
            rw [hf] at hab
            have hg := eq_none_of_rel_none hab
            rwa [Multiset.filterMap_cons_none _ _ hf, Multiset.filterMap_cons_none _ _ hg]
        | some c =>
            rw [hf] at hab
            obtain ⟨d, hg, hcd⟩ := exists_of_rel_some hab
            rw [Multiset.filterMap_cons_some _ _ _ hf, Multiset.filterMap_cons_some _ _ _ hg]
            exact .cons hcd ih
  exact hrel _ _ (h.mono hfg)

theorem UpToOrder.filter {p : α → Bool} {q : β → Bool} (h : UpToOrder R l l')
    (hpq : ∀ a ∈ l, ∀ b ∈ l', R a b → p a = q b) : UpToOrder R (l.filter p) (l'.filter q) := by
  rw [← List.filterMap_eq_filter, ← List.filterMap_eq_filter]
  refine h.filterMap fun a ha b hb hab => ?_
  have hp := hpq a ha b hb hab
  cases hq : q b with
  | true =>
      rw [Option.guard, Option.guard, hp, hq]
      exact .some hab
  | false =>
      rw [Option.guard, Option.guard, hp, hq]
      exact .none

/-- **A lookup by a key that is unique finds elements that correspond.** -/
theorem UpToOrder.find? [DecidableEq κ] {key : α → κ} {key' : β → κ} (h : UpToOrder R l l')
    (hkey : ∀ a b, R a b → key' b = key a) (hnodup : (l.map key).Nodup) (k : κ) :
    (l.find? fun a => key a = k).Rel R (l'.find? fun b => key' b = k) := by
  cases hfind : l.find? fun a => key a = k with
  | none =>
      have hnone : (l'.find? fun b => key' b = k) = none := by
        rw [List.find?_eq_none] at hfind ⊢
        intro b hb
        obtain ⟨a, ha, hab⟩ := h.exists_left hb
        rw [hkey a b hab]
        exact hfind a ha
      rw [hnone]
      exact .none
  | some a =>
      have ha := List.mem_of_find?_eq_some hfind
      have hak : key a = k := by simpa using List.find?_some hfind
      obtain ⟨b, hb, hab⟩ := h.exists_right ha
      have hsome : (l'.find? fun b => key' b = k).isSome := by
        rw [List.find?_isSome]
        exact ⟨b, hb, by rw [hkey a b hab, hak]; exact decide_eq_true rfl⟩
      obtain ⟨b', hfind'⟩ := Option.isSome_iff_exists.1 hsome
      have hbk : key' b' = k := by simpa using List.find?_some hfind'
      obtain ⟨a', ha', hab'⟩ := h.exists_left (List.mem_of_find?_eq_some hfind')
      have heq : a' = a :=
        List.inj_on_of_nodup_map hnodup ha' ha (by rw [← hkey a' b' hab', hbk, hak])
      rw [hfind', ← heq]
      exact .some hab'

/-- A lookup by a unique key does not see the order. -/
theorem find?_eq_of_perm [DecidableEq κ] {key : α → κ} {l l' : List α} (h : l.Perm l')
    (hnodup : (l.map key).Nodup) (k : κ) :
    (l.find? fun a => key a = k) = l'.find? fun a => key a = k := by
  have hrel : (l.find? fun a => key a = k).Rel (· = ·) (l'.find? fun a => key a = k) :=
    (UpToOrder.of_perm h).find? (fun _ _ hab => congrArg key hab.symm) hnodup k
  cases hfind : l.find? fun a => key a = k with
  | none =>
      rw [hfind] at hrel
      exact (eq_none_of_rel_none hrel).symm
  | some a =>
      rw [hfind] at hrel
      obtain ⟨_, hfind', rfl⟩ := exists_of_rel_some hrel
      exact hfind'.symm

end Reordered
