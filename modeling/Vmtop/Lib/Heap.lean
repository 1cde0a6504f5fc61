/-
# A heap of arrays

What a program in C allocates is an array of cells behind an address.  A cell holds nothing
until it is written, an address is never given out twice, and each of the four ways to misuse
memory is a fault of its own: a null pointer, an address behind which no array is alive (any
more), a subscript past the end, and a cell that was never written.  A program that ends in
none of them has used its memory well.

`Holds h F` says exactly what is alive in a heap: the arrays of the footprint `F` and no other.
`Does F x y R` says that the program `x` on such a heap does what `y` does that works on values,
how their results are related, and which arrays are alive behind; there is one rule for each
operation, and one for a sequence.  The footprint is a multiset, so nothing depends on
the order in which arrays are named, and an array in it can alias no other.
-/

import Mathlib.Algebra.Order.Group.Multiset
import Mathlib.Data.List.Basic
import Mathlib.Data.Multiset.UnionInter
import Vmtop.Lib.CArray

namespace Heaps

variable {V E α β γ δ : Type}

/-- The cells of an array; one that was never written is `none`. -/
abbrev Cells (V : Type) := List (Option V)

/-- The arrays that are alive, and the next address to be given out. -/
structure Heap (V : Type) where
  block : ℕ → Option (Cells V)
  next : ℕ
  fresh : ∀ a, next ≤ a → block a = none

/-- The ways to misuse memory. -/
inductive Misuse
  | nullPointer
  | deadPointer
  | outOfBounds
  | uninitialised
  deriving DecidableEq, Repr

/-- How a program may fault: by misusing memory, or in its own way. -/
inductive Error (E : Type)
  | memory (m : Misuse)
  | own (e : E)

/-- A program on a heap. -/
abbrev Prog (V E α : Type) := StateT (Heap V) (Except (Error E)) α

namespace Heap

/-- Nothing is alive. -/
def empty : Heap V := ⟨fun _ => none, 0, fun _ _ => rfl⟩

/-- The array behind `a` has the cells `w`, or is not alive any more; `a` has been given out. -/
def put (h : Heap V) (a : ℕ) (ha : a < h.next) (w : Option (Cells V)) : Heap V where
  block := Function.update h.block a w
  next := h.next
  fresh b hb := by
    rw [Function.update_of_ne (by omega : b ≠ a)]
    exact h.fresh b hb

/-- A new array with the cells `w`. -/
def push (h : Heap V) (w : Cells V) : Heap V where
  block := Function.update h.block h.next (some w)
  next := h.next + 1
  fresh b hb := by
    rw [Function.update_of_ne (by omega : b ≠ h.next)]
    exact h.fresh b (by omega)

/-- What is alive has been given out. -/
theorem lt_next {h : Heap V} {a : ℕ} {w : Cells V} (ha : h.block a = some w) : a < h.next := by
  by_contra hle
  rw [h.fresh a (Nat.le_of_not_lt hle)] at ha
  cases ha

end Heap

/-! ### Operations -/

/-- The array that a pointer points to. -/
def block (p : Option ℕ) (h : Heap V) : Except (Error E) {b : ℕ × Cells V // b.1 < h.next} :=
  match p with
  | none => .error (.memory .nullPointer)
  | some a =>
      match ha : h.block a with
      | none => .error (.memory .deadPointer)
      | some w => .ok ⟨(a, w), Heap.lt_next ha⟩

/-- `malloc`, of an array of `n` elements. -/
def alloc (n : ℕ) : Prog V E ℕ := fun h => .ok (h.next, h.push (List.replicate n none))

/-- `free`, which does nothing to a null pointer. -/
def free (p : Option ℕ) : Prog V E Unit := fun h =>
  if p.isNone then .ok ((), h)
  else do
    let b ← block p h
    .ok ((), h.put b.1.1 b.2 none)

/-- `p[i]` as a value. -/
def read (p : Option ℕ) (i : ℕ) : Prog V E V := fun h => do
  let b ← block p h
  match b.1.2[i]? with
  | none => .error (.memory .outOfBounds)
  | some none => .error (.memory .uninitialised)
  | some (some v) => .ok (v, h)

/-- `p[i] = v`. -/
def write (p : Option ℕ) (i : ℕ) (v : V) : Prog V E Unit := fun h => do
  let b ← block p h
  if i < b.1.2.length then .ok ((), h.put b.1.1 b.2 (some (b.1.2.set i (some v))))
  else .error (.memory .outOfBounds)

/-- A computation that leaves the memory alone. -/
def plain (x : Except E α) : Prog V E α := fun h =>
  match x with
  | .error e => .error (.own e)
  | .ok a => .ok (a, h)

/-- `memcpy`, of the elements with the given subscripts. -/
def copy (dst src : Option ℕ) : List ℕ → Prog V E Unit
  | [] => pure ()
  | i :: rest => do
      let v ← read src i
      write dst i v
      copy dst src rest

/-- `memset`, of the elements with the given subscripts. -/
def fill (dst : Option ℕ) (v : V) : List ℕ → Prog V E Unit
  | [] => pure ()
  | i :: rest => do
      write dst i v
      fill dst v rest

/-- A loop that looks for the first of the elements with the given subscripts that satisfies
`p`; its result is the subscript.  It looks at nothing behind a null pointer. -/
def search (p : V → Bool) (src : Option ℕ) : List ℕ → Prog V E (Option ℕ)
  | [] => pure none
  | i :: rest =>
      match src with
      | none => search p none rest
      | some a => do
          let v ← read (some a) i
          if p v then pure (some i) else search p (some a) rest

/-! ### What is alive -/

/-- The arrays that are alive, with their addresses. -/
abbrev Footprint (V : Type) := Multiset (ℕ × Cells V)

/-- The arrays of `F` are alive in `h`, each once, and no other is. -/
structure Holds (h : Heap V) (F : Footprint V) : Prop where
  nodup : (F.map Prod.fst).Nodup
  block_iff : ∀ a w, h.block a = some w ↔ (a, w) ∈ F

section Holds

variable {h : Heap V} {F : Footprint V} {a i n : ℕ} {w : Cells V} {v : V}

theorem holds_empty : Holds (V := V) .empty 0 where
  nodup := Multiset.nodup_zero
  block_iff a w := by simp [Heap.empty]

/-- The array behind a pointer of the footprint. -/
theorem Holds.block_eq (hF : Holds h F) (hmem : (a, w) ∈ F) :
    ∃ ha, block (E := E) (some a) h = .ok ⟨(a, w), ha⟩ := by
  have hblock := (hF.block_iff a w).2 hmem
  refine ⟨Heap.lt_next hblock, ?_⟩
  unfold block
  dsimp only
  split
  · rename_i hnone
    rw [hblock] at hnone
    cases hnone
  · rename_i w' hsome
    obtain rfl : w = w' := Option.some.inj (hblock.symm.trans hsome)
    rfl

/-- No other array lies behind the same address. -/
theorem Holds.notMem (hF : Holds h ((a, w) ::ₘ F)) (w' : Cells V) : (a, w') ∉ F := fun hmem => by
  have hnodup := hF.nodup
  rw [Multiset.map_cons, Multiset.nodup_cons] at hnodup
  exact hnodup.1 (Multiset.mem_map.2 ⟨(a, w'), hmem, rfl⟩)

/-- Replacing one array. -/
theorem Holds.put_some (hF : Holds h ((a, w) ::ₘ F)) (ha : a < h.next) (w' : Cells V) :
    Holds (h.put a ha (some w')) ((a, w') ::ₘ F) where
  nodup := by
    have hnodup := hF.nodup
    rw [Multiset.map_cons] at hnodup ⊢
    exact hnodup
  block_iff b d := by
    rw [Multiset.mem_cons, Prod.mk.injEq]
    by_cases hb : b = a
    · subst hb
      have hnot := hF.notMem d
      simp [Heap.put, hnot, eq_comm]
    · have hblock := hF.block_iff b d
      rw [Multiset.mem_cons, Prod.mk.injEq] at hblock
      simp [Heap.put, hblock, hb]

/-- Dropping one array. -/
theorem Holds.put_none (hF : Holds h ((a, w) ::ₘ F)) (ha : a < h.next) :
    Holds (h.put a ha none) F where
  nodup := by
    have hnodup := hF.nodup
    rw [Multiset.map_cons, Multiset.nodup_cons] at hnodup
    exact hnodup.2
  block_iff b d := by
    by_cases hb : b = a
    · subst hb
      have hnot := hF.notMem d
      simp [Heap.put, hnot]
    · have hblock := hF.block_iff b d
      rw [Multiset.mem_cons, Prod.mk.injEq] at hblock
      simp [Heap.put, hblock, hb]

/-- Adding one array. -/
theorem Holds.push (hF : Holds h F) (w : Cells V) : Holds (h.push w) ((h.next, w) ::ₘ F) := by
  have hnew (w' : Cells V) : (h.next, w') ∉ F := fun hmem => by
    have hblock := (hF.block_iff _ _).2 hmem
    rw [h.fresh _ (Nat.le_refl _)] at hblock
    cases hblock
  constructor
  · rw [Multiset.map_cons, Multiset.nodup_cons]
    refine ⟨fun hmem => ?_, hF.nodup⟩
    obtain ⟨⟨a, w'⟩, hmem, rfl⟩ := Multiset.mem_map.1 hmem
    exact hnew w' hmem
  · intro b d
    rw [Multiset.mem_cons, Prod.mk.injEq]
    by_cases hb : b = h.next
    · subst hb
      have hnot := hnew d
      simp [Heap.push, hnot, eq_comm]
    · have hblock := hF.block_iff b d
      simp [Heap.push, hblock, hb]

end Holds

/-! ### What a program does -/

/-- On every heap that holds `F` the program `x` does what `y` does: it faults where `y` faults,
in the same way, and else `R` relates its result, that of `y`, and what is alive behind. -/
structure Does (F : Footprint V) (x : Prog V E β) (y : Except E α)
    (R : β → α → Footprint V → Prop) : Prop where
  run : ∀ h, Holds h F →
    match y with
    | .error e => x h = .error (.own e)
    | .ok a => ∃ b h' F', x h = .ok (b, h') ∧ Holds h' F' ∧ R b a F'

theorem bind_run {x : Prog V E α} {f : α → Prog V E β} {h h' : Heap V} {a : α}
    (hx : x h = .ok (a, h')) : (x >>= f) h = f a h' := by
  change (x h >>= fun p => f p.1 p.2) = _
  rw [hx]
  rfl

theorem bind_error {x : Prog V E α} {f : α → Prog V E β} {h : Heap V} {e : Error E}
    (hx : x h = .error e) : (x >>= f) h = .error e := by
  change (x h >>= fun p => f p.1 p.2) = _
  rw [hx]
  rfl

section Does

variable {F F₁ F₂ : Footprint V} {x : Prog V E β} {y : Except E α} {a i n : ℕ} {w : Cells V}
  {v : V} {R R' : β → α → Footprint V → Prop} {S : δ → γ → Footprint V → Prop}

theorem Does.mono (hx : Does F x y R) (hR : ∀ b a F', R b a F' → R' b a F') : Does F x y R' := by
  refine ⟨fun h hF => ?_⟩
  have hrun := hx.run h hF
  cases y with
  | error e => exact hrun
  | ok a =>
      obtain ⟨b, h', F', hx, hF', hba⟩ := hrun
      exact ⟨b, h', F', hx, hF', hR b a F' hba⟩

/-- What is known of the result of `y` may be used. -/
theorem Does.with_eq (hx : Does F x y R) : Does F x y fun b a F' => y = .ok a ∧ R b a F' := by
  refine ⟨fun h hF => ?_⟩
  have hrun := hx.run h hF
  cases y with
  | error e => exact hrun
  | ok a =>
      obtain ⟨b, h', F', hx, hF', hba⟩ := hrun
      exact ⟨b, h', F', hx, hF', rfl, hba⟩

/-- **A sequence** goes on from the results and the heap of its first part. -/
theorem Does.bind {f : β → Prog V E δ} {g : α → Except E γ} (hx : Does F x y R)
    (hf : ∀ b a F', R b a F' → Does F' (f b) (g a) S) : Does F (x >>= f) (y >>= g) S := by
  refine ⟨fun h hF => ?_⟩
  have hrun := hx.run h hF
  cases y with
  | error e => exact bind_error hrun
  | ok a =>
      obtain ⟨b, h', F', hx, hF', hba⟩ := hrun
      rw [bind_run hx]
      exact (hf b a F' hba).run h' hF'

/-- What `y` does behind that changes no memory. -/
theorem Does.bind_right {g : α → Except E γ} {T : β → γ → Footprint V → Prop}
    (hx : Does F x y R) (hg : ∀ b a F', R b a F' → ∃ u, g a = .ok u ∧ T b u F') :
    Does F x (y >>= g) T := by
  refine ⟨fun h hF => ?_⟩
  have hrun := hx.run h hF
  cases y with
  | error e => exact hrun
  | ok a =>
      obtain ⟨b, h', F', hx, hF', hba⟩ := hrun
      obtain ⟨u, hu, hbu⟩ := hg b a F' hba
      rw [CArray.ok_bind, hu]
      exact ⟨b, h', F', hx, hF', hbu⟩

theorem Does.pure {b : β} {u : α} (hR : R b u F) : Does (E := E) F (Pure.pure b) (.ok u) R :=
  ⟨fun h hF => ⟨b, h, F, rfl, hF, hR⟩⟩

theorem Does.plain {f : α → Prog V E δ} {g : α → Except E γ}
    (hf : ∀ u, y = .ok u → Does F (f u) (g u) S) :
    Does F (Heaps.plain y >>= f) (y >>= g) S := by
  refine ⟨fun h hF => ?_⟩
  cases y with
  | error e => rfl
  | ok u =>
      rw [bind_run (x := Heaps.plain (.ok u)) (h := h) rfl]
      exact (hf u rfl).run h hF

theorem Does.read {f : V → Prog V E β} (hmem : (a, w) ∈ F) (hi : w[i]? = some (some v))
    (hf : Does F (f v) y R) : Does F (Heaps.read (some a) i >>= f) y R := by
  refine ⟨fun h hF => ?_⟩
  obtain ⟨ha, hblock⟩ := hF.block_eq (E := E) hmem
  have hrun : Heaps.read (E := E) (some a) i h = .ok (v, h) := by
    simp only [Heaps.read, hblock, CArray.ok_bind, hi]
  rw [bind_run hrun]
  exact hf.run h hF

theorem Does.write {f : Unit → Prog V E β} (hF : F = (a, w) ::ₘ F₁) (hi : i < w.length)
    (hf : Does ((a, w.set i (some v)) ::ₘ F₁) (f ()) y R) :
    Does F (Heaps.write (some a) i v >>= f) y R := by
  subst hF
  refine ⟨fun h hF => ?_⟩
  obtain ⟨ha, hblock⟩ := hF.block_eq (E := E) (Multiset.mem_cons_self _ _)
  have hrun : Heaps.write (E := E) (some a) i v h =
      .ok ((), h.put a ha (some (w.set i (some v)))) := by
    simp only [Heaps.write, hblock, CArray.ok_bind, if_pos hi]
  rw [bind_run hrun]
  exact hf.run _ (hF.put_some ha _)

theorem Does.alloc {f : ℕ → Prog V E β}
    (hf : ∀ a, Does ((a, List.replicate n none) ::ₘ F) (f a) y R) :
    Does F (Heaps.alloc n >>= f) y R := by
  refine ⟨fun h hF => ?_⟩
  rw [bind_run (x := Heaps.alloc n) (h := h) rfl]
  exact (hf h.next).run _ (hF.push _)

theorem Does.free {f : Unit → Prog V E β} (hF : F = (a, w) ::ₘ F₁)
    (hf : Does F₁ (f ()) y R) : Does F (Heaps.free (some a) >>= f) y R := by
  subst hF
  refine ⟨fun h hF => ?_⟩
  obtain ⟨ha, hblock⟩ := hF.block_eq (E := E) (Multiset.mem_cons_self _ _)
  have hrun : Heaps.free (E := E) (some a) h = .ok ((), h.put a ha none) := by
    simp only [Heaps.free, Option.isNone_some, Bool.false_eq_true, if_false, hblock,
      CArray.ok_bind]
  rw [bind_run hrun]
  exact hf.run _ (hF.put_none ha)

theorem Does.free_null {f : Unit → Prog V E β} (hf : Does F (f ()) y R) :
    Does F (Heaps.free none >>= f) y R := hf

/-- **A loop** whose turns keep a relation. -/
theorem Does.foldlM {ι : Type} {f : β → ι → Prog V E β} {g : α → ι → Except E α}
    (hf : ∀ b u F i, R b u F → Does F (f b i) (g u i) R) (l : List ι) {b : β} {u : α}
    (hR : R b u F) : Does F (l.foldlM f b) (l.foldlM g u) R := by
  induction l generalizing b u F with
  | nil => exact Does.pure hR
  | cons i l ih =>
      rw [List.foldlM_cons, List.foldlM_cons]
      exact (hf b u F i hR).bind fun b' u' F' hR' => ih hR'

/-! ### Loops over an array -/

/-- The loop of `memset` from the `k`-th element on. -/
theorem Does.fill_from {f : Unit → Prog V E β} (k m : ℕ) (hF : F = (a, w) ::ₘ F₁)
    (hc : w.length = k + m)
    (hf : Does ((a, w.take k ++ List.replicate m (some v)) ::ₘ F₁) (f ()) y R) :
    Does F (Heaps.fill (some a) v (List.range' k m) >>= f) y R := by
  induction m generalizing k w F with
  | zero =>
      rw [List.replicate_zero, List.append_nil, List.take_of_length_le (by omega)] at hf
      rw [hF]
      exact hf
  | succ m ih =>
      have hk : k < w.length := by omega
      rw [List.range'_succ, Heaps.fill, bind_assoc]
      refine Does.write hF hk (ih (k + 1) rfl ?_ ?_)
      · rw [List.length_set]
        omega
      · have htake : (w.set k (some v)).take (k + 1) = w.take k ++ [some v] := by
          rw [List.take_add_one, List.take_set_of_le (Nat.le_refl k), List.getElem?_set_self hk]
          rfl
        rw [htake, List.append_assoc, List.singleton_append, ← List.replicate_succ]
        exact hf

/-- **`memset` of a new array.** -/
theorem Does.fill {f : Unit → Prog V E β} (hF : F = (a, List.replicate n none) ::ₘ F₁)
    (hf : Does ((a, List.replicate n (some v)) ::ₘ F₁) (f ()) y R) :
    Does F (Heaps.fill (some a) v (List.range n) >>= f) y R := by
  rw [List.range_eq_range']
  refine Does.fill_from 0 n hF ?_ ?_
  · rw [List.length_replicate, Nat.zero_add]
  · rw [List.take_zero, List.nil_append]
    exact hf

/-- The loop of `memcpy`: the elements `vs` from the `k`-th on. -/
theorem Does.copy_from {b : ℕ} {d : Cells V} {f : Unit → Prog V E β} (vs : List V) (k : ℕ)
    (hF : F = (a, w) ::ₘ F₁) (hsrc : (b, d) ∈ F₁) (hc : k + vs.length ≤ w.length)
    (hvs : ∀ i, (hi : i < vs.length) → d[k + i]? = some (some vs[i]))
    (hf : Does ((a, w.take k ++ vs.map some ++ w.drop (k + vs.length)) ::ₘ F₁) (f ()) y R) :
    Does F (Heaps.copy (some a) (some b) (List.range' k vs.length) >>= f) y R := by
  induction vs generalizing k w F with
  | nil =>
      rw [List.map_nil, List.append_nil, List.length_nil, Nat.add_zero,
        List.take_append_drop] at hf
      rw [hF]
      exact hf
  | cons u vs ih =>
      rw [List.length_cons] at hc
      have hk : k < w.length := by omega
      have hu : d[k]? = some (some u) := hvs 0 (Nat.succ_pos _)
      rw [List.length_cons, List.range'_succ, Heaps.copy, bind_assoc]
      refine Does.read (hF ▸ Multiset.mem_cons_of_mem hsrc) hu ?_
      rw [bind_assoc]
      refine Does.write hF hk (ih (k + 1) rfl ?_ (fun i hi => ?_) ?_)
      · rw [List.length_set]
        omega
      · rw [Nat.add_assoc, Nat.add_comm 1 i]
        exact hvs (i + 1) (Nat.succ_lt_succ hi)
      · have htake : (w.set k (some u)).take (k + 1) = w.take k ++ [some u] := by
          rw [List.take_add_one, List.take_set_of_le (Nat.le_refl k), List.getElem?_set_self hk]
          rfl
        have hdrop : (w.set k (some u)).drop (k + 1 + vs.length) =
            w.drop (k + (u :: vs).length) := by
          rw [List.drop_set_of_lt (by omega), List.length_cons]
          congr 1
          omega
        rw [htake, hdrop, List.append_assoc (w.take k), List.singleton_append, ← List.map_cons]
        exact hf

/-- **`memcpy` into a new array** that has room for them. -/
theorem Does.copy {b : ℕ} {d : Cells V} {f : Unit → Prog V E β} (vs : List V)
    (hF : F = (a, w) ::ₘ F₁) (hsrc : (b, vs.map some ++ d) ∈ F₁) (hc : vs.length ≤ w.length)
    (hf : Does ((a, vs.map some ++ w.drop vs.length) ::ₘ F₁) (f ()) y R) :
    Does F (Heaps.copy (some a) (some b) (List.range vs.length) >>= f) y R := by
  rw [List.range_eq_range']
  refine Does.copy_from vs 0 hF hsrc ?_ (fun i hi => ?_) ?_
  · rwa [Nat.zero_add]
  · rw [Nat.zero_add, List.getElem?_append_left (by rwa [List.length_map]), List.getElem?_map,
      List.getElem?_eq_getElem hi, Option.map_some]
  · rw [List.take_zero, List.nil_append, Nat.zero_add]
    exact hf

/-- The loop that looks for an element, from the `k`-th on. -/
theorem Does.search_from {p : V → Bool} {f : Option ℕ → Prog V E β} (vs : List V) (k : ℕ)
    (hmem : (a, w) ∈ F) (hvs : ∀ i, (hi : i < vs.length) → w[k + i]? = some (some vs[i]))
    (hf : Does F (f ((vs.findIdx? p).map (k + ·))) y R) :
    Does F (Heaps.search p (some a) (List.range' k vs.length) >>= f) y R := by
  induction vs generalizing k with
  | nil => exact hf
  | cons u vs ih =>
      have hu : w[k]? = some (some u) := hvs 0 (Nat.succ_pos _)
      rw [List.length_cons, List.range'_succ, Heaps.search, bind_assoc]
      refine Does.read hmem hu ?_
      rw [List.findIdx?_cons] at hf
      by_cases hp : p u = true
      · rw [if_pos hp] at hf ⊢
        exact hf
      · rw [if_neg hp] at hf ⊢
        refine ih (k + 1) (fun i hi => ?_) ?_
        · rw [Nat.add_assoc, Nat.add_comm 1 i]
          exact hvs (i + 1) (Nat.succ_lt_succ hi)
        · rw [Option.map_map] at hf
          have hshift : (fun i => k + 1 + i) = (fun i => k + i) ∘ fun i => i + 1 := by
            funext i
            simp only [Function.comp_apply]
            omega
          rw [hshift]
          exact hf

/-- **Looking for an element** finds the first one, as `List.findIdx?` does. -/
theorem Does.search {d : Cells V} {p : V → Bool} {f : Option ℕ → Prog V E β} (vs : List V)
    (hmem : (a, vs.map some ++ d) ∈ F) (hf : Does F (f (vs.findIdx? p)) y R) :
    Does F (Heaps.search p (some a) (List.range vs.length) >>= f) y R := by
  rw [List.range_eq_range']
  refine Does.search_from vs 0 hmem (fun i hi => ?_) ?_
  · rw [Nat.zero_add, List.getElem?_append_left (by rwa [List.length_map]), List.getElem?_map,
      List.getElem?_eq_getElem hi, Option.map_some]
  · simpa only [Nat.zero_add, Option.map_id_fun', id_eq] using hf

theorem search_null (p : V → Bool) (is : List ℕ) :
    Heaps.search (E := E) p none is = pure none := by
  induction is with
  | nil => rfl
  | cons i is ih => exact ih

end Does

end Heaps
