/-
# A refresh uses its memory well

How the lists of `Vmtop.Domain` lie in memory: a list is an array of records, and each record
points to an array of threads of its own (`Layout`).  Every function of `Vmtop.Memory` does on
such a layout what the function of `Vmtop.Domain` of the same name does on the lists, and leaves
a layout of the result behind; nothing that it reads is null, freed, past the end of its array
or not yet written, and nothing is freed twice.

`setDomain_does` says so for one virtual machine, whose record is filled in place, and
`refreshDomains_does` for a refresh: behind it exactly the arrays of the two lists are alive,
and those of records that were dropped behind a name that is too long.
-/

import Vmtop.Memory
import Vmtop.Refresh.Children
import Vmtop.Refresh.Deltas

namespace Vmtop
namespace Memory

open CText CArray Heaps

variable {α β : Type} {F F₁ G : Footprint Record} {a b i : ℕ} {w : Cells Record} {r : Record}
  {t : Task} {p : Option ℕ} {ts : List Task} {y : Except Fault α}
  {R : β → α → Footprint Record → Prop}

/-! ### Records behind pointers -/

theorem get_does {f : Record → Prog β} (hmem : (a, w) ∈ F) (hi : w[i]? = some (some r))
    (hf : Does F (f r) y R) : Does F (Ref.get ⟨some a, i⟩ >>= f) y R :=
  Does.read hmem hi hf

theorem set_does {f : Unit → Prog β} (hF : F = (a, w) ::ₘ F₁) (hi : i < w.length)
    (hf : Does ((a, w.set i (some r)) ::ₘ F₁) (f ()) y R) :
    Does F (Ref.set ⟨some a, i⟩ r >>= f) y R :=
  Does.write hF hi hf

/-- A function on the fields of a record in memory. -/
theorem update_does {f : Task → Except Fault (ℤ × Task)} {g : ℤ → Prog β}
    {g' : ℤ × Task → Except Fault α} (hF : F = (a, w) ::ₘ F₁) (hi : w[i]? = some (some ⟨t, p⟩))
    (hf : ∀ n u, f t = .ok (n, u) →
      Does ((a, w.set i (some ⟨u, p⟩)) ::ₘ F₁) (g n) (g' (n, u)) R) :
    Does F (Ref.update ⟨some a, i⟩ f >>= g) (f t >>= g') R := by
  unfold Ref.update
  simp only [bind_assoc, pure_bind]
  refine get_does (hF ▸ Multiset.mem_cons_self _ _) hi (Does.plain fun x hx => ?_)
  obtain ⟨n, u⟩ := x
  exact set_does hF (List.getElem?_eq_some_iff.1 hi).1 (hf n u hx)

/-! ### Layouts -/

/-- The cells of an array of threads. -/
def threadCells (ts : List Task) : Cells Record := (ts.map fun t => (⟨t, none⟩ : Record)).map some

/-- The array behind a pointer, if there is one. -/
def arrayAt (p : Option ℕ) (w : Cells Record) : Footprint Record := p.elim 0 fun a => {(a, w)}

/-- The record of a domain whose threads lie behind an address. -/
def recordOf (d : ℕ × Domain) : Record := ⟨d.2.toTask, some d.1⟩

/-- The arrays of the threads of some domains. -/
def arrays (ds : List (ℕ × Domain)) : Footprint Record :=
  (ds.map fun d => (d.1, threadCells d.2.threads) : List (ℕ × Cells Record))

/-- How the list `l` lies in memory as `list`: the domains with the addresses of their threads,
and what stands in the array behind the first `num` records, at most the one that was dropped
last.  The array of each domain has the length that its loops walk. -/
structure Layout (list : RecordList) (l : DomainList) where
  owners : List (ℕ × Domain)
  spare : Cells Record
  domains : l.domains = owners.map Prod.snd
  complete : ∀ d ∈ owners, d.2.threads.length = d.2.nlwp.toNat
  num : list.num = owners.length
  spare_le : spare.length ≤ 1
  null : list.domains = none → owners = []
  nodeNum : list.nodeNum = l.nodeNum
  bandwidth : list.bandwidth = l.bandwidth

/-- The cells of the array of records. -/
def Layout.cells {list : RecordList} {l : DomainList} (S : Layout list l) : Cells Record :=
  (S.owners.map recordOf).map some ++ S.spare

/-- What of the memory belongs to a list. -/
def Layout.footprint {list : RecordList} {l : DomainList} (S : Layout list l) :
    Footprint Record :=
  arrayAt list.domains S.cells + arrays S.owners

section Layouts

variable {list : RecordList} {l : DomainList} {d : ℕ × Domain} {ds : List (ℕ × Domain)}

theorem threadCells_length (ts : List Task) : (threadCells ts).length = ts.length := by
  simp [threadCells]

theorem threadCells_get (hi : i < ts.length) :
    (threadCells ts)[i]? = some (some ⟨ts[i], none⟩) := by
  simp [threadCells, hi]

theorem threadCells_set (ts : List Task) (i : ℕ) (t : Task) :
    (threadCells ts).set i (some ⟨t, none⟩) = threadCells (ts.set i t) := by
  simp [threadCells, List.map_set]

theorem threadCells_replicate (n : ℕ) :
    List.replicate n (some Record.zero) = threadCells (List.replicate n Task.zero) := by
  simp [threadCells, Record.zero]

theorem arrays_cons : arrays (d :: ds) = (d.1, threadCells d.2.threads) ::ₘ arrays ds := rfl

theorem arrays_append (ds ds' : List (ℕ × Domain)) :
    arrays (ds ++ ds') = arrays ds + arrays ds' := by
  simp [arrays]

theorem mem_arrays (hd : d ∈ ds) : (d.1, threadCells d.2.threads) ∈ arrays ds :=
  List.mem_map.2 ⟨d, hd, rfl⟩

theorem arrayAt_some (a : ℕ) (w : Cells Record) : arrayAt (some a) w = {(a, w)} := rfl

/-- The list that `init_domains` leaves owns nothing. -/
def Layout.init (list : RecordList) (l : DomainList) (hnode : list.nodeNum = l.nodeNum) :
    Layout (initDomains list) (Vmtop.initDomains l) where
  owners := []
  spare := []
  domains := rfl
  complete _ h := absurd h List.not_mem_nil
  num := rfl
  spare_le := Nat.zero_le _
  null _ := rfl
  nodeNum := hnode
  bandwidth := rfl

theorem Layout.footprint_init (hnode : list.nodeNum = l.nodeNum) :
    (Layout.init list l hnode).footprint = 0 := rfl

/-- The record of the `i`-th domain. -/
theorem Layout.cells_get (S : Layout list l) (hi : i < S.owners.length) :
    S.cells[i]? = some (some (recordOf S.owners[i])) := by
  rw [Layout.cells, List.getElem?_append_left (by simpa using hi)]
  simp [hi]

/-- Where there is a record, there is an array. -/
theorem Layout.domains_eq (S : Layout list l) (hi : i < S.owners.length) :
    ∃ a, list.domains = some a := by
  cases hdom : list.domains with
  | none =>
      rw [S.null hdom] at hi
      exact absurd hi (Nat.not_lt_zero _)
  | some a => exact ⟨a, rfl⟩

theorem Layout.footprint_eq (S : Layout list l) (ha : list.domains = some a) :
    S.footprint = (a, S.cells) ::ₘ arrays S.owners := by
  rw [Layout.footprint, ha, arrayAt_some, Multiset.singleton_add]

end Layouts

/-! ### The list -/

/-- The loop of `clear_domains` frees the array of each record. -/
theorem freeThreads_does {list : RecordList} {f : Unit → Prog β} (ha : list.domains = some a)
    (ds : List (ℕ × Domain)) (k : ℕ) (hF : F = (a, w) ::ₘ (arrays ds + G))
    (hds : ∀ i, (hi : i < ds.length) → w[k + i]? = some (some (recordOf ds[i])))
    (hf : ∀ w', Does ((a, w') ::ₘ G) (f ()) y R) :
    Does F (freeThreads list (List.range' k ds.length) >>= f) y R := by
  induction ds generalizing k w F with
  | nil =>
      rw [hF]
      simpa [freeThreads, arrays] using hf w
  | cons d ds ih =>
      have hd : w[k]? = some (some (recordOf d)) := hds 0 (Nat.succ_pos _)
      have hk : k < w.length := (List.getElem?_eq_some_iff.1 hd).1
      rw [List.length_cons, List.range'_succ, freeThreads, bind_assoc, RecordList.ref, ha]
      refine get_does (hF ▸ Multiset.mem_cons_self _ _) hd ?_
      have hthreads : (recordOf d).threads = some d.1 := rfl
      rw [hthreads]
      dsimp only
      rw [bind_assoc]
      have hfreed : F = (d.1, threadCells d.2.threads) ::ₘ (a, w) ::ₘ (arrays ds + G) := by
        rw [hF, arrays_cons, Multiset.cons_add, Multiset.cons_swap]
      refine Does.free hfreed ?_
      rw [bind_assoc]
      refine set_does rfl hk (ih (k + 1) rfl fun i hi => ?_)
      rw [List.getElem?_set_ne (by omega), Nat.add_assoc, Nat.add_comm 1 i]
      exact hds (i + 1) (Nat.succ_lt_succ hi)

/-- **`clear_domains` frees all that belongs to a list.** -/
theorem clearDomains_does {list : RecordList} {l : DomainList} (S : Layout list l)
    {f : RecordList → Prog β} (hF : F = S.footprint + G)
    (hf : Does G (f (initDomains list)) y R) : Does F (clearDomains list >>= f) y R := by
  unfold clearDomains
  rw [bind_assoc, S.num, List.range_eq_range']
  cases ha : list.domains with
  | none =>
      have hnil := S.null ha
      rw [Layout.footprint, ha, hnil] at hF
      rw [hnil, hF]
      simpa [freeThreads, arrayAt, arrays] using hf
  | some a =>
      rw [S.footprint_eq ha, Multiset.cons_add] at hF
      refine freeThreads_does ha S.owners 0 hF (fun i hi => ?_) fun w' => ?_
      · rw [Nat.zero_add]
        exact S.cells_get hi
      · dsimp only
        rw [bind_assoc]
        exact Does.free rfl hf

/-- **`add_domains` moves the records to a larger array**, and frees the old one. -/
theorem addDomains_does {list : RecordList} {l : DomainList} (S : Layout list l)
    {f : Option (RecordList × Ref) → Prog β} (hF : F = S.footprint + G)
    (hf : ∀ a, Does ((a, (S.owners.map recordOf).map some ++ [some Record.zero]) ::ₘ
        (arrays S.owners + G))
      (f (some ({ list with domains := some a, num := S.owners.length + 1 },
        ⟨some a, S.owners.length⟩))) y R) :
    Does F (addDomains true list >>= f) y R := by
  unfold addDomains
  simp only [if_true, bind_assoc, pure_bind, RecordList.ref, Nat.add_sub_cancel, S.num]
  refine Does.alloc fun a => ?_
  have hlen : ((S.owners.map recordOf).map some ++ [none]).length = S.owners.length + 1 := by simp
  -- behind the copy and the `free` the new array has one cell left to be written
  have hset : Does ((a, (S.owners.map recordOf).map some ++ [none]) ::ₘ (arrays S.owners + G))
      (Ref.set ⟨some a, S.owners.length⟩ Record.zero >>= fun _ =>
        f (some ({ list with domains := some a, num := S.owners.length + 1 },
          ⟨some a, S.owners.length⟩))) y R := by
    refine set_does rfl (by rw [hlen]; exact Nat.lt_succ_self _) ?_
    rw [List.set_append_right _ _ (by simp)]
    simpa using hf a
  cases hb : list.domains with
  | none =>
      have hnil := S.null hb
      rw [Layout.footprint, hb, hnil] at hF
      rw [hnil] at hset ⊢
      rw [hF]
      exact Does.free_null hset
  | some b =>
      rw [S.footprint_eq hb, Multiset.cons_add] at hF
      have hcopy := Does.copy (a := a) (b := b) (d := S.spare) (F := (a, List.replicate
        (S.owners.length + 1) none) ::ₘ F) (E := Fault) (S.owners.map recordOf) rfl
        (y := y) (R := R)
        (f := fun _ => Heaps.free (some b) >>= fun _ =>
          Ref.set ⟨some a, S.owners.length⟩ Record.zero >>= fun _ =>
            f (some ({ list with domains := some a, num := S.owners.length + 1 },
              ⟨some a, S.owners.length⟩)))
      rw [List.length_map] at hcopy
      refine hcopy ?_ ?_ ?_
      · rw [hF]
        exact Multiset.mem_cons_self _ _
      · simp
      · refine Does.free (w := S.cells) ?_ hset
        rw [hF, Multiset.cons_swap]
        simp [List.drop_replicate]

/-! ### One virtual machine -/

section Children

variable {arch : Arch} {sys : Sys} {l : VcpuList} {ts : List Task} {st : ChildState}

/-- The memory that the loop of `get_child_pid` works on: the record in the cell `i` of `w`, and
the array that it fills. -/
def childMemory (a : ℕ) (w : Cells Record) (i b : ℕ) (t : Task) (G : Footprint Record)
    (st : ChildState) : Footprint Record :=
  (a, w.set i (some ⟨{ t with smpVcpus := st.smpVcpus }, some b⟩)) ::ₘ
    (b, threadCells st.threads) ::ₘ G

section Entry

variable {f : Unit → Prog β} {g : Record → Prog β}

/-- Reading the record. -/
theorem childMemory_dom (hi : i < w.length)
    (hg : Does (childMemory a w i b t G st) (g ⟨{ t with smpVcpus := st.smpVcpus }, some b⟩) y R) :
    Does (childMemory a w i b t G st) (Ref.get ⟨some a, i⟩ >>= g) y R :=
  get_does (Multiset.mem_cons_self _ _) (List.getElem?_set_self hi) hg

/-- Writing its `smp_vcpus`. -/
theorem childMemory_count {n : ℤ} (hi : i < w.length)
    (hf : Does (childMemory a w i b t G { st with smpVcpus := n }) (f ()) y R) :
    Does (childMemory a w i b t G st)
      (Ref.set ⟨some a, i⟩ ⟨{ t with smpVcpus := n }, some b⟩ >>= f) y R := by
  refine set_does rfl (by rwa [List.length_set]) ?_
  rw [List.set_set]
  exact hf

/-- Reading the entry of the array. -/
theorem childMemory_get {v : Task} (hst : st.i < st.threads.length) (hv : st.thread = v)
    (hg : Does (childMemory a w i b t G st) (g ⟨v, none⟩) y R) :
    Does (childMemory a w i b t G st) (Ref.get ⟨some b, st.i⟩ >>= g) y R := by
  rw [ChildState.thread, List.getD_eq_getElem _ _ hst] at hv
  refine get_does (Multiset.mem_cons_of_mem (Multiset.mem_cons_self _ _)) (threadCells_get hst) ?_
  rw [hv]
  exact hg

/-- Writing it. -/
theorem childMemory_set {v : Task} (hst : st.i < st.threads.length)
    (hf : Does (childMemory a w i b t G (st.setThread v)) (f ()) y R) :
    Does (childMemory a w i b t G st) (Ref.set ⟨some b, st.i⟩ ⟨v, none⟩ >>= f) y R := by
  refine set_does (Multiset.cons_swap _ _ _) (by rwa [threadCells_length]) ?_
  rw [threadCells_set, Multiset.cons_swap]
  exact hf

/-- Running a function on it. -/
theorem childMemory_update {v : Task} {f : Task → Except Fault (ℤ × Task)} {g : ℤ → Prog β}
    {g' : ℤ × Task → Except Fault α} (hst : st.i < st.threads.length) (hv : st.thread = v)
    (hg : ∀ n u, f v = .ok (n, u) →
      Does (childMemory a w i b t G (st.setThread u)) (g n) (g' (n, u)) R) :
    Does (childMemory a w i b t G st) (Ref.update ⟨some b, st.i⟩ f >>= g) (f v >>= g') R := by
  have hthread : (threadCells st.threads)[st.i]? = some (some ⟨v, none⟩) := by
    rw [← hv, ChildState.thread, List.getD_eq_getElem _ _ hst]
    exact threadCells_get hst
  refine update_does (Multiset.cons_swap _ _ _) hthread fun n u hnu => ?_
  rw [threadCells_set, Multiset.cons_swap]
  exact hg n u hnu

/-- Running one that cannot fault. -/
theorem childMemory_apply {v : Task} {f : Task → ℤ × Task} {g : ℤ → Prog β}
    (hst : st.i < st.threads.length) (hv : st.thread = v)
    (hg : Does (childMemory a w i b t G (st.setThread (f v).2)) (g (f v).1) y R) :
    Does (childMemory a w i b t G st) (Ref.update ⟨some b, st.i⟩ (fun t => .ok (f t)) >>= g) y
      R := by
  have hupdate : Does (childMemory a w i b t G st)
      (Ref.update ⟨some b, st.i⟩ (fun t => .ok (f t)) >>= g)
      ((.ok (f v) : Except Fault (ℤ × Task)) >>= fun _ => y) R :=
    childMemory_update hst hv fun n u hnu => by
      rw [Except.ok.inj hnu] at hg
      exact hg
  exact hupdate

end Entry

/-- **One entry of a task directory.** -/
theorem childStep_does {dirt : Dirent} (hi : i < w.length) (hst : st.i < st.threads.length) :
    Does (childMemory a w i b t G st) (childStep arch sys l ⟨some a, i⟩ dirt st.i)
      (Vmtop.childStep arch sys l ⟨t, ts⟩ dirt st)
      fun n st' F' => n = st'.i ∧ F' = childMemory a w i b t G st' := by
  have hroom (u : Task) : (st.setThread u).i < (st.setThread u).threads.length := by
    rwa [ChildState.length_setThread]
  have hthread (u : Task) : (st.setThread u).thread = u := ChildState.thread_setThread hst u
  unfold childStep Vmtop.childStep
  split_ifs with hdot hdir
  · exact Does.pure ⟨rfl, rfl⟩
  · exact Does.pure ⟨rfl, rfl⟩
  · refine childMemory_dom hi ?_
    dsimp only
    refine childMemory_get hst rfl ?_
    split_ifs with hpid
    · exact childMemory_set hst (Does.pure ⟨rfl, rfl⟩)
    · refine childMemory_set hst (childMemory_update (hroom _) (hthread _) fun r u hu => ?_)
      rw [ChildState.setThread_setThread]
      dsimp only
      by_cases hr : r < 0
      · rw [if_pos hr, if_pos hr]
        exact Does.pure ⟨rfl, rfl⟩
      · rw [if_neg hr, if_neg hr]
        refine childMemory_get (hroom _) (hthread _) ?_
        have hfound : 0 ≤ (getVcpuStat arch u l).1 := getVcpuStat_nonneg u l
        by_cases hcpu : (strstr "CPU".toList u.vmname).isSome = true
        · rw [if_pos hcpu, if_pos ⟨hcpu, hfound⟩]
          refine childMemory_apply (hroom _) (hthread _) ?_
          rw [if_pos hfound, ChildState.setThread_setThread]
          refine childMemory_get (hroom _) (hthread _) (childMemory_set (hroom _) ?_)
          rw [ChildState.setThread_setThread]
          refine childMemory_count hi ?_
          -- the count does not touch the array
          refine childMemory_get (hroom _) (hthread _) (childMemory_set (hroom _) ?_)
          refine Does.pure ⟨rfl, ?_⟩
          simp only [childMemory, ChildState.setThread, List.set_set]
        · rw [if_neg hcpu, if_neg fun h => hcpu h.1]
          refine childMemory_set (hroom _) ?_
          rw [ChildState.setThread_setThread]
          exact Does.pure ⟨rfl, rfl⟩

/-- **The loop of `get_child_pid`** stays inside its array. -/
theorem childLoop_does (entries : List Dirent) (hi : i < w.length)
    (hlength : st.threads.length = t.nlwp.toNat) :
    Does (childMemory a w i b t G st) (childLoop arch sys l ⟨some a, i⟩ entries st.i)
      (Vmtop.childLoop arch sys l ⟨t, ts⟩ entries st)
      fun _ st' F' => st'.threads.length = t.nlwp.toNat ∧ F' = childMemory a w i b t G st' := by
  induction entries generalizing st with
  | nil => exact Does.pure ⟨hlength, rfl⟩
  | cons dirt rest ih =>
      rw [childLoop, Vmtop.childLoop]
      refine childMemory_dom hi ?_
      dsimp only
      split_ifs with hlt
      · have hst : st.i < st.threads.length := by omega
        refine (childStep_does hi hst).with_eq.bind fun n st' F' hR => ?_
        obtain ⟨hstep, rfl, rfl⟩ := hR
        exact ih ((childStep_length hstep).trans hlength)
      · exact Does.pure ⟨hlength, rfl⟩

/-- What is alive behind a record that was filled: its cell has become `r`, and its threads lie
behind its pointer. -/
def filledMemory (a : ℕ) (w : Cells Record) (i : ℕ) (r : Record) (ts : List Task)
    (G : Footprint Record) : Footprint Record :=
  (a, w.set i (some r)) ::ₘ (arrayAt r.threads (threadCells ts) + G)

/-- How a function that fills a record ends: its result is that of the function on values, and
the record has the fields of the other.  Where it succeeds the record has an array of
threads of the length that the loops walk; else it has none, unless `lost`. -/
structure Filled (a : ℕ) (w : Cells Record) (i : ℕ) (G : Footprint Record) (lost : Prop) (n : ℤ)
    (x : ℤ × Domain) (F' : Footprint Record) : Prop where
  result : n = x.1
  memory : ∃ p, F' = filledMemory a w i ⟨x.2.toTask, p⟩ x.2.threads G ∧
    (0 ≤ n → p.isSome ∧ x.2.threads.length = x.2.nlwp.toNat) ∧ (n < 0 → ¬ lost → p = none)

/-- A function that fails before there is an array. -/
theorem Filled.failed {lost : Prop} (hF : F = (a, w.set i (some ⟨t, none⟩)) ::ₘ G) :
    Filled a w i G lost (-1) (-1, ⟨t, ts⟩) F where
  result := rfl
  memory := by
    refine ⟨none, ?_, fun h => absurd h (by decide), fun _ _ => rfl⟩
    rw [hF]
    exact congrArg _ (zero_add G).symm

/-- **`get_child_pid`**, on a record without an array. -/
theorem getChildPid_does (lost : Prop) (hi : w[i]? = some (some ⟨t, none⟩)) :
    Does ((a, w) ::ₘ G) (getChildPid arch sys l ⟨some a, i⟩)
      (Vmtop.getChildPid arch sys l ⟨t, []⟩) (Filled a w i G lost) := by
  obtain ⟨hlt, hget⟩ := List.getElem?_eq_some_iff.1 hi
  have hsame : w.set i (some ⟨t, none⟩) = w := by
    rw [← hget]
    exact List.set_getElem_self hlt
  unfold getChildPid Vmtop.getChildPid
  refine get_does (Multiset.mem_cons_self _ _) hi ?_
  dsimp only
  cases sys.taskDir (taskPath t.pid) with
  | none => exact Does.pure (.failed (by rw [hsame]))
  | some entries =>
      dsimp only
      split_ifs with hnlwp hmalloc
      · exact Does.pure (.failed (by rw [hsame]))
      · exact set_does rfl hlt (Does.pure (.failed rfl))
      · refine Does.alloc fun b => ?_
        refine set_does (Multiset.cons_swap _ _ _) hlt ?_
        refine Does.fill (Multiset.cons_swap _ _ _) ?_
        rw [threadCells_replicate]
        have hloop : Does
            (childMemory a w i b t G ⟨List.replicate t.nlwp.toNat Task.zero, 0, t.smpVcpus⟩)
            (childLoop arch sys l ⟨some a, i⟩ entries 0)
            (Vmtop.childLoop arch sys l ⟨t, []⟩ entries
              ⟨List.replicate t.nlwp.toNat Task.zero, 0, t.smpVcpus⟩) _ :=
          childLoop_does entries hlt List.length_replicate
        rw [childMemory, Multiset.cons_swap] at hloop
        refine hloop.bind fun _ st' F' hR => Does.pure ?_
        obtain ⟨hlength, rfl⟩ := hR
        refine ⟨rfl, some b, ?_, fun _ => ⟨rfl, hlength⟩, fun h => absurd h ?_⟩
        · rfl
        · exact Int.not_lt.2 (Int.le_of_lt (Int.not_le.1 hnlwp))

/-- It does not matter what stood in the cell before. -/
theorem Filled.of_set {lost : Prop} {n : ℤ} {x : ℤ × Domain}
    (h : Filled a (w.set i (some r)) i G lost n x F) : Filled a w i G lost n x F where
  result := h.result
  memory := by
    obtain ⟨p, hF, hp⟩ := h.memory
    refine ⟨p, ?_, hp⟩
    rw [hF, filledMemory, List.set_set, filledMemory]

/-- A name is too long to be stored. -/
def TooLong (name : Text) : Prop := domainNameMax - 1 ≤ name.length

/-- `set_domain` once the id is accepted. -/
theorem loadDomain_does {name : Text} (hi : w[i]? = some (some ⟨t, none⟩)) :
    Does ((a, w) ::ₘ G) (loadDomain arch sys l name ⟨some a, i⟩)
      (Vmtop.loadDomain arch sys l name ⟨t, []⟩) (Filled a w i G (TooLong name)) := by
  obtain ⟨hlt, -⟩ := List.getElem?_eq_some_iff.1 hi
  have hcell (r : Record) : (w.set i (some r))[i]? = some (some r) := List.getElem?_set_self hlt
  unfold loadDomain Vmtop.loadDomain
  refine get_does (Multiset.mem_cons_self _ _) hi (set_does rfl hlt ?_)
  refine update_does rfl (hcell _) fun n u _ => ?_
  rw [List.set_set]
  dsimp only
  by_cases hn : n < 0
  · rw [if_pos hn, if_pos hn]
    exact Does.pure (.failed rfl)
  · rw [if_neg hn, if_neg hn]
    refine Does.bind (getChildPid_does False (hcell _)) fun m x F' hR => ?_
    obtain ⟨m', d⟩ := x
    obtain ⟨rfl, p, rfl, hok, herr⟩ := hR.of_set
    dsimp only at hok herr ⊢
    by_cases hm : m < 0
    · rw [if_pos hm, if_pos hm]
      refine Does.pure ⟨rfl, p, rfl, fun h => absurd h (by decide), fun _ _ => ?_⟩
      exact herr hm id
    · rw [if_neg hm, if_neg hm]
      obtain ⟨hsome, hlength⟩ := hok (Int.not_lt.1 hm)
      split_ifs with hlen
      · exact Does.pure ⟨rfl, p, rfl, fun h => absurd h (by decide), fun _ h => absurd hlen h⟩
      · refine get_does (Multiset.mem_cons_self _ _) (hcell _) ?_
        refine set_does rfl (by rwa [List.length_set]) (Does.pure ?_)
        rw [List.set_set]
        exact ⟨rfl, p, rfl, fun _ => ⟨hsome, hlength⟩, fun h => absurd h (by decide)⟩

/-- **`set_domain` fills the record that it is given**, and allocates its array of threads. -/
theorem setDomain_does {monitorId : ℤ} {name : Text} (hi : w[i]? = some (some ⟨t, none⟩)) :
    Does ((a, w) ::ₘ G) (setDomain arch monitorId sys l name ⟨some a, i⟩)
      (Vmtop.setDomain arch monitorId sys l name ⟨t, []⟩) (Filled a w i G (TooLong name)) := by
  obtain ⟨hlt, hget⟩ := List.getElem?_eq_some_iff.1 hi
  have hsame : w.set i (some ⟨t, none⟩) = w := by
    rw [← hget]
    exact List.set_getElem_self hlt
  have hcell (r : Record) : (w.set i (some r))[i]? = some (some r) := List.getElem?_set_self hlt
  unfold setDomain Vmtop.setDomain
  dsimp only
  split_ifs with hgot hpid
  · exact Does.pure (.failed (by rw [hsame]))
  · refine get_does (Multiset.mem_cons_self _ _) hi (set_does rfl hlt ?_)
    exact Does.pure (.failed rfl)
  all_goals
    refine get_does (Multiset.mem_cons_self _ _) hi (set_does rfl hlt ?_)
    refine get_does (Multiset.mem_cons_self _ _) (hcell _) ?_
    refine set_does rfl (by rwa [List.length_set]) ?_
    rw [List.set_set]
  · exact Does.pure (.failed rfl)
  · exact Does.pure (.failed rfl)
  · exact (loadDomain_does (hcell _)).mono fun n x F' hR => hR.of_set

end Children

/-! ### All virtual machines -/

section Listing

variable {arch : Arch} {monitorId : ℤ} {vcpuList : VcpuList} {list : RecordList} {l : DomainList}
  {d : Domain}

/-- The list behind a record that was filled and accepted. -/
def Layout.accepted (S : Layout list l) (a b : ℕ) (hd : d.threads.length = d.nlwp.toNat) :
    Layout { list with domains := some a, num := S.owners.length + 1 }
      (({ l with
          domains := l.domains ++ [Domain.zero], popped := [] } : DomainList).setLast d) where
  owners := S.owners ++ [(b, d)]
  spare := []
  domains := by
    rw [DomainList.setLast, List.dropLast_concat, S.domains, List.map_append, List.map_singleton]
  complete d' hd' := by
    rcases List.mem_append.1 hd' with hd' | hd'
    · exact S.complete d' hd'
    · rw [List.mem_singleton.1 hd']
      exact hd
  num := by rw [List.length_append, List.length_singleton]
  spare_le := Nat.zero_le _
  null h := absurd h (by simp)
  nodeNum := S.nodeNum
  bandwidth := S.bandwidth

/-- The list behind one that was dropped: it stays in the array, past the end. -/
def Layout.dropped (S : Layout list l) (a : ℕ) (r : Record) (d : Domain) :
    Layout (popDomains { list with domains := some a, num := S.owners.length + 1 })
      (Vmtop.popDomains
        (({ l with domains := l.domains ++ [Domain.zero], popped := [] } : DomainList).setLast d))
      where
  owners := S.owners
  spare := [some r]
  domains := by
    rw [Vmtop.popDomains, DomainList.setLast, List.dropLast_concat, List.dropLast_concat]
    exact S.domains
  complete := S.complete
  num := rfl
  spare_le := Nat.le_refl _
  null h := absurd h (by simp [popDomains])
  nodeNum := S.nodeNum
  bandwidth := S.bandwidth

theorem Layout.footprint_accepted (S : Layout list l) (b : ℕ)
    (hd : d.threads.length = d.nlwp.toNat) : (S.accepted a b hd).footprint =
      (a, (S.owners.map recordOf).map some ++ [some ⟨d.toTask, some b⟩]) ::ₘ
        ((b, threadCells d.threads) ::ₘ arrays S.owners) := by
  have hcells : (S.accepted a b hd).cells =
      (S.owners.map recordOf).map some ++ [some ⟨d.toTask, some b⟩] := by
    simp [Layout.cells, Layout.accepted, recordOf]
  have harrays : arrays (S.accepted a b hd).owners =
      (b, threadCells d.threads) ::ₘ arrays S.owners := by
    rw [Layout.accepted, arrays_append, add_comm]
    rfl
  rw [(S.accepted a b hd).footprint_eq rfl, hcells, harrays]

theorem Layout.footprint_dropped (S : Layout list l) (r : Record) : (S.dropped a r d).footprint =
    (a, (S.owners.map recordOf).map some ++ [some r]) ::ₘ arrays S.owners :=
  (S.dropped a r d).footprint_eq rfl

/-- What the scan leaves alive: the arrays of its list, those that it lost, and `G`.  Only a
name that is too long loses anything. -/
def Scanned (entries : List (Dirent × Sys)) (G : Footprint Record) (b : ℤ × RecordList)
    (x : ℤ × DomainList) (F' : Footprint Record) : Prop :=
  b.1 = x.1 ∧ ∃ (S : Layout b.2 x.2) (gone : Footprint Record), F' = S.footprint + (gone + G) ∧
    ((∀ e ∈ entries, ¬ TooLong e.1.name) → gone = 0)

/-- An entry in front that loses `gone`. -/
theorem Scanned.cons {entry : Dirent × Sys} {rest : List (Dirent × Sys)} {b : ℤ × RecordList}
    {x : ℤ × DomainList} {F' gone : Footprint Record} (h : Scanned rest (gone + G) b x F')
    (hgone : ¬ TooLong entry.1.name → gone = 0) : Scanned (entry :: rest) G b x F' := by
  obtain ⟨hresult, S, gone', hF', hgone'⟩ := h
  refine ⟨hresult, S, gone' + gone, by rw [hF', add_assoc gone'], fun hshort => ?_⟩
  rw [List.forall_mem_cons] at hshort
  rw [hgone hshort.1, hgone' hshort.2, add_zero]

/-- **The scan of the qemu directory.** -/
theorem qemuLoop_does (entries : List (Dirent × Sys)) (S : Layout list l)
    (hF : F = S.footprint + G) :
    Does F (qemuLoop arch monitorId vcpuList entries list)
      (Vmtop.qemuLoop arch monitorId vcpuList entries l) (Scanned entries G) := by
  induction entries generalizing list l F G with
  | nil =>
      refine Does.pure ⟨?_, S, 0, by rw [zero_add, hF], fun _ => rfl⟩
      dsimp only
      rw [S.num, DomainList.num, S.domains, List.length_map]
  | cons entry rest ih =>
      obtain ⟨dirent, sys⟩ := entry
      have hskip : Does F (qemuLoop arch monitorId vcpuList rest list)
          (Vmtop.qemuLoop arch monitorId vcpuList rest l) (Scanned ((dirent, sys) :: rest) G) := by
        refine (ih (G := 0 + G) S (by rw [zero_add, hF])).mono fun b x F' h => ?_
        exact Scanned.cons h fun _ => rfl
      rw [qemuLoop, Vmtop.qemuLoop]
      split_ifs with hdot hreg hpid
      · exact hskip
      · exact hskip
      · exact hskip
      · cases sys.mallocDomains with
        | false => exact Does.pure ⟨rfl, S, 0, by rw [zero_add, hF], fun _ => rfl⟩
        | true =>
            refine addDomains_does S hF fun a => ?_
            have hlen : ((S.owners.map recordOf).map some).length = S.owners.length := by simp
            have hcell : ((S.owners.map recordOf).map some ++
                [some Record.zero])[S.owners.length]? = some (some ⟨Task.zero, none⟩) := by
              rw [List.getElem?_append_right (Nat.le_of_eq hlen), hlen, Nat.sub_self]
              rfl
            simp only [Vmtop.addDomains, if_true, DomainList.last, List.getLastD_concat]
            refine Does.bind (setDomain_does hcell) fun n x F' hR => ?_
            obtain ⟨m, d⟩ := x
            obtain ⟨rfl, p, rfl, hok, herr⟩ := hR
            have hset (v : Option Record) :
                ((S.owners.map recordOf).map some ++ [some Record.zero]).set S.owners.length v =
                  (S.owners.map recordOf).map some ++ [v] := by
              rw [List.set_append_right _ _ (Nat.le_of_eq hlen), hlen, Nat.sub_self]
              rfl
            rw [filledMemory, hset]
            dsimp only at hok herr ⊢
            by_cases hn : n < 0
            · rw [if_pos hn, if_pos hn]
              have hrest := ih (G := arrayAt p (threadCells d.threads) + G)
                (S.dropped a ⟨d.toTask, p⟩ d) (F := (a, (S.owners.map recordOf).map some ++
                  [some ⟨d.toTask, p⟩]) ::ₘ (arrayAt p (threadCells d.threads) +
                    (arrays S.owners + G))) ?_
              · refine hrest.mono fun b x F' h => Scanned.cons h fun hshort => ?_
                rw [herr hn hshort]
                rfl
              · rw [S.footprint_dropped, Multiset.cons_add, add_left_comm]
            · rw [if_neg hn, if_neg hn]
              obtain ⟨hsome, hlength⟩ := hok (Int.not_lt.1 hn)
              obtain ⟨b, rfl⟩ := Option.isSome_iff_exists.1 hsome
              have hrest := ih (G := 0 + G) (S.accepted a b hlength)
                (F := (a, (S.owners.map recordOf).map some ++ [some ⟨d.toTask, some b⟩]) ::ₘ
                  (arrayAt (some b) (threadCells d.threads) + (arrays S.owners + G))) ?_
              · exact hrest.mono fun b x F' h => Scanned.cons h fun _ => rfl
              · rw [S.footprint_accepted, arrayAt_some, Multiset.singleton_add, zero_add,
                  Multiset.cons_add, Multiset.cons_add]

end Listing

/-! ### The refresh -/

section Compare

variable {arch : Arch} {list pre : RecordList} {l lpre : DomainList} {d old : Domain}

/-- The array of records of a list that owns some. -/
theorem Layout.mem_records (S : Layout list l) (hS : S.footprint ≤ F) (ha : list.domains = some a) :
    (a, S.cells) ∈ F := by
  refine Multiset.mem_of_le hS ?_
  rw [S.footprint_eq ha]
  exact Multiset.mem_cons_self _ _

/-- The threads of one of its records. -/
theorem Layout.mem_threads (S : Layout list l) (hS : S.footprint ≤ F) {d : ℕ × Domain}
    (hd : d ∈ S.owners) : (d.1, threadCells d.2.threads) ∈ F :=
  Multiset.mem_of_le hS (Multiset.mem_add.2 (Or.inr (mem_arrays hd)))

/-- **`get_domain_from_id`** finds the first record with the id. -/
theorem getDomainFromId_does {id : ℤ} {f : Option Ref → Prog β} (S : Layout list l)
    (hS : S.footprint ≤ F)
    (hnone : Vmtop.getDomainFromId id l = none → Does F (f none) y R)
    (hsome : ∀ j, (hj : j < S.owners.length) →
      Vmtop.getDomainFromId id l = some S.owners[j].2 → Does F (f (some (list.ref j))) y R) :
    Does F (getDomainFromId id list >>= f) y R := by
  have hfind : Vmtop.getDomainFromId id l =
      (S.owners.findIdx? fun d => d.2.domainId = id).bind fun j => S.owners[j]?.map Prod.snd := by
    rw [Vmtop.getDomainFromId, S.domains, List.find?_map, List.find?_eq_bind_findIdx?_getElem?,
      Option.map_bind]
    rfl
  unfold getDomainFromId
  simp only [bind_assoc, pure_bind, S.num]
  cases ha : list.domains with
  | none =>
      have hnil := S.null ha
      rw [search_null]
      refine hnone ?_
      rw [hfind, hnil]
      rfl
  | some a =>
      have hmem := S.mem_records hS ha
      have hsearch := Does.search (E := Fault) (y := y) (R := R)
        (p := fun dom : Record => decide (dom.domainId = id))
        (f := fun i => f (i.map list.ref)) (S.owners.map recordOf) hmem
      rw [List.length_map, List.findIdx?_map] at hsearch
      refine hsearch ?_
      have hcomp : ((fun dom : Record => decide (dom.domainId = id)) ∘ recordOf) =
          fun d => decide (d.2.domainId = id) := rfl
      rw [hcomp]
      cases hidx : S.owners.findIdx? fun d => d.2.domainId = id with
      | none =>
          refine hnone ?_
          rw [hfind, hidx]
          rfl
      | some j =>
          have hj : j < S.owners.length := (List.findIdx?_eq_some_iff_getElem.1 hidx).1
          refine hsome j hj ?_
          rw [hfind, hidx, Option.bind_some, List.getElem?_eq_getElem hj, Option.map_some]

/-- **`get_thread_from_pid`** finds the first thread with the pid. -/
theorem getThreadFromPid_does {pid : ℤ} {o : ℕ} {f : Option Ref → Prog β} (hmem : (a, w) ∈ F)
    (hi : w[i]? = some (some ⟨old.toTask, some o⟩)) (hthreads : (o, threadCells old.threads) ∈ F)
    (hlength : old.threads.length = old.nlwp.toNat)
    (hnone : Vmtop.getThreadFromPid pid old = none → Does F (f none) y R)
    (hsome : ∀ k, (hk : k < old.threads.length) →
      Vmtop.getThreadFromPid pid old = some old.threads[k] → Does F (f (some ⟨some o, k⟩)) y R) :
    Does F (getThreadFromPid pid ⟨some a, i⟩ >>= f) y R := by
  have hfind : Vmtop.getThreadFromPid pid old =
      (old.threads.findIdx? fun t => t.pid = pid).bind fun k => old.threads[k]? := by
    rw [Vmtop.getThreadFromPid, Domain.lwps_eq hlength, List.find?_eq_bind_findIdx?_getElem?]
  unfold getThreadFromPid
  simp only [bind_assoc, pure_bind]
  refine get_does hmem hi ?_
  dsimp only
  have hsearch := Does.search (E := Fault) (y := y) (R := R) (d := []) (F := F) (a := o)
    (p := fun t : Record => decide (t.pid = pid))
    (f := fun i => f (i.map fun k => ⟨some o, k⟩)) (old.threads.map fun t => ⟨t, none⟩)
  rw [List.length_map, List.findIdx?_map, hlength] at hsearch
  refine hsearch ?_ ?_
  · rw [List.append_nil]
    exact hthreads
  have hcomp : ((fun t : Record => decide (t.pid = pid)) ∘ fun t => ⟨t, none⟩) =
      fun t : Task => decide (t.pid = pid) := rfl
  rw [hcomp]
  cases hidx : old.threads.findIdx? fun t => t.pid = pid with
  | none =>
      refine hnone ?_
      rw [hfind, hidx]
      rfl
  | some k =>
      have hk : k < old.threads.length := (List.findIdx?_eq_some_iff_getElem.1 hidx).1
      refine hsome k hk ?_
      rw [hfind, hidx, Option.bind_some, List.getElem?_eq_getElem hk]

/-- The memory of a record that is compared, and of its threads. -/
def threadMemory (a : ℕ) (w : Cells Record) (i b : ℕ) (t : Task) (ts : List Task)
    (G : Footprint Record) : Footprint Record :=
  (a, w.set i (some ⟨t, some b⟩)) ::ₘ (b, threadCells ts) ::ₘ G

/-- **The loop of `refresh_threads`**, behind the threads `done`. -/
theorem threadsLoop_does (arch : Arch) {a' j o : ℕ} {w' : Cells Record} {f : Unit → Prog β}
    (hi : i < w.length) (hmem : (a', w') ∈ G) (hj : w'[j]? = some (some ⟨old.toTask, some o⟩))
    (hthreads : (o, threadCells old.threads) ∈ G) (hlength : old.threads.length = old.nlwp.toNat)
    (done todo : List Task)
    (hf : Does (threadMemory a w i b (Vmtop.threadsLoop arch old todo t).1
      (done ++ (Vmtop.threadsLoop arch old todo t).2) G) (f ()) y R) :
    Does (threadMemory a w i b t (done ++ todo) G)
      (threadsLoop arch ⟨some a, i⟩ ⟨some a', j⟩ (List.range' done.length todo.length) >>= f)
      y R := by
  induction todo generalizing done t with
  | nil => exact hf
  | cons u rest ih =>
      have hu : (threadCells (done ++ u :: rest))[done.length]? = some (some ⟨u, none⟩) := by
        rw [threadCells_get (by simp)]
        simp
      have hG : ∀ {x : ℕ × Cells Record} {t : Task} {ts : List Task}, x ∈ G →
          x ∈ threadMemory a w i b t ts G := fun hx =>
        Multiset.mem_cons_of_mem (Multiset.mem_cons_of_mem hx)
      -- the entry of the array that is compared is replaced
      have hstore (t : Task) (v v' : Task) {g : Unit → Prog β}
          (hg : Does (threadMemory a w i b t (done ++ v' :: rest) G) (g ()) y R) :
          Does (threadMemory a w i b t (done ++ v :: rest) G)
            (Ref.set ⟨some b, done.length⟩ ⟨v', none⟩ >>= g) y R := by
        refine set_does (Multiset.cons_swap _ _ _) (by simp [threadCells_length]) ?_
        rw [threadCells_set, Multiset.cons_swap, List.set_append_right _ _ (Nat.le_refl _),
          Nat.sub_self]
        exact hg
      have hnext (t v : Task)
          (hg : Does (threadMemory a w i b (Vmtop.threadsLoop arch old rest t).1
            (done ++ v :: (Vmtop.threadsLoop arch old rest t).2) G) (f ()) y R) :
          Does (threadMemory a w i b t (done ++ v :: rest) G)
            (threadsLoop arch ⟨some a, i⟩ ⟨some a', j⟩
              (List.range' (done.length + 1) rest.length) >>= f) y R := by
        have hrest := ih (t := t) (done ++ [v])
        rw [List.length_append, List.length_singleton, List.append_assoc, List.append_assoc,
          List.singleton_append, List.singleton_append] at hrest
        exact hrest hg
      rw [List.length_cons, List.range'_succ, threadsLoop]
      simp only [bind_assoc]
      refine get_does (Multiset.mem_cons_self _ _) (List.getElem?_set_self hi) ?_
      refine get_does (Multiset.mem_cons_of_mem (Multiset.mem_cons_self _ _)) hu ?_
      rw [Vmtop.threadsLoop] at hf
      refine getThreadFromPid_does (hG hmem) hj (hG hthreads) hlength (fun hnone => ?_)
        fun k hk hsome => ?_
      · rw [hnone] at hf
        exact hnext t u hf
      · rw [hsome] at hf
        dsimp only at hf ⊢
        rw [bind_assoc]
        refine get_does (hG hthreads) (threadCells_get hk) ?_
        dsimp only
        rw [bind_assoc]
        refine hstore t u _ ?_
        by_cases htype : (refreshDeltaStat u old.threads[k]).type = .isVcpu
        · rw [if_pos htype] at hf
          rw [if_pos htype]
          simp only [bind_assoc]
          refine hstore t _ _ (set_does rfl (by rwa [List.length_set]) ?_)
          rw [List.set_set]
          exact hnext _ _ hf
        · rw [if_neg htype] at hf
          rw [if_neg htype]
          exact hnext _ _ hf

/-- What a refresh makes of a record keeps the length of its array. -/
theorem refreshDomain_complete (hd : d.threads.length = d.nlwp.toNat) :
    (Vmtop.refreshDomain arch lpre d).threads.length =
      (Vmtop.refreshDomain arch lpre d).nlwp.toNat := by
  cases hold : Vmtop.getDomainFromId d.domainId lpre with
  | none =>
      rw [Vmtop.refreshDomain, hold]
      exact hd
  | some old =>
      rw [refreshDomain_of_some hd hold]
      dsimp only
      rw [threadsLoop_frame, refreshDeltaStat_frame, List.length_map]
      exact hd

/-- **The body of the loop of `refresh_domains`**: the record is compared with the one of the
same id, and its threads with the threads of that one. -/
theorem refreshDomain_does {f : Unit → Prog β} (P : Layout pre lpre) (hP : P.footprint ≤ G)
    (hi : w[i]? = some (some (recordOf (b, d)))) (hd : d.threads.length = d.nlwp.toNat)
    (hF : F = (a, w) ::ₘ (b, threadCells d.threads) ::ₘ G)
    (hf : Does ((a, w.set i (some (recordOf (b, Vmtop.refreshDomain arch lpre d)))) ::ₘ
      (b, threadCells (Vmtop.refreshDomain arch lpre d).threads) ::ₘ G) (f ()) y R) :
    Does F (refreshDomain arch pre ⟨some a, i⟩ >>= f) y R := by
  subst hF
  obtain ⟨hlt, hget⟩ := List.getElem?_eq_some_iff.1 hi
  have hle : P.footprint ≤ (a, w) ::ₘ (b, threadCells d.threads) ::ₘ G :=
    hP.trans ((Multiset.le_cons_self _ _).trans (Multiset.le_cons_self _ _))
  unfold refreshDomain
  simp only [bind_assoc]
  refine get_does (Multiset.mem_cons_self _ _) hi ?_
  refine getDomainFromId_does P hle (fun hnone => ?_) fun j hj hsome => ?_
  · have hnone' : Vmtop.getDomainFromId d.domainId lpre = none := hnone
    rw [Vmtop.refreshDomain, hnone', ← hget, List.set_getElem_self hlt] at hf
    exact hf
  · have hsome' : Vmtop.getDomainFromId d.domainId lpre = some P.owners[j].2 := hsome
    have hmem : P.owners[j] ∈ P.owners := List.getElem_mem hj
    obtain ⟨a', ha'⟩ := P.domains_eq hj
    dsimp only
    rw [RecordList.ref, ha', bind_assoc]
    refine get_does (P.mem_records hle ha') (P.cells_get hj) ?_
    rw [bind_assoc]
    refine set_does rfl hlt ?_
    unfold refreshThreads
    rw [bind_assoc]
    refine get_does (Multiset.mem_cons_self _ _) (List.getElem?_set_self hlt) ?_
    have hnlwp : (refreshDeltaStat d.toTask P.owners[j].2.toTask).nlwp.toNat =
        d.threads.length := by
      rw [refreshDeltaStat_frame, hd]
    have hloop := threadsLoop_does arch (a := a) (b := b) (w := w) (i := i) (G := G)
      (t := refreshDeltaStat d.toTask P.owners[j].2.toTask) (f := f) (y := y) (R := R) hlt
      (P.mem_records hP ha') (P.cells_get hj) (P.mem_threads hP hmem) (P.complete _ hmem)
      [] d.threads
    rw [List.nil_append, List.nil_append, List.length_nil, ← List.range_eq_range'] at hloop
    have hprogram : (recordOf (b, d)).threads = some b := rfl
    dsimp only [recordOf] at hprogram ⊢
    rw [hnlwp]
    refine hloop ?_
    rw [refreshDomain_of_some hd hsome', ← threadsLoop_threads] at hf
    exact hf

/-- The records of a snapshot, compared with the one before. -/
def compared (arch : Arch) (lpre : DomainList) (ds : List (ℕ × Domain)) : List (ℕ × Domain) :=
  ds.map fun d => (d.1, Vmtop.refreshDomain arch lpre d.2)

/-- **The loop of `refresh_domains`**, behind the records `done`. -/
theorem refreshLoop_does {spare : Cells Record} {f : Unit → Prog β} (ha : list.domains = some a)
    (P : Layout pre lpre) (hP : P.footprint ≤ G) (done todo : List (ℕ × Domain))
    (hd : ∀ d ∈ todo, d.2.threads.length = d.2.nlwp.toNat)
    (hf : Does ((a, ((done ++ compared arch lpre todo).map recordOf).map some ++ spare) ::ₘ
      (arrays (done ++ compared arch lpre todo) + G)) (f ()) y R) :
    Does ((a, ((done ++ todo).map recordOf).map some ++ spare) ::ₘ (arrays (done ++ todo) + G))
      (refreshLoop arch list pre (List.range' done.length todo.length) >>= f) y R := by
  induction todo generalizing done with
  | nil => exact hf
  | cons d rest ih =>
      obtain ⟨b, d⟩ := d
      rw [List.forall_mem_cons] at hd
      have hcell : (((done ++ (b, d) :: rest).map recordOf).map some ++ spare)[done.length]? =
          some (some (recordOf (b, d))) := by simp
      have hset (d' : Domain) :
          (((done ++ (b, d) :: rest).map recordOf).map some ++ spare).set done.length
            (some (recordOf (b, d'))) =
          ((done ++ [(b, d')] ++ rest).map recordOf).map some ++ spare := by
        simp
      rw [List.length_cons, List.range'_succ, refreshLoop, bind_assoc, RecordList.ref, ha]
      refine refreshDomain_does P (G := arrays done + (arrays rest + G)) ?_ hcell hd.1 ?_ ?_
      · exact hP.trans ((Multiset.le_add_left _ _).trans (Multiset.le_add_left _ _))
      · rw [arrays_append, arrays_cons, Multiset.add_cons, Multiset.cons_add, add_assoc]
      · have hrest := ih (done ++ [(b, Vmtop.refreshDomain arch lpre d)]) hd.2
        rw [List.length_append, List.length_singleton] at hrest
        rw [hset]
        have hmoved : (b, threadCells (Vmtop.refreshDomain arch lpre d).threads) ::ₘ
            (arrays done + (arrays rest + G)) =
              arrays (done ++ [(b, Vmtop.refreshDomain arch lpre d)] ++ rest) + G := by
          rw [arrays_append, arrays_append, arrays_cons, Multiset.add_cons, Multiset.cons_add,
            Multiset.cons_add, add_assoc, add_assoc]
          congr 2
          exact (zero_add _).symm
        rw [hmoved]
        refine hrest ?_
        have hdone : done ++ [(b, Vmtop.refreshDomain arch lpre d)] ++ compared arch lpre rest =
            done ++ compared arch lpre ((b, d) :: rest) := by
          rw [List.append_assoc]
          rfl
        rw [hdone]
        exact hf

/-- The list behind the loop: every record is replaced. -/
def Layout.compare (S : Layout list l) (arch : Arch) (lpre : DomainList) :
    Layout list { l with domains := l.domains.map (Vmtop.refreshDomain arch lpre) } where
  owners := compared arch lpre S.owners
  spare := S.spare
  domains := by
    rw [S.domains, compared, List.map_map, List.map_map]
    rfl
  complete d hd := by
    obtain ⟨e, he, rfl⟩ := List.mem_map.1 hd
    exact refreshDomain_complete (S.complete e he)
  num := by rw [S.num, compared, List.length_map]
  spare_le := S.spare_le
  null h := by
    rw [S.null h]
    rfl
  nodeNum := S.nodeNum
  bandwidth := S.bandwidth

/-- **The loop of `refresh_domains`** over a whole list. -/
theorem refreshAll_does {f : Unit → Prog β} (S : Layout list l) (P : Layout pre lpre)
    (hP : P.footprint ≤ G)
    (hf : Does ((S.compare arch lpre).footprint + G) (f ()) y R) :
    Does (S.footprint + G) (refreshLoop arch list pre (List.range list.num) >>= f) y R := by
  rw [S.num, List.range_eq_range']
  cases ha : list.domains with
  | none =>
      have hnil := S.null ha
      have hsame : (S.compare arch lpre).footprint = S.footprint := by
        rw [Layout.footprint, Layout.footprint, ha, (S.compare arch lpre).null ha, hnil]
        rfl
      rw [hsame] at hf
      rw [hnil]
      exact hf
  | some a =>
      rw [S.footprint_eq ha, Multiset.cons_add]
      rw [(S.compare arch lpre).footprint_eq ha, Multiset.cons_add] at hf
      exact refreshLoop_does ha P hP [] S.owners S.complete hf

end Compare

/-- What is alive between two calls: the arrays of the two lists, and `lost`. -/
structure Alive (s : Lists) (s₀ : Vmtop.Lists) (lost F : Footprint Record) : Prop where
  vcpuList : s.vcpuList = s₀.vcpuList
  layouts : ∃ (S : Layout s.now s₀.now) (P : Layout s.pre s₀.pre),
    F = S.footprint + (P.footprint + lost)

section Refresh

variable {arch : Arch} {monitorId : ℤ} {env : Env} {s : Lists} {s₀ : Vmtop.Lists}
  {lost : Footprint Record}

/-- No pid file has a name that is too long. -/
def NamesFit (env : Env) : Prop :=
  ∀ entries, env.qemuDir = some entries → ∀ e ∈ entries, ¬ TooLong e.1.name

/-- The list `pre` takes over what belongs to `now`. -/
def Layout.moved {now pre : RecordList} {lnow lpre : DomainList} (S : Layout now lnow)
    (P : Layout pre lpre) :
    Layout { initDomains pre with num := now.num, domains := now.domains }
      { Vmtop.clearDomains lpre with domains := lnow.domains, popped := lnow.popped } where
  owners := S.owners
  spare := S.spare
  domains := S.domains
  complete := S.complete
  num := S.num
  spare_le := S.spare_le
  null := S.null
  nodeNum := P.nodeNum
  bandwidth := rfl

/-- `get_qemu_id`, on a list that owns nothing. -/
theorem getQemuId_does {dir : Option (List (Dirent × Sys))} {vcpuList : VcpuList}
    {list : RecordList} {l : DomainList} (hnode : list.nodeNum = l.nodeNum) :
    Does G (getQemuId arch monitorId dir vcpuList (initDomains list))
      (Vmtop.getQemuId arch monitorId dir vcpuList (Vmtop.initDomains l))
      (Scanned (dir.getD []) G) := by
  have hG : G = (Layout.init list l hnode).footprint + G := by
    rw [Layout.footprint_init, zero_add]
  cases dir with
  | none => exact Does.pure ⟨rfl, Layout.init list l hnode, 0, by rw [zero_add, ← hG], fun _ => rfl⟩
  | some entries => exact qemuLoop_does entries (Layout.init list l hnode) hG

/-- **A refresh in memory** is a refresh of the lists.  It leaves exactly the arrays of the new
lists alive, beside those that were lost before, or that a name that is too long loses. -/
theorem refreshDomains_does (h : Alive s s₀ lost F) :
    Does F (refreshDomains arch monitorId env s) (Vmtop.refreshDomains arch monitorId env s₀)
      fun b x F' => b.1 = x.1 ∧ ∃ gone, Alive b.2 x.2 (gone + lost) F' ∧
        (NamesFit env → gone = 0) := by
  obtain ⟨hvcpu, S, P, hF⟩ := h
  unfold refreshDomains Vmtop.refreshDomains
  refine clearDomains_does P (G := S.footprint + lost) (by rw [hF, add_left_comm]) ?_
  rw [hvcpu]
  dsimp only
  split_ifs with hstat
  · refine Does.pure
      ⟨rfl, 0, ⟨rfl, Layout.init s.now s₀.now S.nodeNum, S.moved P, ?_⟩, fun _ => rfl⟩
    rw [Layout.footprint_init, zero_add, zero_add]
    rfl
  · refine (getQemuId_does S.nodeNum).bind fun b x F' hR => ?_
    obtain ⟨num, now⟩ := b
    obtain ⟨num', l⟩ := x
    obtain ⟨hresult, T, gone, rfl, hgone⟩ := hR
    dsimp only at hresult T hgone ⊢
    refine refreshAll_does T (S.moved P) ?_ (Does.pure ⟨hresult, gone, ⟨rfl, T.compare _ _,
      S.moved P, ?_⟩, fun hfit => hgone fun e he => ?_⟩)
    · exact (Multiset.le_add_right S.footprint lost).trans (Multiset.le_add_left _ _)
    · rw [add_left_comm gone]
      rfl
    · cases hdir : env.qemuDir with
      | none =>
          rw [hdir] at he
          exact absurd he List.not_mem_nil
      | some entries =>
          rw [hdir] at he
          exact hfit entries hdir e he

end Refresh

end Memory
end Vmtop
