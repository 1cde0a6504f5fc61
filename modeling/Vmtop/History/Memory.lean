/-
# A run of vmtop uses its memory well

A frame refreshes the lists, may sample the bandwidth, and shows what it finds: `show_domains`
and `get_task_num` walk the records and their threads.  In memory all of this does what it does on
lists (`frame_does`), and so does every run: it shows the same tasks and ends in the same
fault, if any, and none of its accesses misuses memory (`frames_does`).

What a run holds does not grow with its length: in a run whose pid files have names
that fit, exactly the arrays of the last two snapshots are alive (`frames_size`).
-/

import Vmtop.History.Records
import Vmtop.Sampling.Memory
import Vmtop.Screen

namespace Vmtop
namespace Memory

open CText CArray Heaps Runs

variable {α β : Type} {F : Footprint Record} {a b : ℕ} {ts : List Task} {list : RecordList}
  {l : DomainList} {y : Except Fault α} {R : β → α → Footprint Record → Prop}

/-! ### What a frame shows -/

/-- The tasks that `show_domains` comes to. -/
def shownTasks (threadMode : Bool) (l : DomainList) : List Task :=
  l.domains.flatMap fun d => d.toTask :: if threadMode then d.lwps else []

/-- These are those that the frame of the globals walks. -/
example (g : Globals) : walked g = shownTasks g.threadMode g.lists.now := rfl

/-- The loop of `show_domains_threads`, from the `k`-th thread on. -/
theorem walkThreads_does {w : Cells Record} {f : List Task → Prog β} (ts : List Task) (k : ℕ)
    (hmem : (b, w) ∈ F) (hts : ∀ i, (hi : i < ts.length) → w[k + i]? = some (some ⟨ts[i], none⟩))
    (hf : Does F (f ts) y R) :
    Does F (walkThreads (some b) (List.range' k ts.length) >>= f) y R := by
  induction ts generalizing k f with
  | nil => exact hf
  | cons t ts ih =>
      rw [List.length_cons, List.range'_succ, walkThreads, bind_assoc]
      refine get_does hmem (hts 0 (Nat.succ_pos _)) ?_
      rw [bind_assoc]
      refine ih (k + 1) (fun i hi => ?_) hf
      rw [Nat.add_assoc, Nat.add_comm 1 i]
      exact hts (i + 1) (Nat.succ_lt_succ hi)

/-- The threads that are shown of a record. -/
theorem walkDomain_does {threadMode : Bool} {d : ℕ × Domain} {f : List Task → Prog β}
    (hmem : (d.1, threadCells d.2.threads) ∈ F) (hlength : d.2.threads.length = d.2.nlwp.toNat)
    (hf : Does F (f (if threadMode then d.2.lwps else [])) y R) :
    Does F (walkDomain threadMode (recordOf d) >>= f) y R := by
  unfold walkDomain
  cases threadMode with
  | false => exact hf
  | true =>
      have hnlwp : (recordOf d).nlwp.toNat = d.2.threads.length := hlength.symm
      rw [if_pos rfl] at hf ⊢
      rw [Domain.lwps_eq hlength] at hf
      rw [hnlwp, List.range_eq_range']
      refine walkThreads_does d.2.threads 0 hmem (fun i hi => ?_) hf
      rw [Nat.zero_add]
      exact threadCells_get hi

/-- **The loop of `show_domains`** comes to the tasks of the list. -/
theorem walk_does {threadMode : Bool} {f : List Task → Prog β} (S : Layout list l)
    (hS : S.footprint ≤ F) (hf : Does F (f (shownTasks threadMode l)) y R) :
    Does F (walk threadMode list (List.range list.num) >>= f) y R := by
  have hloop : ∀ (ds : List (ℕ × Domain)) (k : ℕ) (f : List Task → Prog β),
      (∀ i, (hi : i < ds.length) → S.owners[k + i]? = some ds[i]) →
      Does F (f (ds.flatMap fun d =>
        d.2.toTask :: if threadMode then d.2.lwps else [])) y R →
      Does F (walk threadMode list (List.range' k ds.length) >>= f) y R := by
    intro ds
    induction ds with
    | nil => exact fun k f _ hf => hf
    | cons d ds ih =>
        intro k f hds hf
        obtain ⟨hk, hd⟩ := List.getElem?_eq_some_iff.1 (hds 0 (Nat.succ_pos _))
        obtain ⟨a, ha⟩ := S.domains_eq hk
        have hcell := S.cells_get hk
        rw [hd] at hcell
        have hmem : d ∈ S.owners := List.mem_of_getElem hd
        rw [List.length_cons, List.range'_succ, walk, bind_assoc, RecordList.ref, ha]
        refine get_does (S.mem_records hS ha) hcell ?_
        rw [bind_assoc]
        refine walkDomain_does (S.mem_threads hS hmem) (S.complete d hmem) ?_
        rw [bind_assoc]
        refine ih (k + 1) _ (fun i hi => ?_) hf
        rw [Nat.add_assoc, Nat.add_comm 1 i]
        exact hds (i + 1) (Nat.succ_lt_succ hi)
  rw [S.num, List.range_eq_range']
  refine hloop S.owners 0 f (fun i hi => ?_) ?_
  · rw [Nat.zero_add, List.getElem?_eq_getElem hi]
  · rw [shownTasks, S.domains, List.flatMap_map] at hf
    exact hf

/-- **`get_task_num`** counts the tasks of the list. -/
theorem getTaskNum_does {f : ℤ → Prog β} (S : Layout list l) (hS : S.footprint ≤ F)
    (hf : Does F (f (Vmtop.getTaskNum l)) y R) : Does F (getTaskNum list >>= f) y R := by
  have hloop : ∀ (k : ℕ) (ds : List (ℕ × Domain)) (f : ℤ → Prog β),
      (∀ i, (hi : i < ds.length) → S.owners[k + i]? = some ds[i]) →
      Does F (f (ds.map fun d => d.2.nlwp).sum) y R →
      Does F (taskSum list (List.range' k ds.length) >>= f) y R := by
    intro k ds
    induction ds generalizing k with
    | nil => exact fun f _ hf => hf
    | cons d ds ih =>
        intro f hds hf
        obtain ⟨hk, hd⟩ := List.getElem?_eq_some_iff.1 (hds 0 (Nat.succ_pos _))
        obtain ⟨a, ha⟩ := S.domains_eq hk
        have hcell := S.cells_get hk
        rw [hd] at hcell
        rw [List.length_cons, List.range'_succ, taskSum, bind_assoc, RecordList.ref, ha]
        refine get_does (S.mem_records hS ha) hcell ?_
        rw [bind_assoc]
        refine ih (k + 1) _ (fun i hi => ?_) hf
        rw [Nat.add_assoc, Nat.add_comm 1 i]
        exact hds (i + 1) (Nat.succ_lt_succ hi)
  unfold getTaskNum
  rw [bind_assoc, S.num, List.range_eq_range']
  refine hloop 0 S.owners _ (fun i hi => ?_) ?_
  · rw [Nat.zero_add, List.getElem?_eq_getElem hi]
  · rw [Vmtop.getTaskNum, DomainList.num, S.domains, List.map_map, List.length_map] at hf
    exact hf

/-! ### A frame -/

section Frame

variable {c : Config} {env : FrameEnv} {s : Lists} {s₀ : Vmtop.Lists} {lost : Footprint Record}

/-- The part of the main loop before the frame is made. -/
theorem sampleFrame_does (h : Alive s s₀ lost F) :
    Does F (sampleFrame c env s) (Vmtop.sampleFrame c env s₀) fun b x F' =>
      ∃ gone, Alive b x (gone + lost) F' ∧ (NamesFit env.refresh → gone = 0) := by
  unfold sampleFrame Vmtop.sampleFrame
  refine (refreshDomains_does h).bind fun b x F₁ hR => ?_
  obtain ⟨num, s⟩ := b
  obtain ⟨num', s₀⟩ := x
  obtain ⟨-, gone, ⟨hvcpu, S, P, rfl⟩, hfit⟩ := hR
  dsimp only at hvcpu S P ⊢
  split_ifs
  · refine Does.bind (refreshDomainsBandwidth_does ⟨S, rfl⟩) fun now now₀ F' hR => ?_
    obtain ⟨S', rfl⟩ := hR
    exact Does.pure ⟨gone, ⟨hvcpu, S', P, rfl⟩, hfit⟩
  · exact Does.pure ⟨gone, ⟨hvcpu, S, P, rfl⟩, hfit⟩

/-- The frames of a run on lists, with the thread mode that each of them is shown in. -/
def shownFrames (c : Config) :
    List (FrameEnv × Bool) → Vmtop.Lists → Except Fault (List (List Task × ℤ) × Vmtop.Lists)
  | [], s => .ok ([], s)
  | input :: inputs, s => do
      let s ← Vmtop.sampleFrame c input.1 s
      let (shown, s') ← shownFrames c inputs s
      .ok ((shownTasks input.2 s.now, Vmtop.getTaskNum s.now) :: shown, s')

/-- **A frame in memory** shows what it shows on lists. -/
theorem frame_does {threadMode : Bool} (h : Alive s s₀ lost F) :
    Does F (frame c env threadMode s) (Vmtop.sampleFrame c env s₀) fun b x F' =>
      b.1 = shownTasks threadMode x.now ∧ b.2.1 = Vmtop.getTaskNum x.now ∧
        ∃ gone, Alive b.2.2 x (gone + lost) F' ∧ (NamesFit env.refresh → gone = 0) := by
  unfold frame
  have hframe : Does F (sampleFrame c env s) (Vmtop.sampleFrame c env s₀) fun b x F' =>
      ∃ gone, Alive b x (gone + lost) F' ∧ (NamesFit env.refresh → gone = 0) :=
    sampleFrame_does h
  have hdone := hframe.bind (g := fun x => .ok x)
    (f := fun s => walk threadMode s.now (List.range s.now.num) >>= fun tasks =>
      getTaskNum s.now >>= fun taskNum => pure (tasks, taskNum, s))
    (S := fun b x F' => b.1 = shownTasks threadMode x.now ∧ b.2.1 = Vmtop.getTaskNum x.now ∧
      ∃ gone, Alive b.2.2 x (gone + lost) F' ∧ (NamesFit env.refresh → gone = 0))
    fun s x F' hR => by
      obtain ⟨gone, ⟨hvcpu, S, P, rfl⟩, hfit⟩ := hR
      have hS : S.footprint ≤ S.footprint + (P.footprint + (gone + lost)) :=
        Multiset.le_add_right _ _
      exact walk_does S hS (getTaskNum_does S hS
        (Does.pure ⟨rfl, rfl, gone, ⟨hvcpu, S, P, rfl⟩, hfit⟩))
  have hid : (Vmtop.sampleFrame c env s₀ >>= fun x => .ok x) = Vmtop.sampleFrame c env s₀ := by
    cases Vmtop.sampleFrame c env s₀ <;> rfl
  rwa [hid] at hdone

/-! ### A run -/

/-- A run in memory, from lists that lie in it. -/
theorem frames_does (inputs : List (FrameEnv × Bool)) (h : Alive s s₀ lost F) :
    Does F (frames c inputs s) (shownFrames c inputs s₀) fun b x F' => b.1 = x.1 ∧
      ∃ gone, Alive b.2 x.2 (gone + lost) F' ∧
        ((∀ input ∈ inputs, NamesFit input.1.refresh) → gone = 0) := by
  induction inputs generalizing s s₀ lost F with
  | nil => exact Does.pure ⟨rfl, 0, by rwa [zero_add], fun _ => rfl⟩
  | cons input inputs ih =>
      rw [frames, shownFrames]
      refine (frame_does h).bind fun b x F₁ hR => ?_
      obtain ⟨tasks, taskNum, s₁⟩ := b
      obtain ⟨rfl, rfl, gone, hlive, hfit⟩ := hR
      dsimp only at hlive ⊢
      refine (ih hlive).bind fun b x' F' hR => ?_
      obtain ⟨shown, s'⟩ := b
      obtain ⟨shown', s₀'⟩ := x'
      obtain ⟨rfl, gone', hlive', hfit'⟩ := hR
      refine Does.pure ⟨rfl, gone' + gone, ?_, fun hall => ?_⟩
      · rw [add_assoc]
        exact hlive'
      · rw [List.forall_mem_cons] at hall
        rw [hfit hall.1, hfit' hall.2, zero_add]

/-- At the start nothing is alive. -/
theorem alive_start (rows : Arr maxVcpuNum Task) :
    Alive (Lists.start rows) (Vmtop.Lists.start rows) 0 0 where
  vcpuList := rfl
  layouts :=
    let S : Layout ⟨none, 0, 0, fun _ => 0⟩ .empty :=
      ⟨[], [], rfl, fun _ h => absurd h List.not_mem_nil, rfl, Nat.zero_le _, fun _ => rfl, rfl,
        rfl⟩
    ⟨S, S, rfl⟩

/-- **Every run in memory is the run on lists**: it shows the same tasks, with the same count of
them, and ends where the other ends, in the same fault if in any; so none of its accesses is through
a null or a dead pointer, past the end of an array or to a cell that was not written, and
nothing is freed twice.  Behind it the arrays of the two lists are alive, each array of threads
pointed to by one record, and what was lost behind a name that is too long. -/
theorem frames_refine (c : Config) (rows : Arr maxVcpuNum Task)
    (inputs : List (FrameEnv × Bool)) :
    Does 0 (frames c inputs (Lists.start rows)) (shownFrames c inputs (Vmtop.Lists.start rows))
      fun b x F => b.1 = x.1 ∧ ∃ lost, Alive b.2 x.2 lost F ∧
        ((∀ input ∈ inputs, NamesFit input.1.refresh) → lost = 0) := by
  refine (frames_does inputs (alive_start rows)).mono fun b x F hR => ?_
  obtain ⟨hshown, gone, hlive, hfit⟩ := hR
  rw [add_zero] at hlive
  exact ⟨hshown, gone, hlive, hfit⟩

/-! ### How much is alive -/

/-- The number of records in some arrays. -/
def cellCount (F : Footprint Record) : ℕ := (F.map fun block => block.2.length).sum

theorem cellCount_add (F G : Footprint Record) : cellCount (F + G) = cellCount F + cellCount G := by
  rw [cellCount, Multiset.map_add, Multiset.sum_add]
  rfl

theorem cellCount_arrays (ds : List (ℕ × Domain)) :
    cellCount (arrays ds) = (ds.map fun d => d.2.threads.length).sum := by
  induction ds with
  | nil => rfl
  | cons d ds ih =>
      rw [arrays_cons, cellCount, Multiset.map_cons, Multiset.sum_cons, List.map_cons,
        List.sum_cons, threadCells_length]
      exact congrArg _ ih

/-- A list owns a record for each of its tasks, and at most one more, in as many arrays as it has
records and at most one more. -/
theorem Layout.cellCount_le (S : Layout list l) :
    cellCount S.footprint ≤ (shownTasks true l).length + 1 ∧
      S.footprint.card ≤ l.num + 1 := by
  have hdomains : (shownTasks true l).length =
      S.owners.length + (S.owners.map fun d => d.2.threads.length).sum := by
    have howners : ∀ ds : List (ℕ × Domain), (∀ d ∈ ds, d ∈ S.owners) →
        ((ds.map Prod.snd).flatMap fun d => d.toTask :: if true then d.lwps else []).length =
          ds.length + (ds.map fun d => d.2.threads.length).sum := by
      intro ds hds
      induction ds with
      | nil => rfl
      | cons d ds ih =>
          rw [List.forall_mem_cons] at hds
          have hlength := congrArg List.length (Domain.lwps_eq (S.complete d hds.1))
          rw [List.map_cons, List.flatMap_cons, List.length_append, ih hds.2, List.length_cons,
            if_pos rfl, hlength, List.length_cons, List.map_cons, List.sum_cons]
          omega
    rw [shownTasks, S.domains]
    exact howners S.owners fun d hd => hd
  have hcard : (arrays S.owners).card = l.num := by
    rw [DomainList.num, S.domains, List.length_map]
    exact List.length_map _
  have hspare := S.spare_le
  rw [Layout.footprint, cellCount_add, cellCount_arrays, Multiset.card_add, hcard, hdomains]
  cases list.domains with
  | none =>
      rw [arrayAt, Option.elim_none, cellCount, Multiset.map_zero, Multiset.sum_zero,
        Multiset.card_zero]
      omega
  | some a =>
      rw [arrayAt_some, cellCount, Multiset.map_singleton, Multiset.sum_singleton,
        Multiset.card_singleton, Layout.cells, List.length_append, List.length_map,
        List.length_map]
      omega

/-- **What a run holds does not grow with its length**: where all names fit, at most as many
records are alive as the last two snapshots have tasks, and two more. -/
theorem frames_bounded (c : Config) (rows : Arr maxVcpuNum Task) {inputs : List (FrameEnv × Bool)}
    (hfit : ∀ input ∈ inputs, NamesFit input.1.refresh) :
    Does 0 (frames c inputs (Lists.start rows)) (shownFrames c inputs (Vmtop.Lists.start rows))
      fun _ x F =>
        cellCount F ≤ (shownTasks true x.2.now).length + (shownTasks true x.2.pre).length + 2 ∧
          F.card ≤ x.2.now.num + x.2.pre.num + 2 := by
  refine (frames_does inputs (alive_start rows)).mono fun b x F hR => ?_
  obtain ⟨-, gone, ⟨-, S, P, rfl⟩, hgone⟩ := hR
  have hnow := S.cellCount_le
  have hpre := P.cellCount_le
  have hzero : cellCount (0 : Footprint Record) = 0 := rfl
  rw [hgone hfit, add_zero, add_zero, cellCount_add, Multiset.card_add]
  omega

/-- Two frames of a host with one virtual machine, from an empty heap. -/
theorem frames_bounded_host : ∃ b h F, Holds h F ∧ cellCount F ≤ 6 ∧ F.card ≤ 4 ∧
    frames hostConfig [(hostFrame 5 3, true), (hostFrame 8 10, false)]
      (Lists.start fun _ => Task.zero) .empty = .ok (b, h) := by
  have hfit : ∀ input ∈ [(hostFrame 5 3, true), (hostFrame 8 10, false)],
      NamesFit input.1.refresh := by
    rintro input hinput entries hdir e he
    rw [TooLong]
    simp only [List.mem_cons, List.not_mem_nil, or_false] at hinput
    rcases hinput with rfl | rfl <;> cases hdir <;> rw [List.mem_singleton.1 he] <;> decide
  have hshown : (shownFrames hostConfig [(hostFrame 5 3, true), (hostFrame 8 10, false)]
      (Vmtop.Lists.start fun _ => Task.zero)).toOption.map (fun x =>
        ((shownTasks true x.2.now).length, (shownTasks true x.2.pre).length, x.2.now.num,
          x.2.pre.num)) = some (2, 2, 1, 1) := by decide +kernel
  obtain ⟨x, hx, hcounts⟩ := Option.map_eq_some_iff.1 hshown
  rw [toOption_eq_some] at hx
  simp only [Prod.mk.injEq] at hcounts
  obtain ⟨hnow, hpre, hnum, hnum'⟩ := hcounts
  have hbounded := frames_bounded hostConfig (fun _ => Task.zero) hfit
  rw [hx] at hbounded
  obtain ⟨b, h, F, hok, hF, hcells, hcard⟩ := hbounded.run .empty holds_empty
  exact ⟨b, h, F, hF, by omega, by omega, hok⟩

end Frame

end Memory
end Vmtop
