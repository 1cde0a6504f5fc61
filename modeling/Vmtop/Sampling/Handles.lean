/-
# A sampling of the bandwidth loses nothing

`get_mon_MB` opens a file for every node and may stop at any of them; behind the label `out`
it closes those that it had opened (`getMonMBHeld_balanced`).  The other functions of
`resctrl.c` close their directory on every exit.  So `refresh_domains_bandwidth` holds
behind it what it held before (`refreshDomainsBandwidthHeld_balanced`).
-/

import Vmtop.Handles
import Vmtop.Sampling.Subscripts

namespace Vmtop

open CText CArray Ledgers

variable {fs : MonFs} {path : Text} {nodes : List ℕ} {node : ℕ} {nodeNum : ℤ} {fps : OpenFiles}
  {L : Ledger Kind}

/-! ### The files of the nodes -/

/-- The handle of the file of a node, if it is open. -/
def openHandle (fps : OpenFiles) (node : ℕ) : Option ℕ :=
  if h : node < maxNodeNum then (fps ⟨node, h⟩).map Prod.fst else none

/-- The handles that the loop behind the label `out` closes. -/
def openHandles (fps : OpenFiles) (nodes : List ℕ) : List ℕ := nodes.filterMap (openHandle fps)

/-- No file but those of the nodes is kept. -/
def keptFiles (hs : List ℕ) (k : Kind) : List ℕ := if k = .file then hs else []

theorem openHandles_cons : openHandles fps (node :: nodes) =
    (openHandle fps node).toList ++ openHandles fps nodes := by
  unfold openHandles
  cases hnode : openHandle fps node with
  | none => rw [List.filterMap_cons_none hnode, Option.toList_none, List.nil_append]
  | some h => rw [List.filterMap_cons_some hnode, Option.toList_some, List.singleton_append]

theorem closeNodes_eq (hn : ∀ node ∈ nodes, node < maxNodeNum) :
    closeNodes fps nodes = releaseAll .file (openHandles fps nodes) := by
  induction nodes with
  | nil => rfl
  | cons node rest ih =>
      rw [List.forall_mem_cons] at hn
      rw [closeNodes, load_of_lt _ hn.1, plain_bind, ih hn.2, openHandles_cons, openHandle,
        dif_pos hn.1]
      cases fps ⟨node, hn.1⟩ with
      | none => rfl
      | some p => rfl

/-- Storing the file of one node. -/
theorem openHandle_update (hn : node < maxNodeNum) (fp : Option (ℕ × (ℕ → Text))) (j : ℕ) :
    openHandle (Function.update fps ⟨node, hn⟩ fp) j =
      if j = node then fp.map Prod.fst else openHandle fps j := by
  unfold openHandle
  by_cases hj : j = node
  · subst hj
    rw [dif_pos hn, Function.update_self, if_pos rfl]
  · rw [if_neg hj]
    split_ifs
    · rw [Function.update_of_ne fun heq => hj (congrArg Fin.val heq)]
    · rfl

theorem contents_update (i : Fin maxNodeNum) (fp : Option (ℕ × (ℕ → Text))) :
    OpenFiles.contents (Function.update fps i fp) =
      Function.update fps.contents i (fp.map Prod.snd) := by
  funext j
  by_cases hj : j = i
  · subst hj
    rw [OpenFiles.contents, Function.update_self, Function.update_self]
  · rw [OpenFiles.contents, Function.update_of_ne hj, Function.update_of_ne hj, OpenFiles.contents]

/-- What the first loop keeps. -/
structure FilesHeld (nodes : List ℕ) (fps fps' : OpenFiles) (L L' : Ledger Kind) : Prop where
  others : ∀ node ∉ nodes, openHandle fps' node = openHandle fps node
  kept : Grown (keptFiles (openHandles fps' nodes)) (fun _ => 0) L L'

/-- Nothing is kept of nodes without an open file. -/
theorem FilesHeld.of_closed {fps' : OpenFiles}
    (hothers : ∀ node ∉ nodes, openHandle fps' node = openHandle fps node)
    (hclosed : ∀ node ∈ nodes, openHandle fps' node = none) : FilesHeld nodes fps fps' L L where
  others := hothers
  kept := by
    have hkept : keptFiles (openHandles fps' nodes) = fun _ => [] := by
      rw [openHandles, List.filterMap_eq_nil_iff.2 hclosed]
      funext k
      exact ite_self _
    rw [hkept]
    exact .of_held_eq rfl

/-- A file in front is kept, too. -/
theorem FilesHeld.cons {fps' : OpenFiles} {file : ℕ → Text} {L' : Ledger Kind}
    (hn : node < maxNodeNum) (hnode : node ∉ nodes)
    (h : FilesHeld nodes (Function.update fps ⟨node, hn⟩ (some (L.next, file))) fps'
      (L.enter .file) L') : FilesHeld (node :: nodes) fps fps' L L' where
  others j hj := by
    rw [List.mem_cons, not_or] at hj
    rw [h.others j hj.2, openHandle_update, if_neg hj.1]
  kept := by
    have hhandle : openHandle fps' node = some L.next := by
      rw [h.others node hnode, openHandle_update, if_pos rfl]
      rfl
    have hkept : keptFiles (openHandles fps' (node :: nodes)) =
        fun k => (if k = .file then [L.next] else []) ++ keptFiles (openHandles fps' nodes) k := by
      funext k
      rw [openHandles_cons, hhandle]
      cases k <;> rfl
    rw [hkept]
    exact (grown_enter L .file).trans h.kept

/-- **The first loop keeps the files that it opened**, whether or not it opened all of them. -/
theorem openNodesHeld_follows (hnodup : nodes.Nodup) (hn : ∀ node ∈ nodes, node < maxNodeNum)
    (hclosed : ∀ node ∈ nodes, openHandle fps node = none) :
    Follows L (openNodesHeld fs path nodes fps) (openNodes fs path nodes fps.contents)
      fun b a L' => (b.1, b.2.contents) = a ∧ FilesHeld nodes fps b.2 L L' := by
  induction nodes generalizing fps L with
  | nil => exact Follows.pure ⟨rfl, .of_closed (fun _ _ => rfl) hclosed⟩
  | cons node rest ih =>
      rw [List.nodup_cons] at hnodup
      rw [List.forall_mem_cons] at hn hclosed
      rw [openNodesHeld, openNodes, store_of_lt _ hn.1, ok_bind, load_of_lt _ hn.1, ok_bind,
        Function.update_self]
      -- the file is stored and loaded once more
      have hstored (fp : Option (ℕ × (ℕ → Text))) :
          (do
            let fps ← plain (store fps node fp)
            let fp ← plain (load fps node)
            if fp.isNone then pure (false, fps) else openNodesHeld fs path rest fps) =
          if fp.isNone then pure (false, Function.update fps ⟨node, hn.1⟩ fp)
          else openNodesHeld fs path rest (Function.update fps ⟨node, hn.1⟩ fp) := by
        rw [store_of_lt _ hn.1, plain_bind, load_of_lt _ hn.1, plain_bind, Function.update_self]
      simp only [hstored]
      have hrest : ∀ j ∈ rest, j ≠ node := fun j hj heq => hnodup.1 (heq ▸ hj)
      cases hopen : fs.fopen (monDataPath path node) with
      | none =>
          refine Follows.pure ⟨?_, .of_closed (fun j hj => ?_) fun j hj => ?_⟩
          · rw [contents_update]
            rfl
          · rw [List.mem_cons, not_or] at hj
            rw [openHandle_update, if_neg hj.1]
          · rw [openHandle_update]
            rcases List.mem_cons.1 hj with rfl | hj
            · exact if_pos rfl
            · rw [if_neg (hrest j hj)]
              exact hclosed.2 j hj
      | some file =>
          have hopened : fopenHeld (some file) L = .ok (some (L.next, file), L.enter .file) := rfl
          have hstill : ∀ j ∈ rest, openHandle
              (Function.update fps ⟨node, hn.1⟩ (some (L.next, file))) j = none := fun j hj => by
            rw [openHandle_update, if_neg (hrest j hj)]
            exact hclosed.2 j hj
          have hloop := ih (L := L.enter .file) hnodup.2 hn.2 hstill
          rw [contents_update] at hloop
          exact (hloop.mono fun b a L' hR => ⟨hR.1, hR.2.cons hn.1 hnodup.1⟩).of_run
            (bind_run hopened)

/-- **`get_mon_MB` closes every file that it opened**, on each of its exits. -/
theorem getMonMBHeld_balanced (hn : nodeNum ≤ maxNodeNum) (bandwidth : Arr maxNodeNum Long) :
    Balanced (getMonMBHeld fs bandwidth path nodeNum) (getMonMB fs bandwidth path nodeNum) := by
  intro L
  have hnodes : ∀ node ∈ List.range nodeNum.toNat, node < maxNodeNum := fun _ => lt_of_mem_nodes hn
  have hclosed : ∀ node ∈ List.range nodeNum.toNat, openHandle (fun _ => none) node = none := by
    intro node _
    unfold openHandle
    split_ifs <;> rfl
  unfold getMonMBHeld getMonMB
  refine (openNodesHeld_follows List.nodup_range hnodes hclosed).bind fun b a L₁ hR => ?_
  obtain ⟨opened, fps⟩ := b
  obtain ⟨rfl, hheld⟩ := hR
  obtain ⟨L₂, hrun, hheld₂⟩ := Grown.releaseAll hheld.kept
  rw [← closeNodes_eq hnodes] at hrun
  dsimp only
  -- the means are taken while the files are open, and whatever comes of them they are closed
  generalize (if opened then _ else _ : Except Fault (ℤ × Arr maxNodeNum Long)) = got
  cases got with
  | error e => rfl
  | ok r =>
      rw [plain_bind]
      exact (Follows.pure ⟨rfl, hheld₂⟩).of_run (bind_run hrun)

/-! ### The groups -/

theorem getNumaNumHeld_balanced (fs : MonFs) (nodeNum : ℤ) :
    Balanced (getNumaNumHeld fs nodeNum) (.ok (getNumaNum fs nodeNum)) := by
  unfold getNumaNumHeld getNumaNum
  cases fs.dir rootMonData with
  | none => exact .pure _
  | some names => exact balanced_released _ _

theorem getRootMonBandwidthHeld_balanced (hn : nodeNum ≤ maxNodeNum)
    (bandwidth : Arr maxNodeNum Long) :
    Balanced (getRootMonBandwidthHeld fs bandwidth nodeNum)
      (getRootMonBandwidth fs bandwidth nodeNum) :=
  (getMonMBHeld_balanced hn bandwidth).bind fun _ _ => .pure _

theorem getVmCtlPathHeld_balanced (fs : MonFs) (domainId : ℤ) :
    Balanced (getVmCtlPathHeld fs domainId) (.ok (getVmCtlPath fs domainId)) := by
  unfold getVmCtlPathHeld getVmCtlPath
  cases fs.dir resctrlFilesystemDir with
  | none => exact .pure _
  | some names => exact balanced_released _ _

theorem getVmCtlBandwidthHeld_balanced (hn : nodeNum ≤ maxNodeNum) (dom : Domain) :
    Balanced (getVmCtlBandwidthHeld fs dom nodeNum) (getVmCtlBandwidth fs dom nodeNum) := by
  unfold getVmCtlBandwidthHeld getVmCtlBandwidth
  refine (getVmCtlPathHeld_balanced fs dom.domainId).seq ?_
  cases getVmCtlPath fs dom.domainId with
  | none => exact .pure _
  | some path => exact (getMonMBHeld_balanced hn dom.ctlBandwidth).bind fun _ _ => .pure _

/-! ### The rounds -/

theorem sampleVmsHeld_balanced (fs : ℕ → MonFs) (hn : nodeNum ≤ maxNodeNum) (i : ℕ)
    (doms : List Domain) (times : SampleTimes) :
    Balanced (sampleVmsHeld fs nodeNum i doms times) (sampleVms fs nodeNum i doms times) := by
  induction doms generalizing i times with
  | nil => exact .pure _
  | cons dom rest ih =>
      refine (getVmCtlBandwidthHeld_balanced hn dom).bind fun p _ => ?_
      exact (balanced_plain _).bind fun times _ => (ih (i + 1) times).bind fun _ _ => .pure _

theorem sampleRoundHeld_balanced (env : BandwidthEnv) {st : Rounds} (round : ℕ)
    (hn : st.now.nodeNum ≤ maxNodeNum) :
    Balanced (sampleRoundHeld env st round) (sampleRound env st round) :=
  (sampleVmsHeld_balanced _ hn _ _ _).bind fun _ _ =>
    (getRootMonBandwidthHeld_balanced hn _).bind fun _ _ => .pure _

/-- **`refresh_domains_bandwidth` closes every directory and every file that it opened.** -/
theorem refreshDomainsBandwidthHeld_balanced (env : BandwidthEnv) (now : DomainList) :
    Balanced (refreshDomainsBandwidthHeld env now) (refreshDomainsBandwidth env now) := by
  unfold refreshDomainsBandwidthHeld refreshDomainsBandwidth
  refine (getNumaNumHeld_balanced env.numa now.nodeNum).seq ?_
  dsimp only
  split_ifs with hr
  · exact .pure _
  · obtain ⟨-, hle⟩ := getNumaNum_le (Int.not_lt.1 hr)
    refine (Balanced.foldlM (P := fun st : Rounds => st.now.nodeNum ≤ maxNodeNum)
      (fun st round hst => sampleRoundHeld_balanced env round hst) ?_ _ hle).bind
        fun st _ => balanced_plain _
    intro st round st' hst hround
    have hends := sampleRound_ends env st round hst
    rw [hround] at hends
    exact hends.2.trans_le hst

end Vmtop
