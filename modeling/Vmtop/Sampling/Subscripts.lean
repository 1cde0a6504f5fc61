/-
# Which subscripts the sampling of bandwidth uses

`refresh_domains_bandwidth` indexes arrays by the number of a node and by the
position of a virtual machine.  The nodes are bounded by `get_numa_num`
(`getNumaNum_le`), so the functions of `resctrl.c` never leave their arrays
(`getMonMB_ends`).  The virtual machines are not: `sample_times_vms` is left as
soon as the list is longer than the array, and only then
(`refreshDomainsBandwidth_ends`).
-/

import Mathlib.Data.List.Forall2
import Vmtop.Bandwidth

namespace Vmtop

open CText CArray

variable {E : Fault → Prop} {fs : MonFs} {nodeNum : ℤ}

/-! ### The nodes -/

/-- The largest node number is `-1` or the number of a node there is room for. -/
theorem maxNodeStep_bounds {maxNode : ℤ} (h : -1 ≤ maxNode ∧ maxNode < maxNodeNum) (name : Text) :
    -1 ≤ maxNodeStep maxNode name ∧ maxNodeStep maxNode name < maxNodeNum := by
  simp only [maxNodeStep]
  split_ifs <;> omega

theorem foldl_maxNodeStep_bounds (names : List Text) :
    -1 ≤ names.foldl maxNodeStep (-1) ∧ names.foldl maxNodeStep (-1) < maxNodeNum :=
  List.foldlRecOn (motive := fun m : ℤ => -1 ≤ m ∧ m < maxNodeNum) names maxNodeStep (by decide)
    fun _ hb name _ => maxNodeStep_bounds hb name

/-- **`get_numa_num` keeps the node count within the arrays.** -/
theorem getNumaNum_le (h : 0 ≤ (getNumaNum fs nodeNum).1) :
    1 ≤ (getNumaNum fs nodeNum).2 ∧ (getNumaNum fs nodeNum).2 ≤ maxNodeNum := by
  unfold getNumaNum at h ⊢
  cases hdir : fs.dir rootMonData with
  | none =>
      rw [hdir] at h
      exact absurd (show (0 : ℤ) ≤ -1 from h) (by decide)
  | some names =>
      rw [hdir] at h
      have hmax := foldl_maxNodeStep_bounds names
      dsimp only at h ⊢
      omega

/-- The nodes of a loop are within the arrays. -/
theorem lt_of_mem_nodes (hn : nodeNum ≤ maxNodeNum) {node : ℕ}
    (h : node ∈ List.range nodeNum.toNat) : node < maxNodeNum := by
  rw [List.mem_range] at h
  omega

theorem openNodes_ends {path : Text} {nodes : List ℕ} (hn : ∀ node ∈ nodes, node < maxNodeNum)
    (fps : Files) : Ends (openNodes fs path nodes fps) (fun _ => True) E := by
  induction nodes generalizing fps with
  | nil => trivial
  | cons node rest ih =>
      rw [List.forall_mem_cons] at hn
      rw [openNodes]
      refine (ends_store _ hn.1 _).bind fun fps _ => (ends_load _ hn.1).bind fun fp _ => ?_
      split_ifs
      · trivial
      · exact ih hn.2 fps

theorem sampleNode_ends (fps : Files) (i : ℕ) (st : Samples) {node : ℕ} (hn : node < maxNodeNum) :
    Ends (sampleNode fps i st node) (fun _ => True) E := by
  refine (ends_load _ hn).bind fun fp _ => ?_
  dsimp only
  split_ifs
  · exact (ends_load _ hn).bind fun _ _ => (ends_store _ hn _).bind fun _ _ =>
      (ends_load _ hn).bind fun _ _ => (ends_store _ hn _).bind fun _ _ => trivial
  · trivial

theorem addMeans_ends (st : Samples) {nodes : List ℕ} (hn : ∀ node ∈ nodes, node < maxNodeNum)
    (bandwidth : Arr maxNodeNum Long) : Ends (addMeans st nodes bandwidth) (fun _ => True) E := by
  induction nodes generalizing bandwidth with
  | nil => trivial
  | cons node rest ih =>
      rw [List.forall_mem_cons] at hn
      rw [addMeans]
      refine (ends_load _ hn.1).bind fun times _ => ?_
      split_ifs
      · trivial
      · exact (ends_load _ hn.1).bind fun _ _ => (ends_load _ hn.1).bind fun _ _ =>
          (ends_store _ hn.1 _).bind fun bandwidth _ => ih hn.2 bandwidth

/-- **`get_mon_MB` never leaves its arrays.** -/
theorem getMonMB_ends (hn : nodeNum ≤ maxNodeNum) (bandwidth : Arr maxNodeNum Long) (path : Text) :
    Ends (getMonMB fs bandwidth path nodeNum) (fun _ => True) E := by
  have hnodes : ∀ node ∈ List.range nodeNum.toNat, node < maxNodeNum := fun _ => lt_of_mem_nodes hn
  refine (openNodes_ends hnodes _).bind fun ⟨opened, fps⟩ _ => ?_
  dsimp only
  split_ifs
  · refine Ends.bind (P := fun _ => True) ?_ fun st _ => addMeans_ends st hnodes bandwidth
    exact Ends.foldlM (fun st i _ _ => Ends.foldlM
      (fun st node hnode _ => sampleNode_ends fps i st (hnodes node hnode)) trivial) trivial
  · trivial

/-! ### The virtual machines -/

/-- A record in which only what the sampling of bandwidth stores may differ. -/
def SameSample (d d' : Domain) : Prop :=
  d' = { d with
    ctlBandwidth := d'.ctlBandwidth
    bandwidthUpdatedSucc := d'.bandwidthUpdatedSucc }

theorem SameSample.trans {a b c : Domain} (h : SameSample a b) (h' : SameSample b c) :
    SameSample a c := by
  unfold SameSample at h h' ⊢
  rw [h', h]

/-- The lists of two records each, position by position. -/
abbrev SameSamples : List Domain → List Domain → Prop := List.Forall₂ SameSample

theorem SameSamples.refl (ds : List Domain) : SameSamples ds ds :=
  List.forall₂_same.2 fun _ _ => rfl

theorem SameSamples.trans {as bs cs : List Domain} (h : SameSamples as bs)
    (h' : SameSamples bs cs) : SameSamples as cs := by
  induction h generalizing cs with
  | nil =>
      cases h'
      exact .nil
  | cons hab _ ih =>
      cases h' with
      | cons hbc hrest => exact .cons (hab.trans hbc) (ih hrest)

theorem SameSamples.exists_left {ds ds' : List Domain} (h : SameSamples ds ds') {d' : Domain}
    (hd : d' ∈ ds') : ∃ d ∈ ds, SameSample d d' := by
  induction h with
  | nil => cases hd
  | @cons a b as bs hab _ ih =>
      rcases List.mem_cons.1 hd with rfl | hd
      · exact ⟨a, List.mem_cons_self, hab⟩
      · obtain ⟨d, hmem, hsame⟩ := ih hd
        exact ⟨d, List.mem_cons_of_mem _ hmem, hsame⟩

theorem getVmCtlBandwidth_ends (hn : nodeNum ≤ maxNodeNum) (dom : Domain) :
    Ends (getVmCtlBandwidth fs dom nodeNum) (fun r => SameSample dom r.2) E := by
  unfold getVmCtlBandwidth
  cases getVmCtlPath fs dom.domainId with
  | none => exact (rfl : SameSample dom dom)
  | some path => exact (getMonMB_ends hn _ path).bind fun ⟨_, _⟩ _ => rfl

/-- An access past the end of `sample_times_vms`. -/
def PastTimes (e : Fault) : Prop := ∃ i, e = .outOfBounds i maxVmTasksNum

/-- An access to `sample_times_vms` either is within the array or faults. -/
theorem ends_load_times (times : SampleTimes) (i : ℕ) :
    Ends (load times i) (fun _ => i < maxVmTasksNum) fun e => maxVmTasksNum ≤ i ∧ PastTimes e := by
  unfold load
  split_ifs with h
  · exact h
  · exact ⟨Nat.not_lt.1 h, i, rfl⟩

/-- The rounds leave `sample_times_vms` only where the list is longer. -/
theorem sampleVms_ends (fs : ℕ → MonFs) (hn : nodeNum ≤ maxNodeNum) (i : ℕ) (doms : List Domain)
    (times : SampleTimes) :
    Ends (sampleVms fs nodeNum i doms times) (fun r => SameSamples doms r.1)
      fun e => maxVmTasksNum < i + doms.length ∧ PastTimes e := by
  induction doms generalizing i times with
  | nil => exact .nil
  | cons dom rest ih =>
      rw [sampleVms]
      refine (getVmCtlBandwidth_ends hn dom).bind fun ⟨r, dom'⟩ hdom => ?_
      refine Ends.bind (P := fun _ => True) ?_ fun times _ => ?_
      · unfold countSample
        split_ifs
        · trivial
        · refine ((ends_load_times times i).mono (fun _ h => h) ?_).bind fun _ hi =>
            (ends_store _ hi _)
          rintro e ⟨hi, he⟩
          exact ⟨by rw [List.length_cons]; omega, he⟩
      · refine ((ih (i + 1) times).mono (fun _ h => h) ?_).bind fun ⟨doms, _⟩ hdoms => ?_
        · rintro e ⟨hlen, he⟩
          exact ⟨by rw [List.length_cons]; omega, he⟩
        · exact .cons hdom hdoms

/-- The means read an entry of `sample_times_vms` for every virtual machine. -/
theorem meanVms_ends (times : SampleTimes) {node : ℕ} (hn : node < maxNodeNum) (i : ℕ)
    (doms : List Domain) (host : Long) (nodeVms : ℤ) (hi : i ≤ maxVmTasksNum) :
    Ends (meanVms times node i doms host nodeVms)
      (fun r => i + doms.length ≤ maxVmTasksNum ∧ SameSamples doms r.1)
      fun e => maxVmTasksNum < i + doms.length ∧ PastTimes e := by
  induction doms generalizing i host nodeVms with
  | nil => exact ⟨hi, .nil⟩
  | cons dom rest ih =>
      have hlen : i + (dom :: rest).length = i + 1 + rest.length := by
        rw [List.length_cons]
        omega
      rw [meanVms, hlen]
      refine ((ends_load_times times i).mono (fun _ h => h) ?_).bind fun n hlt => ?_
      · rintro e ⟨hle, he⟩
        exact ⟨by omega, he⟩
      · split_ifs
        · refine (ends_load _ hn).bind fun _ _ => (ends_store _ hn _).bind fun ctl _ => ?_
          exact (ih (i + 1) _ _ hlt).bind fun ⟨_, _, _⟩ h => ⟨h.1, .cons rfl h.2⟩
        · exact (ih (i + 1) _ _ hlt).bind fun ⟨_, _, _⟩ h => ⟨h.1, .cons rfl h.2⟩

/-- Two lists that agree on all but the bandwidths. -/
def SameList (l l' : DomainList) : Prop :=
  SameSamples l.domains l'.domains ∧ l'.nodeNum = l.nodeNum

theorem SameList.refl (l : DomainList) : SameList l l :=
  ⟨SameSamples.refl _, rfl⟩

theorem SameList.trans {a b c : DomainList} (h : SameList a b) (h' : SameList b c) :
    SameList a c :=
  ⟨SameSamples.trans h.1 h'.1, h'.2.trans h.2⟩

theorem SameList.num_eq {l l' : DomainList} (h : SameList l l') : l'.num = l.num :=
  h.1.length_eq.symm

variable {now : DomainList}

/-- One node reads an entry for every virtual machine. -/
theorem calculateNode_ends (times : SampleTimes) (host : ℤ) {node : ℕ} (hn : node < maxNodeNum) :
    Ends (calculateNode times host now node)
      (fun now' => now.num ≤ maxVmTasksNum ∧ SameList now now')
      fun e => maxVmTasksNum < now.num ∧ PastTimes e := by
  refine (ends_load _ hn).bind fun _ _ => ?_
  have h := meanVms_ends times hn 0 now.domains
  simp only [Nat.zero_add, Nat.zero_le, forall_const] at h
  exact (h _ _).bind fun ⟨doms, _, _⟩ hdoms =>
    (ends_store _ hn _).bind fun _ _ => ⟨hdoms.1, hdoms.2, rfl⟩

/-- **The means need an entry for every virtual machine**, as soon as there is a node. -/
theorem calculateAllBandwidth_ends (times : SampleTimes) (host : ℤ)
    (hn : 1 ≤ now.nodeNum ∧ now.nodeNum ≤ maxNodeNum) :
    Ends (calculateAllBandwidth now times host)
      (fun now' => now.num ≤ maxVmTasksNum ∧ SameList now now')
      fun e => maxVmTasksNum < now.num ∧ PastTimes e := by
  obtain ⟨k, hk⟩ : ∃ k, now.nodeNum.toNat = k + 1 := ⟨now.nodeNum.toNat - 1, by omega⟩
  have hnodes : ∀ node ∈ List.range (k + 1), node < maxNodeNum := by
    rw [← hk]
    exact fun _ => lt_of_mem_nodes hn.2
  rw [List.range_succ_eq_map, List.forall_mem_cons] at hnodes
  rw [calculateAllBandwidth, hk, List.range_succ_eq_map, List.foldlM_cons]
  refine (calculateNode_ends times host hnodes.1).bind fun now₁ h₁ => ?_
  refine Ends.foldlM (fun now₂ node hnode h₂ => ?_) h₁
  refine (calculateNode_ends times host (hnodes.2 node hnode)).mono (fun now₃ h₃ => ?_)
    fun e he => ?_
  · exact ⟨h₁.1, h₂.2.trans h₃.2⟩
  · rw [h₂.2.num_eq] at he
    exact he

theorem sampleRound_ends (env : BandwidthEnv) (st : Rounds) (round : ℕ)
    (hn : st.now.nodeNum ≤ maxNodeNum) :
    Ends (sampleRound env st round) (fun st' => SameList st.now st'.now)
      fun e => maxVmTasksNum < st.now.num ∧ PastTimes e := by
  have h := sampleVms_ends (env.vm round) hn 0 st.now.domains st.sampleTimesVms
  rw [Nat.zero_add] at h
  refine h.bind fun ⟨doms, times⟩ hdoms => ?_
  refine Ends.bind (P := fun _ => True) ?_ fun ⟨r, bandwidth⟩ _ => ⟨hdoms, rfl⟩
  exact (getMonMB_ends hn _ _).bind fun ⟨_, _⟩ _ => trivial

/-- **`refresh_domains_bandwidth` leaves `sample_times_vms` exactly when it samples a
list that is longer.**  Otherwise it changes the bandwidths only. -/
theorem refreshDomainsBandwidth_ends (env : BandwidthEnv) (now : DomainList) :
    Ends (refreshDomainsBandwidth env now)
      (fun now' => SameSamples now.domains now'.domains ∧
        now'.nodeNum = (getNumaNum env.numa now.nodeNum).2 ∧
        (0 ≤ (getNumaNum env.numa now.nodeNum).1 → now.num ≤ maxVmTasksNum))
      fun e => 0 ≤ (getNumaNum env.numa now.nodeNum).1 ∧ maxVmTasksNum < now.num ∧
        PastTimes e := by
  unfold refreshDomainsBandwidth
  dsimp only
  split_ifs with hr
  · exact ⟨SameSamples.refl _, rfl, fun h => absurd h (Int.not_le.2 hr)⟩
  · have hr := Int.not_lt.1 hr
    obtain ⟨hpos, hle⟩ := getNumaNum_le hr
    let counted : DomainList := { now with nodeNum := (getNumaNum env.numa now.nodeNum).2 }
    have hrounds : Ends ((List.range sampleTimesOuter).foldlM (sampleRound env)
        ⟨counted, fun _ => 0, 0⟩) (fun st => SameList counted st.now)
        fun e => 0 ≤ (getNumaNum env.numa now.nodeNum).1 ∧ maxVmTasksNum < now.num ∧
          PastTimes e := by
      refine Ends.foldlM (fun st round _ hst => ?_) (SameList.refl _)
      refine (sampleRound_ends env st round (by rw [hst.2]; exact hle)).mono
        (fun _ h => hst.trans h) fun e he => ⟨hr, ?_⟩
      rw [hst.num_eq] at he
      exact he
    refine hrounds.bind fun st hst => ?_
    refine (calculateAllBandwidth_ends _ _ (by rw [hst.2]; exact ⟨hpos, hle⟩)).mono
      (fun now' h => ?_) fun e he => ⟨hr, ?_⟩
    · rw [hst.num_eq] at h
      exact ⟨(hst.trans h.2).1, (hst.trans h.2).2, fun _ => h.1⟩
    · rw [hst.num_eq] at he
      exact he

end Vmtop
