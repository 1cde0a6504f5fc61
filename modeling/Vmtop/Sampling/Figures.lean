/-
# What a frame shows of the bandwidth

A call of `get_mon_MB` adds the reading of each node up to the first that was not read, and a
call that fails is not counted but leaves what it added.  Three rounds of such calls, and a
division in place, make the figures of a frame.  What comes out for a virtual machine depends
on the readings of the group it is sampled from and on nothing else in the list: all that its
calls added, the failed ones too, over the number of those that are counted.  The host shows
the same of the root group, undivided where none is counted, and the total of the virtual
machines (`sampleFrame_figures`).
-/

import Vmtop.Refresh.Entries
import Vmtop.Sampling.Frames
import Vmtop.Sampling.Means

namespace Vmtop

open CText CArray

variable {fs : MonFs} {path : Text} {nodes : List ℕ} {n : ℤ}

/-! ### One call -/

/-- The nodes that a call adds a reading of. -/
def nodesAdded (fs : MonFs) (path : Text) (n : ℤ) : List ℕ :=
  if ∀ node ∈ List.range n.toNat, (fs.fopen (monDataPath path node)).isSome then
    (List.range n.toNat).takeWhile fun node => (counted fs path node).isSome
  else []

/-- What a call adds to a node. -/
def added (fs : MonFs) (path : Text) (n : ℤ) (node : ℕ) : Long :=
  if node ∈ nodesAdded fs path n then (counted fs path node).getD 0 else 0

/-- A call succeeds. -/
def readsAll (fs : MonFs) (path : Text) (n : ℤ) : Bool :=
  (List.range n.toNat).all fun node => (counted fs path node).isSome

/-- The last loop adds the readings up to the first node that was not read. -/
theorem addMeans_eq {st : Samples} {reading : ℕ → Option Long} (hnodes : nodes.Nodup)
    (hlt : ∀ node ∈ nodes, node < maxNodeNum)
    (hst : ∀ node ∈ nodes, Sampled st node (reading node)) (bandwidth : Arr maxNodeNum Long) :
    addMeans st nodes bandwidth =
      .ok (if nodes.all fun node => (reading node).isSome then 0 else -1,
        fun m => bandwidth m +
          if m.val ∈ nodes.takeWhile fun node => (reading node).isSome then
            (reading m).getD 0 else 0) := by
  induction nodes generalizing bandwidth with
  | nil => simp [addMeans]
  | cons node rest ih =>
      rw [List.nodup_cons] at hnodes
      rw [List.forall_mem_cons] at hlt hst
      obtain ⟨htimes, hsum⟩ := hst.1
      rw [addMeans, htimes, ok_bind]
      cases hread : reading node with
      | none =>
          rw [Option.elim_none, if_pos rfl, List.takeWhile_cons_of_neg (by simp [hread])]
          simp [hread]
      | some mean =>
          have hone : ¬ (1 : ℕ) = 0 := Nat.one_ne_zero
          rw [Option.elim_some, if_neg hone, hsum, ok_bind, load_of_lt _ hlt.1, ok_bind,
            store_of_lt _ hlt.1, ok_bind, ih hnodes.2 hlt.2 hst.2, hread,
            List.takeWhile_cons_of_pos (by simp [hread]), List.all_cons, hread, Option.isSome_some,
            Bool.true_and]
          congr 2
          funext m
          have hnot : node ∉ rest.takeWhile fun node => (reading node).isSome :=
            fun hmem => hnodes.1 (List.takeWhile_subset _ hmem)
          rw [Function.update_apply]
          by_cases hm : m = ⟨node, hlt.1⟩
          · subst hm
            simp [hnot, hread, divInt_one]
          · have hne : m.val ≠ node := fun heq => hm (Fin.ext heq)
            simp [hm, hne]

/-- **What one call does**: it adds the readings of some of the nodes, and succeeds if it reads
them all. -/
theorem getMonMB_eq (hn : n ≤ maxNodeNum) (bandwidth : Arr maxNodeNum Long) :
    getMonMB fs bandwidth path n =
      .ok (if readsAll fs path n then 0 else -1, fun m => bandwidth m + added fs path n m) := by
  have hends : Ends (getMonMB fs bandwidth path n) (fun _ => True) fun _ => False :=
    getMonMB_ends hn bandwidth path
  obtain ⟨⟨r, bandwidth'⟩, hcall, -⟩ := hends.exists_ok
  rcases getMonMB_eq_ok hcall with ⟨⟨node, hnode, hclosed⟩, rfl, rfl⟩ | ⟨fps, st, hopen, hst, hadd⟩
  · have hnone : counted fs path node = none := by
      rw [Option.not_isSome_iff_eq_none] at hclosed
      rw [counted, hclosed, Option.bind_none]
    have hfails : readsAll fs path n = false := by
      rw [readsAll, List.all_eq_false]
      exact ⟨node, hnode, by simp [hnone]⟩
    have hnodes : nodesAdded fs path n = [] := if_neg fun hall => hclosed (hall node hnode)
    simp only [hcall, hfails, added, hnodes, List.not_mem_nil, if_false, Int64.add_zero,
      Bool.false_eq_true]
  · obtain ⟨hopens, hsampled⟩ := sampled_of_opened List.nodup_range hopen hst
    have hlt : ∀ node ∈ List.range n.toNat, node < maxNodeNum := fun _ => lt_of_mem_nodes hn
    have hadded (node : ℕ) : added fs path n node =
        if node ∈ (List.range n.toNat).takeWhile fun node => (counted fs path node).isSome then
          (counted fs path node).getD 0 else 0 := by
      rw [added, nodesAdded, if_pos hopens]
    rw [hcall, ← hadd, addMeans_eq List.nodup_range hlt hsampled]
    simp only [readsAll, hadded]
    rfl

/-! ### One round -/

/-- What a sample adds to a node of a virtual machine. -/
def vmAdded (fs : MonFs) (id n : ℤ) (node : ℕ) : Long :=
  (getVmCtlPath fs id).elim 0 fun path => added fs path n node

/-- A sample of a virtual machine succeeds. -/
def vmReadsAll (fs : MonFs) (id n : ℤ) : Bool :=
  (getVmCtlPath fs id).elim false fun path => readsAll fs path n

/-- A record to which values are added. -/
def plusBandwidth (d : Domain) (values : ℕ → Long) : Domain :=
  { d with ctlBandwidth := fun node => d.ctlBandwidth node + values node }

theorem plusBandwidth_zero (d : Domain) : plusBandwidth d (fun _ => 0) = d := by
  simp only [plusBandwidth, Int64.add_zero]

theorem plusBandwidth_plusBandwidth (d : Domain) (values values' : ℕ → Long) :
    plusBandwidth (plusBandwidth d values) values' =
      plusBandwidth d fun node => values node + values' node := by
  simp only [plusBandwidth, Int64.add_assoc]

theorem getVmCtlBandwidth_eq (hn : n ≤ maxNodeNum) (d : Domain) :
    getVmCtlBandwidth fs d n = .ok (if vmReadsAll fs d.domainId n then 0 else -1,
      plusBandwidth d (vmAdded fs d.domainId n)) := by
  have hvm : vmAdded fs d.domainId n = (getVmCtlPath fs d.domainId).elim (fun _ => 0)
      fun path => added fs path n := by
    funext node
    rw [vmAdded]
    cases getVmCtlPath fs d.domainId <;> rfl
  rw [getVmCtlBandwidth, vmReadsAll, hvm]
  cases getVmCtlPath fs d.domainId with
  | none =>
      rw [Option.elim_none, Option.elim_none, plusBandwidth_zero]
      rfl
  | some path =>
      dsimp only
      rw [getMonMB_eq hn, ok_bind, Option.elim_some, Option.elim_some]
      cases readsAll fs path n <;> rfl

/-- Whether the sample of the `j`-th virtual machine is counted. -/
def hit (vm : ℕ → MonFs) (n : ℤ) (doms : List Domain) (j : ℕ) : ℤ :=
  doms[j]?.elim 0 fun d => if vmReadsAll (vm j) d.domainId n then 1 else 0

theorem countSample_eq (succeeded : Bool) (times : SampleTimes) {i : ℕ} (hi : i < maxVmTasksNum) :
    countSample (if succeeded then 0 else -1) times i =
      .ok (Function.update times ⟨i, hi⟩ (times ⟨i, hi⟩ + if succeeded then 1 else 0)) := by
  cases succeeded with
  | true =>
      rw [countSample, if_neg (by decide), load_of_lt _ hi, ok_bind, store_of_lt _ hi]
      rfl
  | false =>
      rw [countSample, if_pos (by decide), if_neg Bool.false_ne_true, add_zero,
        Function.update_eq_self]

/-- **The loop of a round samples every virtual machine**, from the `i`-th on. -/
theorem sampleVms_eq (hn : n ≤ maxNodeNum) (vm : ℕ → MonFs) {i : ℕ} {doms : List Domain}
    (hlen : i + doms.length ≤ maxVmTasksNum) (times : SampleTimes) :
    sampleVms vm n i doms times =
      .ok (doms.mapIdx fun k d => plusBandwidth d (vmAdded (vm (i + k)) d.domainId n),
        fun j => times j + if i ≤ j.val then hit (fun k => vm (i + k)) n doms (j - i) else 0) := by
  induction doms generalizing i times with
  | nil => simp [sampleVms, hit]
  | cons d rest ih =>
      rw [List.length_cons] at hlen
      have hi : i < maxVmTasksNum := by omega
      have hnext (k : ℕ) : i + (k + 1) = i + 1 + k := by omega
      have hrest : (fun k d => plusBandwidth d (vmAdded (vm (i + (k + 1))) d.domainId n)) =
          fun k d => plusBandwidth d (vmAdded (vm (i + 1 + k)) d.domainId n) := by
        funext k d
        rw [hnext]
      rw [sampleVms, getVmCtlBandwidth_eq hn, ok_bind]
      dsimp only
      rw [countSample_eq _ _ hi, ok_bind, ih (i := i + 1) (by omega), ok_bind, List.mapIdx_cons,
        hrest]
      congr 2
      funext j
      dsimp only
      rw [Function.update_apply]
      by_cases hj : j = ⟨i, hi⟩
      · subst hj
        rw [if_pos rfl, if_neg (Nat.not_succ_le_self i), if_pos le_rfl, Nat.sub_self, add_zero]
        rfl
      · have hne : j.val ≠ i := fun heq => hj (Fin.ext heq)
        rw [if_neg hj]
        by_cases hlt : i + 1 ≤ j.val
        · obtain ⟨k, hk⟩ := Nat.exists_eq_add_of_le hlt
          have hsub : j.val - i = k + 1 := by omega
          have hsub' : j.val - (i + 1) = k := by omega
          rw [if_pos hlt, if_pos (by omega), hsub, hsub', hit, hit, List.getElem?_cons_succ,
            hnext k]
        · rw [if_neg hlt, if_neg (by omega)]

/-! ### The rounds -/

/-- What the rounds `ks` have made of the list `now`. -/
def roundsAfter (env : BandwidthEnv) (now : DomainList) (ks : List ℕ) : Rounds where
  now :=
    { now with
      domains := now.domains.mapIdx fun i d => plusBandwidth d fun node =>
        (ks.map fun k => vmAdded (env.vm k i) d.domainId now.nodeNum node).sum
      bandwidth := fun node => now.bandwidth node +
        (ks.map fun k => added (env.root k) rootMonData now.nodeNum node).sum }
  sampleTimesVms j := (ks.map fun k => hit (env.vm k) now.nodeNum now.domains j).sum
  sampleTimesHost :=
    (ks.map fun k => if readsAll (env.root k) rootMonData now.nodeNum then 1 else 0).sum

variable {env : BandwidthEnv} {now now' : DomainList}

theorem roundsAfter_nil (env : BandwidthEnv) (now : DomainList) :
    roundsAfter env now [] = ⟨now, fun _ => 0, 0⟩ := by
  have hdomains : (now.domains.mapIdx fun _ d => d) = now.domains := by
    refine List.ext_getElem? fun i => ?_
    rw [List.getElem?_mapIdx, Option.map_id']
  simp only [roundsAfter, List.map_nil, List.sum_nil, Int64.add_zero, plusBandwidth_zero, hdomains]

/-- **One more round.** -/
theorem sampleRound_eq (hn : now.nodeNum ≤ maxNodeNum) (hnum : now.num ≤ maxVmTasksNum)
    (ks : List ℕ) (k : ℕ) :
    sampleRound env (roundsAfter env now ks) k = .ok (roundsAfter env now (ks ++ [k])) := by
  have hlen : 0 + (roundsAfter env now ks).now.domains.length ≤ maxVmTasksNum := by
    rw [Nat.zero_add]
    exact List.length_mapIdx.trans_le hnum
  have hids (j : ℕ) : hit (fun i => env.vm k (0 + i)) now.nodeNum
      (roundsAfter env now ks).now.domains (j - 0) =
        hit (env.vm k) now.nodeNum now.domains j := by
    simp only [hit, roundsAfter, Nat.zero_add, Nat.sub_zero, List.getElem?_mapIdx]
    cases now.domains[j]? <;> rfl
  have hvms := sampleVms_eq (n := now.nodeNum) hn (env.vm k) hlen
    (roundsAfter env now ks).sampleTimesVms
  simp only [Nat.zero_le, if_true, hids] at hvms
  rw [sampleRound]
  change sampleVms (env.vm k) now.nodeNum 0 _ _ >>= _ = _
  rw [hvms, ok_bind]
  dsimp only
  rw [getRootMonBandwidth]
  change (getMonMB (env.root k) _ rootMonData now.nodeNum >>= _) >>= _ = _
  rw [getMonMB_eq hn, ok_bind, ok_bind]
  simp only [roundsAfter, List.map_append, List.sum_append, List.map_cons, List.map_nil,
    List.sum_cons, List.sum_nil, add_zero, Int64.add_zero, List.mapIdx_mapIdx, Nat.zero_add,
    Int64.add_assoc]
  congr 2
  · congr 2
    funext i d
    exact plusBandwidth_plusBandwidth _ _ _
  · cases readsAll (env.root k) rootMonData now.nodeNum <;> simp

theorem foldlM_sampleRound (hn : now.nodeNum ≤ maxNodeNum) (hnum : now.num ≤ maxVmTasksNum)
    (m : ℕ) : (List.range m).foldlM (sampleRound env) ⟨now, fun _ => 0, 0⟩ =
      .ok (roundsAfter env now (List.range m)) := by
  induction m with
  | zero =>
      rw [List.range_zero, roundsAfter_nil]
      rfl
  | succ m ih =>
      rw [List.range_succ, List.foldlM_append, ih, ok_bind, List.foldlM_cons,
        sampleRound_eq hn hnum]
      rfl

/-! ### Figures -/

/-- What `print_domain_field` shows of a node. -/
def shownBandwidth (d : Task) (node : Fin maxNodeNum) : Long :=
  if d.bandwidthUpdatedSucc then d.ctlBandwidth node else 0

/-- The rounds in which the sample of a virtual machine is counted. -/
def vmRounds (env : BandwidthEnv) (n : ℤ) (i : ℕ) (id : ℤ) : ℤ :=
  ((List.range sampleTimesOuter).map fun k => if vmReadsAll (env.vm k i) id n then 1 else 0).sum

/-- What a frame shows of a node for the `i`-th virtual machine: all that was added, over the
rounds that are counted. -/
def vmFigure (env : BandwidthEnv) (n : ℤ) (i : ℕ) (id : ℤ) (node : ℕ) : Long :=
  if 0 < vmRounds env n i id then
    divInt ((List.range sampleTimesOuter).map fun k => vmAdded (env.vm k i) id n node).sum
      (vmRounds env n i id)
  else 0

/-- What the root group contributes to the figure of a node: the same, undivided where no round
of it is counted. -/
def hostFigure (env : BandwidthEnv) (n : ℤ) (node : ℕ) : Long :=
  hostDivided
    ((List.range sampleTimesOuter).map fun k =>
      if readsAll (env.root k) rootMonData n then 1 else 0).sum
    ((List.range sampleTimesOuter).map fun k => added (env.root k) rootMonData n node).sum

/-- What the virtual machines of a list show of a node together. -/
def vmFigures (env : BandwidthEnv) (n : ℤ) (ds : List Domain) (node : ℕ) : Long :=
  (ds.mapIdx fun i d => vmFigure env n i d.domainId node).sum

/-- A record that holds no bandwidth. -/
structure Unmetered (d : Task) : Prop where
  ctlBandwidth : d.ctlBandwidth = fun _ => 0
  bandwidthUpdatedSucc : d.bandwidthUpdatedSucc = false

/-- What a frame shows of the bandwidth of `n` nodes. -/
structure Figures (env : BandwidthEnv) (n : ℤ) (now : DomainList) : Prop where
  nodeNum : now.nodeNum = n
  vm : ∀ i d, now.domains[i]? = some d → ∀ node : Fin maxNodeNum, node.val < n →
    shownBandwidth d.toTask node = vmFigure env n i d.domainId node
  host : ∀ node : Fin maxNodeNum, node.val < n → now.bandwidth node =
    raised (hostFigure env n node + vmFigures env n now.domains node)
      (vmFigures env n now.domains node)

/-- The samples of a virtual machine that the rounds count. -/
theorem timesOf_roundsAfter {i : ℕ} {d : Domain} (hd : now.domains[i]? = some d)
    (hnum : now.num ≤ maxVmTasksNum) :
    timesOf (roundsAfter env now (List.range sampleTimesOuter)).sampleTimesVms i =
      vmRounds env now.nodeNum i d.domainId := by
  have hi : i < maxVmTasksNum := (List.getElem?_eq_some_iff.1 hd).1.trans_le hnum
  rw [timesOf, dif_pos hi]
  simp only [roundsAfter, hit, hd, Option.elim_some, vmRounds]

/-- The `i`-th record of a list whose rounds are divided. -/
theorem getElem?_means {k : ℕ} {times : SampleTimes} {h : ℤ} (ks : List ℕ) (i : ℕ) :
    (meansUpTo times h (roundsAfter env now ks).now k).domains[i]? =
      now.domains[i]?.map fun d => vmUpTo times k i (plusBandwidth d fun node =>
        (ks.map fun k => vmAdded (env.vm k i) d.domainId now.nodeNum node).sum) := by
  simp only [meansUpTo, roundsAfter, List.getElem?_mapIdx, Option.map_map]
  rfl

/-- The identity of a record stays. -/
theorem domainId_vmUpTo {times : SampleTimes} {k i : ℕ} (d : Domain) (values : ℕ → Long) :
    (vmUpTo times k i (plusBandwidth d values)).domainId = d.domainId := by
  unfold vmUpTo
  split_ifs <;> rfl

/-- Once a node is divided, its mean is shown, and `0` where no sample was counted. -/
theorem shownBandwidth_vmUpTo {times : SampleTimes} {k i : ℕ} {d : Domain}
    (hd : d.bandwidthUpdatedSucc = false) {node : Fin maxNodeNum} (hk : node.val < k) :
    shownBandwidth (vmUpTo times k i d).toTask node = vmMean times node i d := by
  unfold vmUpTo vmMean
  split_ifs
  · simp [shownBandwidth, hk, Nat.zero_lt_of_lt hk]
  · simp [shownBandwidth, hd]

/-- The mean of a virtual machine that held no bandwidth is its figure. -/
theorem vmMean_figure {i : ℕ} {d : Domain} (hd : now.domains[i]? = some d)
    (hnum : now.num ≤ maxVmTasksNum) (hzero : Unmetered d.toTask) (node : Fin maxNodeNum) :
    vmMean (roundsAfter env now (List.range sampleTimesOuter)).sampleTimesVms node i
      (plusBandwidth d fun node => ((List.range sampleTimesOuter).map fun k =>
        vmAdded (env.vm k i) d.domainId now.nodeNum node).sum) =
      vmFigure env now.nodeNum i d.domainId node := by
  simp only [vmMean, vmFigure, timesOf_roundsAfter hd hnum, plusBandwidth, hzero.ctlBandwidth,
    Int64.zero_add]

/-- The division of the rounds in place makes the figures. -/
theorem figures_roundsAfter (hhost : now.bandwidth = fun _ => 0)
    (hvms : ∀ d ∈ now.domains, Unmetered d.toTask) (hnum : now.num ≤ maxVmTasksNum) :
    Figures env now.nodeNum
      (meansUpTo (roundsAfter env now (List.range sampleTimesOuter)).sampleTimesVms
        (roundsAfter env now (List.range sampleTimesOuter)).sampleTimesHost
        (roundsAfter env now (List.range sampleTimesOuter)).now now.nodeNum.toNat) := by
  have hbelow {node : Fin maxNodeNum} (hnode : node.val < now.nodeNum) :
      node.val < now.nodeNum.toNat := by omega
  refine ⟨rfl, fun i d hd node hnode => ?_, fun node hnode => ?_⟩
  · rw [getElem?_means] at hd
    obtain ⟨d₀, hd₀, rfl⟩ := Option.map_eq_some_iff.1 hd
    have hzero := hvms d₀ (List.mem_of_getElem? hd₀)
    rw [domainId_vmUpTo, ← vmMean_figure hd₀ hnum hzero node]
    exact shownBandwidth_vmUpTo (d := plusBandwidth d₀ _) hzero.bandwidthUpdatedSucc
      (hbelow hnode)
  · have htotal : vmTotal (roundsAfter env now (List.range sampleTimesOuter)).sampleTimesVms node
        (roundsAfter env now (List.range sampleTimesOuter)).now.domains =
        vmFigures env now.nodeNum
          (meansUpTo (roundsAfter env now (List.range sampleTimesOuter)).sampleTimesVms
            (roundsAfter env now (List.range sampleTimesOuter)).sampleTimesHost
            (roundsAfter env now (List.range sampleTimesOuter)).now now.nodeNum.toNat).domains
          node := by
      rw [vmTotal, vmFigures]
      congr 1
      refine List.ext_getElem? fun i => ?_
      simp only [meansUpTo, List.getElem?_mapIdx, roundsAfter, Option.map_map]
      cases hd : now.domains[i]? with
      | none => rfl
      | some d =>
          have hzero := hvms d (List.mem_of_getElem? hd)
          simp only [Option.map_some, Function.comp_apply, domainId_vmUpTo]
          exact congrArg some (vmMean_figure hd hnum hzero node)
    have hroot : hostDivided (roundsAfter env now (List.range sampleTimesOuter)).sampleTimesHost
        ((roundsAfter env now (List.range sampleTimesOuter)).now.bandwidth node) =
        hostFigure env now.nodeNum node := by
      simp only [hostFigure, roundsAfter, hhost, Int64.zero_add]
    rw [← htotal, ← hroot]
    exact if_pos (hbelow hnode)

/-- **The figures of a list that held no bandwidth.** -/
theorem refreshDomainsBandwidth_figures
    (hhost : now.bandwidth = fun _ => 0) (hvms : ∀ d ∈ now.domains, Unmetered d.toTask)
    (hnuma : 0 ≤ (getNumaNum env.numa now.nodeNum).1)
    (h : refreshDomainsBandwidth env now = .ok now') :
    Figures env (getNumaNum env.numa now.nodeNum).2 now' := by
  have hends := refreshDomainsBandwidth_ends env now
  rw [h] at hends
  have hnum : now.num ≤ maxVmTasksNum := hends.2.2 hnuma
  obtain ⟨-, hle⟩ := getNumaNum_le hnuma
  unfold refreshDomainsBandwidth at h
  generalize getNumaNum env.numa now.nodeNum = p at h hnuma hle ⊢
  obtain ⟨r, n⟩ := p
  dsimp only at h hnuma hle ⊢
  rw [if_neg (Int.not_lt.2 hnuma)] at h
  let listed : DomainList := { now with nodeNum := n }
  have hlisted : listed.num ≤ maxVmTasksNum := hnum
  have hhost' : listed.bandwidth = fun _ => 0 := hhost
  have hvms' : ∀ d ∈ listed.domains, Unmetered d.toTask := hvms
  have hrounds : (List.range sampleTimesOuter).foldlM (sampleRound env) ⟨listed, fun _ => 0, 0⟩ =
      .ok (roundsAfter env listed (List.range sampleTimesOuter)) :=
    foldlM_sampleRound hle hlisted sampleTimesOuter
  have hnum' : (roundsAfter env listed (List.range sampleTimesOuter)).now.num ≤
      maxVmTasksNum := List.length_mapIdx.trans_le hlisted
  rw [hrounds, ok_bind, calculateAllBandwidth_eq hnum' hle] at h
  cases h
  exact figures_roundsAfter hhost' hvms' hlisted

/-! ### The records of a frame -/

variable {arch : Arch} {monitorId : ℤ} {sys : Sys} {l : VcpuList} {c : Config} {r : ℤ}

/-- `get_proc_stat` reads no bandwidth. -/
theorem Unmetered.getProcStat {t t' : Task} (ht : Unmetered t)
    (h : getProcStat sys t = .ok (r, t')) : Unmetered t' := by
  have hkeeps : ∀ d ∈ statFormat, d.Keeps Unmetered := by
    simp only [statFormat, List.intersperse, List.forall_mem_cons, Directive.Keeps, true_and]
    refine ⟨?_, ?_, ?_, ?_, ?_, ?_, ?_, ?_, ?_, ?_, ?_, ?_, ?_, ?_, ?_, ?_, ?_, ?_, ?_, by simp⟩
    all_goals exact fun _ _ h => ⟨h.ctlBandwidth, h.bandwidthUpdatedSucc⟩
  simp only [Vmtop.getProcStat] at h
  split_ifs at h
  · cases h
    exact ht
  · simp only [parseStat] at h
    split_ifs at h
    · cases h
      exact ht
    · split at h
      · cases h
        exact sscanf_keeps hkeeps _ ⟨ht.ctlBandwidth, ht.bandwidthUpdatedSucc⟩
      · cases h

/-- A record that a listing adds holds no bandwidth. -/
theorem scanned_unmetered {entries : List (Dirent × Sys)} {d : Domain}
    (hd : d ∈ scanned arch monitorId l entries) : Unmetered d.toTask := by
  obtain ⟨⟨dirent, sys⟩, -, he⟩ := List.mem_filterMap.1 hd
  obtain ⟨dom, r, d', hread, hchild, hr, -, rfl⟩ := readEntry_eq_some.1 he
  obtain ⟨dom₀, hcheck, hread⟩ := Option.bind_eq_some_iff.1 hread
  have hzero : Unmetered dom₀.toTask := by
    rw [checkedEntry_eq hcheck]
    exact ⟨rfl, rfl⟩
  have hdom : Unmetered dom.toTask := by
    split at hread
    · rename_i r₁ t hstat
      split_ifs at hread
      cases hread
      have htyped : Unmetered { dom₀.toTask with type := .isDomain } :=
        ⟨hzero.ctlBandwidth, hzero.bandwidthUpdatedSucc⟩
      exact htyped.getProcStat hstat
    · cases hread
  obtain ⟨-, _, st, -, -, rfl⟩ := getChildPid_eq_ok hchild hr
  exact ⟨hdom.ctlBandwidth, hdom.bandwidthUpdatedSucc⟩

/-- Comparing a record leaves its bandwidth. -/
theorem Unmetered.refreshDomain {d : Domain} (h : Unmetered d.toTask) (hfresh : Fresh arch l d)
    (pre : DomainList) : Unmetered (refreshDomain arch pre d).toTask := by
  cases hold : getDomainFromId d.domainId pre with
  | none =>
      rw [Vmtop.refreshDomain, hold]
      exact h
  | some old =>
      rw [refreshDomain_of_some hfresh.length hold]
      dsimp only
      rw [threadsLoop_frame, refreshDeltaStat_frame]
      exact ⟨h.ctlBandwidth, h.bandwidthUpdatedSucc⟩

/-- `get_qemu_id` leaves the bandwidth of the host. -/
theorem qemuLoop_bandwidth {entries : List (Dirent × Sys)} {list list' : DomainList}
    (h : qemuLoop arch monitorId l entries list = .ok (r, list')) :
    list'.bandwidth = list.bandwidth := by
  induction entries generalizing list with
  | nil =>
      cases h
      rfl
  | cons entry rest ih =>
      obtain ⟨dirent, sys⟩ := entry
      by_cases hpid : isPidFile (dirent, sys) = true
      · rw [qemuLoop_pidFile hpid, addDomains] at h
        cases hm : sys.mallocDomains with
        | false =>
            rw [hm] at h
            cases h
            rfl
        | true =>
            rw [hm] at h
            obtain ⟨⟨r₁, d⟩, -, h⟩ := bind_eq_ok.1 h
            rw [ih h]
            split_ifs <;> rfl
      · rw [qemuLoop_other hpid] at h
        exact ih h

/-- **A refresh clears every bandwidth.** -/
theorem refreshDomains_unmetered {env : Env} {s s' : Lists}
    (h : refreshDomains arch monitorId env s = .ok (r, s')) :
    (s'.now.bandwidth = fun _ => 0) ∧ ∀ d ∈ s'.now.domains, Unmetered d.toTask := by
  have hrotated := refreshDomains_rotated h
  constructor
  · simp only [refreshDomains] at h
    split_ifs at h
    · cases h
      rfl
    · obtain ⟨⟨num, now⟩, hscan, h⟩ := bind_eq_ok.1 h
      cases h
      cases hdir : env.qemuDir with
      | none =>
          rw [hdir] at hscan
          cases hscan
          rfl
      | some entries =>
          rw [hdir] at hscan
          exact qemuLoop_bandwidth hscan
  · intro d hd
    rw [hrotated.now] at hd
    obtain ⟨d₀, hd₀, rfl⟩ := List.mem_map.1 hd
    obtain ⟨entries, hscanned⟩ := mem_snapshot hd₀
    exact (scanned_unmetered hscanned).refreshDomain (scanned_fresh hscanned) _

/-- **What a frame shows of the bandwidth** is made of the readings of that frame alone, those of
a virtual machine of the group it is sampled from, and where nothing is sampled it shows zeros. -/
theorem sampleFrame_figures {env : FrameEnv} {s s' : Lists}
    (h : sampleFrame c env s = .ok s') :
    if resctrlEnable c env ∧ 0 ≤ (getNumaNum env.bandwidth.numa s.now.nodeNum).1 then
      Figures env.bandwidth (getNumaNum env.bandwidth.numa s.now.nodeNum).2 s'.now
    else
      (∀ node, s'.now.bandwidth node = 0) ∧
        ∀ d ∈ s'.now.domains, ∀ node, shownBandwidth d.toTask node = 0 := by
  obtain ⟨⟨r, mid⟩, hrefresh, h⟩ := bind_eq_ok.1 h
  obtain ⟨hhost, hvms⟩ := refreshDomains_unmetered hrefresh
  have hnodeNum := (refreshDomains_rotated hrefresh).nodeNum
  have hblank : (∀ node, mid.now.bandwidth node = 0) ∧
      ∀ d ∈ mid.now.domains, ∀ node, shownBandwidth d.toTask node = 0 :=
    ⟨congrFun hhost, fun d hd node => by simp [shownBandwidth, (hvms d hd).bandwidthUpdatedSucc]⟩
  rw [← hnodeNum]
  dsimp only at h
  by_cases hon : resctrlEnable c env = true
  · rw [if_pos hon] at h
    obtain ⟨now, hnow, h⟩ := bind_eq_ok.1 h
    cases h
    by_cases hnuma : 0 ≤ (getNumaNum env.bandwidth.numa mid.now.nodeNum).1
    · rw [if_pos ⟨hon, hnuma⟩]
      exact refreshDomainsBandwidth_figures hhost hvms hnuma hnow
    · rw [if_neg fun hboth => hnuma hboth.2]
      simp only [refreshDomainsBandwidth, if_pos (Int.not_le.1 hnuma)] at hnow
      cases hnow
      exact hblank
  · rw [if_neg hon] at h
    cases h
    rw [if_neg fun hboth => hon hboth.1]
    exact hblank

/-- A host of one virtual machine where every counter shows the same number. -/
def meteredEnv : FrameEnv :=
  let fs : MonFs :=
    { dir := fun path => some
        [if path = rootMonData then "mon_MB_00".toList else "qemu-0-vm".toList]
      fopen := fun _ => some fun _ => "1200".toList }
  { crowdedEnv 1 with bandwidth := ⟨fs, fun _ _ => fs, fun _ => fs⟩ }

/-- The virtual machine shows its own readings, and the host those of both groups. -/
theorem sampleFrame_figures_metered : ∃ s' d,
    sampleFrame ⟨.other, -1, true⟩ meteredEnv (.start fun _ => Task.zero) = .ok s' ∧
      s'.now.domains[0]? = some d ∧ shownBandwidth d.toTask ⟨0, by decide⟩ = 1200 ∧
      s'.now.bandwidth ⟨0, by decide⟩ = 2400 := by
  have hids : (sampleFrame ⟨.other, -1, true⟩ meteredEnv (.start fun _ => Task.zero)).toOption.map
      (fun s' => s'.now.domains.map fun d => d.domainId) = some [0] := by decide +kernel
  obtain ⟨s', hok, hids⟩ := Option.map_eq_some_iff.1 hids
  rw [toOption_eq_some] at hok
  have hfigures := sampleFrame_figures hok
  rw [if_pos (by decide +kernel)] at hfigures
  obtain ⟨d, hdomains, hid⟩ := List.map_eq_singleton_iff.1 hids
  refine ⟨s', d, hok, by rw [hdomains]; rfl, ?_, ?_⟩
  · rw [hfigures.vm 0 d (by rw [hdomains]; rfl) ⟨0, by decide⟩ (by decide +kernel), hid]
    decide +kernel
  · rw [hfigures.host ⟨0, by decide⟩ (by decide +kernel), hdomains]
    simp only [vmFigures, List.mapIdx_cons, List.mapIdx_nil, hid]
    decide +kernel

end Vmtop
