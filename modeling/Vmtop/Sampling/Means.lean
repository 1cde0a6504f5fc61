/-
# What the means come out as

`calculate_all_bandwidth` divides the sums in place, node by node, and inside a node virtual
machine by virtual machine, while it adds the means to the bandwidth of the host.  After
`k` nodes the list is `meansUpTo`: every sum below node `k` divided once, and the rest as it
was.  The correction at the end of a node compares the bandwidth of the host with the
total of the virtual machines modulo `2^32`; where the sums fit in a `long`, that total is a
part of the bandwidth, and the correction does not apply (`calculateAllBandwidth_means`).
-/

import Mathlib.Algebra.Order.BigOperators.Group.List
import Vmtop.Sampling.Readings

namespace Vmtop

open CText CArray

variable {times : SampleTimes} {h : ℤ} {now : DomainList}

/-! ### The means -/

/-- `sample_times_vms[i]`. -/
def timesOf (times : SampleTimes) (i : ℕ) : ℤ :=
  if hi : i < maxVmTasksNum then times ⟨i, hi⟩ else 0

theorem load_timesOf (times : SampleTimes) {i : ℕ} (hi : i < maxVmTasksNum) :
    load times i = .ok (timesOf times i) := by
  rw [load_of_lt times hi, timesOf, dif_pos hi]

/-- A sum that is not negative is divided as an integer. -/
theorem toInt_divInt {sum : Long} {n : ℤ} (hsum : 0 ≤ sum.toInt) (hn : 0 < n) :
    (divInt sum n).toInt = sum.toInt / n := by
  have hle := Int.ediv_le_self n hsum
  have hnonneg := Int.ediv_nonneg hsum hn.le
  have hlt := sum.toInt_lt
  rw [divInt, Int.tdiv_eq_ediv_of_nonneg hsum, Int64.toInt_ofInt_of_le (by omega) (by omega)]

/-- **A sum that fits is the sum of the integers.** -/
theorem toInt_add_of_lt {a b : Long} (ha : 0 ≤ a.toInt) (hb : 0 ≤ b.toInt)
    (h : a.toInt + b.toInt < 2 ^ 63) : (a + b).toInt = a.toInt + b.toInt := by
  rw [Int64.toInt_add, Int.bmod_def]
  omega

theorem toInt_sum_of_lt {xs : List Long} (hxs : ∀ x ∈ xs, 0 ≤ x.toInt)
    (h : (xs.map Int64.toInt).sum < 2 ^ 63) :
    xs.sum.toInt = (xs.map Int64.toInt).sum ∧ 0 ≤ (xs.map Int64.toInt).sum := by
  induction xs with
  | nil => exact ⟨rfl, le_rfl⟩
  | cons x xs ih =>
      rw [List.forall_mem_cons] at hxs
      rw [List.map_cons, List.sum_cons] at h ⊢
      have hnonneg : 0 ≤ (xs.map Int64.toInt).sum := List.sum_nonneg fun y hy => by
        obtain ⟨z, hz, rfl⟩ := List.mem_map.1 hy
        exact hxs.2 z hz
      obtain ⟨hsum, -⟩ := ih hxs.2 (by omega)
      rw [List.sum_cons, toInt_add_of_lt hxs.1 (by omega) (by omega), hsum]
      exact ⟨rfl, by omega⟩

/-- The mean of a node of the `i`-th virtual machine, as far as it was sampled. -/
def vmMean (times : SampleTimes) (node : Fin maxNodeNum) (i : ℕ) (d : Domain) : Long :=
  if 0 < timesOf times i then divInt (d.ctlBandwidth node) (timesOf times i) else 0

/-- What the virtual machines of a list use of a node. -/
def vmTotal (times : SampleTimes) (node : Fin maxNodeNum) (ds : List Domain) : Long :=
  (ds.mapIdx (vmMean times node)).sum

/-- The mean of a node of the root group, as far as that was sampled. -/
def hostMean (sampleTimesHost sum : ℤ) : ℤ :=
  if 0 < sampleTimesHost then sum / sampleTimesHost else sum

/-- The same, as `calculate_all_bandwidth` divides. -/
def hostDivided (sampleTimesHost : ℤ) (sum : Long) : Long :=
  if 0 < sampleTimesHost then divInt sum sampleTimesHost else sum

/-- The bandwidth of the host, raised to the `unsigned int` total of its virtual machines. -/
def raised (host total : Long) : Long :=
  if host.toInt < total.toInt % 2 ^ 32 then Int64.ofInt (total.toInt % 2 ^ 32) else host

/-- The `i`-th record once the nodes below `k` are divided. -/
def vmUpTo (times : SampleTimes) (k i : ℕ) (d : Domain) : Domain :=
  if 0 < timesOf times i then
    { d with
      ctlBandwidth := fun node =>
        if node.val < k then divInt (d.ctlBandwidth node) (timesOf times i)
        else d.ctlBandwidth node
      bandwidthUpdatedSucc := d.bandwidthUpdatedSucc || decide (0 < k) }
  else d

/-- The list once the nodes below `k` are divided. -/
def meansUpTo (times : SampleTimes) (h : ℤ) (now : DomainList) (k : ℕ) : DomainList :=
  { now with
    domains := now.domains.mapIdx (vmUpTo times k)
    bandwidth := fun node =>
      if node.val < k then
        raised (hostDivided h (now.bandwidth node) + vmTotal times node now.domains)
          (vmTotal times node now.domains)
      else now.bandwidth node }

theorem meansUpTo_zero : meansUpTo times h now 0 = now := by
  have hvm : vmUpTo times 0 = fun _ d => d := by
    funext i d
    simp [vmUpTo]
  have hdomains : now.domains.mapIdx (fun _ d => d) = now.domains := by
    refine List.ext_getElem? fun i => ?_
    rw [List.getElem?_mapIdx, Option.map_id']
  simp only [meansUpTo, hvm, hdomains, Nat.not_lt_zero, if_false]

/-! ### One node -/

/-- The record once the sum of a node is divided. -/
def vmDivided (times : SampleTimes) (node : Fin maxNodeNum) (i : ℕ) (d : Domain) : Domain :=
  if 0 < timesOf times i then
    { d with
      ctlBandwidth :=
        Function.update d.ctlBandwidth node (divInt (d.ctlBandwidth node) (timesOf times i))
      bandwidthUpdatedSucc := true }
  else d

theorem vmDivided_vmUpTo (node : Fin maxNodeNum) (i : ℕ) (d : Domain) :
    vmDivided times node i (vmUpTo times node i d) = vmUpTo times (node + 1) i d := by
  unfold vmDivided vmUpTo
  by_cases hs : 0 < timesOf times i
  · have hctl := update_filled (fun m => divInt (d.ctlBandwidth m) (timesOf times i)) d.ctlBandwidth
      node
    simp only [if_pos hs, lt_irrefl, if_false, hctl, Nat.succ_pos, decide_true, Bool.or_true]
  · simp only [if_neg hs]

/-- The sum of a node is not touched before the node is reached. -/
theorem vmMean_vmUpTo (node : Fin maxNodeNum) (i : ℕ) (d : Domain) :
    vmMean times node i (vmUpTo times node i d) = vmMean times node i d := by
  unfold vmMean vmUpTo
  by_cases hs : 0 < timesOf times i
  · simp only [if_pos hs, lt_irrefl, if_false]
  · simp only [if_neg hs]

/-- The `unsigned int` total of the virtual machines is the sum of the means as well. -/
theorem emod_toInt_add (n : ℤ) (a b : Long) :
    (n + (a + b).toInt) % 2 ^ 32 = ((n + a.toInt) % 2 ^ 32 + b.toInt) % 2 ^ 32 := by
  rw [Int64.toInt_add, Int.bmod_def]
  omega

/-- **The loop over the virtual machines divides each sum once** and adds the means. -/
theorem meanVms_eq (times : SampleTimes) (node : Fin maxNodeNum) {i : ℕ} {ds : List Domain}
    (hlen : i + ds.length ≤ maxVmTasksNum) (host : Long) (nodeVms : ℤ)
    (hvms : nodeVms = nodeVms % 2 ^ 32) :
    meanVms times node i ds host nodeVms =
      .ok (ds.mapIdx fun j => vmDivided times node (i + j),
        host + (ds.mapIdx fun j => vmMean times node (i + j)).sum,
        (nodeVms + (ds.mapIdx fun j => vmMean times node (i + j)).sum.toInt) % 2 ^ 32) := by
  induction ds generalizing i host nodeVms with
  | nil =>
      rw [meanVms, List.mapIdx_nil, List.mapIdx_nil, List.sum_nil, Int64.add_zero,
        Int64.toInt_zero, add_zero, ← hvms]
  | cons d rest ih =>
      rw [List.length_cons] at hlen
      have hnext (j : ℕ) : i + (j + 1) = i + 1 + j := by omega
      have hdivided : (fun j => vmDivided times node (i + (j + 1))) =
          fun j => vmDivided times node (i + 1 + j) := funext fun j => by rw [hnext]
      have hmeans : (fun j => vmMean times node (i + (j + 1))) =
          fun j => vmMean times node (i + 1 + j) := funext fun j => by rw [hnext]
      rw [meanVms, load_timesOf times (by omega), ok_bind]
      simp only [List.mapIdx_cons, List.sum_cons, hdivided, hmeans, add_zero, emod_toInt_add]
      by_cases hs : 0 < timesOf times i
      · have hmean : divInt (d.ctlBandwidth node) (timesOf times i) = vmMean times node i d := by
          rw [vmMean, if_pos hs]
        have hrest := ih (i := i + 1) (by omega) (host + vmMean times node i d)
          ((nodeVms + (vmMean times node i d).toInt) % 2 ^ 32)
          (Int.emod_emod_of_dvd _ dvd_rfl).symm
        rw [if_pos hs, load_of_lt _ node.isLt, ok_bind]
        simp only [Fin.eta, hmean]
        rw [store_of_lt _ node.isLt, ok_bind, hrest, ok_bind]
        have hdivided : vmDivided times node i d = { d with
            ctlBandwidth := Function.update d.ctlBandwidth node (vmMean times node i d)
            bandwidthUpdatedSucc := true } := by
          rw [vmDivided, vmMean, if_pos hs, if_pos hs]
        rw [hdivided, Int64.add_assoc]
      · have hmean : vmMean times node i d = 0 := if_neg hs
        have hdivided : vmDivided times node i d = d := if_neg hs
        rw [if_neg hs, ih (i := i + 1) (by omega) host nodeVms hvms, ok_bind, hmean, hdivided,
          Int64.zero_add, Int64.toInt_zero, add_zero, ← hvms]

/-! ### All nodes -/

/-- **One node.** -/
theorem calculateNode_eq (times : SampleTimes) (h : ℤ) (node : Fin maxNodeNum)
    (hnum : now.num ≤ maxVmTasksNum) :
    calculateNode times h (meansUpTo times h now node) node =
      .ok (meansUpTo times h now (node + 1)) := by
  have hdomains : ((now.domains.mapIdx (vmUpTo times node)).mapIdx fun j =>
      vmDivided times node (0 + j)) = now.domains.mapIdx (vmUpTo times (node + 1)) := by
    simp only [Nat.zero_add, List.mapIdx_mapIdx]
    congr 1
    funext i d
    exact vmDivided_vmUpTo node i d
  have hmeans : ((now.domains.mapIdx (vmUpTo times node)).mapIdx fun j =>
      vmMean times node (0 + j)).sum = vmTotal times node now.domains := by
    simp only [Nat.zero_add, List.mapIdx_mapIdx, vmTotal]
    congr 2
    funext i d
    exact vmMean_vmUpTo node i d
  have hlen : 0 + (now.domains.mapIdx (vmUpTo times node)).length ≤ maxVmTasksNum := by
    rw [List.length_mapIdx, Nat.zero_add]
    exact hnum
  have hloop := meanVms_eq times node hlen (hostDivided h (now.bandwidth node)) 0 rfl
  rw [hdomains, hmeans, zero_add] at hloop
  have hbandwidth := update_filled
    (fun m => raised (hostDivided h (now.bandwidth m) + vmTotal times m now.domains)
      (vmTotal times m now.domains)) now.bandwidth node
  simp only [calculateNode, meansUpTo, load_of_lt _ node.isLt, Fin.eta, ok_bind, lt_irrefl,
    if_false]
  change (meanVms times node 0 _ (hostDivided h (now.bandwidth node)) 0 >>= _) = _
  simp only [hloop, ok_bind, store_of_lt _ node.isLt, Fin.eta]
  exact congrArg (fun b => Except.ok { now with
    domains := now.domains.mapIdx (vmUpTo times (node + 1)), bandwidth := b }) hbandwidth

theorem calculateAllBandwidth_eq (hnum : now.num ≤ maxVmTasksNum)
    (hnodes : now.nodeNum ≤ maxNodeNum) :
    calculateAllBandwidth now times h = .ok (meansUpTo times h now now.nodeNum.toNat) := by
  suffices hrun : ∀ k ≤ maxNodeNum,
      (List.range k).foldlM (calculateNode times h) now = .ok (meansUpTo times h now k) by
    exact hrun _ (by omega)
  intro k
  induction k with
  | zero =>
      intro _
      rw [meansUpTo_zero]
      rfl
  | succ k ih =>
      intro hk
      have hnode := calculateNode_eq times h ⟨k, hk⟩ hnum
      rw [List.range_succ, List.foldlM_append, ih (Nat.le_of_succ_le hk), ok_bind,
        List.foldlM_cons, hnode]
      rfl

/-! ### Sums that fit -/

/-- A mean is not negative, and no larger than its sum. -/
theorem toInt_vmMean (times : SampleTimes) (node : Fin maxNodeNum) (i : ℕ) {d : Domain}
    (hd : 0 ≤ (d.ctlBandwidth node).toInt) :
    0 ≤ (vmMean times node i d).toInt ∧
      (vmMean times node i d).toInt ≤ (d.ctlBandwidth node).toInt := by
  unfold vmMean
  split_ifs with hs
  · rw [toInt_divInt hd hs]
    exact ⟨Int.ediv_nonneg hd hs.le, Int.ediv_le_self _ hd⟩
  · rw [Int64.toInt_zero]
    exact ⟨le_rfl, hd⟩

theorem sum_mapIdx_le {f : ℕ → Domain → ℤ} {g : Domain → ℤ} {ds : List Domain}
    (hle : ∀ i, ∀ d ∈ ds, f i d ≤ g d) : (ds.mapIdx f).sum ≤ (ds.map g).sum := by
  induction ds generalizing f with
  | nil => exact le_rfl
  | cons d rest ih =>
      rw [List.mapIdx_cons, List.map_cons, List.sum_cons, List.sum_cons]
      exact add_le_add (hle 0 d List.mem_cons_self)
        (ih fun i e he => hle (i + 1) e (List.mem_cons_of_mem d he))

/-- The means of the virtual machines are added as integers, where the sums fit. -/
theorem toInt_vmTotal (times : SampleTimes) (node : Fin maxNodeNum) {ds : List Domain}
    (hds : ∀ d ∈ ds, 0 ≤ (d.ctlBandwidth node).toInt)
    (hfits : (ds.map fun d => (d.ctlBandwidth node).toInt).sum < 2 ^ 63) :
    (vmTotal times node ds).toInt = (ds.mapIdx fun i d => (vmMean times node i d).toInt).sum ∧
      0 ≤ (vmTotal times node ds).toInt ∧
      (vmTotal times node ds).toInt ≤ (ds.map fun d => (d.ctlBandwidth node).toInt).sum := by
  have hmap : (ds.mapIdx (vmMean times node)).map Int64.toInt =
      ds.mapIdx fun i d => (vmMean times node i d).toInt := by
    refine List.ext_getElem? fun i => ?_
    rw [List.getElem?_map, List.getElem?_mapIdx, List.getElem?_mapIdx, Option.map_map]
    rfl
  have hle := sum_mapIdx_le fun i d hd => (toInt_vmMean times node i (hds d hd)).2
  have hnonneg : ∀ x ∈ ds.mapIdx (vmMean times node), 0 ≤ x.toInt := by
    intro x hx
    obtain ⟨i, hi, rfl⟩ := List.mem_mapIdx.1 hx
    exact (toInt_vmMean times node i (hds _ (List.getElem_mem hi))).1
  obtain ⟨hsum, hpos⟩ := toInt_sum_of_lt hnonneg (hmap ▸ hle.trans_lt hfits)
  rw [hmap] at hsum hpos
  rw [vmTotal, hsum]
  exact ⟨rfl, hpos, hle⟩

/-- So is the mean of the root group taken. -/
theorem toInt_hostDivided (h : ℤ) {sum : Long} (hsum : 0 ≤ sum.toInt) :
    (hostDivided h sum).toInt = hostMean h sum.toInt ∧ 0 ≤ hostMean h sum.toInt ∧
      hostMean h sum.toInt ≤ sum.toInt := by
  unfold hostDivided hostMean
  split_ifs with hh
  · exact ⟨toInt_divInt hsum hh, Int.ediv_nonneg hsum hh.le, Int.ediv_le_self _ hsum⟩
  · exact ⟨rfl, hsum, le_rfl⟩

/-- What `calculate_all_bandwidth` may be handed: sums that are not negative, and that all fit
in a `long` together. -/
structure SumsFit (now : DomainList) : Prop where
  host : ∀ node, 0 ≤ (now.bandwidth node).toInt
  vms : ∀ d ∈ now.domains, ∀ node, 0 ≤ (d.ctlBandwidth node).toInt
  fits : ∀ node, (now.bandwidth node).toInt +
    (now.domains.map fun d => (d.ctlBandwidth node).toInt).sum < 2 ^ 63

/-- The bandwidth of the host comes out as an integer sum.  The correction does not apply,
since the total of the virtual machines is a part of what it is compared with. -/
theorem SumsFit.toInt_raised (hfit : SumsFit now) (times : SampleTimes) (h : ℤ)
    (node : Fin maxNodeNum) :
    (raised (hostDivided h (now.bandwidth node) + vmTotal times node now.domains)
      (vmTotal times node now.domains)).toInt =
      hostMean h (now.bandwidth node).toInt + (vmTotal times node now.domains).toInt := by
  obtain ⟨hmean, hmeanNonneg, hmeanLe⟩ := toInt_hostDivided h (hfit.host node)
  have hfits := hfit.fits node
  have hhost := hfit.host node
  obtain ⟨-, htotalNonneg, htotalLe⟩ := toInt_vmTotal times node
    (fun d hd => hfit.vms d hd node) (by omega)
  have hsum := toInt_add_of_lt (a := hostDivided h (now.bandwidth node)) (by omega) htotalNonneg
    (by omega)
  rw [raised, if_neg (by omega), hsum, hmean]

/-! ### What the caller sees -/

/-- The sum of the figures of a node, over the virtual machines that were sampled. -/
def figureTotal (times : SampleTimes) (node : Fin maxNodeNum) (ds : List Domain) : ℤ :=
  (ds.mapIdx fun i d => if 0 < timesOf times i then (d.ctlBandwidth node).toInt else 0).sum

/-- What `calculate_all_bandwidth` makes of the sums in `now`; the equations are between
integers, so nothing has wrapped around. -/
structure MeansTaken (times : SampleTimes) (h : ℤ) (now now' : DomainList) : Prop where
  length : now'.num = now.num
  sampled : ∀ i d d', now.domains[i]? = some d → now'.domains[i]? = some d' →
    0 < timesOf times i → ∀ node : Fin maxNodeNum, node.val < now.nodeNum →
    (d'.ctlBandwidth node).toInt = (d.ctlBandwidth node).toInt / timesOf times i ∧
      d'.bandwidthUpdatedSucc = true
  unsampled : ∀ i d d', now.domains[i]? = some d → now'.domains[i]? = some d' →
    timesOf times i = 0 → d' = d
  host : ∀ node : Fin maxNodeNum, node.val < now.nodeNum →
    (now'.bandwidth node).toInt =
      hostMean h (now.bandwidth node).toInt + figureTotal times node now'.domains
  /-- The host is never below its virtual machines. -/
  total_le : ∀ node : Fin maxNodeNum, node.val < now.nodeNum →
    figureTotal times node now'.domains ≤ (now'.bandwidth node).toInt

/-- The figures of a node below `k` are its means. -/
theorem figureTotal_meansUpTo {k : ℕ} (node : Fin maxNodeNum) (hk : node.val < k) :
    figureTotal times node (meansUpTo times h now k).domains =
      (now.domains.mapIdx fun i d => (vmMean times node i d).toInt).sum := by
  rw [figureTotal, meansUpTo, List.mapIdx_mapIdx]
  congr 2
  funext i d
  simp only [Function.comp_apply, vmUpTo, vmMean]
  split_ifs
  · exact congrArg Int64.toInt (if_pos hk)
  · rfl

/-- **`calculate_all_bandwidth` takes every mean once, and never shows less for the host than
for its virtual machines**, whatever they add up to. -/
theorem calculateAllBandwidth_means (times : SampleTimes) (h : ℤ) (now : DomainList)
    (hnum : now.num ≤ maxVmTasksNum) (hnodes : now.nodeNum ≤ maxNodeNum)
    (hhost : ∀ node, 0 ≤ (now.bandwidth node).toInt)
    (hvms : ∀ d ∈ now.domains, ∀ node, 0 ≤ (d.ctlBandwidth node).toInt)
    (hfits : ∀ node, (now.bandwidth node).toInt +
      (now.domains.map fun d => (d.ctlBandwidth node).toInt).sum < 2 ^ 63) :
    ∃ now', calculateAllBandwidth now times h = .ok now' ∧ MeansTaken times h now now' := by
  have hfit : SumsFit now := ⟨hhost, hvms, hfits⟩
  refine ⟨_, calculateAllBandwidth_eq hnum hnodes, ?_⟩
  have hget (i : ℕ) : (meansUpTo times h now now.nodeNum.toNat).domains[i]? =
      now.domains[i]?.map (vmUpTo times now.nodeNum.toNat i) := List.getElem?_mapIdx
  have hbelow {node : Fin maxNodeNum} (hnode : (node.val : ℤ) < now.nodeNum) :
      node.val < now.nodeNum.toNat := by omega
  have hbandwidth {node : Fin maxNodeNum} (hnode : (node.val : ℤ) < now.nodeNum) :
      ((meansUpTo times h now now.nodeNum.toNat).bandwidth node).toInt =
        hostMean h (now.bandwidth node).toInt +
          figureTotal times node (meansUpTo times h now now.nodeNum.toNat).domains := by
    have hhere := hfits node
    have htotal := (toInt_vmTotal times node (fun d hd => hvms d hd node)
      (by have := hhost node; omega)).1
    rw [figureTotal_meansUpTo node (hbelow hnode), ← htotal, ← hfit.toInt_raised]
    exact congrArg Int64.toInt (if_pos (hbelow hnode))
  constructor
  · exact List.length_mapIdx
  · intro i d d' hd hd' hs node hnode
    rw [hget, hd, Option.map_some] at hd'
    cases hd'
    rw [vmUpTo, if_pos hs]
    refine ⟨?_, by simp [Nat.zero_lt_of_lt (hbelow hnode)]⟩
    rw [← toInt_divInt (hvms d (List.mem_of_getElem? hd) node) hs]
    exact congrArg Int64.toInt (if_pos (hbelow hnode))
  · intro i d d' hd hd' hs
    rw [hget, hd, Option.map_some] at hd'
    cases hd'
    rw [vmUpTo, if_neg hs.not_gt]
  · exact fun node hnode => hbandwidth hnode
  · intro node hnode
    have := (toInt_hostDivided h (hhost node)).2.1
    rw [hbandwidth hnode]
    omega

/-- Two virtual machines that use `2^33` each, in a host that was sampled twice. -/
def largeSums : DomainList where
  domains := [{ Domain.zero with ctlBandwidth := fun _ => 2 ^ 34 },
    { Domain.zero with ctlBandwidth := fun _ => 2 ^ 33 }]
  popped := []
  nodeNum := 2
  bandwidth := fun _ => 7

/-- The total of the virtual machines is past `2^32`, and so is what is shown for the host. -/
theorem calculateAllBandwidth_means_large : ∃ now',
    calculateAllBandwidth largeSums (fun i => if i.val = 0 then 2 else 1) 2 = .ok now' ∧
      MeansTaken (fun i => if i.val = 0 then 2 else 1) 2 largeSums now' ∧
      (now'.bandwidth ⟨0, by decide⟩).toInt = 2 ^ 34 + 3 := by
  obtain ⟨now', hok, hmeans⟩ := calculateAllBandwidth_means
    (fun i => if i.val = 0 then 2 else 1) 2 largeSums (by decide) (by decide) (by decide)
    (by decide) (by decide)
  refine ⟨now', hok, hmeans, ?_⟩
  have hrun : (calculateAllBandwidth largeSums (fun i => if i.val = 0 then 2 else 1)
      2).toOption.map (fun now => (now.bandwidth ⟨0, by decide⟩).toInt) = some (2 ^ 34 + 3) := by
    decide +kernel
  rw [hok] at hrun
  exact Option.some.inj hrun

end Vmtop
