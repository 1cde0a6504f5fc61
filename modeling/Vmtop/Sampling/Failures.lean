/-
# What a failed sample leaves behind

`get_mon_MB` adds the means of the nodes one after the other and gives up at the first
node that was never read.  What it added before that stays in the array
(`addMeans_ok`), so the array of a failed call is what it was exactly when the nodes
before that one were read as zero (`getMonMB_failed_iff`).  The callers do not count
such a sample, but divide what it added by the number of the others.
-/

import Vmtop.Sampling.Subscripts

namespace Vmtop

open CText CArray

variable {fs : MonFs} {path : Text} {nodes : List ℕ} {n : ℤ}

/-! ### One call -/

/-- The reading of an open counter file that the sampling loop counts: the one after the
first, unless that fails. -/
def countedFile (file : ℕ → Text) : Option Long :=
  if getMonMBOnce (file 1) = -1 then none else some (getMonMBOnce (file 1))

/-- The reading of a node that is counted. -/
def counted (fs : MonFs) (path : Text) (node : ℕ) : Option Long :=
  (fs.fopen (monDataPath path node)).bind countedFile

/-- Where a file opens for every node but one of them is not read, the nodes before the first
such one are read as zero. -/
def Untouched (fs : MonFs) (path : Text) (n : ℤ) : Prop :=
  (∀ node ∈ List.range n.toNat, (fs.fopen (monDataPath path node)).isSome) →
    (∀ node ∈ List.range n.toNat, (counted fs path node).isSome) ∨
      ∀ node ∈ (List.range n.toNat).takeWhile fun node => (counted fs path node).isSome,
        counted fs path node = some 0

/-- The first loop opens the file of every node or stops at one that does not open. -/
theorem openNodes_ok {fps fps' : Files} {opened : Bool} (hnodes : nodes.Nodup)
    (h : openNodes fs path nodes fps = .ok (opened, fps')) :
    (∀ j ∉ nodes, load fps' j = load fps j) ∧
      (opened = true → ∀ node ∈ nodes, (fs.fopen (monDataPath path node)).isSome ∧
        load fps' node = .ok (fs.fopen (monDataPath path node))) ∧
      (opened = false → ∃ node ∈ nodes, ¬ (fs.fopen (monDataPath path node)).isSome) := by
  induction nodes generalizing fps with
  | nil =>
      cases h
      exact ⟨fun _ _ => rfl, nofun, nofun⟩
  | cons node rest ih =>
      rw [List.nodup_cons] at hnodes
      obtain ⟨fps₁, hstore, h⟩ := bind_eq_ok.1 h
      obtain ⟨fp, hload, h⟩ := bind_eq_ok.1 h
      rw [load_of_store hstore] at hload
      cases hload
      split_ifs at h with hnone
      · cases h
        refine ⟨fun j hj => ?_, nofun, fun _ => ⟨node, List.mem_cons_self, ?_⟩⟩
        · exact load_of_store_ne hstore fun heq => hj (heq ▸ List.mem_cons_self)
        · rw [Option.not_isSome_iff_eq_none, ← Option.isNone_iff_eq_none]
          exact hnone
      · obtain ⟨hframe, hopen, hclosed⟩ := ih hnodes.2 h
        refine ⟨fun j hj => ?_, fun ho => ?_, fun hc => ?_⟩
        · rw [List.mem_cons, not_or] at hj
          rw [hframe j hj.2, load_of_store_ne hstore hj.1]
        · rw [List.forall_mem_cons]
          refine ⟨⟨?_, ?_⟩, hopen ho⟩
          · rw [Option.isSome_iff_ne_none]
            exact fun heq => hnone (by rw [heq]; rfl)
          · rw [hframe node hnodes.1, load_of_store hstore]
        · obtain ⟨k, hk, hfail⟩ := hclosed hc
          exact ⟨k, List.mem_cons_of_mem _ hk, hfail⟩

/-- What the sampling loop has of a node: the number of the readings that were counted and
their sum. -/
def Sampled (st : Samples) (node : ℕ) (reading : Option Long) : Prop :=
  load st.times node = .ok (reading.elim 0 fun _ => 1) ∧ load st.sum node = .ok (reading.getD 0)

/-- Nothing is counted in the first turn. -/
theorem sampleNode_first {fps : Files} {st st' : Samples} {node : ℕ}
    (h : sampleNode fps 0 st node = .ok st') : st' = st := by
  obtain ⟨fp, -, h⟩ := bind_eq_ok.1 h
  dsimp only at h
  rw [if_neg fun hcount => absurd hcount.2 (Nat.lt_irrefl 0)] at h
  cases h
  rfl

theorem sampleNodes_first {fps : Files} {st st' : Samples}
    (h : nodes.foldlM (sampleNode fps 0) st = .ok st') : st' = st := by
  induction nodes generalizing st with
  | nil =>
      cases h
      rfl
  | cons node rest ih =>
      rw [List.foldlM_cons] at h
      obtain ⟨st₁, hnode, h⟩ := bind_eq_ok.1 h
      rw [ih h, sampleNode_first hnode]

/-- In the second turn a node gets the reading that is counted. -/
theorem sampleNode_second {fps : Files} {st st' : Samples} {node : ℕ} {file : ℕ → Text}
    (hfile : load fps node = .ok (some file)) (hst : Sampled st node none)
    (h : sampleNode fps 1 st node = .ok st') :
    Sampled st' node (countedFile file) ∧
      ∀ j ≠ node, load st'.times j = load st.times j ∧ load st'.sum j = load st.sum j := by
  obtain ⟨fp, hfp, h⟩ := bind_eq_ok.1 h
  rw [hfile] at hfp
  cases hfp
  dsimp only [Option.elim_some] at h
  unfold countedFile
  by_cases hread : getMonMBOnce (file 1) = -1
  · rw [if_neg fun hcount => hcount.1 hread] at h
    cases h
    rw [if_pos hread]
    exact ⟨hst, fun _ _ => ⟨rfl, rfl⟩⟩
  · rw [if_pos ⟨hread, Nat.zero_lt_one⟩, hst.2, ok_bind] at h
    obtain ⟨sum, hsum, h⟩ := bind_eq_ok.1 h
    rw [hst.1, ok_bind] at h
    obtain ⟨times, htimes, h⟩ := bind_eq_ok.1 h
    cases h
    rw [if_neg hread]
    refine ⟨⟨load_of_store htimes, ?_⟩, fun j hj => ?_⟩
    · rw [load_of_store hsum, Option.getD_none, Int64.zero_add, Option.getD_some]
    · exact ⟨load_of_store_ne htimes hj, load_of_store_ne hsum hj⟩

theorem sampleNodes_second {fps : Files} {st st' : Samples} {reading : ℕ → Option Long}
    (hnodes : nodes.Nodup)
    (hfiles : ∀ node ∈ nodes, ∃ file, load fps node = .ok (some file) ∧
      countedFile file = reading node)
    (hst : ∀ node ∈ nodes, Sampled st node none)
    (h : nodes.foldlM (sampleNode fps 1) st = .ok st') :
    (∀ node ∈ nodes, Sampled st' node (reading node)) ∧
      ∀ j ∉ nodes, load st'.times j = load st.times j ∧ load st'.sum j = load st.sum j := by
  induction nodes generalizing st with
  | nil =>
      cases h
      exact ⟨nofun, fun _ _ => ⟨rfl, rfl⟩⟩
  | cons node rest ih =>
      rw [List.nodup_cons] at hnodes
      rw [List.forall_mem_cons] at hfiles hst
      rw [List.foldlM_cons] at h
      obtain ⟨st₁, hfirst, h⟩ := bind_eq_ok.1 h
      obtain ⟨file, hfile, hread⟩ := hfiles.1
      obtain ⟨hset, hframe⟩ := sampleNode_second hfile hst.1 hfirst
      rw [hread] at hset
      have hne : ∀ j ∈ rest, j ≠ node := fun j hj heq => hnodes.1 (heq ▸ hj)
      obtain ⟨hrest, hframe'⟩ := ih hnodes.2 hfiles.2 (fun j hj => by
        rw [Sampled, (hframe j (hne j hj)).1, (hframe j (hne j hj)).2]
        exact hst.2 j hj) h
      refine ⟨List.forall_mem_cons.2 ⟨?_, hrest⟩, fun j hj => ?_⟩
      · rw [Sampled, (hframe' node hnodes.1).1, (hframe' node hnodes.1).2]
        exact hset
      · rw [List.mem_cons, not_or] at hj
        rw [(hframe' j hj.2).1, (hframe' j hj.2).2]
        exact hframe j hj.1

/-- **The sampling loop leaves for each node what was counted of it.** -/
theorem sampleNodes_ok {fps : Files} {st : Samples} {reading : ℕ → Option Long}
    (hnodes : nodes.Nodup)
    (hfiles : ∀ node ∈ nodes, ∃ file, load fps node = .ok (some file) ∧
      countedFile file = reading node)
    (h : sampleNodes fps nodes = .ok st) :
    ∀ node ∈ nodes, Sampled st node (reading node) := by
  obtain ⟨st₁, hfirst, h⟩ := bind_eq_ok.1 (h : _ >>= _ = _)
  obtain ⟨st₂, hsecond, h⟩ := bind_eq_ok.1 (h : _ >>= _ = _)
  cases h
  rw [sampleNodes_first hfirst] at hsecond
  refine (sampleNodes_second hnodes hfiles (fun node hnode => ?_) hsecond).1
  obtain ⟨file, hfile, -⟩ := hfiles node hnode
  have hlt := lt_of_load hfile
  exact ⟨load_of_lt _ hlt, load_of_lt _ hlt⟩

/-- The sum of one reading is its mean. -/
theorem divInt_one (sum : Long) : divInt sum 1 = sum := by
  rw [divInt, Int.tdiv_one, Int64.ofInt_toInt]

section AddMeans
variable {st : Samples} {bandwidth bandwidth' : Arr maxNodeNum Long} {r : ℤ}

/-- The last loop ends at a node that was not read. -/
theorem addMeans_unread {node : ℕ} {rest : List ℕ} (hst : Sampled st node none)
    (h : addMeans st (node :: rest) bandwidth = .ok (r, bandwidth')) :
    r = -1 ∧ bandwidth' = bandwidth := by
  obtain ⟨times, htimes, h⟩ := bind_eq_ok.1 h
  rw [hst.1] at htimes
  cases htimes
  cases h
  exact ⟨rfl, rfl⟩

/-- It adds the mean of one that was read, and goes on. -/
theorem addMeans_read {node : ℕ} {rest : List ℕ} {mean : Long} (hst : Sampled st node (some mean))
    (h : addMeans st (node :: rest) bandwidth = .ok (r, bandwidth')) :
    ∃ old bandwidth₁, load bandwidth node = .ok old ∧
      store bandwidth node (old + mean) = .ok bandwidth₁ ∧
      addMeans st rest bandwidth₁ = .ok (r, bandwidth') := by
  obtain ⟨times, htimes, h⟩ := bind_eq_ok.1 h
  rw [hst.1] at htimes
  have htimes : times = 1 := (Except.ok.inj htimes).symm
  rw [if_neg (by rw [htimes]; exact Nat.one_ne_zero), hst.2, ok_bind] at h
  obtain ⟨old, hold, h⟩ := bind_eq_ok.1 h
  obtain ⟨bandwidth₁, hstore, h⟩ := bind_eq_ok.1 h
  rw [Option.getD_some, htimes, Nat.cast_one, divInt_one] at hstore
  exact ⟨old, bandwidth₁, hold, hstore, h⟩

/-- The last loop adds the means up to the first node that was not read: it returns `-1` and has
changed the array unless all before that one are zero, or it returns `0` and has added the
mean of every node. -/
theorem addMeans_ok {reading : ℕ → Option Long} (hnodes : nodes.Nodup)
    (hst : ∀ node ∈ nodes, Sampled st node (reading node))
    (h : addMeans st nodes bandwidth = .ok (r, bandwidth')) :
    (∀ j ∉ nodes, load bandwidth' j = load bandwidth j) ∧
      (0 ≤ r ↔ ∀ node ∈ nodes, (reading node).isSome) ∧
      (bandwidth' = bandwidth ↔
        ∀ node ∈ nodes.takeWhile fun node => (reading node).isSome, reading node = some 0) ∧
      (0 ≤ r → ∀ node ∈ nodes, ∃ old v, load bandwidth node = .ok old ∧ reading node = some v ∧
        load bandwidth' node = .ok (old + v)) := by
  induction nodes generalizing bandwidth with
  | nil =>
      cases h
      exact ⟨fun _ _ => rfl, by simp, by simp, fun _ => List.forall_mem_nil _⟩
  | cons node rest ih =>
      rw [List.nodup_cons] at hnodes
      rw [List.forall_mem_cons] at hst ⊢
      cases hread : reading node with
      | none =>
          obtain ⟨rfl, rfl⟩ := addMeans_unread (hread ▸ hst.1) h
          rw [List.takeWhile_cons_of_neg (by simp [hread])]
          exact ⟨fun _ _ => rfl, by simp, by simp, fun hr => absurd hr (by decide)⟩
      | some mean =>
          obtain ⟨old, bandwidth₁, hold, hstore, h⟩ := addMeans_read (hread ▸ hst.1) h
          obtain ⟨hframe, hr, hsame, hadded⟩ := ih hnodes.2 hst.2 h
          have hnode : load bandwidth' node = .ok (old + mean) := by
            rw [hframe node hnodes.1, load_of_store hstore]
          have hstored : bandwidth₁ = bandwidth ↔ old + mean = old := store_eq_self_iff hstore hold
          rw [List.takeWhile_cons_of_pos (by simp [hread]), List.forall_mem_cons, hread, ← hsame]
          refine ⟨fun j hj => ?_, ?_, ?_, fun hpos => ?_⟩
          · rw [List.mem_cons, not_or] at hj
            rw [hframe j hj.2, load_of_store_ne hstore hj.1]
          · simpa using hr
          · constructor
            · rintro rfl
              rw [hold] at hnode
              have hmean : mean = 0 := Int64.add_eq_left.1 (Except.ok.inj hnode).symm
              exact ⟨by rw [hmean], (hstored.2 (by rw [hmean, Int64.add_zero])).symm⟩
            · rintro ⟨hzero, rfl⟩
              cases hzero
              exact hstored.2 (Int64.add_zero old)
          · rw [List.forall_mem_cons]
            refine ⟨⟨old, mean, hold, hread, hnode⟩, fun j hj => ?_⟩
            obtain ⟨old', v, hold', hv, hj'⟩ := hadded hpos j hj
            have hne : j ≠ node := fun heq => hnodes.1 (heq ▸ hj)
            exact ⟨old', v, (load_of_store_ne hstore hne).symm.trans hold', hv, hj'⟩

end AddMeans

/-- Where every file opens, the sampling loop ends with what is counted of each node. -/
theorem sampled_of_opened {fps : Files} {st : Samples} (hnodes : nodes.Nodup)
    (hopen : openNodes fs path nodes (fun _ => none) = .ok (true, fps))
    (hst : sampleNodes fps nodes = .ok st) :
    (∀ node ∈ nodes, (fs.fopen (monDataPath path node)).isSome) ∧
      ∀ node ∈ nodes, Sampled st node (counted fs path node) := by
  obtain ⟨-, hall, -⟩ := openNodes_ok hnodes hopen
  refine ⟨fun node hnode => (hall rfl node hnode).1, sampleNodes_ok hnodes ?_ hst⟩
  intro node hnode
  obtain ⟨hopens, hload⟩ := hall rfl node hnode
  obtain ⟨file, hfile⟩ := Option.isSome_iff_exists.1 hopens
  rw [hfile] at hload
  exact ⟨file, hload, by rw [counted, hfile, Option.bind_some]⟩

/-- A call gives up at a file that does not open, or samples every node and adds the means. -/
theorem getMonMB_eq_ok {bandwidth bandwidth' : Arr maxNodeNum Long} {r : ℤ}
    (h : getMonMB fs bandwidth path n = .ok (r, bandwidth')) :
    ((∃ node ∈ List.range n.toNat, ¬ (fs.fopen (monDataPath path node)).isSome) ∧ r = -1 ∧
        bandwidth' = bandwidth) ∨
      ∃ fps st, openNodes fs path (List.range n.toNat) (fun _ => none) = .ok (true, fps) ∧
        sampleNodes fps (List.range n.toNat) = .ok st ∧
        addMeans st (List.range n.toNat) bandwidth = .ok (r, bandwidth') := by
  obtain ⟨⟨opened, fps⟩, hopen, h⟩ := bind_eq_ok.1 h
  cases opened with
  | false =>
      cases h
      exact Or.inl ⟨(openNodes_ok List.nodup_range hopen).2.2 rfl, rfl, rfl⟩
  | true =>
      obtain ⟨st, hst, h⟩ := bind_eq_ok.1 h
      exact Or.inr ⟨fps, st, hopen, hst, h⟩

/-- **A call that fails leaves the array as it was exactly when the nodes before the first
that was not read were read as zero.** -/
theorem getMonMB_failed_iff {bandwidth bandwidth' : Arr maxNodeNum Long} {r : ℤ}
    (h : getMonMB fs bandwidth path n = .ok (r, bandwidth')) :
    (r < 0 → bandwidth' = bandwidth) ↔ Untouched fs path n := by
  have hnodes : (List.range n.toNat).Nodup := List.nodup_range
  rcases getMonMB_eq_ok h with ⟨⟨node, hnode, hclosed⟩, -, hsame⟩ | ⟨fps, st, hopen, hst, hadd⟩
  · exact ⟨fun _ hopens => absurd (hopens node hnode) hclosed, fun _ _ => hsame⟩
  · obtain ⟨hopens, hsampled⟩ := sampled_of_opened hnodes hopen hst
    obtain ⟨-, hr, hsame, -⟩ := addMeans_ok hnodes hsampled hadd
    rw [hsame, ← not_le, hr]
    constructor
    · exact fun hfail _ => or_iff_not_imp_left.2 hfail
    · exact fun huntouched hunread => (huntouched hopens).resolve_left hunread

/-! ### One round -/

/-- A sample of a virtual machine that fails leaves its record as it was exactly when its
group, where it has one, is left untouched. -/
theorem getVmCtlBandwidth_failed_iff {dom dom' : Domain} {r : ℤ}
    (h : getVmCtlBandwidth fs dom n = .ok (r, dom')) :
    (r < 0 → dom' = dom) ↔ ∀ path, getVmCtlPath fs dom.domainId = some path →
      Untouched fs path n := by
  unfold getVmCtlBandwidth at h
  cases hpath : getVmCtlPath fs dom.domainId with
  | none =>
      rw [hpath] at h
      cases h
      exact ⟨fun _ => nofun, fun _ _ => rfl⟩
  | some path =>
      rw [hpath] at h
      obtain ⟨⟨r', ctlBandwidth⟩, hmean, h⟩ := bind_eq_ok.1 h
      cases h
      have hfailed : (if r' < 0 then (-1 : ℤ) else 0) < 0 ↔ r' < 0 := by
        split_ifs with hr
        · exact ⟨fun _ => hr, fun _ => by decide⟩
        · exact ⟨nofun, fun h => absurd h hr⟩
      have hsame : { dom with ctlBandwidth := ctlBandwidth } = dom ↔
          ctlBandwidth = dom.ctlBandwidth := by
        constructor
        · exact fun h => congrArg (fun d : Domain => d.ctlBandwidth) h
        · rintro rfl
          rfl
      rw [hfailed, hsame, getMonMB_failed_iff hmean]
      constructor
      · rintro huntouched _ ⟨⟩
        exact huntouched
      · exact fun h => h path rfl

/-- A sample is counted exactly when it does not fail. -/
theorem countSample_eq_iff {times times' : SampleTimes} {r : ℤ} {i : ℕ}
    (h : countSample r times i = .ok times') :
    (load times' i = load times i ↔ r < 0) ∧ ∀ j ≠ i, load times' j = load times j := by
  unfold countSample at h
  split_ifs at h with hr
  · cases h
    exact ⟨⟨fun _ => hr, fun _ => rfl⟩, fun _ _ => rfl⟩
  · obtain ⟨count, hcount, h⟩ := bind_eq_ok.1 h
    rw [load_of_store h, hcount]
    refine ⟨⟨fun heq => ?_, fun h => absurd h hr⟩, fun j hj => load_of_store_ne h hj⟩
    have := Except.ok.inj heq
    omega

/-- The virtual machines of a round, from the `i`-th on. -/
theorem sampleVms_failed_iff {vm : ℕ → MonFs} {i : ℕ} {doms doms' : List Domain}
    {times times' : SampleTimes} (h : sampleVms vm n i doms times = .ok (doms', times')) :
    (∀ j < i, load times' j = load times j) ∧
      ((∀ k d d', doms[k]? = some d → doms'[k]? = some d' →
        load times' (i + k) = load times (i + k) → d' = d) ↔
      ∀ k d path, doms[k]? = some d → getVmCtlPath (vm (i + k)) d.domainId = some path →
        Untouched (vm (i + k)) path n) := by
  induction doms generalizing i times doms' with
  | nil =>
      cases h
      exact ⟨fun _ _ => rfl, ⟨fun _ _ _ _ => nofun, fun _ _ _ _ => nofun⟩⟩
  | cons dom rest ih =>
      obtain ⟨⟨r, dom'⟩, hdom, h⟩ := bind_eq_ok.1 h
      obtain ⟨times₁, hcount, h⟩ := bind_eq_ok.1 h
      obtain ⟨⟨rest', times₂⟩, hrest, h⟩ := bind_eq_ok.1 h
      cases h
      obtain ⟨hcounted, hother⟩ := countSample_eq_iff hcount
      obtain ⟨hframe, hiff⟩ := ih hrest
      have htimes : load times' i = load times i ↔ r < 0 := by
        rw [hframe i (Nat.lt_succ_self i), hcounted]
      have hnext (k : ℕ) : i + (k + 1) = i + 1 + k := by omega
      have hlater (k : ℕ) : load times₁ (i + 1 + k) = load times (i + 1 + k) :=
        hother _ (by omega)
      have hvm := getVmCtlBandwidth_failed_iff hdom
      refine ⟨fun j hj => ?_, fun h => ?_, fun h => ?_⟩
      · rw [hframe j (by omega), hother j (by omega)]
      · intro k d path hd hpath
        cases k with
        | zero =>
            cases hd
            exact hvm.1 (fun hr => h 0 _ _ rfl rfl (htimes.2 hr)) path hpath
        | succ k =>
            rw [hnext] at hpath ⊢
            refine hiff.1 (fun k d d' hd hd' htimes => ?_) k d path hd hpath
            refine h (k + 1) d d' hd hd' ?_
            rw [hnext, htimes, hlater]
      · intro k d d' hd hd' hsame
        cases k with
        | zero =>
            cases hd
            cases hd'
            exact hvm.2 (fun path => h 0 _ path rfl) (htimes.1 hsame)
        | succ k =>
            rw [hnext] at hsame
            refine hiff.2 (fun k d path hd hpath => ?_) k d d' hd hd' ?_
            · have huntouched := h (k + 1) d path hd
              rw [hnext] at huntouched
              exact huntouched hpath
            · rw [hsame, hlater]

/-- A sample that a round does not count leaves no trace: the record of the virtual machine,
and the bandwidths of the host, are what they were. -/
def FailedLeaves (st st' : Rounds) : Prop :=
  (∀ k d d', st.now.domains[k]? = some d → st'.now.domains[k]? = some d' →
    load st'.sampleTimesVms k = load st.sampleTimesVms k → d' = d) ∧
  (st'.sampleTimesHost = st.sampleTimesHost → st'.now.bandwidth = st.now.bandwidth)

/-- Every group that a round samples is left untouched. -/
def RoundUntouched (env : BandwidthEnv) (round : ℕ) (now : DomainList) : Prop :=
  (∀ k d path, now.domains[k]? = some d →
    getVmCtlPath (env.vm round k) d.domainId = some path →
    Untouched (env.vm round k) path now.nodeNum) ∧
  Untouched (env.root round) rootMonData now.nodeNum

theorem sampleRound_failed_iff {env : BandwidthEnv} {st st' : Rounds} {round : ℕ}
    (h : sampleRound env st round = .ok st') :
    FailedLeaves st st' ↔ RoundUntouched env round st.now := by
  obtain ⟨⟨domains, times⟩, hvms, h⟩ := bind_eq_ok.1 h
  obtain ⟨⟨r', bandwidth⟩, hroot, h⟩ := bind_eq_ok.1 h
  obtain ⟨⟨r, bandwidth'⟩, hmean, hroot⟩ := bind_eq_ok.1 hroot
  cases hroot
  cases h
  have hvms := (sampleVms_failed_iff hvms).2
  simp only [Nat.zero_add] at hvms
  have hfailed : (if (if r < 0 then r else 0) < 0 then st.sampleTimesHost
      else st.sampleTimesHost + 1) = st.sampleTimesHost ↔ r < 0 := by
    split_ifs <;> omega
  rw [FailedLeaves, RoundUntouched, ← getMonMB_failed_iff hmean, ← hvms]
  dsimp only
  rw [hfailed]

/-- **A sample that is not counted leaves no trace exactly where the nodes before the first
that was not read were read as zero**: so for every call, and for every round. -/
theorem sampleRound_untouched_iff {bandwidth bandwidth' : Arr maxNodeNum Long} {r : ℤ}
    (hcall : getMonMB fs bandwidth path n = .ok (r, bandwidth')) {env : BandwidthEnv}
    {st st' : Rounds} {round : ℕ} (hround : sampleRound env st round = .ok st') :
    ((r < 0 → bandwidth' = bandwidth) ↔ Untouched fs path n) ∧
      (FailedLeaves st st' ↔ RoundUntouched env round st.now) :=
  ⟨getMonMB_failed_iff hcall, sampleRound_failed_iff hround⟩

/-! ### A node that is not read -/

/-- Every counter file holds `5`, except that of the node `node` of the root group, which
cannot be read. -/
def unreadNode (node : ℕ) : MonFs where
  dir _ := some []
  fopen path := some fun _ => if path = monDataPath rootMonData node then [] else "5".toList

theorem exists_unreadNode (node : ℕ) :
    ∃ p, getMonMB (unreadNode node) (fun _ => 0) rootMonData 2 = .ok p := by
  have hends : Ends (getMonMB (unreadNode node) (fun _ => 0) rootMonData 2) (fun _ => True)
      fun _ => False := getMonMB_ends (by decide) _ _
  obtain ⟨p, hok, -⟩ := hends.exists_ok
  exact ⟨p, hok⟩

/-- A list of one virtual machine, before the first round. -/
def firstRound : Rounds where
  now := ⟨[Domain.zero], [], 2, fun _ => 0⟩
  sampleTimesVms := fun _ => 0
  sampleTimesHost := 0

/-- Where the first node is not read, nothing is left of the call and of the round. -/
theorem sampleRound_untouched_iff_first :
    (∃ r bandwidth, getMonMB (unreadNode 0) (fun _ => 0) rootMonData 2 = .ok (r, bandwidth) ∧
      (r < 0 → bandwidth = fun _ => 0)) ∧
    ∃ st', sampleRound ⟨unreadNode 0, fun _ _ => unreadNode 0, fun _ => unreadNode 0⟩
        firstRound 0 = .ok st' ∧ FailedLeaves firstRound st' := by
  have huntouched : Untouched (unreadNode 0) rootMonData 2 := fun _ => .inr (by decide +kernel)
  obtain ⟨⟨r, bandwidth⟩, hcall⟩ := exists_unreadNode 0
  obtain ⟨st', hround, -⟩ := Ends.exists_ok <| (sampleRound_ends
    ⟨unreadNode 0, fun _ _ => unreadNode 0, fun _ => unreadNode 0⟩ firstRound 0
    (by decide)).mono (fun _ h => h) fun _ he => absurd he.1 (by decide)
  obtain ⟨hcalled, hrounded⟩ := sampleRound_untouched_iff hcall hround
  constructor
  · exact ⟨r, bandwidth, hcall, hcalled.2 huntouched⟩
  · refine ⟨st', hround, hrounded.2 ⟨?_, huntouched⟩⟩
    intro _ d path _ hpath
    cases hpath

/-- **Where the second of two nodes is not read, the first stays added.** -/
theorem getMonMB_failed_adds : ¬ ∀ (fs : MonFs) (bandwidth : Arr maxNodeNum Long) (path : Text)
    (n r : ℤ) (bandwidth' : Arr maxNodeNum Long),
    getMonMB fs bandwidth path n = .ok (r, bandwidth') → r < 0 → bandwidth' = bandwidth := by
  intro h
  obtain ⟨⟨r, bandwidth⟩, hok⟩ := exists_unreadNode 1
  have huntouched := (getMonMB_failed_iff hok).1 (h _ _ _ _ _ _ hok)
  rcases huntouched fun _ _ => rfl with hread | hzero
  · exact absurd (hread 1 (by decide)) (by decide +kernel)
  · exact absurd (hzero 0 (by decide +kernel)) (by decide +kernel)

end Vmtop
