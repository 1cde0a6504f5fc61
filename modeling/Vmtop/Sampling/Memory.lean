/-
# A sampling of the bandwidth uses its memory well

`refresh_domains_bandwidth` walks the array of records, in each round and for each node once more,
and writes the sums and the means into it.  It frees and allocates nothing: the records
stay where they are, and so do their threads (`refreshDomainsBandwidth_does`).
-/

import Vmtop.Refresh.Memory

namespace Vmtop
namespace Memory

open CText CArray Heaps

variable {F G : Footprint Record} {a : ℕ} {list : RecordList} {l : DomainList}

/-- The same records with other bandwidths: their threads stay, and lie where they lay. -/
def Resampled (ds ds' : List (ℕ × Domain)) : Prop :=
  List.Forall₂ (fun d d' => d'.1 = d.1 ∧ d'.2.threads = d.2.threads ∧ d'.2.nlwp = d.2.nlwp) ds ds'

section Resampled

variable {ds ds' : List (ℕ × Domain)}

theorem Resampled.refl (ds : List (ℕ × Domain)) : Resampled ds ds :=
  List.forall₂_same.2 fun _ _ => ⟨rfl, rfl, rfl⟩

theorem Resampled.length_eq (h : Resampled ds ds') : ds'.length = ds.length :=
  (List.Forall₂.length_eq h).symm

theorem Resampled.arrays_eq (h : Resampled ds ds') : arrays ds' = arrays ds := by
  induction h with
  | nil => rfl
  | cons hd _ ih => rw [arrays_cons, arrays_cons, ih, hd.1, hd.2.1]

theorem Resampled.complete (h : Resampled ds ds')
    (hds : ∀ d ∈ ds, d.2.threads.length = d.2.nlwp.toNat) :
    ∀ d ∈ ds', d.2.threads.length = d.2.nlwp.toNat := by
  induction h with
  | nil => exact hds
  | cons hd _ ih =>
      rw [List.forall_mem_cons] at hds ⊢
      refine ⟨?_, ih hds.2⟩
      rw [hd.2.1, hd.2.2]
      exact hds.1

/-- The layout of a list with other bandwidths. -/
def Layout.resampled (S : Layout list l) (h : Resampled S.owners ds') :
    Layout list { l with domains := ds'.map Prod.snd } where
  owners := ds'
  spare := S.spare
  domains := rfl
  complete := h.complete S.complete
  num := by rw [S.num, h.length_eq]
  spare_le := S.spare_le
  null hnull := by
    have hlength := h.length_eq
    rw [S.null hnull] at hlength
    exact List.eq_nil_of_length_eq_zero hlength
  nodeNum := S.nodeNum
  bandwidth := S.bandwidth

end Resampled

/-- The memory of a walk over the array of records, behind the records `done`. -/
def walkMemory (a : ℕ) (spare : Cells Record) (G : Footprint Record) (ds : List (ℕ × Domain)) :
    Footprint Record :=
  (a, (ds.map recordOf).map some ++ spare) ::ₘ G

section Walk

variable {α β : Type} {spare : Cells Record} {b : ℕ} {d : Domain} {done rest : List (ℕ × Domain)}
  {y : Except Fault α} {R : β → α → Footprint Record → Prop}

/-- Reading the record that the walk has come to. -/
theorem walk_get {f : Record → Prog β} (ha : list.domains = some a)
    (hf : Does (walkMemory a spare G (done ++ (b, d) :: rest)) (f ⟨d.toTask, some b⟩) y R) :
    Does (walkMemory a spare G (done ++ (b, d) :: rest))
      ((list.ref done.length).get >>= f) y R := by
  rw [RecordList.ref, ha]
  refine get_does (Multiset.mem_cons_self _ _) ?_ hf
  rw [List.getElem?_append_left (by simp)]
  simp [recordOf]

/-- Writing it. -/
theorem walk_set {t : Task} {f : Unit → Prog β} (ha : list.domains = some a)
    (hf : Does (walkMemory a spare G (done ++ (b, { d with toTask := t }) :: rest)) (f ()) y R) :
    Does (walkMemory a spare G (done ++ (b, d) :: rest))
      ((list.ref done.length).set ⟨t, some b⟩ >>= f) y R := by
  rw [RecordList.ref, ha]
  refine set_does rfl (by simp) ?_
  have hset : (((done ++ (b, d) :: rest).map recordOf).map some ++ spare).set done.length
      (some ⟨t, some b⟩) =
        ((done ++ (b, { d with toTask := t }) :: rest).map recordOf).map some ++ spare := by
    simp [recordOf]
  rw [hset]
  exact hf

end Walk

/-! ### The rounds -/

/-- What a walk leaves: the records that it comes to have other bandwidths. -/
def Walked (a : ℕ) (spare : Cells Record) (G : Footprint Record) (done todo : List (ℕ × Domain))
    (doms : List Domain) (F' : Footprint Record) : Prop :=
  ∃ todo', Resampled todo todo' ∧ doms = todo'.map Prod.snd ∧
    F' = walkMemory a spare G (done ++ todo')

/-- A record in front. -/
theorem Walked.cons {spare : Cells Record} {b : ℕ} {d d' : Domain}
    {done todo : List (ℕ × Domain)} {doms : List Domain} {F' : Footprint Record}
    (h : Walked a spare G (done ++ [(b, d')]) todo doms F')
    (hthreads : d'.threads = d.threads) (hnlwp : d'.nlwp = d.nlwp) :
    Walked a spare G done ((b, d) :: todo) (d' :: doms) F' := by
  obtain ⟨todo', hsame, rfl, rfl⟩ := h
  refine ⟨(b, d') :: todo', List.Forall₂.cons ⟨rfl, hthreads, hnlwp⟩ hsame, rfl, ?_⟩
  rw [List.append_assoc]
  rfl

/-- `get_vm_ctl_bandwidth`, on the record that a walk has come to. -/
theorem getVmCtlBandwidth_does {fs : MonFs} {nodeNum : ℤ} {spare : Cells Record} {b : ℕ}
    {d : Domain} {done rest : List (ℕ × Domain)} (ha : list.domains = some a) :
    Does (walkMemory a spare G (done ++ (b, d) :: rest))
      (getVmCtlBandwidth fs (list.ref done.length) nodeNum) (Vmtop.getVmCtlBandwidth fs d nodeNum)
      fun r x F' => r = x.1 ∧ x.2.threads = d.threads ∧ x.2.nlwp = d.nlwp ∧
        F' = walkMemory a spare G (done ++ (b, x.2) :: rest) := by
  unfold getVmCtlBandwidth Vmtop.getVmCtlBandwidth
  refine walk_get ha ?_
  dsimp only
  cases getVmCtlPath fs d.domainId with
  | none => exact Does.pure ⟨rfl, rfl, rfl, rfl⟩
  | some path =>
      refine Does.plain fun got _ => ?_
      exact walk_set ha (Does.pure ⟨rfl, rfl, rfl, rfl⟩)

/-- **A round over the virtual machines.** -/
theorem sampleVms_does (fs : ℕ → MonFs) (spare : Cells Record) (ha : list.domains = some a)
    (done todo : List (ℕ × Domain)) (times : SampleTimes) :
    Does (walkMemory a spare G (done ++ todo))
      (sampleVms fs list (List.range' done.length todo.length) times)
      (Vmtop.sampleVms fs list.nodeNum done.length (todo.map Prod.snd) times)
      fun b x F' => b = x.2 ∧ Walked a spare G done todo x.1 F' := by
  induction todo generalizing done times with
  | nil => exact Does.pure ⟨rfl, [], .nil, rfl, rfl⟩
  | cons d rest ih =>
      obtain ⟨b, d⟩ := d
      rw [List.length_cons, List.range'_succ, sampleVms, List.map_cons, Vmtop.sampleVms]
      refine (getVmCtlBandwidth_does ha).bind fun r x F' hR => ?_
      obtain ⟨r', d'⟩ := x
      obtain ⟨rfl, hthreads, hnlwp, rfl⟩ := hR
      refine Does.plain fun times' _ => ?_
      have hloop := ih (done ++ [(b, d')]) times'
      rw [List.length_append, List.length_singleton, List.append_assoc] at hloop
      refine hloop.bind_right fun b' x F' hR => ⟨_, rfl, hR.1, ?_⟩
      exact Walked.cons hR.2 hthreads hnlwp

/-- **The inner loop of `calculate_all_bandwidth`.** -/
theorem meanVms_does (times : SampleTimes) (node : ℕ) (spare : Cells Record)
    (ha : list.domains = some a) (done todo : List (ℕ × Domain)) (host : Long) (nodeVms : ℤ) :
    Does (walkMemory a spare G (done ++ todo))
      (meanVms times list node (List.range' done.length todo.length) host nodeVms)
      (Vmtop.meanVms times node done.length (todo.map Prod.snd) host nodeVms)
      fun b x F' => b = x.2 ∧ Walked a spare G done todo x.1 F' := by
  induction todo generalizing done host nodeVms with
  | nil => exact Does.pure ⟨rfl, [], .nil, rfl, rfl⟩
  | cons d rest ih =>
      obtain ⟨b, d⟩ := d
      have hrest (d' : Domain) (hthreads : d'.threads = d.threads) (hnlwp : d'.nlwp = d.nlwp)
          (host : Long) (nodeVms : ℤ) :
          Does (walkMemory a spare G (done ++ (b, d') :: rest))
            (meanVms times list node (List.range' (done.length + 1) rest.length) host nodeVms)
            (Vmtop.meanVms times node (done.length + 1) (rest.map Prod.snd) host nodeVms >>=
              fun p => .ok (d' :: p.1, p.2.1, p.2.2))
            fun b' x F' => b' = x.2 ∧ Walked a spare G done ((b, d) :: rest) x.1 F' := by
        have hloop := ih (done ++ [(b, d')]) host nodeVms
        rw [List.length_append, List.length_singleton, List.append_assoc] at hloop
        refine hloop.bind_right fun b' x F' hR => ⟨_, rfl, hR.1, ?_⟩
        exact Walked.cons hR.2 hthreads hnlwp
      rw [List.length_cons, List.range'_succ, meanVms, List.map_cons, Vmtop.meanVms]
      refine Does.plain fun n _ => ?_
      split_ifs with hn
      · refine walk_get ha (Does.plain fun sum _ => Does.plain fun ctlBandwidth _ => ?_)
        exact walk_set ha (hrest
          { d with ctlBandwidth := ctlBandwidth, bandwidthUpdatedSucc := true } rfl rfl _ _)
      · exact hrest d rfl rfl host nodeVms

/-! ### A whole list -/

/-- What is alive is what belongs to the list, and `G`. -/
def Owns (G : Footprint Record) (list : RecordList) (l : DomainList) (F : Footprint Record) :
    Prop :=
  ∃ S : Layout list l, F = S.footprint + G

/-- A list with other numbers of nodes and bandwidths owns the same. -/
theorem Owns.with_bandwidth (h : Owns G list l F) (nodeNum : ℤ) (bandwidth : Arr maxNodeNum Long) :
    Owns G { list with nodeNum := nodeNum, bandwidth := bandwidth }
      { l with nodeNum := nodeNum, bandwidth := bandwidth } F := by
  obtain ⟨S, rfl⟩ := h
  exact ⟨⟨S.owners, S.spare, S.domains, S.complete, S.num, S.spare_le, S.null, rfl, rfl⟩, rfl⟩

/-- A walk over a whole list that gives its records other bandwidths. -/
theorem Owns.walk {β δ : Type} {x : List ℕ → Prog β} {y : List Domain → Except Fault δ}
    {p : δ → List Domain} {Q : β → δ → Prop} (S : Layout list l)
    (hx : ∀ a G, list.domains = some a → Does (walkMemory a S.spare G S.owners)
      (x (List.range S.owners.length)) (y l.domains)
      fun b u F' => Q b u ∧ Walked a S.spare G [] S.owners (p u) F')
    (hnil : Does (S.footprint + G) (x []) (y []) fun b u F' => Q b u ∧ p u = [] ∧
      F' = S.footprint + G) :
    Does (S.footprint + G) (x (List.range list.num)) (y l.domains)
      fun b u F' => Q b u ∧ Owns G list { l with domains := p u } F' := by
  rw [S.num]
  cases ha : list.domains with
  | none =>
      have howners := S.null ha
      have hdomains : l.domains = [] := by rw [S.domains, howners, List.map_nil]
      rw [howners, hdomains]
      refine hnil.mono fun b u F' hR => ⟨hR.1, ?_⟩
      have hsame : Resampled S.owners S.owners := .refl _
      rw [hR.2.1, hR.2.2]
      refine ⟨⟨S.owners, S.spare, ?_, S.complete, S.num, S.spare_le, S.null, S.nodeNum,
        S.bandwidth⟩, rfl⟩
      rw [howners, List.map_nil]
  | some a =>
      have hwalk := hx a (arrays S.owners + G) ha
      rw [S.footprint_eq ha, Multiset.cons_add]
      refine hwalk.mono fun b u F' hR => ⟨hR.1, ?_⟩
      obtain ⟨ds, hsame, hproj, rfl⟩ := hR.2
      rw [hproj]
      refine ⟨S.resampled hsame, ?_⟩
      rw [(S.resampled hsame).footprint_eq ha, Multiset.cons_add]
      have harrays : arrays (S.resampled hsame).owners = arrays S.owners := hsame.arrays_eq
      rw [harrays]
      rfl

/-- The body of the loop over the rounds. -/
theorem sampleRound_does {env : BandwidthEnv} {st : Rounds} {st₀ : Vmtop.Rounds} {round : ℕ}
    (hvms : st.sampleTimesVms = st₀.sampleTimesVms)
    (hhost : st.sampleTimesHost = st₀.sampleTimesHost) (h : Owns G st.now st₀.now F) :
    Does F (sampleRound env st round) (Vmtop.sampleRound env st₀ round)
      fun st st₀ F' => st.sampleTimesVms = st₀.sampleTimesVms ∧
        st.sampleTimesHost = st₀.sampleTimesHost ∧ Owns G st.now st₀.now F' := by
  obtain ⟨S, rfl⟩ := h
  unfold sampleRound Vmtop.sampleRound
  have hwalk := Owns.walk (G := G) (S := S)
    (x := fun is => sampleVms (env.vm round) st.now is st.sampleTimesVms)
    (y := fun doms => Vmtop.sampleVms (env.vm round) st₀.now.nodeNum 0 doms st₀.sampleTimesVms)
    (p := Prod.fst) (Q := fun b u => b = u.2)
    (fun a G ha => by
      have hloop := sampleVms_does (G := G) (env.vm round) S.spare ha []
        S.owners st.sampleTimesVms
      rw [List.nil_append, List.length_nil, ← List.range_eq_range', ← S.domains, S.nodeNum,
        hvms] at hloop
      rw [hvms]
      exact hloop)
    (Does.pure ⟨hvms, rfl, rfl⟩)
  refine hwalk.bind fun times x F' hR => ?_
  obtain ⟨doms, times'⟩ := x
  obtain ⟨rfl, howns⟩ := hR
  dsimp only at howns ⊢
  rw [S.nodeNum, S.bandwidth]
  refine Does.plain fun got _ => ?_
  obtain ⟨r, bandwidth⟩ := got
  refine Does.pure ⟨rfl, ?_, ?_⟩
  · dsimp only
    rw [hhost]
  · have hwith := howns.with_bandwidth st₀.now.nodeNum bandwidth
    rw [← S.nodeNum] at hwith ⊢
    exact hwith

/-- The body of the loop of `calculate_all_bandwidth`. -/
theorem calculateNode_does {times : SampleTimes} {host : ℤ} {node : ℕ} (h : Owns G list l F) :
    Does F (calculateNode times host list node) (Vmtop.calculateNode times host l node)
      (Owns G) := by
  obtain ⟨S, rfl⟩ := h
  unfold calculateNode Vmtop.calculateNode
  rw [S.bandwidth]
  refine Does.plain fun sum _ => ?_
  have hwalk := Owns.walk (G := G) (S := S)
    (x := fun is => meanVms times list node is (if 0 < host then divInt sum host else sum) 0)
    (y := fun doms =>
      Vmtop.meanVms times node 0 doms (if 0 < host then divInt sum host else sum) 0)
    (p := Prod.fst) (Q := fun b u => b = u.2)
    (fun a G ha => by
      have hloop := meanVms_does (G := G) times node S.spare ha []
        S.owners (if 0 < host then divInt sum host else sum) 0
      rw [List.nil_append, List.length_nil, ← List.range_eq_range', ← S.domains] at hloop
      exact hloop)
    (Does.pure ⟨rfl, rfl, rfl⟩)
  refine hwalk.bind fun b x F' hR => ?_
  obtain ⟨doms, host', nodeVms⟩ := x
  obtain ⟨rfl, howns⟩ := hR
  refine Does.plain fun bandwidth _ => Does.pure ?_
  have hwith := howns.with_bandwidth l.nodeNum bandwidth
  rw [← S.nodeNum] at hwith
  have hnode : { l with domains := doms, nodeNum := list.nodeNum, bandwidth := bandwidth } =
      { l with domains := doms, bandwidth := bandwidth } := by rw [S.nodeNum]
  exact hnode ▸ hwith

/-- **A sampling of the bandwidth in memory** is a sampling of the list, and leaves the same
arrays alive. -/
theorem refreshDomainsBandwidth_does {env : BandwidthEnv} (h : Owns G list l F) :
    Does F (refreshDomainsBandwidth env list) (Vmtop.refreshDomainsBandwidth env l)
      (Owns G) := by
  have hnode : list.nodeNum = l.nodeNum := by
    obtain ⟨S, -⟩ := h
    exact S.nodeNum
  unfold refreshDomainsBandwidth Vmtop.refreshDomainsBandwidth
  rw [hnode]
  have hcounted := h.with_bandwidth (getNumaNum env.numa l.nodeNum).2 list.bandwidth
  have hbandwidth : list.bandwidth = l.bandwidth := by
    obtain ⟨S, -⟩ := h
    exact S.bandwidth
  rw [hbandwidth] at hcounted
  have hlist : { list with
        nodeNum := (getNumaNum env.numa l.nodeNum).2, bandwidth := l.bandwidth } =
      { list with nodeNum := (getNumaNum env.numa l.nodeNum).2 } := by rw [← hbandwidth]
  rw [hlist] at hcounted
  dsimp only
  split_ifs with hr
  · exact Does.pure hcounted
  · refine Does.bind (Does.foldlM (R := fun (st : Rounds) (st₀ : Vmtop.Rounds) F' =>
      st.sampleTimesVms = st₀.sampleTimesVms ∧ st.sampleTimesHost = st₀.sampleTimesHost ∧
        Owns G st.now st₀.now F') (fun st st₀ F' round hR => ?_) _ ⟨rfl, rfl, hcounted⟩)
      fun st st₀ F' hR => ?_
    · exact sampleRound_does hR.1 hR.2.1 hR.2.2
    · obtain ⟨hvms, hhost, howns⟩ := hR
      have hnodes : st.now.nodeNum = st₀.now.nodeNum := by
        obtain ⟨S, -⟩ := howns
        exact S.nodeNum
      rw [hnodes, hvms, hhost]
      unfold calculateAllBandwidth
      exact Does.foldlM (f := calculateNode st₀.sampleTimesVms st₀.sampleTimesHost)
        (g := Vmtop.calculateNode st₀.sampleTimesVms st₀.sampleTimesHost)
        (fun list l F' node hR => calculateNode_does hR) _ howns

end Memory
end Vmtop
