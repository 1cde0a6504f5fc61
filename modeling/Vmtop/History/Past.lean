/-
# What a run keeps of its past

`refresh_domains` reads every record anew and compares it with the snapshot before, and the
rows that `get_vcpu_list` fills are the rows it filled in the snapshots before.  Where the
table fills every column, what one refresh reads does not depend on the past
(`sampleFrame_reading`), and so two refreshes leave nothing of it but the deltas of the counters
that went back between them (`runAll_forgets`): a run that found other virtual machines, cut
tables or no table at all shows then what a run shows that has just begun.
-/

import Vmtop.History.Monitored
import Vmtop.Refresh.Rows

namespace Vmtop

open CText CArray Sampled Runs Reordered

variable {arch : Arch} {monitorId : ℤ} {l l' : VcpuList} {pre pre' : DomainList} {c : Config}

/-! ### What is read -/

/-- Every line of the table that gets a row fills it. -/
def Tabled (arch : Arch) (env : Env) : Prop :=
  ∀ s, env.vcpuStat = some s →
    ∀ buf ∈ rowLines s, Fills (vcpuStatStab arch) (tokens isBlank (cstr buf))

/-- **A table that fills its rows hands out the same counters**, whatever was in them. -/
theorem Tabled.getVcpuStat_eq {env : Env} (h : Tabled arch env) {s : Text}
    (hs : env.vcpuStat = some s) (l l' : VcpuList) (t : Task) :
    getVcpuStat arch t (getVcpuList arch env.vcpuStat l).2 =
      getVcpuStat arch t (getVcpuList arch env.vcpuStat l').2 := by
  rw [hs]
  have hrow : ∀ i : Fin maxVcpuNum, (i : ℕ) < (rowLines s).length →
      SameColumns arch ((getVcpuList arch (some s) l).2.rows i)
        ((getVcpuList arch (some s) l').2.rows i) := by
    intro i hi a ha
    rw [getVcpuList_rows s l hi, getVcpuList_rows s l' hi]
    exact (h s hs _ (List.getElem_mem hi)).determined (vcpuStatStab_slots arch).1 ha _ _
  refine getVcpuStat_congr ?_ t
  rw [List.forall₂_iff_get]
  refine ⟨by simp [VcpuList.table, getVcpuList_num], fun i hi hi' => ?_⟩
  simp only [VcpuList.table, List.get_ofFn]
  exact hrow _ (by simpa [VcpuList.table, getVcpuList_num] using hi)

/-- The counters that a table hands out are all that is read of it. -/
theorem childLoop_congr {sys : Sys} (h : ∀ t, getVcpuStat arch t l = getVcpuStat arch t l')
    (dom : Domain) (entries : List Dirent) (st : ChildState) :
    childLoop arch sys l dom entries st = childLoop arch sys l' dom entries st := by
  induction entries generalizing st with
  | nil => rfl
  | cons dirt rest ih =>
      have hstep : childStep arch sys l dom dirt st = childStep arch sys l' dom dirt st := by
        simp only [childStep, h]
      simp only [childLoop, hstep, ih]

theorem readEntry_congr (h : ∀ t, getVcpuStat arch t l = getVcpuStat arch t l')
    (entry : Dirent × Sys) :
    readEntry arch monitorId l entry = readEntry arch monitorId l' entry := by
  have hchild (sys : Sys) (dom : Domain) :
      getChildPid arch sys l dom = getChildPid arch sys l' dom := by
    simp only [getChildPid, childLoop_congr h]
  simp only [readEntry, setDomain, loadDomain, hchild]

/-- **A snapshot does not depend on what was in the table.** -/
theorem Tabled.snapshot_eq {env : Env} (h : Tabled arch env) (l l' : VcpuList) :
    snapshot arch monitorId env (getVcpuList arch env.vcpuStat l).2 =
      snapshot arch monitorId env (getVcpuList arch env.vcpuStat l').2 := by
  unfold snapshot
  cases hfile : env.vcpuStat with
  | none => rfl
  | some s =>
      cases env.qemuDir with
      | none => rfl
      | some entries =>
          have hrow := h.getVcpuStat_eq hfile l l'
          rw [hfile] at hrow
          exact List.filterMap_congr fun entry _ => readEntry_congr hrow entry

/-! ### What is compared -/

/-- The same record, but for the deltas, `st_max` and what the sampling of bandwidth stores. -/
structure SameReading (d d' : Domain) : Prop where
  record : d' = { d with
    delta := d'.delta
    stMax := d'.stMax
    ctlBandwidth := d'.ctlBandwidth
    bandwidthUpdatedSucc := d'.bandwidthUpdatedSucc
    threads := d'.threads }
  threads : List.Forall₂ (fun t t' => t' = { t with delta := t'.delta }) d.threads d'.threads

theorem SameReading.of_sampled {d d' : Domain} (h : SameSample d d') : SameReading d d' := by
  rw [h]
  exact ⟨rfl, List.forall₂_same.2 fun _ _ => rfl⟩

theorem SameReading.symm {d d' : Domain} (h : SameReading d d') : SameReading d' d := by
  refine ⟨by rw [h.record], h.threads.flip.imp fun t t' ht => ?_⟩
  rw [ht]

theorem SameReading.trans {a b d : Domain} (h : SameReading a b) (h' : SameReading b d) :
    SameReading a d := by
  refine ⟨by rw [h'.record, h.record], forall₂_comp h.threads h'.threads fun t t' t'' ht ht' => ?_⟩
  rw [ht', ht]

/-- **Comparing a record leaves what was read into it.** -/
theorem refreshDomain_reading {d : Domain} (hlength : d.threads.length = d.nlwp.toNat)
    (pre : DomainList) : SameReading d (refreshDomain arch pre d) := by
  cases hold : getDomainFromId d.domainId pre with
  | none =>
      rw [refreshDomain, hold]
      exact ⟨rfl, List.forall₂_same.2 fun _ _ => rfl⟩
  | some old =>
      rw [refreshDomain_of_some hlength hold]
      refine ⟨?_, ?_⟩
      · rw [threadsLoop_frame, refreshDeltaStat_frame]
      · rw [List.forall₂_map_right_iff, List.forall₂_same]
        exact fun t _ => refreshThread_frame old t

/-- What is compared of an old record is the same after either reading. -/
theorem SameReading.getThreadFromPid {old old' : Domain} (h : SameReading old old') (pid : ℤ) :
    (Vmtop.getThreadFromPid pid old).Rel (fun t t' => t' = { t with delta := t'.delta })
      (Vmtop.getThreadFromPid pid old') := by
  have hnlwp : old'.nlwp = old.nlwp := by rw [h.record]
  rw [Vmtop.getThreadFromPid, Vmtop.getThreadFromPid, Domain.lwps, Domain.lwps, hnlwp]
  refine rel_find? (List.forall₂_take _ h.threads) fun t t' ht => ?_
  rw [ht]

/-- No counter that `t` is compared on has gone back since `o`. -/
def Onward (arch : Arch) (o t : Task) : Prop :=
  (o.dfx .utime ≤ t.dfx .utime ∧ o.dfx .stime ≤ t.dfx .stime) ∧
    (t.type = .isVcpu → ∀ v ∈ vcpuCounters arch, o.dfx v ≤ t.dfx v)

instance (o t : Task) : Decidable (Onward arch o t) := by
  unfold Onward
  infer_instance

/-- Neither the times of `d` nor a counter of its threads has gone back since `pre`. -/
def GoesOn (arch : Arch) (pre : DomainList) (d : Domain) : Prop :=
  (∀ o ∈ getDomainFromId d.domainId pre,
    o.dfx .utime ≤ d.dfx .utime ∧ o.dfx .stime ≤ d.dfx .stime) ∧
  ∀ t ∈ d.threads, ∀ o ∈ baseline pre d t, Onward arch o t

instance (d : Domain) : Decidable (GoesOn arch pre d) := by
  unfold GoesOn
  infer_instance

theorem Onward.le {o t : Task} (h : Onward arch o t) {v : Dfx} (hv : Compared arch t.type v) :
    o.dfx v ≤ t.dfx v := by
  rcases hv with rfl | rfl | ⟨htype, hv⟩
  · exact h.1.1
  · exact h.1.2
  · exact h.2 htype v hv

/-- **A thread whose counters go on is compared alike** with two readings that are the same. -/
theorem refreshThread_past {old old' : Domain} (h : SameReading old old') {t : Task}
    (ht : ∀ v, t.delta v = 0)
    (hon : ∀ o ∈ getThreadFromPid t.pid old, Onward arch o (refreshThread arch old t)) :
    refreshThread arch old t = refreshThread arch old' t := by
  rw [refreshThread_frame old t, refreshThread_frame old' t]
  congr 1
  funext v
  have hdelta := @refreshThread_delta arch old t ht v
  have hdelta' := @refreshThread_delta arch old' t ht v
  by_cases hv : Compared arch t.type v
  · rw [hdelta.1 hv, hdelta'.1 hv]
    have hrel := h.getThreadFromPid t.pid
    refine threeWay_congr ?_ ?_
    · rw [Option.map_map, Option.map_map]
      generalize getThreadFromPid t.pid old = o, getThreadFromPid t.pid old' = o' at hrel
      cases hrel with
      | none => rfl
      | some ho =>
          rw [ho]
          rfl
    · intro p hp
      obtain ⟨o, ho, rfl⟩ := Option.map_eq_some_iff.1 hp
      have hframe := @refreshThread_frame arch old t
      have hle := (hon o ho).le (v := v) (by rw [hframe]; exact hv)
      rw [hframe] at hle
      exact hle
  · rw [hdelta.2 hv, hdelta'.2 hv]

/-- The times of a record whose times go on are compared alike. -/
theorem refreshDeltaStat_past {t o o' : Task} (h : o'.dfx = o.dfx)
    (hle : o.dfx .utime ≤ t.dfx .utime ∧ o.dfx .stime ≤ t.dfx .stime) :
    refreshDeltaStat t o = refreshDeltaStat t o' := by
  rw [refreshDeltaStat_frame t o, refreshDeltaStat_frame t o']
  congr 1
  funext v
  rw [refreshDeltaStat_delta, refreshDeltaStat_delta]
  split_ifs with hv
  · refine threeWay_congr (by rw [h]; rfl) ?_
    rintro _ ⟨⟩
    rcases hv with rfl | rfl
    · exact hle.1
    · exact hle.2
  · rfl

/-- **So is a record**: with no old record, or with two readings of it that are the same. -/
theorem refreshDomain_past {d : Domain} (hfresh : Fresh arch l d)
    (h : (getDomainFromId d.domainId pre).Rel SameReading (getDomainFromId d.domainId pre'))
    (hon : GoesOn arch pre (refreshDomain arch pre d)) :
    refreshDomain arch pre d = refreshDomain arch pre' d := by
  cases hold : getDomainFromId d.domainId pre with
  | none =>
      rw [hold] at h
      rw [refreshDomain, refreshDomain, hold, eq_none_of_rel_none h]
  | some old =>
      rw [hold] at h
      obtain ⟨old', hold', hsame⟩ := exists_of_rel_some h
      have hread := (@refreshDomain_reading arch d hfresh.length pre).record
      have hid : (refreshDomain arch pre d).domainId = d.domainId := by rw [hread]
      have hdfx : (refreshDomain arch pre d).dfx = d.dfx := by rw [hread]
      have hthreads : (refreshDomain arch pre d).threads =
          d.threads.map (refreshThread arch old) := by
        rw [refreshDomain_of_some hfresh.length hold]
      obtain ⟨hstat, hon⟩ := hon
      rw [hid, hdfx] at hstat
      have hthread : ∀ t ∈ d.threads, refreshThread arch old t = refreshThread arch old' t := by
        intro t ht
        refine refreshThread_past hsame (hfresh.threads t ht).delta fun o ho => ?_
        refine hon _ (by rw [hthreads]; exact List.mem_map_of_mem ht) o ?_
        rw [baseline, hid, hold, refreshThread_frame]
        exact ho
      have hcollect : ∀ dom, ∀ t ∈ d.threads, collect arch old dom t = collect arch old' dom t := by
        intro dom t ht
        have hrel := hsame.getThreadFromPid t.pid
        have hsome : (getThreadFromPid t.pid old).isSome =
            (getThreadFromPid t.pid old').isSome := by
          generalize getThreadFromPid t.pid old = o, getThreadFromPid t.pid old' = o' at hrel
          cases hrel <;> rfl
        rw [collect, collect, hsome, hthread t ht]
      have hstat' := @refreshDeltaStat_past d.toTask old.toTask old'.toTask (by rw [hsame.record])
        (hstat old hold)
      rw [refreshDomain_of_some hfresh.length hold, refreshDomain_of_some hfresh.length hold',
        threadsLoop_collect, threadsLoop_collect, List.map_congr_left hthread, hstat',
        List.foldl_ext _ _ _ hcollect]

/-! ### A frame and a run -/

variable {env env' : FrameEnv} {s s' t t' s₀ t₀ : Lists} {before before' : List FrameEnv}

/-- The records of a frame, before the sampling of bandwidth. -/
theorem Framed.domains_eq {r : ℤ} {mid : Lists} (h : Framed c env s s' r mid) :
    mid.now.domains = (snapshot c.arch c.monitorId env.refresh
      (getVcpuList c.arch env.refresh.vcpuStat s.vcpuList).2).map
        (refreshDomain c.arch mid.pre) := by
  have hrot := refreshDomains_rotated h.refreshed
  rw [hrot.now, hrot.vcpuList]

/-- **One frame is enough for what is read**, whatever was there before. -/
theorem sampleFrame_reading (hread : Tabled c.arch env.refresh)
    (h : sampleFrame c env s = .ok s') (h' : sampleFrame c env t = .ok t') :
    List.Forall₂ SameReading s'.now.domains t'.now.domains := by
  obtain ⟨r, mid, hframed⟩ := sampleFrame_framed h
  obtain ⟨r', mid', hframed'⟩ := sampleFrame_framed h'
  have hmid : List.Forall₂ SameReading mid.now.domains mid'.now.domains := by
    rw [hframed.domains_eq, hframed'.domains_eq, hread.snapshot_eq s.vcpuList t.vcpuList,
      List.forall₂_map_left_iff, List.forall₂_map_right_iff, List.forall₂_same]
    intro d hd
    obtain ⟨entries, hscanned⟩ := mem_snapshot hd
    have hlength := (scanned_fresh hscanned).length
    exact (refreshDomain_reading hlength _).symm.trans (refreshDomain_reading hlength _)
  refine forall₂_comp (forall₂_comp hframed.sampled.flip hmid (T := SameReading)
    fun d' d e hd he => ?_) hframed'.sampled fun d e e' hd he => hd.trans (.of_sampled he)
  exact (SameReading.of_sampled hd).symm.trans he

/-- **Of two readings that are the same, a frame makes the same records** where the counters go
on. -/
theorem sampleFrame_past (hread : Tabled c.arch env.refresh)
    (hnow : List.Forall₂ SameReading s.now.domains t.now.domains)
    (h : sampleFrame c env s = .ok s') (h' : sampleFrame c env t = .ok t') :
    List.Forall₂ (fun d d' => GoesOn c.arch s'.pre d → SameSample d d') s'.now.domains
      t'.now.domains := by
  obtain ⟨r, mid, hframed⟩ := sampleFrame_framed h
  obtain ⟨r', mid', hframed'⟩ := sampleFrame_framed h'
  have hpre : mid.pre.domains = s.now.domains := (refreshDomains_rotated hframed.refreshed).pre
  have hpre' : mid'.pre.domains = t.now.domains := (refreshDomains_rotated hframed'.refreshed).pre
  have hmid : List.Forall₂ (fun d d' => GoesOn c.arch mid.pre d → d = d') mid.now.domains
      mid'.now.domains := by
    rw [hframed.domains_eq, hframed'.domains_eq, hread.snapshot_eq s.vcpuList t.vcpuList,
      List.forall₂_map_left_iff, List.forall₂_map_right_iff, List.forall₂_same]
    intro d hd hon
    obtain ⟨entries, hscanned⟩ := mem_snapshot hd
    refine refreshDomain_past (scanned_fresh hscanned) ?_ hon
    rw [getDomainFromId, getDomainFromId, hpre, hpre']
    exact rel_find? hnow fun o o' ho => by rw [ho.record]
  rw [hframed.pre]
  refine forall₂_comp (forall₂_comp hframed.sampled.flip hmid
    (T := fun d e => GoesOn c.arch mid.pre d → SameSample d e) fun d' d e hd he hon => ?_)
    hframed'.sampled fun d e e' hd he hon => (hd hon).trans he
  have hgoes : GoesOn c.arch mid.pre d := by
    rw [hd] at hon
    exact hon
  rw [← he hgoes]
  exact SameSample.symm hd

/-- **Two frames are enough**: whatever two runs found before, the same two frames leave them the
same records, but for the deltas of the records whose counters went back. -/
theorem runAll_forgets (hread : Tabled c.arch env.refresh) (hread' : Tabled c.arch env'.refresh)
    (h : runAll (sampleFrame c) (before ++ [env, env']) s₀ = .ok s)
    (h' : runAll (sampleFrame c) (before' ++ [env, env']) t₀ = .ok t) :
    List.Forall₂ (fun d d' => SameReading d d' ∧ (GoesOn c.arch s.pre d → SameSample d d'))
      s.now.domains t.now.domains := by
  obtain ⟨s₁, s₂, hfirst, hlast⟩ := runAll_pair h
  obtain ⟨t₁, t₂, hfirst', hlast'⟩ := runAll_pair h'
  have hnow := sampleFrame_reading hread hfirst hfirst'
  exact (sampleFrame_reading hread' hlast hlast').mp (fun _ _ => And.intro)
    (sampleFrame_past hread' hnow hlast hlast')

/-- A run in which the exits went back from nine to five, and a run that begins with the five. -/
theorem runAll_forgets_host : ∃ s t,
    runAll (sampleFrame hostConfig)
        ([hostFrame 2 2, hostFrame 9 12] ++ [hostFrame 5 3, hostFrame 8 10]) zeroLists = .ok s ∧
      runAll (sampleFrame hostConfig) ([] ++ [hostFrame 5 3, hostFrame 8 10]) zeroLists = .ok t ∧
      shown .exits s = [⟨0, 0, 3, [⟨1, 8, 3⟩]⟩] ∧ SameSamples s.now.domains t.now.domains := by
  have hlong : (runAll (sampleFrame hostConfig)
      ([hostFrame 2 2, hostFrame 9 12] ++ [hostFrame 5 3, hostFrame 8 10])
      zeroLists).toOption.map (fun s => (shown .exits s,
        s.now.domains.all fun d => GoesOn .other s.pre d)) =
      some ([⟨0, 0, 3, [⟨1, 8, 3⟩]⟩], true) := by decide +kernel
  have hshort : (runAll (sampleFrame hostConfig) ([] ++ [hostFrame 5 3, hostFrame 8 10])
      zeroLists).toOption.isSome := by decide +kernel
  obtain ⟨s, hs, hseen⟩ := Option.map_eq_some_iff.1 hlong
  obtain ⟨t, ht⟩ := Option.isSome_iff_exists.1 hshort
  rw [toOption_eq_some] at hs ht
  obtain ⟨hshown, hon⟩ := Prod.mk.inj hseen
  rw [List.all_eq_true] at hon
  have htabled (n ticks : ℕ) (hn : ∀ buf ∈ rowLines (vcpuLine .other 1 n),
      Fills (vcpuStatStab .other) (tokens isBlank (cstr buf))) :
      Tabled .other (hostFrame n ticks).refresh := by
    rintro _ ⟨⟩
    exact hn
  have hsame := runAll_forgets (c := hostConfig) (htabled 5 3 (by decide +kernel))
    (htabled 8 10 (by decide +kernel)) hs ht
  rw [List.forall₂_iff_get] at hsame
  refine ⟨s, t, hs, ht, hshown, List.forall₂_iff_get.2
    ⟨hsame.1, fun i hi hi' => (hsame.2 i hi hi').2 ?_⟩⟩
  exact of_decide_eq_true (hon _ (List.get_mem _ _))

end Vmtop
