/-
# What `get_qemu_id` puts into the list

Every entry of the listing that is a pid file gets a cleared record at the end of a new array,
`set_domain` fills it in place, and a failure takes it out again.  So in the end the list has
one record for each file that succeeded, in the order of the listing (`getQemuId_listed`), and
whatever a failed `set_domain` had already stored is gone with its record.

What it leaves behind all the same is the stack.  A record is the one that a scan of its file
alone would have made, exactly where its own files overwrite what is parsed of the buffers
(`getQemuId_records_iff`); an empty pid file lets an entry take the pid of the one before.
-/

import Vmtop.Refresh.Stale

namespace Vmtop

open CText CArray

variable {arch : Arch} {monitorId : ℤ} {sys : Sys} {l : VcpuList} {entries : List (Dirent × Sys)}
  {entry : Dirent × Sys} {d dom : Domain} {name : Text} {r : ℤ}

/-! ### One record -/

/-- A record that `get_qemu_id` may put into the list for the file `name`. -/
structure ValidRecord (monitorId : ℤ) (name : Text) (d : Domain) : Prop where
  type : d.type = .isDomain
  pid : 1 ≤ d.pid
  id : 0 ≤ d.domainId
  monitored : 0 ≤ monitorId → d.domainId = monitorId
  vmname : name = d.vmname ++ ".pid".toList

/-- `set_domain` succeeds on a cleared record. -/
def succeeds (arch : Arch) (monitorId : ℤ) (l : VcpuList) (entry : Dirent × Sys) : Bool :=
  match setDomain arch monitorId entry.2 l entry.1.name Domain.zero with
  | .ok (r, _) => decide (0 ≤ r)
  | .error _ => false

/-- The pid files of a listing that `set_domain` succeeds on, up to the first one there is no
memory for. -/
def accepted (arch : Arch) (monitorId : ℤ) (l : VcpuList) (entries : List (Dirent × Sys)) :
    List (Dirent × Sys) :=
  ((entries.filter isPidFile).takeWhile fun entry => entry.2.mallocDomains).filter
    (succeeds arch monitorId l)

/-- The record `d` is what a scan of this entry alone puts into an empty list. -/
def ReadAlone (arch : Arch) (monitorId : ℤ) (l : VcpuList) (entry : Dirent × Sys) (d : Domain) :
    Prop :=
  ∀ list : DomainList, list.domains = [] →
    ∃ r list', getQemuId arch monitorId (some [entry]) l list = .ok (r, list') ∧
      list'.domains = [d]

/-- The record that the list holds for an entry: the one that a scan of its file alone makes,
whatever its buffers hold then, and a valid one. -/
structure OwnRecord (arch : Arch) (monitorId : ℤ) (l : VcpuList) (entry : Dirent × Sys)
    (d : Domain) : Prop where
  alone : ∀ sys', SameFiles entry.2 sys' → ReadAlone arch monitorId l (entry.1, sys') d
  valid : ValidRecord monitorId entry.1.name d

/-- A name that ends with `.pid` and has more before it. -/
theorem checkPidFile_eq_zero_iff : checkPidFile name = 0 ↔
    ∃ stem, stem ≠ [] ∧ name = stem ++ ".pid".toList := by
  rw [checkPidFile]
  split_ifs with hlen hext
  · refine ⟨fun h => absurd h (by decide), ?_⟩
    rintro ⟨stem, hstem, rfl⟩
    rw [List.length_append] at hlen
    exact absurd (List.length_eq_zero_iff.1 (by omega)) hstem
  · refine ⟨fun _ => ⟨name.take (name.length - ".pid".toList.length), ?_, ?_⟩, fun _ => rfl⟩
    · rw [← List.length_pos_iff, List.length_take]
      omega
    · have hsplit := List.take_append_drop (name.length - ".pid".toList.length) name
      rw [hext] at hsplit
      exact hsplit.symm
  · refine ⟨fun h => absurd h (by decide), ?_⟩
    rintro ⟨stem, -, rfl⟩
    rw [List.length_append, Nat.add_sub_cancel, List.drop_left] at hext
    exact absurd rfl hext

theorem isPidFile_iff : isPidFile entry = true ↔
    entry.1.type = .reg ∧ ∃ stem, stem ≠ [] ∧ entry.1.name = stem ++ ".pid".toList := by
  rw [← checkPidFile_eq_zero_iff]
  refine isPidFile_iff_checks.trans ⟨And.right, fun ⟨htype, hcheck⟩ => ⟨?_, htype, hcheck⟩⟩
  rintro (hname | hname)
  · rw [hname] at hcheck
    exact absurd hcheck (by decide)
  · rw [hname] at hcheck
    exact absurd hcheck (by decide)

theorem succeeds_eq (entry : Dirent × Sys) :
    succeeds arch monitorId l entry = (readEntry arch monitorId l entry).isSome := by
  rw [succeeds, readEntry]
  cases setDomain arch monitorId entry.2 l entry.1.name Domain.zero with
  | error e => rfl
  | ok p =>
      dsimp only
      split_ifs with hr
      · simpa using hr
      · simpa using hr

/-- What the checks and the stat file leave of the identity. -/
theorem readProcess_valid (h : readProcess monitorId sys name = some dom) :
    dom.type = .isDomain ∧ 1 ≤ dom.pid ∧ 0 ≤ dom.domainId ∧
      (0 ≤ monitorId → dom.domainId = monitorId) := by
  obtain ⟨dom₀, hcheck, h⟩ := Option.bind_eq_some_iff.1 h
  have hchecked : 1 ≤ dom₀.pid ∧ 0 ≤ dom₀.domainId ∧
      (0 ≤ monitorId → dom₀.domainId = monitorId) := by
    simp only [checkedEntry] at hcheck
    split_ifs at hcheck with hfail
    cases hcheck
    simp only [not_or, not_and, not_not, Int.not_lt] at hfail
    exact hfail.2
  split at h
  · rename_i r t hstat
    split_ifs at h
    cases h
    have hframe := getProcStat_frame hstat
    refine ⟨hframe.type, ?_, ?_, fun hmonitor => ?_⟩
    · exact hchecked.1.trans_eq hframe.pid.symm
    · exact hchecked.2.1.trans_eq hframe.domainId.symm
    · exact hframe.domainId.trans (hchecked.2.2 hmonitor)
  · cases h

/-- **An accepted record is valid**, for a pid file. -/
theorem validRecord_of_readEntry (hpid : isPidFile entry = true)
    (h : readEntry arch monitorId l entry = some d) : ValidRecord monitorId entry.1.name d := by
  obtain ⟨dom, r, d', hprocess, hchild, hr, -, rfl⟩ := readEntry_eq_some.1 h
  obtain ⟨htype, hpos, hid, hmonitored⟩ := readProcess_valid hprocess
  obtain ⟨-, -, st, -, -, rfl⟩ := getChildPid_eq_ok hchild hr
  obtain ⟨-, stem, -, hname⟩ := isPidFile_iff.1 hpid
  refine ⟨htype, hpos, hid, hmonitored, ?_⟩
  dsimp only
  rw [hname, List.length_append, Nat.add_sub_cancel, List.take_left]

/-- The record that comes of a file alone is the one that is made of it. -/
theorem readAlone_iff (hpid : isPidFile entry = true) (hmalloc : entry.2.mallocDomains = true) :
    ReadAlone arch monitorId l entry d ↔ readEntry arch monitorId l entry = some d := by
  have hscanned : scanned arch monitorId l [entry] =
      (readEntry arch monitorId l entry).toList := by
    rw [scanned, List.filter_cons_of_pos hpid, List.filter_nil, List.takeWhile_cons, if_pos hmalloc,
      List.takeWhile_nil, List.filterMap_cons, List.filterMap_nil]
    cases readEntry arch monitorId l entry <;> rfl
  constructor
  · intro h
    obtain ⟨r, list', hok, hd⟩ := h .empty rfl
    rw [(qemuLoop_domains hok).1, hscanned] at hd
    exact Option.toList_eq_singleton_iff.1 hd
  · intro h list hempty
    obtain ⟨dirent, sys⟩ := entry
    unfold readEntry at h
    split at h
    · rename_i r d₀ hset
      split_ifs at h with hr
      cases h
      rw [getQemuId, qemuLoop_pidFile hpid, hmalloc, hset]
      refine ⟨_, _, rfl, ?_⟩
      rw [if_neg hr]
      simp [DomainList.setLast, hempty]
    · cases h

/-- So it is the same whatever the buffers hold exactly where the files are the entry's own. -/
theorem ownRecord_iff (hpid : isPidFile entry = true) (hmalloc : entry.2.mallocDomains = true)
    (h : readEntry arch monitorId l entry = some d) :
    OwnRecord arch monitorId l entry d ↔ OwnFiles monitorId entry := by
  have halone (sys' : Sys) (hs : SameFiles entry.2 sys') :
      ReadAlone arch monitorId l (entry.1, sys') d ↔
        readEntry arch monitorId l (entry.1, sys') = some d := by
    refine readAlone_iff hpid ?_
    rw [hs]
    exact hmalloc
  rw [← readEntry_own_iff h]
  exact ⟨fun hown sys' hs => (halone sys' hs).1 (hown.alone sys' hs), fun hsteady =>
    ⟨fun sys' hs => (halone sys' hs).2 (hsteady sys' hs), validRecord_of_readEntry hpid h⟩⟩

/-! ### The list -/

/-- The elements that a partial function takes over, and what it makes of them. -/
theorem forall₂_filterMap {α β : Type*} (f : α → Option β) (as : List α) :
    List.Forall₂ (fun a b => f a = some b) (as.filter fun a => (f a).isSome) (as.filterMap f) := by
  induction as with
  | nil => exact .nil
  | cons a as ih =>
      cases h : f a with
      | none =>
          rw [List.filterMap_cons_none h, List.filter_cons_of_neg (by simp [h])]
          exact ih
      | some b =>
          rw [List.filterMap_cons_some h, List.filter_cons_of_pos (by simp [h])]
          exact .cons h ih

theorem mem_accepted (h : entry ∈ accepted arch monitorId l entries) :
    isPidFile entry = true ∧ entry.2.mallocDomains = true := by
  have hmem := List.mem_of_mem_filter h
  exact ⟨(List.mem_filter.1 (List.takeWhile_subset _ hmem)).2,
    List.mem_takeWhile_imp (p := fun entry : Dirent × Sys => entry.2.mallocDomains) hmem⟩

/-- **The records are those of the files that succeeded**: in the order of the listing, each
once; what the list held before stands in front. -/
theorem getQemuId_listed {list list' : DomainList}
    (h : getQemuId arch monitorId (some entries) l list = .ok (r, list')) :
    ∃ records, list'.domains = list.domains ++ records ∧
      List.Forall₂ (fun entry d => readEntry arch monitorId l entry = some d)
        (accepted arch monitorId l entries) records := by
  refine ⟨_, (qemuLoop_domains h).1, ?_⟩
  have hsucceeds : succeeds arch monitorId l =
      fun entry => (readEntry arch monitorId l entry).isSome := funext succeeds_eq
  rw [accepted, hsucceeds]
  exact forall₂_filterMap _ _

/-- **Each of them is valid and as its file alone gives it exactly where the files are the
entry's own.** -/
theorem getQemuId_records_iff {list list' : DomainList}
    (h : getQemuId arch monitorId (some entries) l list = .ok (r, list')) :
    (∃ records, list'.domains = list.domains ++ records ∧
      List.Forall₂ (OwnRecord arch monitorId l) (accepted arch monitorId l entries) records) ↔
      ∀ entry ∈ accepted arch monitorId l entries, OwnFiles monitorId entry := by
  obtain ⟨records, hdomains, hlisted⟩ := getQemuId_listed h
  have hread : List.Forall₂ (fun entry d => OwnRecord arch monitorId l entry d ↔
      OwnFiles monitorId entry) (accepted arch monitorId l entries) records := by
    refine ((List.forall₂_and_left _ _).2 ⟨fun entry hentry => hentry, hlisted⟩).imp ?_
    rintro entry d ⟨hentry, hread⟩
    exact ownRecord_iff (mem_accepted hentry).1 (mem_accepted hentry).2 hread
  constructor
  · rintro ⟨records', hdomains', hown⟩
    rw [hdomains', List.append_cancel_left_eq] at hdomains
    subst hdomains
    have hboth : List.Forall₂ (fun entry d => OwnFiles monitorId entry ∧
        OwnRecord arch monitorId l entry d) (accepted arch monitorId l entries) records' :=
      hread.mp (fun _ _ hiff hrecord => ⟨hiff.1 hrecord, hrecord⟩) hown
    exact ((List.forall₂_and_left _ _).1 hboth).1
  · intro hown
    refine ⟨records, hdomains, ?_⟩
    refine ((List.forall₂_and_left _ _).2 ⟨hown, hread⟩).imp ?_
    rintro entry d ⟨hfiles, hiff⟩
    exact hiff.2 hfiles

/-- A listing of two processes and, between them, one whose pid file holds no pid. -/
def mixedListing : List (Dirent × Sys) :=
  [hostEntry 1 0 idleStat, hostEntry 0 1 idleStat, hostEntry 3 2 idleStat]

/-- Two records are read of it, each of its own files. -/
theorem getQemuId_records_iff_mixed : ∃ r list', getQemuId .aarch64 (-1) (some mixedListing)
      zeroLists.vcpuList DomainList.empty = .ok (r, list') ∧ list'.num = 2 ∧
    ∃ records, list'.domains = DomainList.empty.domains ++ records ∧
      List.Forall₂ (OwnRecord .aarch64 (-1) zeroLists.vcpuList)
        (accepted .aarch64 (-1) zeroLists.vcpuList mixedListing) records := by
  have hok : ((getQemuId .aarch64 (-1) (some mixedListing) zeroLists.vcpuList
      DomainList.empty).toOption.map fun p => p.2.num) = some 2 := by decide +kernel
  obtain ⟨⟨r, list'⟩, hrun, hnum⟩ := Option.map_eq_some_iff.1 hok
  rw [toOption_eq_some] at hrun
  refine ⟨r, list', hrun, hnum, (getQemuId_records_iff hrun).2 fun entry hentry => ?_⟩
  have hlisted : entry ∈ mixedListing := by
    have hpid := List.takeWhile_subset _ (List.mem_of_mem_filter hentry)
    exact List.mem_of_mem_filter hpid
  simp only [mixedListing, List.mem_cons, List.not_mem_nil, or_false] at hlisted
  rcases hlisted with rfl | rfl | rfl <;> exact ownFiles_host ..

/-- **An empty pid file is a second record of the process whose pid file stands before it.** -/
theorem getQemuId_emptyPid : ¬ ∀ (arch : Arch) (monitorId : ℤ) (entries : List (Dirent × Sys))
    (l : VcpuList) (list list' : DomainList) (r : ℤ),
    getQemuId arch monitorId (some entries) l list = .ok (r, list') →
    ∃ records, list'.domains = list.domains ++ records ∧
      List.Forall₂ (OwnRecord arch monitorId l) (accepted arch monitorId l entries) records := by
  intro h
  have hok : ((getQemuId .aarch64 (-1) (some [hostEntry 1 0 idleStat, emptyEntry leftPid])
      zeroLists.vcpuList DomainList.empty).toOption.map fun p =>
        (p.2.domains.map fun d => (d.domainId, d.pid),
          (accepted .aarch64 (-1) zeroLists.vcpuList
            [hostEntry 1 0 idleStat, emptyEntry leftPid]).map fun entry =>
              entry.2.file (pidPath entry.1.name))) =
      some ([(0, 1), (0, 1)], [some (decimal 1), some []]) := by decide +kernel
  obtain ⟨⟨r, list'⟩, hrun, hread⟩ := Option.map_eq_some_iff.1 hok
  rw [toOption_eq_some] at hrun
  have hown := (getQemuId_records_iff hrun).1 (h _ _ _ _ _ _ _ hrun)
  have hempty : some [] ∈ (accepted .aarch64 (-1) zeroLists.vcpuList
      [hostEntry 1 0 idleStat, emptyEntry leftPid]).map fun entry =>
        entry.2.file (pidPath entry.1.name) := by
    rw [(Prod.mk.inj hread).2]
    decide
  obtain ⟨entry, hentry, hfile⟩ := List.mem_map.1 hempty
  exact (hown entry hentry).pid hfile

end Vmtop
