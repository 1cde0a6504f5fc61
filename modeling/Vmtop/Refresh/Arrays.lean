/-
# Which arrays the records point to

The records of the two snapshots own their arrays of threads: no two records point to the
same one, and each array that a record points to is held (`Owned`).  A refresh keeps that,
because it frees the arrays of the older snapshot and allocates new ones.  Whether
it loses anything (`NothingLost`) depends only on the pid files that it calls `set_domain`
for (`reached`): it loses the directories and the arrays that they leak, and nothing else
(`refreshDomainsHeld_follows`).
-/

import Mathlib.Data.List.ReduceOption
import Vmtop.Refresh.Handles

namespace Vmtop

open CText CArray Ledgers

variable {arch : Arch} {monitorId : ℤ} {sys : Sys} {l : VcpuList} {dir : ℕ} {env : Env}
  {opens : Sys → Text → Bool} {L L' : Ledger Kind} {s s' : Lists} {arrays arrays' : Arrays}

/-! ### The directory -/

/-- The entries that `get_qemu_id` calls `set_domain` for: the pid files up to the first one
that there is no memory for. -/
def reached (entries : List (Dirent × Sys)) : List (Dirent × Sys) :=
  (entries.filter isPidFile).takeWhile fun e => e.2.mallocDomains

/-- The directories that the entries leave open. -/
def leakedStreams (monitorId : ℤ) (entries : List (Dirent × Sys)) : ℕ :=
  entries.countP fun e => leaksStream monitorId e.2 e.1.name

/-- The arrays that the entries leave allocated. -/
def leakedArrays (monitorId : ℤ) (entries : List (Dirent × Sys)) : ℕ :=
  entries.countP fun e => leaksArray monitorId e.2 e.1.name

theorem reached_other {e : Dirent × Sys} (h : ¬ isPidFile e = true) (rest : List (Dirent × Sys)) :
    reached (e :: rest) = reached rest := by
  rw [reached, List.filter_cons_of_neg h]
  rfl

theorem reached_pidFile {e : Dirent × Sys} (h : isPidFile e = true) (rest : List (Dirent × Sys)) :
    reached (e :: rest) = if e.2.mallocDomains then e :: reached rest else [] := by
  rw [reached, List.filter_cons_of_pos h, List.takeWhile_cons]
  rfl

/-- An entry that is no pid file is passed over. -/
theorem qemuLoopHeld_other {dirent : Dirent} (h : ¬ isPidFile (dirent, sys) = true)
    (rest : List (Dirent × Sys)) (list : DomainList) (arrays : List (Option ℕ)) :
    qemuLoopHeld opens arch monitorId l dir ((dirent, sys) :: rest) list arrays =
      qemuLoopHeld opens arch monitorId l dir rest list arrays := by
  rw [qemuLoopHeld]
  split_ifs with h₁ h₂ h₃
  · rfl
  · rfl
  · rfl
  · exact absurd (isPidFile_iff_checks.2 ⟨h₁, not_not.1 h₂, not_not.1 h₃⟩) h

/-- `set_domain` is called for a pid file that there is memory for; without it the directory
is closed. -/
theorem qemuLoopHeld_pidFile {dirent : Dirent} (h : isPidFile (dirent, sys) = true)
    (rest : List (Dirent × Sys)) (list : DomainList) (arrays : List (Option ℕ)) :
    qemuLoopHeld opens arch monitorId l dir ((dirent, sys) :: rest) list arrays =
      (addDomains sys.mallocDomains list).elim
        (release .stream dir >>= fun _ => pure (-1, list, arrays)) fun added =>
          setDomainHeld (opens sys) arch monitorId sys l dirent.name Domain.zero >>= fun b =>
            if b.1 < 0 then
              qemuLoopHeld opens arch monitorId l dir rest (popDomains (added.setLast b.2.1)) arrays
            else
              qemuLoopHeld opens arch monitorId l dir rest (added.setLast b.2.1)
                (arrays ++ [b.2.2]) := by
  obtain ⟨hdirent, htype, hcheck⟩ := isPidFile_iff_checks.1 h
  simp only [qemuLoopHeld, hdirent, htype, hcheck, if_false, ne_eq, not_true_eq_false]
  cases hadd : addDomains sys.mallocDomains list with
  | none => rfl
  | some added =>
      dsimp only
      rw [addDomains_last hadd]
      rfl

/-- What the loop of `get_qemu_id` keeps and loses of the entries it reaches: `new` are the
arrays of the records that it appends. -/
structure LoopHeld (monitorId : ℤ) (entries : List (Dirent × Sys)) (list : DomainList)
    (arrays new : List (Option ℕ)) (L L' : Ledger Kind) : Prop where
  length : list.domains.length = (arrays ++ new).length
  entered : Entered new.reduceOption (leakedStreams monitorId (reached entries))
    (leakedArrays monitorId (reached entries)) L L'

variable {entries rest : List (Dirent × Sys)} {list : DomainList} {new old : List (Option ℕ)}
  {dirent : Dirent} {L₁ : Ledger Kind} {r : ℤ} {threads : Option ℕ}

/-- An element in front counts once, or not at all. -/
theorem countP_cons_toNat {α : Type} (p : α → Bool) (a : α) (l : List α) :
    (a :: l).countP p = (p a).toNat + l.countP p := by
  rw [List.countP_cons, Nat.add_comm]
  cases p a <;> rfl

theorem leakedStreams_cons :
    leakedStreams monitorId ((dirent, sys) :: rest) =
      (leaksStream monitorId sys dirent.name).toNat + leakedStreams monitorId rest :=
  countP_cons_toNat _ _ _

theorem leakedArrays_cons :
    leakedArrays monitorId ((dirent, sys) :: rest) =
      (leaksArray monitorId sys dirent.name).toNat + leakedArrays monitorId rest :=
  countP_cons_toNat _ _ _

/-- A rejected entry in front keeps nothing. -/
theorem LoopHeld.cons_rejected (hreached : reached entries = (dirent, sys) :: reached rest)
    (hentry : EntryHeld monitorId sys dirent.name r threads L L₁) (hr : r < 0)
    (h : LoopHeld monitorId rest list old new L₁ L') :
    LoopHeld monitorId entries list old new L L' where
  length := h.length
  entered := by
    have hthreads : threads.toList.length = (leaksArray monitorId sys dirent.name).toNat := by
      rw [← hentry.rejected hr]
      cases threads <;> rfl
    have hentered := hentry.entered.lose.trans h.entered
    rw [List.nil_append, zero_add, hthreads] at hentered
    rw [hreached, leakedStreams_cons, leakedArrays_cons]
    exact hentered

/-- An accepted entry in front keeps its array. -/
theorem LoopHeld.cons_accepted (hreached : reached entries = (dirent, sys) :: reached rest)
    (hentry : EntryHeld monitorId sys dirent.name r threads L L₁) (hr : 0 ≤ r)
    (h : LoopHeld monitorId rest list (old ++ [threads]) new L₁ L') :
    LoopHeld monitorId entries list old (threads :: new) L L' where
  length := by
    rw [List.append_cons]
    exact h.length
  entered := by
    have hentered := hentry.entered.trans h.entered
    rw [hreached, leakedStreams_cons, leakedArrays_cons, hentry.kept hr, ← List.singleton_append,
      List.reduceOption_append, List.reduceOption_singleton]
    exact hentered

/-- **The loop closes its directory, and keeps what its records point to.** -/
theorem qemuLoopHeld_follows (entries : List (Dirent × Sys)) {list : DomainList}
    {old : List (Option ℕ)} (hdir : dir ∈ L.held .stream)
    (hlength : list.domains.length = old.length) :
    Follows L (qemuLoopHeld opens arch monitorId l dir entries list old)
      (qemuLoop arch monitorId l entries list)
      fun b a L' => (b.1, b.2.1) = a ∧ ∃ new, b.2.2 = old ++ new ∧
        LoopHeld monitorId entries b.2.1 old new (L.strike .stream dir) L' := by
  induction entries generalizing list old L with
  | nil =>
      rw [qemuLoopHeld, qemuLoop]
      refine Follows.release hdir (Follows.pure ⟨rfl, [], (List.append_nil _).symm, ?_, ?_⟩)
      · rw [List.append_nil]
        exact hlength
      · exact .of_held_eq rfl
  | cons entry rest ih =>
      obtain ⟨dirent, sys⟩ := entry
      by_cases hpid : isPidFile (dirent, sys) = true
      · rw [qemuLoopHeld_pidFile hpid, qemuLoop_pidFile hpid]
        have hreached := reached_pidFile hpid rest
        dsimp only at hreached
        cases hm : sys.mallocDomains with
        | false =>
            rw [hm] at hreached
            refine Follows.release hdir
              (Follows.pure ⟨rfl, [], (List.append_nil _).symm, ?_, ?_⟩)
            · rw [List.append_nil]
              exact hlength
            · rw [hreached]
              exact .of_held_eq rfl
        | true =>
            rw [hm, if_pos rfl] at hreached
            simp only [addDomains, if_true, Option.elim_some, DomainList.setLast,
              List.dropLast_concat, popDomains]
            refine (setDomainHeld_follows L).bind fun b a L₁ hR => ?_
            obtain ⟨r, d, threads⟩ := b
            obtain ⟨rfl, hentry⟩ := hR
            -- the directory was open before the entry was read
            obtain ⟨hdir₁, hstruck⟩ := hentry.strike hdir
            dsimp only at hstruck ⊢
            by_cases hr : r < 0
            · rw [if_pos hr, if_pos hr]
              refine Follows.mono (ih hdir₁ ?_) fun b a L' hR => ⟨hR.1, ?_⟩
              · exact hlength
              obtain ⟨new, hnew, hheld⟩ := hR.2
              exact ⟨new, hnew, hheld.cons_rejected hreached hstruck hr⟩
            · rw [if_neg hr, if_neg hr]
              refine Follows.mono (ih hdir₁ ?_) fun b a L' hR => ⟨hR.1, ?_⟩
              · rw [List.length_append, List.length_append, hlength]
                rfl
              · obtain ⟨new, hnew, hheld⟩ := hR.2
                refine ⟨threads :: new, ?_, hheld.cons_accepted hreached hstruck (Int.not_lt.1 hr)⟩
                rw [hnew, ← List.append_cons]
      · rw [qemuLoopHeld_other hpid, qemuLoop_other hpid]
        have hreached := reached_other hpid rest
        refine (ih hdir hlength).mono fun b a L' hR => ⟨hR.1, ?_⟩
        obtain ⟨new, hnew, hheld⟩ := hR.2
        exact ⟨new, hnew, hheld.length, by rw [hreached]; exact hheld.entered⟩

/-- What `get_qemu_id` keeps and loses. -/
theorem getQemuIdHeld_follows (dir : Option (List (Dirent × Sys))) (hempty : list.domains = []) :
    Follows L (getQemuIdHeld opens arch monitorId dir l list) (getQemuId arch monitorId dir l list)
      fun b a L' => (b.1, b.2.1) = a ∧ b.2.1.domains.length = b.2.2.length ∧
        Entered b.2.2.reduceOption (leakedStreams monitorId (dir.elim [] reached))
          (leakedArrays monitorId (dir.elim [] reached)) L L' := by
  unfold getQemuIdHeld getQemuId
  cases dir with
  | none =>
      refine Follows.pure ⟨rfl, ?_, .of_held_eq rfl⟩
      rw [hempty]
      rfl
  | some entries =>
      refine Follows.acquire (Follows.mono (qemuLoopHeld_follows entries
        (Ledger.mem_enter.2 (Or.inr ⟨rfl, rfl⟩)) ?_) fun b a L' hR => ⟨hR.1, ?_⟩)
      · rw [hempty]
        rfl
      · obtain ⟨new, hnew, hheld⟩ := hR.2
        rw [List.nil_append] at hnew
        have hentered := (Entered.of_held_eq (L.held_strike_enter .stream)).trans hheld.entered
        rw [List.nil_append, zero_add, zero_add] at hentered
        rw [hnew]
        exact ⟨hheld.length, hentered⟩

/-! ### The records own their arrays -/

/-- The arrays that the records of the two snapshots point to, once for every record. -/
def Arrays.owned (arrays : Arrays) : List ℕ := (arrays.now ++ arrays.pre).reduceOption

/-- No two records point to the same array, and the arrays that they point to are held. -/
structure Owned (L : Ledger Kind) (s : Lists) (arrays : Arrays) : Prop where
  now : s.now.domains.length = arrays.now.length
  pre : s.pre.domains.length = arrays.pre.length
  nodup : arrays.owned.Nodup
  held : ∀ h ∈ arrays.owned, h ∈ L.held .threads

/-- The arrays in the ledger that do not belong to exactly one record. -/
def unowned (L : Ledger Kind) (arrays : Arrays) : Finset ℕ :=
  (L.held .threads).filter fun h => arrays.owned.count h ≠ 1

/-- Every directory and every file that was opened is closed, and every array in the ledger
belongs to exactly one record, unless it was lost before. -/
structure NothingLost (L L' : Ledger Kind) (arrays arrays' : Arrays) : Prop where
  streams : L'.held .stream = L.held .stream
  files : L'.held .file = L.held .file
  arrays : unowned L' arrays' ⊆ unowned L arrays

theorem Owned.mem_unowned (howned : Owned L s arrays) {h : ℕ} :
    h ∈ unowned L arrays ↔ h ∈ L.held .threads ∧ h ∉ arrays.owned := by
  have hcount : arrays.owned.count h = 1 ↔ h ∈ arrays.owned := by
    rw [howned.nodup.count]
    simp
  rw [unowned, Finset.mem_filter, Ne, hcount]

/-- The loop of `clear_domains` frees the arrays that the records point to. -/
theorem freeThreads_eq (arrays : List (Option ℕ)) :
    freeThreads arrays = releaseAll .threads arrays.reduceOption := by
  induction arrays with
  | nil => rfl
  | cons threads rest ih =>
      cases threads with
      | none => rw [freeThreads, List.reduceOption_cons_of_none, ih]
      | some h => rw [freeThreads, List.reduceOption_cons_of_some, releaseAll, ih]

variable {streams lost : ℕ} {news : List ℕ}

/-- So many directories are lost as are open behind. -/
theorem Entered.streams_iff (h : Entered news streams lost L L') :
    L'.held .stream = L.held .stream ↔ streams = 0 :=
  h.held_eq_iff.trans (and_iff_right rfl)

theorem Entered.files (h : Entered news streams lost L L') : L'.held .file = L.held .file :=
  h.held_eq_iff.2 ⟨rfl, rfl⟩

theorem mem_owned (now pre : List (Option ℕ)) {h : ℕ} : h ∈ (⟨now, pre⟩ : Arrays).owned ↔
    h ∈ now.reduceOption ∨ h ∈ pre.reduceOption := by
  rw [Arrays.owned, List.reduceOption_append, List.mem_append]

/-- Where `refresh_domains` has moved the records to the older snapshot, whose arrays it freed,
the records own their arrays, and the same ones are lost. -/
theorem Owned.moved (howned : Owned L s arrays)
    (hfreed : ∀ k h, h ∈ L₁.held k ↔ h ∈ L.held k ∧ ¬ (k = .threads ∧ h ∈ arrays.pre.reduceOption))
    (hnow : s'.now.domains = []) (hpre : s'.pre.domains = s.now.domains) :
    Owned L₁ s' ⟨[], arrays.now⟩ ∧
      ∀ L' arrays', NothingLost L L' arrays arrays' ↔
        NothingLost L₁ L' ⟨[], arrays.now⟩ arrays' := by
  have hnodup := howned.nodup
  rw [Arrays.owned, List.reduceOption_append] at hnodup
  obtain ⟨hmoved, -, hdisjoint⟩ := List.nodup_append.1 hnodup
  have howned₁ : Owned L₁ s' ⟨[], arrays.now⟩ := by
    refine ⟨congrArg List.length hnow, ?_, hmoved, fun h hh => ?_⟩
    · rw [hpre]
      exact howned.now
    · rw [mem_owned, List.reduceOption_nil, List.mem_nil_iff, false_or] at hh
      exact (hfreed _ _).2 ⟨howned.held h ((mem_owned _ _).2 (Or.inl hh)),
        fun hpre => hdisjoint h hh h hpre.2 rfl⟩
  have hstreams : L₁.held .stream = L.held .stream := by
    ext h
    simp [hfreed]
  have hfiles : L₁.held .file = L.held .file := by
    ext h
    simp [hfreed]
  have hunowned : unowned L₁ ⟨[], arrays.now⟩ = unowned L arrays := by
    ext h
    rw [howned₁.mem_unowned, howned.mem_unowned, hfreed, mem_owned, mem_owned,
      List.reduceOption_nil, List.mem_nil_iff]
    tauto
  refine ⟨howned₁, fun L' arrays' => ⟨fun hlost => ⟨?_, ?_, ?_⟩, fun hlost => ⟨?_, ?_, ?_⟩⟩⟩
  · exact hlost.streams.trans hstreams.symm
  · exact hlost.files.trans hfiles.symm
  · exact hunowned ▸ hlost.arrays
  · exact hlost.streams.trans hstreams
  · exact hlost.files.trans hfiles
  · exact hunowned ▸ hlost.arrays

/-- **New records own the arrays that were kept for them**, and nothing is lost exactly when the
entries lose nothing. -/
theorem Owned.entered (howned : Owned L s ⟨[], old⟩)
    (hentered : Entered new.reduceOption streams lost L L')
    (hnow : s'.now.domains.length = new.length) (hpre : s'.pre.domains = s.pre.domains) :
    Owned L' s' ⟨new, old⟩ ∧
      (NothingLost L L' ⟨[], old⟩ ⟨new, old⟩ ↔ streams = 0 ∧ lost = 0) := by
  obtain ⟨gone, hlength, hfresh, hnew, hheld⟩ := hentered.grows .threads
  dsimp only [keptThreads, lostHandles] at hlength hfresh hnew hheld
  obtain ⟨hnodup, -, hdisjoint⟩ := List.nodup_append.1 hfresh
  have hold : ∀ h ∈ old.reduceOption, h ∈ L.held .threads := fun h hh =>
    howned.held h ((mem_owned _ _).2 (Or.inr hh))
  have howned' : Owned L' s' ⟨new, old⟩ := by
    refine ⟨hnow, ?_, ?_, fun h hh => (hheld h).2 ?_⟩
    · rw [hpre]
      exact howned.pre
    · rw [Arrays.owned, List.reduceOption_append]
      refine List.nodup_append.2 ⟨hnodup, howned.nodup, ?_⟩
      rintro h hh _ hh' rfl
      exact hnew h (List.mem_append_left _ hh) (hold h hh')
    · rcases (mem_owned _ _).1 hh with hh | hh
      · exact Or.inr (List.mem_append_left _ hh)
      · exact Or.inl (hold h hh)
  refine ⟨howned', fun hlost => ⟨?_, ?_⟩, fun hnone => ⟨?_, ?_, fun h hh => ?_⟩⟩
  · exact hentered.streams_iff.1 hlost.streams
  · rw [← hlength, List.length_eq_zero_iff]
    refine List.eq_nil_iff_forall_not_mem.2 fun h hh => ?_
    have hnot := hnew h (List.mem_append_right _ hh)
    -- an array that is lost belongs to no record, but it was not held before
    have hlost' : h ∈ unowned L' ⟨new, old⟩ := by
      rw [howned'.mem_unowned, mem_owned]
      refine ⟨(hheld h).2 (Or.inr (List.mem_append_right _ hh)), not_or.2 ⟨fun hh' => ?_, ?_⟩⟩
      · exact hdisjoint h hh' h hh rfl
      · exact fun hh' => hnot (hold h hh')
    exact hnot (howned.mem_unowned.1 (hlost.arrays hlost')).1
  · exact hentered.streams_iff.2 hnone.1
  · exact hentered.files
  · rw [hnone.2, List.length_eq_zero_iff] at hlength
    rw [howned'.mem_unowned, hheld, hlength, List.append_nil, mem_owned, not_or] at hh
    rw [howned.mem_unowned, mem_owned, not_or]
    exact ⟨hh.1.resolve_right hh.2.1, List.not_mem_nil, hh.2.2⟩

/-- Both parts of a refresh. -/
theorem Owned.refreshed (howned : Owned L s arrays)
    (hfreed : ∀ k h, h ∈ L₁.held k ↔ h ∈ L.held k ∧ ¬ (k = .threads ∧ h ∈ arrays.pre.reduceOption))
    (hentered : Entered new.reduceOption streams lost L₁ L')
    (hnow : s'.now.domains.length = new.length) (hpre : s'.pre.domains = s.now.domains) :
    Owned L' s' ⟨new, arrays.now⟩ ∧
      (NothingLost L L' arrays ⟨new, arrays.now⟩ ↔ streams = 0 ∧ lost = 0) := by
  have hnil : ({ s' with now := .empty } : Lists).now.domains = [] := rfl
  obtain ⟨hmoved, hiff⟩ := howned.moved hfreed hnil hpre
  obtain ⟨howned', hlost⟩ := hmoved.entered hentered hnow rfl
  exact ⟨howned', (hiff _ _).trans hlost⟩

/-! ### A refresh -/

/-- The entries that a refresh calls `set_domain` for: none, where it finds no `vcpu_stat` file. -/
def Env.reached (env : Env) : List (Dirent × Sys) :=
  env.vcpuStat.elim [] fun _ => env.qemuDir.elim [] Vmtop.reached

/-- No entry leaves a directory open or an array allocated. -/
def LosesNothing (monitorId : ℤ) (env : Env) : Prop :=
  ∀ e ∈ env.reached, leaksStream monitorId e.2 e.1.name = false ∧
    leaksArray monitorId e.2 e.1.name = false

theorem losesNothing_iff : LosesNothing monitorId env ↔
    leakedStreams monitorId env.reached = 0 ∧ leakedArrays monitorId env.reached = 0 := by
  simp only [LosesNothing, leakedStreams, leakedArrays, List.countP_eq_zero, Bool.not_eq_true]
  exact forall₂_and

/-- **What a refresh loses.** -/
theorem refreshDomainsHeld_follows (opens : Sys → Text → Bool) (arch : Arch) (monitorId : ℤ)
    (env : Env) (howned : Owned L s arrays) :
    Follows L (refreshDomainsHeld opens arch monitorId env s arrays)
      (refreshDomains arch monitorId env s)
      fun b a L' => (b.1, b.2.1) = a ∧ Owned L' b.2.1 b.2.2 ∧
        (NothingLost L L' arrays b.2.2 ↔ LosesNothing monitorId env) := by
  have hpre : arrays.pre.reduceOption.Nodup := by
    have hnodup := howned.nodup
    rw [Arrays.owned, List.reduceOption_append] at hnodup
    exact (List.nodup_append.1 hnodup).2.1
  obtain ⟨L₁, hrun, hfreed⟩ := releaseAll_run hpre fun h hh =>
    howned.held h ((mem_owned _ _).2 (Or.inr hh))
  rw [← freeThreads_eq] at hrun
  unfold refreshDomainsHeld refreshDomains
  refine Follows.of_run ?_ (bind_run hrun)
  refine (getVcpuListHeld_balanced arch env.vcpuStat s.vcpuList).then_follows fun L₂ hheld => ?_
  rw [losesNothing_iff]
  cases hstat : env.vcpuStat with
  | none =>
      have hreached : env.reached = [] := by rw [Env.reached, hstat, Option.elim_none]
      rw [hreached]
      exact Follows.pure ⟨rfl, howned.refreshed hfreed (.of_held_eq hheld) rfl rfl⟩
  | some text =>
      have hreached : env.reached = env.qemuDir.elim [] Vmtop.reached := by
        rw [Env.reached, hstat, Option.elim_some]
      have hnum : ¬ (getVcpuList arch (some text) s.vcpuList).1 < 0 :=
        Int.not_lt.2 (Int.natCast_nonneg _)
      rw [if_neg hnum, if_neg hnum, hreached]
      refine (getQemuIdHeld_follows env.qemuDir rfl).bind fun b a L' hR => ?_
      obtain ⟨num, now, new⟩ := b
      obtain ⟨rfl, hlength, hentered⟩ := hR
      have hadded := (Entered.of_held_eq hheld).trans hentered
      rw [List.nil_append, zero_add, zero_add] at hadded
      refine Follows.pure ⟨rfl, howned.refreshed hfreed hadded ?_ rfl⟩
      rw [List.length_map]
      exact hlength

end Vmtop
