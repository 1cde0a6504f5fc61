/-
# Which handles a run of vmtop loses

A turn of the main loop refreshes the lists and may sample the bandwidth.  The sampling
never loses anything, and the refresh does exactly when it reads an entry that leaves
its directory open or its array allocated (`nothingLost_iff`).  Both
kinds of entries exist (`nothingLost_leaks`): a process that has no thread any more, and a
pid file whose name is as long as a name can be.

In a run without such entries everything that is held at the end belongs to a record, whatever the
calls of its turns find (`runHeld_follows`).
-/

import Vmtop.Lib.Run
import Vmtop.Refresh.Arrays
import Vmtop.Refresh.Host
import Vmtop.Sampling.Handles

namespace Vmtop

open CText CArray Ledgers Runs

variable {L L' L₁ : Ledger Kind} {s s' : Lists} {arrays arrays' arrays₁ : Arrays}

/-! ### A call -/

/-- What holds of the lists holds of those with other bandwidths. -/
theorem Owned.sampled {now : DomainList} (howned : Owned L s arrays)
    (hnow : now.domains.length = s.now.domains.length) (hheld : L'.held = L.held) :
    Owned L' { s with now := now } arrays where
  now := hnow.trans howned.now
  pre := howned.pre
  nodup := howned.nodup
  held h hh := by
    rw [hheld]
    exact howned.held h hh

/-- Where the same is held and the records point to the same arrays, nothing is lost. -/
theorem NothingLost.of_held_eq (hheld : L'.held = L.held) : NothingLost L L' arrays arrays where
  streams := by rw [hheld]
  files := by rw [hheld]
  arrays := by rw [unowned, unowned, hheld]

theorem NothingLost.trans (h : NothingLost L L₁ arrays arrays₁)
    (h' : NothingLost L₁ L' arrays₁ arrays') : NothingLost L L' arrays arrays' where
  streams := h'.streams.trans h.streams
  files := h'.files.trans h.files
  arrays := h'.arrays.trans h.arrays

theorem refreshDomainsBandwidthHeld_follows (howned : Owned L s arrays) (env : BandwidthEnv) :
    Follows L (refreshDomainsBandwidthHeld env s.now) (refreshDomainsBandwidth env s.now)
      fun b a L' => b = a ∧ Owned L' { s with now := b } arrays ∧ L'.held = L.held := by
  have hends := refreshDomainsBandwidth_ends env s.now
  have hrun := refreshDomainsBandwidthHeld_balanced env s.now L
  cases hsampled : refreshDomainsBandwidth env s.now with
  | error e =>
      rw [hsampled] at hrun
      exact hrun
  | ok now =>
      rw [hsampled] at hrun hends
      obtain ⟨b, L', hrun, rfl, hheld⟩ := hrun
      exact ⟨b, L', hrun, rfl, howned.sampled hends.1.length_eq.symm hheld, hheld⟩

/-! ### A run -/

/-- A turn keeps that the records own their arrays, and loses what its refresh does. -/
theorem sampleFrameHeld_follows (opens : Sys → Text → Bool) (c : Config) (env : FrameEnv)
    (howned : Owned L s arrays) :
    Follows L (sampleFrameHeld opens c env s arrays) (sampleFrame c env s)
      fun b a L' => b.1 = a ∧ Owned L' b.1 b.2 ∧
        (NothingLost L L' arrays b.2 ↔ LosesNothing c.monitorId env.refresh) := by
  refine (refreshDomainsHeld_follows opens c.arch c.monitorId env.refresh howned).bind
    fun b a L₁ hR => ?_
  obtain ⟨r, s₁, arrays₁⟩ := b
  obtain ⟨rfl, howned₁, hiff⟩ := hR
  dsimp only at howned₁ hiff ⊢
  split_ifs
  · refine (refreshDomainsBandwidthHeld_follows howned₁ env.bandwidth).bind fun b a L₂ hR => ?_
    obtain ⟨rfl, howned₂, hheld⟩ := hR
    refine Follows.pure ⟨rfl, howned₂, Iff.trans ?_ hiff⟩
    exact ⟨fun h => h.trans (.of_held_eq hheld.symm), fun h => h.trans (.of_held_eq hheld)⟩
  · exact Follows.pure ⟨rfl, howned₁, hiff⟩

/-- The turns of a run, one after the other; `opens` may differ from turn to turn. -/
def runHeld (opens : FrameEnv → Sys → Text → Bool) (c : Config) :
    List FrameEnv → Lists → Arrays → Prog Kind (Lists × Arrays)
  | [], s, arrays => pure (s, arrays)
  | env :: envs, s, arrays => do
      let (s, arrays) ← sampleFrameHeld (opens env) c env s arrays
      runHeld opens c envs s arrays

/-- **A run without such entries loses nothing**, however many turns it takes.  In every run the
records own their arrays. -/
theorem runHeld_follows (opens : FrameEnv → Sys → Text → Bool) (c : Config) (envs : List FrameEnv)
    (howned : Owned L s arrays) :
    Follows L (runHeld opens c envs s arrays) (runAll (sampleFrame c) envs s)
      fun b a L' => b.1 = a ∧ Owned L' b.1 b.2 ∧
        ((∀ env ∈ envs, LosesNothing c.monitorId env.refresh) → NothingLost L L' arrays b.2) := by
  induction envs generalizing s arrays L with
  | nil => exact Follows.pure ⟨rfl, howned, fun _ => .of_held_eq rfl⟩
  | cons env envs ih =>
      have hframe := sampleFrameHeld_follows (opens env) c env howned
      rw [runHeld, runAll]
      cases hstep : sampleFrame c env s with
      | error e =>
          rw [hstep] at hframe
          exact bind_error hframe
      | ok s₁ =>
          rw [hstep] at hframe
          obtain ⟨⟨_, arrays₁⟩, L₁, hrun, rfl, howned₁, hiff⟩ := hframe
          refine ((ih howned₁).mono fun b a L' hR => ⟨hR.1, hR.2.1, fun hclean => ?_⟩).of_run
            (bind_run hrun)
          rw [List.forall_mem_cons] at hclean
          exact (hiff.2 hclean.1).trans (hR.2.2 hclean.2)

/-! ### What is lost -/

/-- **One call**, of a refresh or of a sampling of the bandwidth, from lists whose records own their
arrays: it does what it does without a ledger, and releases nothing that is not held.  A
refresh loses nothing exactly when none of its entries leaves a directory open or an array
allocated, and a sampling never does.  Any run of calls keeps that the records own their
arrays, and loses nothing where no refresh of it does. -/
theorem nothingLost_iff (howned : Owned L s arrays) (opens : Sys → Text → Bool) (arch : Arch)
    (monitorId : ℤ) (env : Env) (bandwidthEnv : BandwidthEnv) :
    (Follows L (refreshDomainsHeld opens arch monitorId env s arrays)
        (refreshDomains arch monitorId env s)
        fun b a L' => (b.1, b.2.1) = a ∧ Owned L' b.2.1 b.2.2 ∧
          (NothingLost L L' arrays b.2.2 ↔ LosesNothing monitorId env)) ∧
      Follows L (refreshDomainsBandwidthHeld bandwidthEnv s.now)
        (refreshDomainsBandwidth bandwidthEnv s.now)
        (fun b a L' => b = a ∧ Owned L' { s with now := b } arrays ∧
          NothingLost L L' arrays arrays) ∧
      ∀ (opens : FrameEnv → Sys → Text → Bool) (c : Config) (envs : List FrameEnv),
        Follows L (runHeld opens c envs s arrays) (runAll (sampleFrame c) envs s)
          fun b a L' => b.1 = a ∧ Owned L' b.1 b.2 ∧
            ((∀ env ∈ envs, LosesNothing c.monitorId env.refresh) →
              NothingLost L L' arrays b.2) := by
  refine ⟨refreshDomainsHeld_follows opens arch monitorId env howned, ?_,
    fun opens c envs => runHeld_follows opens c envs howned⟩
  exact (refreshDomainsBandwidthHeld_follows howned bandwidthEnv).mono fun b a L' hR =>
    ⟨hR.1, hR.2.1, .of_held_eq hR.2.2⟩

/-- At the start nothing is held. -/
theorem owned_start (rows : Arr maxVcpuNum Task) :
    Owned .empty (Lists.start rows) ⟨[], []⟩ where
  now := rfl
  pre := rfl
  nodup := List.nodup_nil
  held _ hh := absurd hh List.not_mem_nil

/-- A refresh that finds one pid file calls `set_domain` for it. -/
theorem reached_single {env : Env} {text : Text} {entry : Dirent × Sys}
    (hstat : env.vcpuStat = some text) (hdir : env.qemuDir = some [entry])
    (hpid : isPidFile entry = true) (hm : entry.2.mallocDomains = true) :
    env.reached = [entry] := by
  rw [Env.reached, hstat, hdir, Option.elim_some, Option.elim_some, reached_pidFile hpid, if_pos hm]
  rfl

/-- For the first call on a host with one virtual machine, whose refresh loses nothing, and
for a run of two turns on it. -/
theorem nothingLost_iff_host :
    LosesNothing (-1) (hostEnv [] 7) ∧
      Follows .empty (refreshDomainsHeld (fun _ _ => true) .other (-1) (hostEnv [] 7) zeroLists
          ⟨[], []⟩)
        (refreshDomains .other (-1) (hostEnv [] 7) zeroLists)
        (fun b a L' => (b.1, b.2.1) = a ∧ Owned L' b.2.1 b.2.2 ∧
          (NothingLost .empty L' ⟨[], []⟩ b.2.2 ↔ LosesNothing (-1) (hostEnv [] 7))) ∧
      Follows .empty (refreshDomainsBandwidthHeld default zeroLists.now)
        (refreshDomainsBandwidth default zeroLists.now)
        (fun b a L' => b = a ∧ Owned L' { zeroLists with now := b } ⟨[], []⟩ ∧
          NothingLost .empty L' ⟨[], []⟩ ⟨[], []⟩) ∧
      Follows .empty (runHeld (fun _ _ _ => true) ⟨.other, -1, false⟩
          [⟨hostEnv [] 7, false, default⟩, ⟨hostEnv [] 9, false, default⟩] zeroLists ⟨[], []⟩)
        (runAll (sampleFrame ⟨.other, -1, false⟩)
          [⟨hostEnv [] 7, false, default⟩, ⟨hostEnv [] 9, false, default⟩] zeroLists)
        fun b a L' => b.1 = a ∧ Owned L' b.1 b.2 ∧ NothingLost .empty L' ⟨[], []⟩ b.2 := by
  have hclean : LosesNothing (-1) (hostEnv [] 7) := by
    rw [LosesNothing, reached_single rfl rfl (isPidFile_hostEntry _ _ _) rfl,
      List.forall_mem_singleton]
    decide +kernel
  have hclean' : LosesNothing (-1) (hostEnv [] 9) := by
    rw [LosesNothing, reached_single rfl rfl (isPidFile_hostEntry _ _ _) rfl,
      List.forall_mem_singleton]
    decide +kernel
  have howned : Owned .empty zeroLists ⟨[], []⟩ := owned_start _
  -- the rest does not look into the two refreshes
  generalize hostEnv [] 7 = env, hostEnv [] 9 = env' at hclean hclean' ⊢
  obtain ⟨hrefresh, hsample, hrun⟩ :=
    nothingLost_iff howned (fun _ _ => true) .other (-1) env default
  refine ⟨hclean, hrefresh, hsample, (hrun _ _ _).mono fun b a L' hR => ⟨hR.1, hR.2.1, ?_⟩⟩
  refine hR.2.2 fun env henv => ?_
  rcases List.mem_pair.1 henv with rfl | rfl
  · exact hclean
  · exact hclean'

/-! ### Two refreshes that lose something -/

/-- A refresh that reads an entry of either kind loses what that leaves. -/
theorem exists_leaked (opens : Sys → Text → Bool) {arch : Arch} {monitorId : ℤ} {env : Env}
    (howned : Owned L s arrays) (hleaks : ¬ LosesNothing monitorId env)
    (hok : (refreshDomains arch monitorId env s).toOption.isSome) :
    ∃ b L', refreshDomainsHeld opens arch monitorId env s arrays L = .ok (b, L') ∧
      ¬ NothingLost L L' arrays b.2.2 := by
  have hfollows := refreshDomainsHeld_follows opens arch monitorId env howned
  obtain ⟨x, hx⟩ := Option.isSome_iff_exists.1 hok
  rw [toOption_eq_some.1 hx] at hfollows
  obtain ⟨b, L', hrun, -, -, hiff⟩ := hfollows
  exact ⟨b, L', hrun, fun hlost => hleaks (hiff.1 hlost)⟩

/-- A process that says in its stat file that it has no thread. -/
def threadlessEntry : Dirent × Sys := hostEntry 1 0 (statLine "qemu-kvm".toList 7 3 0)

/-- A virtual machine with a name of 251 letters. -/
def longNameEntry : Dirent × Sys :=
  (⟨List.replicate 251 'a' ++ ".pid".toList, .reg⟩, hostSys 1 0 idleStat)

/-- What a refresh finds of the one process. -/
def entryEnv (entry : Dirent × Sys) : Env := ⟨some [], some [entry]⟩

/-- The first leaves its directory open, and the second its array allocated. -/
theorem not_losesNothing_entries :
    ¬ LosesNothing (-1) (entryEnv threadlessEntry) ∧
      ¬ LosesNothing (-1) (entryEnv longNameEntry) := by
  have hstream : leaksStream (-1) threadlessEntry.2 threadlessEntry.1.name = true := by
    decide +kernel
  have harray : leaksArray (-1) longNameEntry.2 longNameEntry.1.name = true := by
    decide +kernel
  constructor
  · have hreached : (entryEnv threadlessEntry).reached = [threadlessEntry] :=
      reached_single rfl rfl (isPidFile_hostEntry _ _ _) rfl
    rw [LosesNothing, hreached, List.forall_mem_singleton, hstream]
    exact fun h => absurd h.1 (by decide)
  · have hreached : (entryEnv longNameEntry).reached = [longNameEntry] :=
      reached_single rfl rfl (by decide +kernel) rfl
    rw [LosesNothing, hreached, List.forall_mem_singleton, harray]
    exact fun h => absurd h.2 (by decide)

/-- **A refresh can lose a directory, and it can lose an array.** -/
theorem nothingLost_leaks :
    (∃ b L', refreshDomainsHeld (fun _ _ => true) .other (-1) (entryEnv threadlessEntry) zeroLists
        ⟨[], []⟩ .empty = .ok (b, L') ∧ ¬ NothingLost .empty L' ⟨[], []⟩ b.2.2) ∧
      ∃ b L', refreshDomainsHeld (fun _ _ => true) .other (-1) (entryEnv longNameEntry) zeroLists
        ⟨[], []⟩ .empty = .ok (b, L') ∧ ¬ NothingLost .empty L' ⟨[], []⟩ b.2.2 :=
  ⟨exists_leaked _ (owned_start _) not_losesNothing_entries.1 (by decide +kernel),
    exists_leaked _ (owned_start _) not_losesNothing_entries.2 (by decide +kernel)⟩

end Vmtop
