/-
# Runs whose listings come in another order

Two runs that find the same snapshots, but for the orders in which `readdir` lists the pid
files and the threads in each of them, hold the same records after every refresh, in another
order (`frameRun_reordered`).  What carries this from frame to frame is that their lists agree
but for the orders (`SameLists`); what the sampling of bandwidth stores is left out, since it
reads other counters for a virtual machine that stands elsewhere in the list.

An empty pid file is different: it is read as what the entry before it has left on the stack, so
there the order matters (`frameRun_emptyPid`).
-/

import Vmtop.History.Records
import Vmtop.Refresh.Order

namespace Vmtop

open CText CArray Reordered Runs

variable {c : Config} {env env' : FrameEnv} {s s' t : Lists}

/-- The same frame, but for the orders of its listings. -/
structure SameFrame (env env' : FrameEnv) : Prop where
  refresh : SameEnv env.refresh env'.refresh
  enableResctrl : env'.enableResctrl = env.enableResctrl
  bandwidth : env'.bandwidth = env.bandwidth

/-! ### One frame -/

/-- Records that the refresh left the same are so after the sampling. -/
theorem SameRecord.of_sampled {d d' e e' : Domain} (h : SameButOrder d e) (hd : SameSample d d')
    (he : SameSample e e') : SameRecord d' e' := by
  obtain ⟨ts, hts, rfl⟩ := h
  rw [hd, he]
  exact ⟨rfl, hts.symm⟩

/-- So are whole lists. -/
theorem sampled_reordered {ds ds' es es' : List Domain} (h : UpToOrder SameButOrder ds es)
    (hd : SameSamples ds ds') (he : SameSamples es es') : UpToOrder SameRecord ds' es' := by
  have hcomp := ((UpToOrder.of_forall₂ hd).symm.comp h).comp (UpToOrder.of_forall₂ he)
  refine hcomp.mono fun d' _ e' _ hde => ?_
  obtain ⟨e, ⟨d, hd, hde⟩, he⟩ := hde
  exact .of_sampled hde hd he

/-- Whether a node is found does not depend on the number of nodes before. -/
theorem getNumaNum_fst (fs : MonFs) (n m : ℤ) : (getNumaNum fs n).1 = (getNumaNum fs m).1 := by
  unfold getNumaNum
  cases fs.dir rootMonData <;> rfl

/-- The sampling of a list faults by its length only. -/
theorem refreshDomainsBandwidth_ok {bw : BandwidthEnv} {now now' : DomainList}
    (hnum : now'.num ≤ now.num) (hok : ∃ x, refreshDomainsBandwidth bw now = .ok x) :
    ∃ x, refreshDomainsBandwidth bw now' = .ok x := by
  obtain ⟨x, hok⟩ := hok
  have hends := refreshDomainsBandwidth_ends bw now
  have hends' := refreshDomainsBandwidth_ends bw now'
  rw [hok] at hends
  cases hok' : refreshDomainsBandwidth bw now' with
  | ok x' => exact ⟨x', rfl⟩
  | error e =>
      rw [hok', getNumaNum_fst bw.numa _ now.nodeNum] at hends'
      exact absurd (hends.2.2 hends'.1) (Nat.not_le.2 (hends'.2.1.trans_le hnum))

/-- **A frame makes the same records in any order.** -/
theorem sampleFrame_reordered (h : SameFrame env env') (hreg : RegularEnv c.monitorId env.refresh)
    (hlists : SameLists s t) (hunique : UniqueIds s.now.domains)
    (hfull : ∀ o ∈ s.now.domains, o.threads.length = o.nlwp.toNat)
    (hok : sampleFrame c env s = .ok s') :
    ∃ t', sampleFrame c env' t = .ok t' ∧ SameLists s' t' := by
  obtain ⟨⟨r, mid⟩, hrefresh, hsample⟩ := bind_eq_ok.1 hok
  obtain ⟨r', mid', hrefresh', hsame, hvcpu⟩ :=
    refreshDomains_reordered h.refresh hreg hlists hunique hfull hrefresh
  have hon : resctrlEnable c env' = resctrlEnable c env := by
    rw [resctrlEnable, resctrlEnable, h.enableResctrl]
  obtain ⟨t', hok'⟩ : ∃ t', sampleFrame c env' t = .ok t' := by
    rw [sampleFrame, hrefresh', ok_bind]
    dsimp only at hsample ⊢
    rw [hon, h.bandwidth]
    split_ifs at hsample ⊢
    · obtain ⟨now, hnow, -⟩ := bind_eq_ok.1 hsample
      have hnum : mid'.now.num = mid.now.num := hsame.length_eq.symm
      obtain ⟨now', hnow'⟩ := refreshDomainsBandwidth_ok hnum.le ⟨now, hnow⟩
      rw [hnow']
      exact ⟨_, rfl⟩
    · exact ⟨_, rfl⟩
  obtain ⟨_, _, hframed⟩ := sampleFrame_framed hok
  obtain ⟨_, _, hframed'⟩ := sampleFrame_framed hok'
  obtain ⟨-, rfl⟩ := Prod.mk.inj (Except.ok.inj (hrefresh.symm.trans hframed.refreshed))
  obtain ⟨-, rfl⟩ := Prod.mk.inj (Except.ok.inj (hrefresh'.symm.trans hframed'.refreshed))
  refine ⟨t', hok', sampled_reordered hsame hframed.sampled hframed'.sampled, ?_⟩
  rw [hframed.vcpuList, hframed'.vcpuList, hvcpu]

/-! ### A whole run -/

/-- In every state of a run the arrays of threads have as many entries as there are threads. -/
theorem FrameRun.length_threads (r : FrameRun c) {j : ℕ} (hj : j ≤ r.len) :
    ∀ d ∈ (r.state j).now.domains, d.threads.length = d.nlwp.toNat := by
  intro d hd
  obtain ⟨k, rfl, hk⟩ := r.exists_succ hj hd
  exact (r.refreshed hk hd).length

/-- What a refresh of the frame `env` makes of `s` is what one of `env'` makes of `t`, but for
the order. -/
def SameRefresh (c : Config) (env env' : FrameEnv) (s t : Lists) : Prop :=
  ∃ r mid r' mid', refreshDomains c.arch c.monitorId env.refresh s = .ok (r, mid) ∧
    refreshDomains c.arch c.monitorId env'.refresh t = .ok (r', mid') ∧
    UpToOrder SameButOrder mid.now.domains mid'.now.domains

/-- **The records of a run do not depend on the order of any listing.** -/
theorem frameRun_reordered (r : FrameRun c) (inputs : ℕ → FrameEnv)
    (hsame : ∀ j < r.len, SameFrame (r.input j) (inputs j))
    (hreg : ∀ j < r.len, RegularEnv c.monitorId (r.input j).refresh)
    (hunique : ∀ j < r.len, UniqueIds (r.state j).now.domains) :
    ∃ r' : FrameRun c, r'.len = r.len ∧ r'.state 0 = r.state 0 ∧ r'.input = inputs ∧
      (∀ j < r.len, SameRefresh c (r.input j) (inputs j) (r.state j) (r'.state j)) ∧
      ∀ j ≤ r.len, UpToOrder SameRecord (r.state j).now.domains (r'.state j).now.domains := by
  have hstart : SameLists (r.state 0) (r.state 0) := by
    refine ⟨?_, rfl⟩
    rw [r.start_domains]
    exact .zero
  obtain ⟨r', hlen, hstate, hinput, hlists⟩ := r.simulate inputs hstart fun j hj t hlists =>
    sampleFrame_reordered (hsame j hj) (hreg j hj) hlists (hunique j hj)
      (r.length_threads hj.le) (r.next j hj)
  refine ⟨r', hlen, hstate, hinput, fun j hj => ?_, fun j hj => (hlists j hj).now⟩
  obtain ⟨n, mid, hframed⟩ := sampleFrame_framed (r.next j hj)
  obtain ⟨n', mid', hrefresh', hmid, -⟩ := refreshDomains_reordered (hsame j hj).refresh
    (hreg j hj) (hlists j hj.le) (hunique j hj) (r.length_threads hj.le) hframed.refreshed
  exact ⟨n, mid, n', mid', hframed.refreshed, hrefresh', hmid⟩

/-! ### Two virtual machines in either order -/

/-- The directory of a thread is taken for one. -/
theorem isTask_host {p : ℕ} (hp : 0 < p ∧ p < 2 ^ 31) : isTask ⟨decimal p, .dir⟩ = true := by
  have hpid : readPid (cstr (decimal p)) = p := (readPid_decimal hp.2 []).2
  refine isTask_iff.2 ⟨decimal_ne_dot p, rfl, ?_⟩
  rw [hpid]
  omega

/-- The process of an idle virtual machine lists its thread. -/
theorem listsThreads_host {p : ℕ} (hp : 0 < p ∧ p < 2 ^ 31) (id : ℕ) {sys : Sys} {name : Text}
    {dom : Domain} (hsys : ∀ t, getProcStat sys t = getProcStat (hostSys p id idleStat) t)
    (hread : readProcess (-1) sys name = some dom) :
    ListsThreads sys dom [⟨decimal p, .dir⟩] := by
  obtain ⟨dom₀, hcheck, hread⟩ := Option.bind_eq_some_iff.1 hread
  have hzero := checkedEntry_eq hcheck
  obtain ⟨t, hstat, hn, -⟩ := getProcStat_host p id
    (t := { dom₀.toTask with type := .isDomain }) (by rw [hzero]; rfl)
  rw [hsys, hstat] at hread
  cases hread
  obtain ⟨t', hthread, -⟩ := getProcStat_host p id
    (t := taskSlot t.pid (readPid (cstr (decimal p)))) rfl
  rw [← hsys] at hthread
  have hreadable : readable sys { dom₀ with toTask := t } ⟨decimal p, .dir⟩ = true := by
    rw [readable, isTask_host hp, hthread]
    rfl
  constructor
  · rw [List.countP_cons_of_pos hreadable, List.countP_nil, hn]
    rfl
  · intro dirt hdirt _
    rw [List.mem_singleton.1 hdirt]
    exact ⟨_, hthread⟩

/-- Its entry is regular, whatever the pid file is called. -/
theorem regularEntry_host {p : ℕ} (hp : 0 < p ∧ p < 2 ^ 31) (id : ℕ) (dirent : Dirent) :
    RegularEntry (-1) (dirent, hostSys p id idleStat) where
  mallocDomains := rfl
  mallocThreads := rfl
  lists dom hread tasks hdir := by
    cases hdir
    exact listsThreads_host hp id (fun _ => rfl) hread
  pid := (ownFiles_host (-1) p id dirent).pid
  stat _ _ := ownStat_host p id _
  threads _ _ _ _ _ _ _ := ownStat_host p id _

/-- A frame that finds two idle virtual machines, in one order or the other. -/
def pairFrame (order : List ℕ) : FrameEnv :=
  { (default : FrameEnv) with
    refresh := ⟨some [], some (order.map fun k => hostEntry (k + 1) k idleStat)⟩ }

theorem pairFrame_same {order order' : List ℕ} (h : order.Perm order') :
    SameFrame (pairFrame order) (pairFrame order') where
  refresh := ⟨rfl, .some ((UpToOrder.of_perm (h.map _)).mono fun _ _ _ _ he => he ▸ .refl _)⟩
  enableResctrl := rfl
  bandwidth := rfl

theorem pairFrame_regular {order : List ℕ} (h : ∀ k ∈ order, k + 1 < 2 ^ 31) :
    RegularEnv (-1) (pairFrame order).refresh := by
  rintro _ ⟨⟩ e he -
  obtain ⟨k, hk, rfl⟩ := List.mem_map.1 he
  exact regularEntry_host ⟨Nat.succ_pos k, h k hk⟩ k _

/-- The ids of the domains and of their threads. -/
def idRows (s : Lists) : List (ℤ × List ℤ) :=
  s.now.domains.map fun d => (d.domainId, d.lwps.map fun t => t.pid)

theorem UniqueIds.of_rows {rows : List (ℤ × List ℤ)} (h : idRows s = rows)
    (hids : (rows.map Prod.fst).Nodup) (hpids : ∀ row ∈ rows, row.2.Nodup) :
    UniqueIds s.now.domains where
  ids := by
    rw [← h, idRows, List.map_map] at hids
    exact hids
  pids d hd := hpids (d.domainId, d.lwps.map fun t => t.pid) (h ▸ List.mem_map_of_mem hd)

/-- Two frames that find two virtual machines, and the same in the other order. -/
theorem frameRun_reordered_pair : ∃ r r' : FrameRun hostConfig, r.len = 2 ∧ r'.len = r.len ∧
    r'.input = (fun _ => pairFrame [1, 0]) ∧
    ∀ j ≤ r.len, UpToOrder SameRecord (r.state j).now.domains (r'.state j).now.domains := by
  obtain ⟨r, hlen, hinput, hrows⟩ := exists_viewedRun [pairFrame [0, 1], pairFrame [0, 1]] idRows
    (fun _ => [(0, [1]), (1, [2])]) (by decide +kernel)
  have hframe : ∀ j < r.len, r.input j = pairFrame [0, 1] := by
    intro j hj
    rw [hlen] at hj
    rw [hinput]
    rcases Nat.le_one_iff_eq_zero_or_eq_one.1 (Nat.le_of_lt_succ hj) with rfl | rfl <;> rfl
  have hregular : RegularEnv (-1) (pairFrame [0, 1]).refresh := pairFrame_regular (by decide)
  have hunique : ∀ j < r.len, UniqueIds (r.state j).now.domains := by
    intro j hj
    rcases Nat.eq_zero_or_pos j with rfl | hpos
    · rw [r.start_domains]
      exact ⟨.nil, List.forall_mem_nil _⟩
    · exact .of_rows (hrows j hpos (hlen ▸ hj.le)) (by decide) (by decide)
  obtain ⟨r', hlen', -, hinput', -, hsame⟩ := frameRun_reordered r (fun _ => pairFrame [1, 0])
    (fun j hj => by rw [hframe j hj]; exact pairFrame_same (.swap 1 0 []))
    (fun j hj => by rw [hframe j hj]; exact hregular) hunique
  exact ⟨r, r', hlen, hlen', hinput', hsame⟩

/-! ### An empty pid file in either place -/

/-- What a stat file says does not depend on the pid file. -/
theorem getProcStat_emptySys (left : Text) (t : Task) :
    getProcStat (emptySys left) t = getProcStat (hostSys 1 0 idleStat) t := by
  have hother : (statPath t).getLast? ≠ some 'd' := by
    rw [getLast?_statPath]
    decide
  have hfile : (emptySys left).file (statPath t) = (hostSys 1 0 idleStat).file (statPath t) :=
    if_neg hother
  have hstale : (emptySys left).stale (statPath t) = (hostSys 1 0 idleStat).stale (statPath t) :=
    if_neg hother
  have hbase : (emptySys left).base = (hostSys 1 0 idleStat).base := rfl
  simp only [getProcStat, hfile, hstale, hbase]

/-- Its process, where the pid file is read as one, lists its thread, too. -/
theorem listedEntry_empty (left : Text) : ListedEntry (-1) (emptyEntry left) where
  mallocDomains := rfl
  mallocThreads := rfl
  lists dom hread tasks hdir := by
    cases hdir
    exact listsThreads_host ⟨Nat.one_pos, by decide⟩ 0 (getProcStat_emptySys left) hread

/-- A virtual machine whose pid file has too long a name. -/
def longEntry : Dirent × Sys :=
  (⟨List.replicate 251 'a' ++ ".pid".toList, .reg⟩, hostSys 1 0 idleStat)

/-- A frame that finds these entries. -/
def entriesFrame (entries : List (Dirent × Sys)) : FrameEnv :=
  { (default : FrameEnv) with refresh := ⟨some [], some entries⟩ }

/-- A run of one such frame. -/
theorem exists_entriesRun (entries : List (Dirent × Sys)) (rows : List (ℤ × List ℤ))
    (h : (runAll (sampleFrame hostConfig) [entriesFrame entries] zeroLists).toOption.map idRows =
      some rows) :
    ∃ r : FrameRun hostConfig, r.len = 1 ∧ r.input 0 = entriesFrame entries ∧
      r.state 0 = zeroLists ∧ idRows (r.state 1) = rows := by
  obtain ⟨s, hs, hrows⟩ := Option.map_eq_some_iff.1 h
  rw [toOption_eq_some] at hs
  obtain ⟨r, hlen, hinput, hstate⟩ : ∃ r : FrameRun hostConfig, r.len = 1 ∧
      (∀ j, r.input j = [entriesFrame entries][j]?.getD default) ∧
      ∀ j, runAll (sampleFrame hostConfig) ([entriesFrame entries].take j) zeroLists =
        .ok (r.state j) := exists_run hs ⟨_, rfl⟩
  refine ⟨r, hlen, hinput 0, (Except.ok.inj (hstate 0)).symm, ?_⟩
  rw [← Except.ok.inj (hs.symm.trans (hstate 1))]
  exact hrows

/-- **Behind a pid file that is rejected an empty one is read as it, and before it is not.** -/
theorem frameRun_emptyPid : ¬ ∀ (c : Config) (r r' : FrameRun c), r'.len = r.len →
    r'.state 0 = r.state 0 → (∀ j < r.len, SameFrame (r.input j) (r'.input j)) →
    (∀ j < r.len, ∀ input ∈ [r.input j, r'.input j], ∀ entries,
      input.refresh.qemuDir = some entries → ∀ e ∈ entries, ListedEntry c.monitorId e) →
    (∀ j ≤ r.len, UniqueIds (r.state j).now.domains ∧ UniqueIds (r'.state j).now.domains) →
    ∀ j ≤ r.len, UpToOrder SameRecord (r.state j).now.domains (r'.state j).now.domains := by
  intro h
  obtain ⟨r, hlen, hinput, hstart, hrows⟩ :=
    exists_entriesRun [longEntry, emptyEntry leftPid] [(0, [1])] (by decide +kernel)
  obtain ⟨r', hlen', hinput', hstart', hrows'⟩ :=
    exists_entriesRun [emptyEntry [], longEntry] [] (by decide +kernel)
  have hsame : UpToOrder SameEntry [longEntry, emptyEntry leftPid] [emptyEntry [], longEntry] := by
    have hentries : List.Forall₂ SameEntry [longEntry, emptyEntry leftPid]
        [longEntry, emptyEntry []] :=
      .cons (.refl _) (.cons ⟨rfl, rfl, fun _ => .some (.refl _)⟩ .nil)
    have hswap := Multiset.coe_eq_coe.2 (List.Perm.swap (emptyEntry []) longEntry [])
    unfold UpToOrder
    rw [← hswap]
    exact UpToOrder.of_forall₂ hentries
  have hlong : ListedEntry (-1) longEntry :=
    (regularEntry_host ⟨Nat.one_pos, by decide⟩ 0 _).toListedEntry
  have hzero {j : ℕ} (hj : j < r.len) : j = 0 := by omega
  have horder := h hostConfig r r' (hlen'.trans hlen.symm) (hstart'.trans hstart.symm)
    (fun j hj => ?_) (fun j hj input hin entries hdir e he => ?_) (fun j hj => ?_) 1 hlen.ge
  · have hnum := horder.length_eq
    have hone := congrArg List.length hrows
    have hnone := congrArg List.length hrows'
    rw [idRows, List.length_map] at hone hnone
    rw [hone, hnone] at hnum
    cases hnum
  · rw [hzero hj, hinput, hinput']
    exact ⟨⟨rfl, .some hsame⟩, rfl, rfl⟩
  · rw [hzero hj, hinput, hinput'] at hin
    simp only [List.mem_cons, List.not_mem_nil, or_false] at hin
    rcases hin with rfl | rfl
    all_goals
      cases hdir
      simp only [List.mem_cons, List.not_mem_nil, or_false] at he
      rcases he with rfl | rfl <;> first | exact hlong | exact listedEntry_empty _
  · rcases Nat.le_one_iff_eq_zero_or_eq_one.1 (hlen ▸ hj) with rfl | rfl
    · rw [hstart, hstart']
      exact ⟨⟨.nil, List.forall_mem_nil _⟩, .nil, List.forall_mem_nil _⟩
    · exact ⟨.of_rows hrows (by decide) (by decide), .of_rows hrows' (by decide) (by decide)⟩

end Vmtop
