/-
# Whether a record is made of its own files

The buffers of `set_domain` and `get_proc_stat` lie on the stack, where a call finds what the
calls before it have left there.  So a record is its own file's only where none of that is
parsed: where the pid file is not empty, and the stat files that are read are neither empty nor
end at the name (`OwnFiles`).  Then the record does not depend on the buffers, and otherwise it
does (`readEntry_own_iff`).
-/

import Vmtop.Refresh.Buffers

namespace Vmtop

open CText CArray

variable {arch : Arch} {monitorId : ℤ} {sys sys' : Sys} {l : VcpuList} {dom d : Domain}
  {name : Text} {t t' : Task} {entry : Dirent × Sys} {tasks : List Dirent} {dirt : Dirent}

/-- The same files, read into buffers that held something else before. -/
def SameFiles (sys sys' : Sys) : Prop := sys' = { sys with stale := sys'.stale }

theorem SameFiles.withStale (sys : Sys) (path x : Text) : SameFiles sys (sys.withStale path x) :=
  rfl

/-! ### Stat files -/

/-- The stat file of `t` overwrites what is parsed of its buffer, or cannot be read. -/
def OwnStat (sys : Sys) (t : Task) : Prop :=
  ∀ s, sys.file (statPath t) = some s → s ≠ [] ∧ ¬ EndsAtName (s.take (bufSize - 1))

theorem OwnStat.congr (h : OwnStat sys t) (hpath : statPath t' = statPath t) : OwnStat sys t' := by
  unfold OwnStat
  rw [hpath]
  exact h

/-- Then the buffer does not matter. -/
theorem OwnStat.getProcStat_eq (h : OwnStat sys t) (hs : SameFiles sys sys') :
    getProcStat sys' t = getProcStat sys t := by
  have hx : getProcStat sys' t =
      getProcStat (sys.withStale (statPath t) (sys'.stale (statPath t))) t := by
    rw [getProcStat_withStale, hs]
    rfl
  rw [hx, (getProcStat_own_iff sys t).2 h _ (sys.stale (statPath t)), withStale_self]

/-- Otherwise it may be scanned from the state on. -/
theorem exists_stale_scan (h : ¬ OwnStat sys t) {y : Text} (hy : y ∈ [[], ['S'], ['R']]) :
    ∃ x name, getProcStat (sys.withStale (statPath t) x) t =
      .ok (1, sscanf statFormat y { t with vmname := name }) := by
  obtain ⟨s, hs⟩ := not_forall.1 h
  obtain ⟨hfile, hparsed⟩ := Classical.not_imp.1 hs
  simp only [getProcStat_withStale, hfile]
  have hstring : cstr y = y := by
    simp only [List.mem_cons, List.not_mem_nil, or_false] at hy
    rcases hy with rfl | rfl | rfl <;> decide
  by_cases hnil : s = []
  · -- the buffer is as it was, with an empty name in it
    have hparens : strrchr '(' (cstr ("() ".toList ++ y)) = some 0 ∧
        strrchr ')' (cstr ("() ".toList ++ y)) = some 1 ∧
        (cstr ("() ".toList ++ y)).length < 2 ^ 31 := by
      simp only [List.mem_cons, List.not_mem_nil, or_false] at hy
      rcases hy with rfl | rfl | rfl <;> decide
    obtain ⟨hi, hj, hlen⟩ := hparens
    have hrej := (not_rejected_iff (sys.base (statPath t)) hi hj hlen).2 (by decide)
    have hparse := parseStat_of_accepted hrej hi hj t
    have hdrop : ("() ".toList ++ y).drop (1 + 2) = y := rfl
    rw [hdrop, hstring] at hparse
    refine ⟨"() ".toList ++ y, _, Eq.trans ?_ hparse⟩
    rw [readFile_of_nil (by rw [hnil]; rfl), if_neg (lt_irrefl 0)]
  · have hend : EndsAtName (s.take (bufSize - 1)) := not_not.1 fun hend => hparsed ⟨hnil, hend⟩
    have hne : s.take (bufSize - 1) ≠ [] := by
      rw [ne_eq, List.take_eq_nil_iff, not_or]
      exact ⟨by decide, hnil⟩
    have hlen : (s.take (bufSize - 1)).length < 2 ^ 31 :=
      (List.length_take_le _ _).trans_lt (by decide)
    obtain ⟨name, hparse⟩ := parseStat_of_endsAtName hlen hend (sys.base (statPath t)) t y
    have hdrop : (List.replicate ((s.take (bufSize - 1)).length + 1) nul ++ y).drop
        ((s.take (bufSize - 1)).length + 1) = y := List.drop_left' List.length_replicate
    refine ⟨List.replicate ((s.take (bufSize - 1)).length + 1) nul ++ y, name, ?_⟩
    rw [readFile_of_ne_nil hne, if_neg (Int.not_lt.2 (Int.natCast_nonneg _)), hdrop, hparse,
      hstring]

/-! ### The files of an entry -/

/-- Nothing that the buffers held before is parsed for the entry: its pid file is not empty, and
the stat files overwrite what is parsed of theirs, that of the process that is accepted and those
of its threads, as far as there is room for them. -/
structure OwnFiles (monitorId : ℤ) (entry : Dirent × Sys) : Prop where
  pid : entry.2.file (pidPath entry.1.name) ≠ some []
  stat : ∀ dom, checkedEntry monitorId entry.2 entry.1.name = some dom →
    OwnStat entry.2 { dom.toTask with type := .isDomain }
  threads : ∀ dom tasks, readProcess monitorId entry.2 entry.1.name = some dom →
    entry.2.taskDir (taskPath dom.pid) = some tasks →
    ∀ front dirt rest, tasks = front ++ dirt :: rest →
      (front.countP (readable entry.2 dom) : ℤ) < dom.nlwp → isTask dirt = true →
        OwnStat entry.2 (taskSlot dom.pid (readPid (cstr dirt.name)))

/-- The checks read the pid file alone. -/
theorem checkedEntry_eq_of_own (hs : SameFiles sys sys')
    (hpid : sys.file (pidPath name) ≠ some []) :
    checkedEntry monitorId sys' name = checkedEntry monitorId sys name := by
  have hfile : sys'.file = sys.file := by rw [hs]
  have hcgroup (pid : ℤ) : getIdFromCgroup sys' pid = getIdFromCgroup sys pid := by
    rw [hs]
    rfl
  unfold pidPath at hpid
  simp only [checkedEntry, hcgroup, hfile]
  cases hcontent : sys.file (varRunQemuPath ++ '/' :: name) with
  | none => rfl
  | some s =>
      have hne : s.take (pidStringMax - 1) ≠ [] := by
        rw [ne_eq, List.take_eq_nil_iff, not_or]
        exact ⟨by decide, fun hnil => hpid (hnil ▸ hcontent)⟩
      rw [readFile_of_ne_nil hne, readFile_of_ne_nil hne, cstr_append, cstr_append]

theorem readProcess_eq_of_own (hs : SameFiles sys sys')
    (hpid : sys.file (pidPath name) ≠ some [])
    (hstat : ∀ dom, checkedEntry monitorId sys name = some dom →
      OwnStat sys { dom.toTask with type := .isDomain }) :
    readProcess monitorId sys' name = readProcess monitorId sys name := by
  rw [readProcess, readProcess, checkedEntry_eq_of_own hs hpid]
  refine Option.bind_congr fun dom hcheck => ?_
  rw [(hstat dom hcheck).getProcStat_eq hs]

theorem readThread_eq_of_own (hs : SameFiles sys sys')
    (hown : isTask dirt = true → OwnStat sys (taskSlot dom.pid (readPid (cstr dirt.name)))) :
    readThread arch sys' l dom dirt = readThread arch sys l dom dirt := by
  unfold readThread
  split_ifs with htask
  · rw [(hown htask).getProcStat_eq hs]
  · rfl

theorem childStep_eq_of_own {st : ChildState} (hs : SameFiles sys sys')
    (hown : isTask dirt = true → OwnStat sys (taskSlot dom.pid (readPid (cstr dirt.name)))) :
    childStep arch sys' l dom dirt st = childStep arch sys l dom dirt st := by
  simp only [childStep]
  split_ifs with hdot hdir hpid
  · rfl
  · rfl
  · rfl
  · have htask := hown (isTask_iff.2 ⟨hdot, not_not.1 hdir, Int.not_lt.1 hpid⟩)
    have hslot : OwnStat sys { st.thread with
        pid := readPid (cstr dirt.name), type := .isThread, ppid := dom.pid } := htask.congr rfl
    rw [hslot.getProcStat_eq hs]

/-- The walk over the task directory reads as many threads as there is room for. -/
theorem childLoop_eq_of_own {smp : ℤ} {found : List Task} {st : ChildState}
    (hs : SameFiles sys sys') (hf : Filled sys dom smp found st)
    (hown : ∀ front dirt rest, tasks = front ++ dirt :: rest →
      (found.length + front.countP (readable sys dom) : ℤ) < dom.nlwp → isTask dirt = true →
        OwnStat sys (taskSlot dom.pid (readPid (cstr dirt.name)))) :
    childLoop arch sys' l dom tasks st = childLoop arch sys l dom tasks st := by
  induction tasks generalizing st found with
  | nil => rfl
  | cons dirt rest ih =>
      rw [childLoop, childLoop]
      split_ifs with hi
      · have hroom :
            (found.length + ([] : List Dirent).countP (readable sys dom) : ℤ) < dom.nlwp := by
          rw [← hf.i, List.countP_nil]
          simpa using hi
        rw [childStep_eq_of_own hs (hown [] dirt rest rfl hroom)]
        cases hstep : childStep arch sys l dom dirt st with
        | error e => rfl
        | ok st₁ =>
            refine ih (childStep_filled hstep hf hi) fun front dirt' rest' hsplit hlt => ?_
            refine hown (dirt :: front) dirt' rest' (by rw [hsplit, List.cons_append]) ?_
            have hread := isSome_readThread arch sys l dom dirt
            rw [List.length_append] at hlt
            rw [List.countP_cons, ← hread]
            cases hthread : readThread arch sys l dom dirt with
            | none => simpa [hthread] using hlt
            | some t =>
                rw [hthread] at hlt
                simp only [Option.toList_some, List.length_singleton, Option.isSome_some, if_true]
                  at hlt ⊢
                omega
      · rfl

/-- **A record of own files does not depend on the buffers.** -/
theorem OwnFiles.readEntry_eq (h : OwnFiles monitorId entry) (hs : SameFiles entry.2 sys') :
    readEntry arch monitorId l (entry.1, sys') = readEntry arch monitorId l entry := by
  obtain ⟨dirent, sys⟩ := entry
  have hprocess := readProcess_eq_of_own hs h.pid h.stat
  have hchild {dom : Domain} (hread : readProcess monitorId sys dirent.name = some dom) :
      getChildPid arch sys' l dom = getChildPid arch sys l dom := by
    have hdir : sys'.taskDir = sys.taskDir := by rw [hs]
    have hmalloc : sys'.mallocThreads = sys.mallocThreads := by rw [hs]
    rw [getChildPid, getChildPid, hdir, hmalloc]
    cases htasks : sys.taskDir (taskPath dom.pid) with
    | none => rfl
    | some tasks =>
        dsimp only
        rw [childLoop_eq_of_own hs (.start dom.smpVcpus)]
        intro front dirt rest hsplit hlt
        refine h.threads dom tasks hread htasks front dirt rest hsplit ?_
        simpa using hlt
  refine Option.ext fun d => ?_
  simp only [readEntry_eq_some, hprocess]
  refine exists_congr fun dom => exists_congr fun r => exists_congr fun d' => ?_
  exact and_congr_right fun hread => by rw [hchild hread]

/-! ### Files that are not the entry's own -/

/-- What is made of the entry does not depend on the buffers. -/
def Steady (arch : Arch) (monitorId : ℤ) (l : VcpuList) (entry : Dirent × Sys) (d : Domain) :
    Prop :=
  ∀ sys', SameFiles entry.2 sys' → readEntry arch monitorId l (entry.1, sys') = some d

/-- An empty pid file is no pid where the buffer holds none. -/
theorem Steady.pid (h : Steady arch monitorId l entry d) :
    entry.2.file (pidPath entry.1.name) ≠ some [] := by
  intro hempty
  have hnone := h _ (.withStale entry.2 (pidPath entry.1.name) [])
  rw [readEntry, setDomain_empty_nil _ _ _ _ hempty] at hnone
  cases hnone

/-- A stat file that is scanned from the buffer on may say that the process has no threads. -/
theorem Steady.stat (h : Steady arch monitorId l entry d)
    (hcheck : checkedEntry monitorId entry.2 entry.1.name = some dom) :
    OwnStat entry.2 { dom.toTask with type := .isDomain } := by
  by_contra hnot
  obtain ⟨x, name, hstat⟩ := exists_stale_scan hnot (y := []) List.mem_cons_self
  have hs := SameFiles.withStale entry.2 (statPath { dom.toTask with type := .isDomain }) x
  obtain ⟨dom', r, d', hprocess, hchild, hr, -⟩ := readEntry_eq_some.1 (h _ hs)
  have hpos := (getChildPid_eq_ok hchild hr).1
  rw [readProcess, checkedEntry_eq_of_own hs h.pid, hcheck, Option.bind_some, hstat] at hprocess
  cases hprocess
  have hnlwp : dom.nlwp = 0 := congrArg (fun d : Domain => d.nlwp) (checkedEntry_eq hcheck)
  have hthreads : 0 < dom.nlwp := hpos
  omega

theorem countThread_state (arch : Arch) (l : VcpuList) (t : Task) :
    (countThread arch l t).state = t.state := by
  rw [(countThread_frame arch l t).1]

/-- The thread that is read of an entry for which there is room stands in the array. -/
theorem getElem?_threads {r : ℤ} {front rest : List Dirent}
    (hdir : sys.taskDir (taskPath dom.pid) = some (front ++ dirt :: rest))
    (h : getChildPid arch sys l dom = .ok (r, d)) (hr : 0 ≤ r)
    (hlt : (front.countP (readable sys dom) : ℤ) < dom.nlwp)
    (hread : readThread arch sys l dom dirt = some t) :
    d.threads[front.countP (readable sys dom)]? = some t := by
  obtain ⟨i, hfilled, -, -⟩ := getChildPid_filled hdir h hr
  obtain ⟨unread, hthreads, -⟩ := hfilled.slots
  have hlength := length_readThreads arch sys l dom front
  have hat : ((front ++ dirt :: rest).filterMap (readThread arch sys l dom))[
      front.countP (readable sys dom)]? = some t := by
    rw [List.filterMap_append, List.filterMap_cons_some hread, ← hlength,
      List.getElem?_append_right le_rfl, Nat.sub_self]
    rfl
  have htake : (((front ++ dirt :: rest).filterMap (readThread arch sys l dom)).take
      dom.nlwp.toNat)[front.countP (readable sys dom)]? = some t := by
    rw [List.getElem?_take_of_lt (by omega)]
    exact hat
  dsimp only at hthreads
  rw [hthreads, List.getElem?_append_left (List.getElem?_eq_some_iff.1 htake).1]
  exact htake

/-- The first stat file of a thread that is scanned from the buffer on lets the state of the
thread depend on it. -/
theorem Steady.thread (h : Steady arch monitorId l entry d) {front rest : List Dirent}
    (hprocess : readProcess monitorId entry.2 entry.1.name = some dom)
    (hdir : entry.2.taskDir (taskPath dom.pid) = some (front ++ dirt :: rest))
    (hfront : ∀ dirt ∈ front, isTask dirt = true →
      OwnStat entry.2 (taskSlot dom.pid (readPid (cstr dirt.name))))
    (hlt : (front.countP (readable entry.2 dom) : ℤ) < dom.nlwp) (htask : isTask dirt = true) :
    OwnStat entry.2 (taskSlot dom.pid (readPid (cstr dirt.name))) := by
  by_contra hnot
  have hstate : ∀ c ∈ ['S', 'R'], (d.threads[front.countP (readable entry.2 dom)]?).map
      (fun t => t.state) = some c := by
    intro c hc
    obtain ⟨x, name, hstat⟩ := exists_stale_scan hnot (y := [c])
      (List.mem_cons_of_mem [] (List.mem_map_of_mem (f := fun c => [c]) hc))
    generalize hpath : statPath (taskSlot dom.pid (readPid (cstr dirt.name))) = path at hstat
    have hs := SameFiles.withStale entry.2 path x
    -- what is read before it is the same
    have hcount : front.countP (readable (entry.2.withStale path x) dom) =
        front.countP (readable entry.2 dom) := by
      refine List.countP_congr fun dirt₀ hdirt₀ => ?_
      rw [← isSome_readThread arch _ l, ← isSome_readThread arch _ l,
        readThread_eq_of_own hs (hfront dirt₀ hdirt₀)]
    obtain ⟨dom', r, d', hread, hchild, hr, -, rfl⟩ := readEntry_eq_some.1 (h _ hs)
    rw [readProcess_eq_of_own hs h.pid fun _ hcheck => h.stat hcheck, hprocess] at hread
    cases hread
    have hdir' : (entry.2.withStale path x).taskDir (taskPath dom.pid) =
        some (front ++ dirt :: rest) := hdir
    have hthread := getElem?_threads (t := countThread arch l _) hdir' hchild hr
      (by rw [hcount]; exact hlt)
      (by rw [readThread, if_pos htask, hstat]; exact if_neg (by decide))
    dsimp only
    rw [← hcount, hthread, Option.map_some, countThread_state, (sscanf_state c _).1]
  have hS := hstate 'S' (by decide)
  rw [hstate 'R' (by decide)] at hS
  exact absurd hS (by decide)

/-- **What is made of an entry that is accepted does not depend on the buffers exactly when it is
made of its own files.** -/
theorem readEntry_own_iff (hread : readEntry arch monitorId l entry = some d) :
    Steady arch monitorId l entry d ↔ OwnFiles monitorId entry := by
  refine ⟨fun h => ⟨h.pid, fun dom hcheck => h.stat hcheck, ?_⟩, fun h sys' hs => ?_⟩
  · intro dom tasks hprocess hdir front
    -- an earlier thread is read of its own file, too
    induction hn : front.length using Nat.strong_induction_on generalizing front with
    | _ n ih =>
        rintro dirt rest rfl hlt htask
        refine h.thread hprocess hdir (fun dirt₀ hdirt₀ htask₀ => ?_) hlt htask
        obtain ⟨front₀, rest₀, rfl⟩ := List.append_of_mem hdirt₀
        refine ih front₀.length ?_ front₀ rfl dirt₀ (rest₀ ++ dirt :: rest) ?_ ?_ htask₀
        · rw [← hn, List.length_append, List.length_cons]
          omega
        · rw [List.append_assoc, List.cons_append]
        · rw [List.countP_append] at hlt
          omega
  · rw [h.readEntry_eq hs, hread]

/-! ### An idle process -/

theorem ownStat_host (p id : ℕ) (t : Task) : OwnStat (hostSys p id idleStat) t := by
  intro s hfile
  rw [hostSys_file_statPath] at hfile
  cases hfile
  refine ⟨by decide +kernel, ?_⟩
  rintro ⟨i, j, -, hj, hend, -⟩
  have hname : strrchr ')' (cstr (idleStat.take (bufSize - 1))) = some 11 := by decide +kernel
  cases hname.symm.trans hj
  exact absurd hend (by decide +kernel)

/-- The files of an idle process are its own. -/
theorem ownFiles_host (monitorId : ℤ) (p id : ℕ) (dirent : Dirent) :
    OwnFiles monitorId (dirent, hostSys p id idleStat) where
  pid := by
    have hne : decimal p ≠ [] := Nat.toDigits_ne_nil
    have hline : cgroupLine id ++ ['\n'] ≠ [] := List.append_ne_nil_of_right_ne_nil _ (by decide)
    have hstat : idleStat ≠ [] := by decide +kernel
    simp only [hostSys]
    split_ifs
    · exact fun h => hne (Option.some_inj.1 h)
    · exact fun h => hline (Option.some_inj.1 h)
    · exact fun h => hstat (Option.some_inj.1 h)
  stat _ _ := ownStat_host p id _
  threads _ _ _ _ _ _ _ _ _ _ := ownStat_host p id _

/-- The buffer for the pid file when the pid of process 1 has been read into it. -/
def leftPid : Text := (readFile (some (decimal 1)) pidStringMax []).2

/-- The files of that process, with an empty pid file and a buffer for it that holds `left`. -/
def emptySys (left : Text) : Sys :=
  { hostSys 1 0 idleStat with
    file := fun path =>
      if path.getLast? = some 'd' then some [] else (hostSys 1 0 idleStat).file path
    stale := fun path => if path.getLast? = some 'd' then left else [] }

/-- The entry of an empty pid file. -/
def emptyEntry (left : Text) : Dirent × Sys := (⟨"vm.pid".toList, .reg⟩, emptySys left)

end Vmtop
