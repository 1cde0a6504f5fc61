/-
# Which handles an entry leaves

Every file that `set_domain` opens it closes, whatever the file holds and whichever call fails,
and so it does with the directory and the array of threads on all exits but two.
`get_child_pid` leaves the directory of a process open that says it has no thread
(`leaksStream`); and where `set_domain` rejects a name that is too long, the
array has been allocated, and `pop_domains` drops the record that points to it (`leaksArray`).
Otherwise an accepted record keeps its array, and a rejected one nothing
(`setDomainHeld_follows`).
-/

import Vmtop.Handles
import Vmtop.Refresh.Entries

namespace Vmtop

open CText CArray Ledgers

variable {arch : Arch} {monitorId : ℤ} {sys : Sys} {l : VcpuList} {dom : Domain} {name : Text}
  {opens : Text → Bool} {L L' : Ledger Kind}

/-! ### The files -/

theorem readFileHeld_balanced (opens : Bool) (content : Option Text) (bufsize : ℕ) (buf : Text) :
    Balanced (readFileHeld opens content bufsize buf) (.ok (readFile content bufsize buf)) := by
  unfold readFileHeld
  cases content with
  | none =>
      dsimp only
      split_ifs
      · exact balanced_released _ _
      · exact .pure _
  | some s => exact balanced_released _ _

theorem getProcStatHeld_balanced (opens : Text → Bool) (sys : Sys) (dom : Task) :
    Balanced (getProcStatHeld opens sys dom) (getProcStat sys dom) := by
  unfold getProcStatHeld getProcStat
  refine (readFileHeld_balanced _ _ _ _).seq ?_
  dsimp only
  split_ifs
  · exact .pure _
  · exact balanced_plain _

theorem getVcpuListHeld_balanced (arch : Arch) (file : Option Text) (l : VcpuList) :
    Balanced (getVcpuListHeld arch file l) (.ok (getVcpuList arch file l)) := by
  unfold getVcpuListHeld
  cases file with
  | none => exact .pure _
  | some s => exact balanced_released _ _

theorem getIdFromCgroupHeld_balanced (opens : Text → Bool) (sys : Sys) (pid : ℤ) :
    Balanced (getIdFromCgroupHeld opens sys pid) (.ok (getIdFromCgroup sys pid)) := by
  unfold getIdFromCgroupHeld getIdFromCgroup
  cases sys.file (cgroupPath pid) with
  | none =>
      dsimp only
      split_ifs
      · exact balanced_released _ _
      · exact .pure _
  | some s => exact balanced_released _ _

/-! ### One virtual machine -/

theorem childStepHeld_balanced (dirt : Dirent) (st : ChildState) :
    Balanced (childStepHeld opens arch sys l dom dirt st) (childStep arch sys l dom dirt st) := by
  unfold childStepHeld childStep
  split_ifs
  · exact .pure _
  · exact .pure _
  · dsimp only
    split_ifs
    · exact .pure _
    · refine (getProcStatHeld_balanced _ _ _).bind fun p _ => ?_
      obtain ⟨r, t⟩ := p
      dsimp only
      split_ifs <;> exact .pure _

theorem childLoopHeld_balanced (entries : List Dirent) (st : ChildState) :
    Balanced (childLoopHeld opens arch sys l dom entries st)
      (childLoop arch sys l dom entries st) := by
  induction entries generalizing st with
  | nil => exact .pure _
  | cons dirt rest ih =>
      rw [childLoopHeld, childLoop]
      split_ifs
      · exact (childStepHeld_balanced dirt st).bind fun st' _ => ih st'
      · exact .pure _

/-! ### What an entry adds -/

/-- Nothing is kept but arrays of threads. -/
def keptThreads (threads : List ℕ) : Kind → List ℕ
  | .threads => threads
  | _ => []

/-- What is lost: so many directories and so many arrays. -/
def lostHandles (streams arrays : ℕ) : Kind → ℕ
  | .stream => streams
  | .threads => arrays
  | .file => 0

/-- Behind `L` the arrays `threads` are held, too, and so many directories and arrays are lost. -/
abbrev Entered (threads : List ℕ) (streams arrays : ℕ) : Ledger Kind → Ledger Kind → Prop :=
  Grown (keptThreads threads) (lostHandles streams arrays)

theorem keptThreads_nil : keptThreads [] = fun _ => [] := by
  funext k
  cases k <;> rfl

theorem lostHandles_zero : lostHandles 0 0 = fun _ => 0 := by
  funext k
  cases k <;> rfl

theorem Entered.of_held_eq (h : L'.held = L.held) : Entered [] 0 0 L L' := by
  rw [Entered, keptThreads_nil, lostHandles_zero]
  exact .of_held_eq h

variable {threads threads' : List ℕ} {streams streams' arrays arrays' : ℕ} {L₁ : Ledger Kind}

theorem Entered.trans (h₁ : Entered threads streams arrays L L₁)
    (h₂ : Entered threads' streams' arrays' L₁ L') :
    Entered (threads ++ threads') (streams + streams') (arrays + arrays') L L' := by
  have hkept : keptThreads (threads ++ threads') =
      fun k => keptThreads threads k ++ keptThreads threads' k := by
    funext k
    cases k <;> rfl
  have hlost : lostHandles (streams + streams') (arrays + arrays') =
      fun k => lostHandles streams arrays k + lostHandles streams' arrays' k := by
    funext k
    cases k <;> rfl
  rw [Entered, hkept, hlost]
  exact Grown.trans h₁ h₂

/-- Arrays that no record points to any more are lost. -/
theorem Entered.lose (h : Entered threads streams arrays L L') :
    Entered [] streams (arrays + threads.length) L L' := by
  have hlost : lostHandles streams (arrays + threads.length) =
      fun k => lostHandles streams arrays k + (keptThreads threads k).length := by
    funext k
    cases k <;> rfl
  rw [Entered, keptThreads_nil, hlost]
  exact Grown.lose h

/-- An array is allocated. -/
theorem entered_threads (L : Ledger Kind) : Entered [L.next] 0 0 L (L.enter .threads) := by
  have hkept : keptThreads [L.next] = fun k => if k = .threads then [L.next] else [] := by
    funext k
    cases k <;> rfl
  rw [Entered, hkept, lostHandles_zero]
  exact grown_enter L .threads

/-- A directory is opened, and its handle forgotten. -/
theorem entered_stream (L : Ledger Kind) : Entered [] 1 0 L (L.enter .stream) := by
  have hlost : lostHandles 1 0 =
      fun k => 0 + (if k = .stream then [L.next] else []).length := by
    funext k
    cases k <;> rfl
  rw [Entered, keptThreads_nil, hlost]
  exact (grown_enter L .stream).lose

/-- The process says that it has no thread, and its directory can be opened. -/
def leavesDir (sys : Sys) (dom : Domain) : Bool :=
  (sys.taskDir (taskPath dom.pid)).isSome && dom.nlwp ≤ 0

/-- An array is allocated for the process. -/
def allocates (sys : Sys) (dom : Domain) : Bool :=
  (sys.taskDir (taskPath dom.pid)).isSome && 0 < dom.nlwp && sys.mallocThreads

/-- What `get_child_pid` keeps and loses: the array, when it succeeds, and the directory of a
process without threads. -/
theorem getChildPidHeld_follows (dom : Domain) (L : Ledger Kind) :
    Follows L (getChildPidHeld opens arch sys l dom) (getChildPid arch sys l dom)
      fun b a L' => (b.1, b.2.1) = a ∧ (0 ≤ b.1 ↔ allocates sys dom = true) ∧
        b.2.2.isSome = allocates sys dom ∧
        Entered b.2.2.toList (leavesDir sys dom).toNat 0 L L' := by
  unfold getChildPidHeld getChildPid
  cases hdir : sys.taskDir (taskPath dom.pid) with
  | none =>
      have hallocates : allocates sys dom = false := by simp [allocates, hdir]
      have hleaves : leavesDir sys dom = false := by simp [leavesDir, hdir]
      refine Follows.pure ⟨rfl, ?_, hallocates.symm, ?_⟩
      · simp [hallocates]
      · rw [hleaves]
        exact .of_held_eq rfl
  | some entries =>
      dsimp only
      refine Follows.acquire ?_
      split_ifs with hnlwp hmalloc
      · have hallocates : allocates sys dom = false := by simp [allocates, hnlwp]
        have hleaves : leavesDir sys dom = true := by simp [leavesDir, hdir, hnlwp]
        refine Follows.pure ⟨rfl, ?_, hallocates.symm, ?_⟩
        · simp [hallocates]
        · rw [hleaves]
          exact entered_stream L
      · have hallocates : allocates sys dom = false := by simp [allocates, hmalloc]
        have hleaves : leavesDir sys dom = false := by simp [leavesDir, hnlwp]
        refine Follows.release (Ledger.mem_enter.2 (Or.inr ⟨rfl, rfl⟩)) (Follows.pure ?_)
        refine ⟨rfl, ?_, hallocates.symm, ?_⟩
        · simp [hallocates]
        · rw [hleaves]
          exact .of_held_eq (L.held_strike_enter .stream)
      · have hpos : 0 < dom.nlwp := Int.not_le.1 hnlwp
        have hallocates : allocates sys dom = true := by
          simp [allocates, hdir, hpos, hmalloc]
        have hleaves : leavesDir sys dom = false := by simp [leavesDir, hnlwp]
        refine Follows.acquire ((childLoopHeld_balanced entries _).follows fun st L' hheld => ?_)
        -- the array is held behind the directory, which was opened first
        have hentered : Entered [(L.enter .stream).next] 0 0 (L.enter .stream) L' :=
          (entered_threads (L.enter .stream)).trans (.of_held_eq hheld)
        obtain ⟨hmem, hstruck⟩ := hentered.strike (k := .stream) (h := L.next)
          (Ledger.mem_enter.2 (Or.inr ⟨rfl, rfl⟩))
        refine Follows.release hmem (Follows.pure ⟨rfl, ?_, hallocates.symm, ?_⟩)
        · exact iff_of_true hpos.le hallocates
        · rw [hleaves]
          exact (Entered.of_held_eq (L.held_strike_enter .stream)).trans hstruck

/-- An entry for whose process `get_child_pid` leaves the directory open. -/
def leaksStream (monitorId : ℤ) (sys : Sys) (name : Text) : Bool :=
  (readProcess monitorId sys name).elim false (leavesDir sys)

/-- An entry for whose process an array is allocated, before its name is found too long. -/
def leaksArray (monitorId : ℤ) (sys : Sys) (name : Text) : Bool :=
  (readProcess monitorId sys name).elim false (allocates sys) &&
    decide (domainNameMax - 1 ≤ name.length)

/-- What `set_domain` keeps and loses of an entry: `threads` is the array that the record
points to. -/
structure EntryHeld (monitorId : ℤ) (sys : Sys) (name : Text) (r : ℤ) (threads : Option ℕ)
    (L L' : Ledger Kind) : Prop where
  entered : Entered threads.toList (leaksStream monitorId sys name).toNat 0 L L'
  accepted : 0 ≤ r → threads.isSome
  rejected : r < 0 → threads.isSome = leaksArray monitorId sys name
  kept : 0 ≤ r → leaksArray monitorId sys name = false

/-- An entry that comes to no process keeps nothing. -/
theorem EntryHeld.of_none (hread : readProcess monitorId sys name = none)
    (hheld : L'.held = L.held) : EntryHeld monitorId sys name (-1) none L L' where
  entered := by
    have hstream : leaksStream monitorId sys name = false := by simp [leaksStream, hread]
    rw [hstream]
    exact .of_held_eq hheld
  accepted h := absurd h (by decide)
  rejected _ := by simp [leaksArray, hread]
  kept h := absurd h (by decide)

/-- An entry that comes to one keeps its array, unless its name is too long. -/
theorem EntryHeld.of_some {r : ℤ} {threads : Option ℕ}
    (hread : readProcess monitorId sys name = some dom)
    (hentered : Entered threads.toList (leavesDir sys dom).toNat 0 L L')
    (hsome : threads.isSome = allocates sys dom)
    (hr : 0 ≤ r ↔ allocates sys dom = true ∧ name.length < domainNameMax - 1) :
    EntryHeld monitorId sys name r threads L L' := by
  have harray : leaksArray monitorId sys name =
      (allocates sys dom && decide (domainNameMax - 1 ≤ name.length)) := by
    simp [leaksArray, hread]
  constructor
  · have hstream : leaksStream monitorId sys name = leavesDir sys dom := by
      simp [leaksStream, hread]
    rw [hstream]
    exact hentered
  · exact fun h => hsome.trans (hr.1 h).1
  · intro hneg
    rw [hsome, harray]
    by_cases hlen : domainNameMax - 1 ≤ name.length
    · simp [hlen]
    · have hallocates : allocates sys dom = false :=
        Bool.eq_false_iff.2 fun h => absurd (hr.2 ⟨h, Nat.not_le.1 hlen⟩) (Int.not_le.2 hneg)
      simp [hallocates]
  · intro h
    rw [harray, decide_eq_false (Nat.not_le.2 (hr.1 h).2), Bool.and_false]

/-- It does not matter where the parts before left the ledger, when they left nothing in it. -/
theorem EntryHeld.of_held_eq {r : ℤ} {threads : Option ℕ} (hheld : L₁.held = L.held)
    (h : EntryHeld monitorId sys name r threads L₁ L') :
    EntryHeld monitorId sys name r threads L L' where
  entered := by
    have hentered := (Entered.of_held_eq hheld).trans h.entered
    rw [List.nil_append, zero_add, zero_add] at hentered
    exact hentered
  accepted := h.accepted
  rejected := h.rejected
  kept := h.kept

/-- A directory that was open before the entry was read may be closed behind it. -/
theorem EntryHeld.strike {r : ℤ} {threads : Option ℕ} {dir : ℕ}
    (h : EntryHeld monitorId sys name r threads L L') (hdir : dir ∈ L.held .stream) :
    dir ∈ L'.held .stream ∧
      EntryHeld monitorId sys name r threads (L.strike .stream dir) (L'.strike .stream dir) := by
  obtain ⟨hmem, hstruck⟩ := h.entered.strike hdir
  exact ⟨hmem, hstruck, h.accepted, h.rejected, h.kept⟩

theorem loadDomainHeld_follows (hcheck : checkedEntry monitorId sys name = some dom)
    (L : Ledger Kind) :
    Follows L (loadDomainHeld opens arch sys l name dom) (loadDomain arch sys l name dom)
      fun b a L' => (b.1, b.2.1) = a ∧ EntryHeld monitorId sys name b.1 b.2.2 L L' := by
  have hneg : ¬ (0 : ℤ) ≤ -1 := by decide
  unfold loadDomainHeld loadDomain
  have hstat := getProcStatHeld_balanced opens sys { dom.toTask with type := .isDomain }
  cases hgot : getProcStat sys { dom.toTask with type := .isDomain } with
  | error e =>
      rw [hgot] at hstat
      exact bind_error (hstat L)
  | ok p =>
      obtain ⟨r, t⟩ := p
      rw [hgot] at hstat
      refine hstat.then_follows fun L₁ hheld => ?_
      rw [ok_bind]
      dsimp only
      by_cases hr : r < 0
      · rw [if_pos hr, if_pos hr]
        exact Follows.pure ⟨rfl, .of_none (by simp [readProcess, hcheck, hgot, hr]) hheld⟩
      · have hread : readProcess monitorId sys name = some { dom with toTask := t } := by
          simp [readProcess, hcheck, hgot, hr]
        rw [if_neg hr, if_neg hr]
        refine (getChildPidHeld_follows _ L₁).bind fun b a L' hR => ?_
        obtain ⟨r', d, threads⟩ := b
        obtain ⟨rfl, hresult, hsome, hentered⟩ := hR
        have hadded := (Entered.of_held_eq hheld).trans hentered
        rw [List.nil_append, zero_add, zero_add] at hadded
        dsimp only at hresult hsome ⊢
        split_ifs with hr' hlen
        · have hallocates : ¬ allocates sys { dom with toTask := t } = true := by
            rw [← hresult]
            exact Int.not_le.2 hr'
          exact Follows.pure ⟨rfl, .of_some hread hadded hsome
            (iff_of_false hneg fun h => hallocates h.1)⟩
        · exact Follows.pure ⟨rfl, .of_some hread hadded hsome
            (iff_of_false hneg fun h => absurd h.2 (Nat.not_lt.2 hlen))⟩
        · exact Follows.pure ⟨rfl, .of_some hread hadded hsome
            (iff_of_true zero_le_one ⟨hresult.1 (Int.not_lt.1 hr'), Nat.not_le.1 hlen⟩)⟩

/-- **What `set_domain` keeps and loses**, on the record that `add_domains` cleared. -/
theorem setDomainHeld_follows (L : Ledger Kind) :
    Follows L (setDomainHeld opens arch monitorId sys l name Domain.zero)
      (setDomain arch monitorId sys l name Domain.zero)
      fun b a L' => (b.1, b.2.1) = a ∧ EntryHeld monitorId sys name b.1 b.2.2 L L' := by
  have hreject (hcheck : checkedEntry monitorId sys name = none) :
      readProcess monitorId sys name = none := by
    rw [readProcess, hcheck, Option.bind_none]
  unfold setDomainHeld setDomain
  refine (readFileHeld_balanced _ _ _ _).then_follows fun L₁ hheld => ?_
  dsimp only
  by_cases hgot : (readFile (sys.file (varRunQemuPath ++ '/' :: name)) pidStringMax
      (sys.stale (varRunQemuPath ++ '/' :: name))).1 < 0
  · rw [if_pos hgot, if_pos hgot]
    exact Follows.pure ⟨rfl, .of_none (hreject (if_pos (Or.inl hgot))) hheld⟩
  rw [if_neg hgot, if_neg hgot]
  split_ifs with hpid hid hmonitor
  · exact Follows.pure ⟨rfl, .of_none (hreject (if_pos (Or.inr (Or.inl hpid)))) hheld⟩
  all_goals refine (getIdFromCgroupHeld_balanced _ _ _).then_follows fun L₂ hheld₂ => ?_
  · rw [if_pos hid]
    exact Follows.pure ⟨rfl, .of_none (hreject (if_pos (Or.inr (Or.inr (Or.inl hid)))))
      (hheld₂.trans hheld)⟩
  · rw [if_neg hid, if_pos hmonitor]
    exact Follows.pure ⟨rfl, .of_none (hreject (if_pos (Or.inr (Or.inr (Or.inr hmonitor)))))
      (hheld₂.trans hheld)⟩
  · rw [if_neg hid, if_neg hmonitor]
    have hcheck : checkedEntry monitorId sys name = some { Domain.zero with
        pid := readPid (cstr (readFile (sys.file (varRunQemuPath ++ '/' :: name)) pidStringMax
          (sys.stale (varRunQemuPath ++ '/' :: name))).2)
        domainId := getIdFromCgroup sys (readPid (cstr (readFile
          (sys.file (varRunQemuPath ++ '/' :: name)) pidStringMax
          (sys.stale (varRunQemuPath ++ '/' :: name))).2)) } :=
      if_neg (by simp only [not_or]; exact ⟨hgot, hpid, hid, hmonitor⟩)
    exact (loadDomainHeld_follows hcheck L₂).mono fun b a L' hR =>
      ⟨hR.1, hR.2.of_held_eq (hheld₂.trans hheld)⟩

end Vmtop
