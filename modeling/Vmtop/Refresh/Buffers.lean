/-
# What is parsed of a buffer

`read_file` writes the NUL behind what it read only if it read something; an empty file leaves
the buffer as it was.  Its callers go on with every result that is not negative, so
`set_domain` takes the pid from the old contents of its buffer where the pid file is empty,
and `get_proc_stat` those of its own.  The latter leaves what it read in one more case: it
scans from two bytes behind the last `)`, which is past the NUL where the `)` is the last byte
read (`buffers_own_bytes_iff`).
-/

import Vmtop.Refresh.Entries
import Vmtop.Refresh.Host

namespace Vmtop

open CText CArray

variable {arch : Arch} {monitorId : ℤ} {sys : Sys} {l : VcpuList} {dom : Domain} {t : Task}
  {name mem : Text} {base : ℤ}

/-! ### The buffer -/

/-- What a caller of `read_file` may rely on: `buf` is the buffer when it returns. -/
def OwnBytes (content : Option Text) (bufsize : ℕ) (r : ℤ) (buf : Text) : Prop :=
  0 ≤ r → ∃ s, content = some s ∧ r = (min s.length (bufsize - 1) : ℕ) ∧
    buf.take r.toNat = s.take (bufsize - 1) ∧ buf[r.toNat]? = some nul

/-- Where something is read the buffer holds it, and a NUL behind it. -/
theorem readFile_of_ne_nil {s : Text} {bufsize : ℕ} (h : s.take (bufsize - 1) ≠ []) (buf : Text) :
    readFile (some s) bufsize buf = (((s.take (bufsize - 1)).length : ℤ),
      s.take (bufsize - 1) ++ nul :: buf.drop ((s.take (bufsize - 1)).length + 1)) := by
  simp [readFile, h]

theorem readFile_of_nil {s : Text} {bufsize : ℕ} (h : s.take (bufsize - 1) = []) (buf : Text) :
    readFile (some s) bufsize buf = (0, buf) := by
  simp [readFile, h]

/-- **`read_file` ends its buffer exactly when it reads something**, or the buffer happens to
begin with a NUL. -/
theorem readFile_ownBytes_iff (content : Option Text) (bufsize : ℕ) (buf : Text) :
    OwnBytes content bufsize (readFile content bufsize buf).1 (readFile content bufsize buf).2 ↔
      ∀ s, content = some s → s ≠ [] ∧ 2 ≤ bufsize ∨ buf[0]? = some nul := by
  cases content with
  | none => exact ⟨fun _ => nofun, fun _ hr => absurd (show (0 : ℤ) ≤ -1 from hr) (by decide)⟩
  | some s =>
      have hread : s.take (bufsize - 1) = [] ↔ ¬ (s ≠ [] ∧ 2 ≤ bufsize) := by
        rw [List.take_eq_nil_iff]
        have : bufsize - 1 = 0 ↔ ¬ 2 ≤ bufsize := by omega
        rw [this]
        tauto
      simp only [Option.some.injEq, forall_eq']
      by_cases hnil : s.take (bufsize - 1) = []
      · have hmin : (min s.length (bufsize - 1) : ℕ) = 0 := by
          have := congrArg List.length hnil
          rw [List.length_take] at this
          simpa [Nat.min_comm] using this
        rw [readFile_of_nil hnil, or_iff_right (hread.1 hnil)]
        constructor
        · intro h
          obtain ⟨-, -, -, -, hnul⟩ := h le_rfl
          exact hnul
        · exact fun hnul _ => ⟨s, rfl, by omega, by simp [hnil], hnul⟩
      · rw [readFile_of_ne_nil hnil]
        refine ⟨fun _ => Or.inl (not_not.1 fun h => hnil (hread.2 h)), fun _ _ => ?_⟩
        refine ⟨s, rfl, ?_, ?_, ?_⟩
        · rw [List.length_take]
          omega
        · rw [Int.toNat_natCast, List.take_left]
        · rw [Int.toNat_natCast, List.getElem?_append_right le_rfl, Nat.sub_self]
          rfl

/-! ### The stat file -/

/-- The length that `get_proc_stat` computes for the name, in the string `buf`. -/
def nameLength (base : ℤ) (buf : Text) : ℤ :=
  toInt32 (pointer base (strrchr ')' buf) - (pointer base (strrchr '(' buf) + 1))

/-- A length that does not pass the check. -/
def Rejected (len : ℤ) : Prop := (domainNameMax : ℤ) ≤ len ∨ len < 0

/-- A name whose length does not pass is rejected. -/
theorem parseStat_of_rejected (h : Rejected (nameLength base (cstr mem))) (t : Task) :
    parseStat base mem t = .ok (-1, t) :=
  if_pos h

/-- One that passes is stored, if both parentheses are there. -/
theorem parseStat_of_accepted (h : ¬ Rejected (nameLength base (cstr mem))) {i j : ℕ}
    (hi : strrchr '(' (cstr mem) = some i) (hj : strrchr ')' (cstr mem) = some j) (t : Task) :
    parseStat base mem t = .ok (1, sscanf statFormat (cstr (mem.drop (j + 2)))
      { t with vmname := ((cstr mem).drop (i + 1)).take (nameLength base (cstr mem)).toNat }) := by
  unfold Rejected nameLength at h
  unfold nameLength
  simp only [parseStat, hi, hj] at h ⊢
  rw [if_neg h]

/-- And a fault, if one is missing. -/
theorem parseStat_of_missing (h : ¬ Rejected (nameLength base (cstr mem)))
    (hmissing : strrchr '(' (cstr mem) = none ∨ strrchr ')' (cstr mem) = none) (t : Task) :
    parseStat base mem t = .error .badPointer := by
  unfold Rejected nameLength at h
  simp only [parseStat]
  rw [if_neg h]
  rcases hmissing with hnone | hnone
  · rw [hnone]
  · rw [hnone]
    cases strrchr '(' (cstr mem) <;> rfl

/-- The length is the distance of the parentheses. -/
theorem nameLength_eq (base : ℤ) {buf : Text} {i j : ℕ} (hi : strrchr '(' buf = some i)
    (hj : strrchr ')' buf = some j) (hlen : buf.length < 2 ^ 31) :
    nameLength base buf = j - (i + 1) := by
  have hilt := lt_of_strrchr hi
  have hjlt := lt_of_strrchr hj
  rw [nameLength, hi, hj, pointer, pointer, Option.elim_some, Option.elim_some]
  rw [← toInt32_of_mem (z := (j : ℤ) - (i + 1)) (by omega)]
  congr 1
  omega

/-- It passes when the `)` follows the `(` and the name fits. -/
theorem not_rejected_iff (base : ℤ) {buf : Text} {i j : ℕ} (hi : strrchr '(' buf = some i)
    (hj : strrchr ')' buf = some j) (hlen : buf.length < 2 ^ 31) :
    ¬ Rejected (nameLength base buf) ↔ i < j ∧ j ≤ i + domainNameMax := by
  rw [Rejected, nameLength_eq base hi hj hlen]
  omega

/-- The name that is read ends with the last byte that is read, and passes the check. -/
def EndsAtName (got : Text) : Prop :=
  ∃ i j, strrchr '(' (cstr got) = some i ∧ strrchr ')' (cstr got) = some j ∧
    j + 1 = got.length ∧ i < j ∧ j ≤ i + domainNameMax

variable {got : Text}

theorem length_cstr_le (s : Text) : (cstr s).length ≤ s.length :=
  (List.takeWhile_sublist _).length_le

/-- Behind a name that is not the end, the scan stays in what was read. -/
theorem parseStat_own (hlen : got.length < 2 ^ 31) (hend : ¬ EndsAtName got) (base : ℤ) (t : Task)
    (x y : Text) : parseStat base (got ++ nul :: x) t = parseStat base (got ++ nul :: y) t := by
  have hx := cstr_append got x
  have hy := cstr_append got y
  by_cases hrej : Rejected (nameLength base (cstr got))
  · rw [parseStat_of_rejected (hx.symm ▸ hrej), parseStat_of_rejected (hy.symm ▸ hrej)]
  · by_cases hmissing : strrchr '(' (cstr got) = none ∨ strrchr ')' (cstr got) = none
    · rw [parseStat_of_missing (hx.symm ▸ hrej) (hx.symm ▸ hmissing),
        parseStat_of_missing (hy.symm ▸ hrej) (hy.symm ▸ hmissing)]
    · rw [not_or, ← ne_eq, ← ne_eq, Option.ne_none_iff_exists', Option.ne_none_iff_exists']
        at hmissing
      obtain ⟨⟨i, hi⟩, j, hj⟩ := hmissing
      have hcstr := length_cstr_le got
      have hname := (not_rejected_iff base hi hj (by omega)).1 hrej
      have hjlt := lt_of_strrchr hj
      have hwithin : j + 2 ≤ got.length := by
        by_contra hlast
        exact hend ⟨i, j, hi, hj, by omega, hname⟩
      rw [parseStat_of_accepted (hx.symm ▸ hrej) (hx.symm ▸ hi) (hx.symm ▸ hj),
        parseStat_of_accepted (hy.symm ▸ hrej) (hy.symm ▸ hi) (hy.symm ▸ hj), hx, hy,
        List.drop_append_of_le_length hwithin, List.drop_append_of_le_length hwithin,
        cstr_append, cstr_append]

/-- The state is the first thing that is scanned. -/
theorem sscanf_state (c : Char) (t : Task) : (sscanf statFormat [c] t).state = c ∧
    sscanf statFormat [] t = t := by
  constructor
  · simp [statFormat, List.intersperse, sscanf, Conv.scan, strtol, scanNumeral, Char.ofNat_toNat]
  · rfl

/-- Behind one that is the end, what the buffer held there is scanned. -/
theorem parseStat_of_endsAtName (hlen : got.length < 2 ^ 31) (hend : EndsAtName got) (base : ℤ)
    (t : Task) (x : Text) : ∃ name, parseStat base (got ++ nul :: x) t =
      .ok (1, sscanf statFormat (cstr x) { t with vmname := name }) := by
  obtain ⟨i, j, hi, hj, hlast, hname⟩ := hend
  have hcstr := length_cstr_le got
  have hrej := (not_rejected_iff base hi hj (by omega)).2 hname
  have hx := cstr_append got x
  have hdrop : (got ++ nul :: x).drop (j + 2) = x := by
    have hsplit : got ++ nul :: x = (got ++ [nul]) ++ x := by simp
    rw [hsplit, List.drop_left' (by rw [List.length_append]; simp; omega)]
  have hparse : parseStat base (got ++ nul :: x) t = _ :=
    parseStat_of_accepted (hx.symm ▸ hrej) (hx.symm ▸ hi) (hx.symm ▸ hj) t
  rw [hdrop] at hparse
  exact ⟨_, hparse⟩

/-- So the scan leaves what was read. -/
theorem parseStat_endsAtName (hlen : got.length < 2 ^ 31) (hend : EndsAtName got) (base : ℤ)
    (t : Task) :
    ∃ x y, parseStat base (got ++ nul :: x) t ≠ parseStat base (got ++ nul :: y) t := by
  obtain ⟨c, hc, hcnul⟩ : ∃ c : Char, c ≠ t.state ∧ nul ∉ [c] := by
    by_cases hS : t.state = 'S'
    · exact ⟨'R', by rw [hS]; decide, by decide⟩
    · exact ⟨'S', Ne.symm hS, by decide⟩
  obtain ⟨name, hempty⟩ := parseStat_of_endsAtName hlen hend base t []
  obtain ⟨name', hstate⟩ := parseStat_of_endsAtName hlen hend base t [c]
  refine ⟨[c], [], fun heq => hc ?_⟩
  rw [hempty, hstate, Except.ok.injEq, Prod.mk.injEq] at heq
  have hsame := congrArg (fun t : Task => t.state) heq.2
  rw [cstr_of_notMem hcnul] at hsame
  simp only [(sscanf_state c _).1] at hsame
  exact hsame

/-- Two strings that `get_proc_stat` tells apart: one without parentheses, and one with an
empty name. -/
theorem parseStat_nil (base : ℤ) (t : Task) : parseStat base [] t = .ok (-1, t) := by
  have hlen : nameLength base (cstr []) = -1 := rfl
  exact parseStat_of_rejected (Or.inr (by rw [hlen]; decide)) t

theorem parseStat_emptyName (base : ℤ) (t : Task) :
    ∃ t', parseStat base "()".toList t = .ok (1, t') := by
  have hi : strrchr '(' (cstr "()".toList) = some 0 := by decide
  have hj : strrchr ')' (cstr "()".toList) = some 1 := by decide
  have hlen : (cstr "()".toList).length < 2 ^ 31 := by decide
  have hname := (not_rejected_iff base hi hj hlen).2 ⟨Nat.one_pos, Nat.le_add_left 1 _⟩
  exact ⟨_, parseStat_of_accepted hname hi hj t⟩

/-- The same system, where the buffer for the file `path` held `x` before. -/
def Sys.withStale (sys : Sys) (path x : Text) : Sys :=
  { sys with stale := Function.update sys.stale path x }

theorem withStale_self (sys : Sys) (path : Text) : sys.withStale path (sys.stale path) = sys := by
  rw [Sys.withStale, Function.update_eq_self]

/-- What `get_proc_stat` makes of the file when its buffer held `x`. -/
theorem getProcStat_withStale (x : Text) (t : Task) :
    getProcStat (sys.withStale (statPath t) x) t =
      if (readFile (sys.file (statPath t)) bufSize x).1 < 0 then .ok (-1, t)
      else parseStat (sys.base (statPath t)) (readFile (sys.file (statPath t)) bufSize x).2 t := by
  have hstale : (sys.withStale (statPath t) x).stale (statPath t) = x :=
    Function.update_self _ _ _
  rw [getProcStat, hstale]
  rfl

/-- **`get_proc_stat` parses the file's own bytes exactly when the file is not empty and what
is read of it does not end at the name.** -/
theorem getProcStat_own_iff (sys : Sys) (t : Task) :
    (∀ x y, getProcStat (sys.withStale (statPath t) x) t =
        getProcStat (sys.withStale (statPath t) y) t) ↔
      ∀ s, sys.file (statPath t) = some s → s ≠ [] ∧ ¬ EndsAtName (s.take (bufSize - 1)) := by
  simp only [getProcStat_withStale]
  cases sys.file (statPath t) with
  | none => exact ⟨fun _ => nofun, fun _ _ _ => rfl⟩
  | some s =>
      simp only [Option.some.injEq, forall_eq']
      have hread : s.take (bufSize - 1) = [] ↔ s = [] :=
        List.take_eq_nil_iff.trans (or_iff_right (by decide))
      by_cases hnil : s.take (bufSize - 1) = []
      · simp only [readFile_of_nil hnil, lt_irrefl, if_false]
        refine ⟨fun h => ?_, fun h => absurd (hread.1 hnil) h.1⟩
        -- the one buffer has no parentheses, and the other an empty name
        obtain ⟨name, hname⟩ := parseStat_emptyName (sys.base (statPath t)) t
        rw [← h [] "()".toList, parseStat_nil] at hname
        cases hname
      · have hne : s ≠ [] := fun hs => hnil (hread.2 hs)
        have hlen : (s.take (bufSize - 1)).length < 2 ^ 31 := by
          have : (s.take (bufSize - 1)).length ≤ bufSize - 1 := List.length_take_le _ _
          unfold bufSize at this ⊢
          omega
        have hpos (n : ℕ) : ¬ (n : ℤ) < 0 := by omega
        simp only [readFile_of_ne_nil hnil, hpos, if_false]
        constructor
        · refine fun h => ⟨hne, fun hend => ?_⟩
          obtain ⟨x, y, hxy⟩ := parseStat_endsAtName hlen hend (sys.base (statPath t)) t
          -- buffers that hold `x` and `y` behind what is read
          have hdrop (z : Text) : (List.replicate ((s.take (bufSize - 1)).length + 1) nul ++ z).drop
              ((s.take (bufSize - 1)).length + 1) = z := List.drop_left' List.length_replicate
          have hsame := h (List.replicate ((s.take (bufSize - 1)).length + 1) nul ++ x)
            (List.replicate ((s.take (bufSize - 1)).length + 1) nul ++ y)
          rw [hdrop, hdrop] at hsame
          exact hxy hsame
        · exact fun h _ _ => parseStat_own hlen h.2 _ t _ _

/-! ### The pid file -/

/-- The file that `set_domain` reads the pid from. -/
def pidPath (name : Text) : Text := varRunQemuPath ++ '/' :: name

/-- The old contents of the buffer for the pid file are none of a stat file's. -/
theorem getProcStat_withStale_pidPath (x : Text) (t : Task) :
    getProcStat (sys.withStale (pidPath name) x) t = getProcStat sys t := by
  have hne : statPath t ≠ pidPath name := by
    intro heq
    have hproc : (statPath t)[1]? = some 'p' := by
      unfold statPath
      split_ifs <;> rfl
    rw [heq] at hproc
    cases hproc
  have hstale : (sys.withStale (pidPath name) x).stale (statPath t) = sys.stale (statPath t) :=
    Function.update_of_ne hne _ _
  rw [getProcStat, getProcStat, hstale]
  rfl

theorem childLoop_withStale (x : Text) (entries : List Dirent) (st : ChildState) :
    childLoop arch (sys.withStale (pidPath name) x) l dom entries st =
      childLoop arch sys l dom entries st := by
  induction entries generalizing st with
  | nil => rfl
  | cons dirt rest ih =>
      have hstep (st : ChildState) : childStep arch (sys.withStale (pidPath name) x) l dom dirt st =
          childStep arch sys l dom dirt st := by
        simp only [childStep, getProcStat_withStale_pidPath]
      simp only [childLoop, hstep, ih]

theorem loadDomain_withStale (x : Text) :
    loadDomain arch (sys.withStale (pidPath name) x) l name dom =
      loadDomain arch sys l name dom := by
  have hchild (dom : Domain) : getChildPid arch (sys.withStale (pidPath name) x) l dom =
      getChildPid arch sys l dom := by
    simp only [getChildPid, childLoop_withStale]
    rfl
  simp only [loadDomain, getProcStat_withStale_pidPath, hchild]

/-- `get_child_pid` keeps the pid, and so does all that follows it. -/
theorem getChildPid_pid {d : Domain} {r : ℤ} (h : getChildPid arch sys l dom = .ok (r, d)) :
    d.pid = dom.pid := by
  unfold getChildPid at h
  split at h
  · cases h
    rfl
  · split_ifs at h
    · cases h
      rfl
    · cases h
      rfl
    · obtain ⟨st, -, h⟩ := bind_eq_ok.1 h
      cases h
      rfl

theorem loadDomain_pid {d : Domain} {r : ℤ} (h : loadDomain arch sys l name dom = .ok (r, d)) :
    d.pid = dom.pid := by
  obtain ⟨⟨r₁, t⟩, hstat, h⟩ := bind_eq_ok.1 h
  have hpid : t.pid = dom.pid := (getProcStat_frame hstat).pid
  dsimp only at h
  by_cases hr₁ : r₁ < 0
  · rw [if_pos hr₁] at h
    cases h
    exact hpid
  · rw [if_neg hr₁] at h
    obtain ⟨⟨r₂, d₂⟩, hchild, h⟩ := bind_eq_ok.1 h
    have hpid₂ : d₂.pid = dom.pid := (getChildPid_pid hchild).trans hpid
    dsimp only at h
    split_ifs at h
    all_goals
      cases h
      exact hpid₂

/-- The record of an entry has the pid that was read. -/
theorem setDomain_pid {d : Domain} {r : ℤ}
    (h : setDomain arch monitorId sys l name dom = .ok (r, d))
    (hread : 0 ≤ (readFile (sys.file (pidPath name)) pidStringMax (sys.stale (pidPath name))).1) :
    d.pid = readPid (cstr
      (readFile (sys.file (pidPath name)) pidStringMax (sys.stale (pidPath name))).2) := by
  unfold pidPath at hread ⊢
  simp only [setDomain] at h
  rw [if_neg (Int.not_lt.2 hread)] at h
  split_ifs at h
  · cases h
    rfl
  · cases h
    rfl
  · cases h
    rfl
  · exact loadDomain_pid h

theorem stale_withStale (sys : Sys) (path x : Text) : (sys.withStale path x).stale path = x :=
  Function.update_self _ _ _

/-- What the buffer held reaches the record through the pid alone. -/
theorem setDomain_withStale {x y : Text}
    (hresult : (readFile (sys.file (pidPath name)) pidStringMax x).1 =
      (readFile (sys.file (pidPath name)) pidStringMax y).1)
    (hcstr : cstr (readFile (sys.file (pidPath name)) pidStringMax x).2 =
      cstr (readFile (sys.file (pidPath name)) pidStringMax y).2) :
    setDomain arch monitorId (sys.withStale (pidPath name) x) l name dom =
      setDomain arch monitorId (sys.withStale (pidPath name) y) l name dom := by
  have hx := stale_withStale sys (pidPath name) x
  have hy := stale_withStale sys (pidPath name) y
  have hcgroup (z : Text) (pid : ℤ) :
      getIdFromCgroup (sys.withStale (pidPath name) z) pid = getIdFromCgroup sys pid := rfl
  have hfile (z : Text) : (sys.withStale (pidPath name) z).file = sys.file := rfl
  unfold pidPath at hresult hcstr hx hy hcgroup hfile
  simp only [setDomain, pidPath, hx, hy, hcgroup, hfile, hresult, hcstr]
  have hload (z : Text) (d : Domain) :
      loadDomain arch (sys.withStale (varRunQemuPath ++ '/' :: name) z) l name d =
        loadDomain arch sys l name d := loadDomain_withStale z
  simp only [hload]

/-- An unreadable pid file ends `set_domain`. -/
theorem setDomain_unread (hfile : sys.file (pidPath name) = none) (x : Text) :
    setDomain arch monitorId (sys.withStale (pidPath name) x) l name dom = .ok (-1, dom) := by
  have hsame : (sys.withStale (pidPath name) x).file (pidPath name) = none := hfile
  unfold pidPath at hsame
  simp only [setDomain, pidPath, hsame]
  rfl

/-- An empty one is no number, and the old contents of the buffer may be one. -/
theorem setDomain_empty {x : Text} {d : Domain} {r : ℤ} (hfile : sys.file (pidPath name) = some [])
    (h : setDomain arch monitorId (sys.withStale (pidPath name) x) l name dom = .ok (r, d)) :
    d.pid = readPid (cstr x) := by
  have hread : readFile ((sys.withStale (pidPath name) x).file (pidPath name)) pidStringMax
      ((sys.withStale (pidPath name) x).stale (pidPath name)) = (0, x) := by
    rw [stale_withStale]
    change readFile (sys.file (pidPath name)) pidStringMax x = (0, x)
    rw [hfile]
    rfl
  have hpid := setDomain_pid h
  rw [hread] at hpid
  exact hpid le_rfl

theorem setDomain_empty_nil (arch : Arch) (monitorId : ℤ) (l : VcpuList) (dom : Domain)
    (hfile : sys.file (pidPath name) = some []) :
    setDomain arch monitorId (sys.withStale (pidPath name) []) l name dom =
      .ok (-1, { dom with pid := 0 }) := by
  have hx := stale_withStale sys (pidPath name) []
  have hsame : (sys.withStale (pidPath name) []).file (pidPath name) = some [] := hfile
  unfold pidPath at hx hsame
  simp only [setDomain, pidPath, hx, hsame]
  rfl

/-- **`set_domain` parses the file's own bytes exactly when the pid file is not empty.** -/
theorem setDomain_own_iff (arch : Arch) (monitorId : ℤ) (sys : Sys) (l : VcpuList) (name : Text)
    (dom : Domain) :
    (∀ x y, setDomain arch monitorId (sys.withStale (pidPath name) x) l name dom =
        setDomain arch monitorId (sys.withStale (pidPath name) y) l name dom) ↔
      sys.file (pidPath name) ≠ some [] := by
  constructor
  · intro h hfile
    -- the one buffer holds no pid, and the other the pid 1
    have hnone := setDomain_empty_nil arch monitorId l dom hfile
    have hone := setDomain_empty hfile ((h "1".toList []).trans hnone)
    have hdiffer : (0 : ℤ) ≠ readPid (cstr "1".toList) := by decide
    exact hdiffer hone
  · intro hne x y
    cases hfile : sys.file (pidPath name) with
    | none => rw [setDomain_unread hfile, setDomain_unread hfile]
    | some s =>
        have hs : s.take (pidStringMax - 1) ≠ [] := by
          rw [ne_eq, List.take_eq_nil_iff, not_or]
          exact ⟨by decide, fun hnil => hne (hnil ▸ hfile)⟩
        refine setDomain_withStale ?_ ?_
        · rw [hfile, readFile_of_ne_nil hs, readFile_of_ne_nil hs]
        · rw [hfile, readFile_of_ne_nil hs, readFile_of_ne_nil hs, cstr_append, cstr_append]

/-! ### Both callers -/

/-- **What is parsed of a buffer is the file's own exactly where the file is not empty**, and
for a stat file where what is read does not end at the name; a buffer that `read_file` did not
write is a string only if it was one before. -/
theorem buffers_own_bytes_iff (content : Option Text) (bufsize : ℕ) (buf : Text) (arch : Arch)
    (monitorId : ℤ) (sys : Sys) (l : VcpuList) (name : Text) (dom : Domain) (t : Task) :
    (OwnBytes content bufsize (readFile content bufsize buf).1 (readFile content bufsize buf).2 ↔
        ∀ s, content = some s → s ≠ [] ∧ 2 ≤ bufsize ∨ buf[0]? = some nul) ∧
      ((∀ x y, setDomain arch monitorId (sys.withStale (pidPath name) x) l name dom =
          setDomain arch monitorId (sys.withStale (pidPath name) y) l name dom) ↔
        sys.file (pidPath name) ≠ some []) ∧
      ((∀ x y, getProcStat (sys.withStale (statPath t) x) t =
          getProcStat (sys.withStale (statPath t) y) t) ↔
        ∀ s, sys.file (statPath t) = some s → s ≠ [] ∧ ¬ EndsAtName (s.take (bufSize - 1))) :=
  ⟨readFile_ownBytes_iff content bufsize buf, setDomain_own_iff arch monitorId sys l name dom,
    getProcStat_own_iff sys t⟩

/-- **An empty file leaves the buffer as it was**, and `set_domain` reads a pid from it. -/
theorem readFile_empty :
    (¬ ∀ (content : Option Text) (bufsize : ℕ) (buf : Text), 1 ≤ bufsize →
        OwnBytes content bufsize (readFile content bufsize buf).1
          (readFile content bufsize buf).2) ∧
      ¬ ∀ (arch : Arch) (monitorId : ℤ) (sys : Sys) (l : VcpuList) (name : Text) (dom : Domain)
          (x y : Text), setDomain arch monitorId (sys.withStale (pidPath name) x) l name dom =
        setDomain arch monitorId (sys.withStale (pidPath name) y) l name dom := by
  constructor
  · intro h
    have hown := (readFile_ownBytes_iff _ _ _).1
      (h (some []) pidStringMax "123456789012".toList (by decide)) [] rfl
    exact absurd hown (by decide)
  · intro h
    have hhost : ({ hostSys 1 1 [] with file := fun _ => some [] } : Sys).file
        (pidPath "vm.pid".toList) = some [] := rfl
    exact (setDomain_own_iff .aarch64 (-1) _ ⟨fun _ => Task.zero, 0, Nat.zero_le _⟩ _
      Domain.zero).1 (h .aarch64 (-1) _ _ _ Domain.zero) hhost

end Vmtop
