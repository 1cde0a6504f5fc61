/-
# Malformed stat files

`get_proc_stat` makes one check, on the length of the name, and drops the count that `sscanf`
returns.  So it vouches for the record exactly where the length is rejected or the file is
complete (`getProcStat_vetted_iff`): a file that ends before its last field is accepted all
the same, with the fields it does not reach as they were, and where there is no `(` the length
is computed from a null pointer.
-/

import Vmtop.Refresh.Buffers

namespace Vmtop

open CText CArray

variable {sys : Sys} {t : Task} {base : ℤ} {mem got s : Text}

/-! ### What a stat file is trusted for -/

/-- The fields that `get_proc_stat` fills in. -/
structure ScannedFields where
  vmname : Text
  state : Char
  ppid : ℤ
  pgrd : ℤ
  flags : U64
  minFlt : U64
  cminFlt : U64
  majFlt : U64
  cmajFlt : U64
  utime : U64
  stime : U64
  cutime : U64
  cstime : U64
  nlwp : ℤ
  alarm : ℤ
  startTime : U64
  vsize : U64
  rss : ℤ
  rssRlim : U64
  processor : ℤ

def Task.scannedFields (t : Task) : ScannedFields where
  vmname := t.vmname
  state := t.state
  ppid := t.ppid
  pgrd := t.pgrd
  flags := t.flags
  minFlt := t.minFlt
  cminFlt := t.cminFlt
  majFlt := t.majFlt
  cmajFlt := t.cmajFlt
  utime := t.dfx .utime
  stime := t.dfx .stime
  cutime := t.cutime
  cstime := t.cstime
  nlwp := t.nlwp
  alarm := t.alarm
  startTime := t.startTime
  vsize := t.vsize
  rss := t.rss
  rssRlim := t.rssRlim
  processor := t.processor

/-- The `(` was found, and the `)` where the length computed from it passes. -/
def PointersFound (base : ℤ) (buf : Text) : Prop :=
  strrchr '(' buf ≠ none ∧ (¬ Rejected (nameLength base buf) → strrchr ')' buf ≠ none)

/-- There is a `(`, and a `)` behind it. -/
def HasName (got : Text) : Prop :=
  ∃ i j : ℕ, i < j ∧ got[i]? = some '(' ∧ got[j]? = some ')'

/-- Every field of the record is taken from the file: the same values come out whatever the
record and the buffer held before. -/
def AllAssigned (sys : Sys) (t : Task) : Prop :=
  ∃ f : ScannedFields, ∀ (x : Text) (t' : Task), statPath t' = statPath t →
    ∃ u, getProcStat (sys.withStale (statPath t) x) t' = .ok (1, u) ∧ u.scannedFields = f

/-- What a caller of `get_proc_stat` may rely on. -/
structure Vetted (sys : Sys) (t : Task) : Prop where
  outcome : getProcStat sys t = .ok (-1, t) ∨
    (∃ s, sys.file (statPath t) = some s ∧ HasName (s.take (bufSize - 1))) ∧ AllAssigned sys t
  pointers : ∀ s, sys.file (statPath t) = some s → PointersFound (sys.base (statPath t))
    (cstr (readFile (some s) bufSize (sys.stale (statPath t))).2)

/-- The buffer has a name that is rejected, or one behind which every field is in the bytes
`got` of the file. -/
def StatComplete (base : ℤ) (mem got : Text) : Prop :=
  strrchr '(' (cstr mem) ≠ none ∧ (¬ Rejected (nameLength base (cstr mem)) →
    ∃ j, strrchr ')' (cstr mem) = some j ∧
      (scanValues statFormat (cstr (got.drop (j + 2)))).isSome = true)

/-! ### The scan of the fields -/

/-- A complete scan fills in every field. -/
theorem scannedFields_scan {vs : List ℤ} (h : scanValues statFormat s = some vs) {t t' : Task}
    (hname : t.vmname = t'.vmname) :
    (sscanf statFormat s t).scannedFields = (sscanf statFormat s t').scannedFields := by
  rw [sscanf_of_scanValues h, sscanf_of_scanValues h]
  have hfields (r : Task) : (storeAll statFormat vs r).scannedFields =
      { (storeAll statFormat vs Task.zero).scannedFields with vmname := r.vmname } := rfl
  rw [hfields, hfields t', hname]

/-- One that is not does not reach the last. -/
theorem processor_scan (h : scanValues statFormat s = none) (t : Task) :
    (sscanf statFormat s t).processor = t.processor := by
  have hlast : statFormat = statFormat.dropLast ++
      [.into .int fun n t => { t with processor := n }] := rfl
  have hkeeps : ∀ d ∈ statFormat.dropLast, d.Keeps fun r : Task => r.processor = t.processor := by
    simp only [statFormat, List.intersperse, List.dropLast, List.forall_mem_cons,
      Directive.Keeps, true_and]
    simp
  rw [hlast] at h ⊢
  exact sscanf_of_scanValues_none hkeeps h rfl

/-! ### The parser -/

/-- A string is the beginning of its buffer. -/
theorem getElem?_of_cstr {i : ℕ} {c : Char} (h : (cstr got)[i]? = some c) : got[i]? = some c := by
  obtain ⟨hlt, hc⟩ := List.getElem?_eq_some_iff.1 h
  have hstart : cstr got <+: got := List.takeWhile_prefix _
  rw [hstart.getElem hlt] at hc
  exact List.getElem?_eq_some_iff.2 ⟨_, hc⟩

/-- Behind a `)` that was read, the scan of a buffer that is cut there is the file's. -/
theorem cstr_drop_append_nul {j : ℕ} (hj : j < got.length) :
    cstr ((got ++ [nul]).drop (j + 2)) = cstr (got.drop (j + 2)) := by
  rcases Nat.lt_or_ge (j + 1) got.length with h | h
  · rw [List.drop_append_of_le_length (by omega), cstr_append]
  · rw [List.drop_eq_nil_of_le (by simp; omega), List.drop_eq_nil_of_le (by omega)]

/-- A file that is cut off is accepted with the last field as it was. -/
theorem parseStat_incomplete {i j : ℕ} (hrej : ¬ Rejected (nameLength base (cstr got)))
    (hi : strrchr '(' (cstr got) = some i) (hj : strrchr ')' (cstr got) = some j)
    (hscan : scanValues statFormat (cstr (got.drop (j + 2))) = none)
    (t : Task) :
    ∃ u, parseStat base (got ++ [nul]) t = .ok (1, u) ∧ u.processor = t.processor := by
  have hcstr := cstr_append got []
  have hjlt : j < got.length := (lt_of_strrchr hj).trans_le (length_cstr_le got)
  refine ⟨_, parseStat_of_accepted (hcstr.symm ▸ hrej) (hcstr.symm ▸ hi) (hcstr.symm ▸ hj) t, ?_⟩
  rw [cstr_drop_append_nul hjlt]
  exact processor_scan hscan _

/-- A complete one gives every field its value. -/
theorem parseStat_complete {i j : ℕ} (hrej : ¬ Rejected (nameLength base (cstr got)))
    (hi : strrchr '(' (cstr got) = some i) (hj : strrchr ')' (cstr got) = some j)
    {vs : List ℤ} (hscan : scanValues statFormat (cstr (got.drop (j + 2))) = some vs) (x : Text)
    (t : Task) : ∃ u, parseStat base (got ++ nul :: x) t = .ok (1, u) ∧
      u.scannedFields = (storeAll statFormat vs { Task.zero with
        vmname := ((cstr got).drop (i + 1)).take
          (nameLength base (cstr got)).toNat }).scannedFields := by
  have hwithin : j + 2 ≤ got.length := by
    by_contra hlast
    rw [List.drop_eq_nil_of_le (by omega)] at hscan
    cases hscan
  have hcstr := cstr_append got x
  refine ⟨_, parseStat_of_accepted (hcstr.symm ▸ hrej) (hcstr.symm ▸ hi) (hcstr.symm ▸ hj) t, ?_⟩
  rw [List.drop_append_of_le_length hwithin, cstr_append, hcstr, ← sscanf_of_scanValues hscan]
  exact scannedFields_scan hscan rfl

/-! ### The call -/

/-- A file that can be read is parsed, whatever the buffer held before. -/
theorem getProcStat_of_some (hfile : sys.file (statPath t) = some s) (x : Text) {t' : Task}
    (hpath : statPath t' = statPath t) : getProcStat (sys.withStale (statPath t) x) t' =
      parseStat (sys.base (statPath t)) (readFile (some s) bufSize x).2 t' := by
  have hread : ¬ (readFile (some s) bufSize x).1 < 0 := by
    by_cases hnil : s.take (bufSize - 1) = []
    · rw [readFile_of_nil hnil]
      exact lt_irrefl 0
    · rw [readFile_of_ne_nil hnil]
      exact Int.not_lt.2 (Int.natCast_nonneg _)
  rw [← hpath, getProcStat_withStale, hpath, hfile, if_neg hread]

/-- The file is complete, if the call is vetted. -/
theorem complete_of_vetted (h : Vetted sys t) (hfile : sys.file (statPath t) = some s) :
    StatComplete (sys.base (statPath t)) (readFile (some s) bufSize (sys.stale (statPath t))).2
      (s.take (bufSize - 1)) := by
  obtain ⟨hleft, hright⟩ := h.pointers s hfile
  refine ⟨hleft, fun hrej => ?_⟩
  obtain ⟨i, hi⟩ := Option.ne_none_iff_exists'.1 hleft
  obtain ⟨j, hj⟩ := Option.ne_none_iff_exists'.1 (hright hrej)
  refine ⟨j, hj, ?_⟩
  have hparse := getProcStat_of_some hfile (sys.stale (statPath t)) rfl
  rw [withStale_self, parseStat_of_accepted hrej hi hj] at hparse
  rcases h.outcome with hrejected | ⟨⟨s', hs', hname⟩, f, hall⟩
  · rw [hrejected] at hparse
    cases hparse
  · cases hs'.symm.trans hfile
    have hne : s.take (bufSize - 1) ≠ [] := by
      obtain ⟨i, j, -, hi, -⟩ := hname
      intro hnil
      rw [hnil] at hi
      cases hi
    rw [readFile_of_ne_nil hne, cstr_append] at hi hj hrej
    by_contra hscan
    rw [Bool.not_eq_true, Option.isSome_eq_false_iff, Option.isNone_iff_eq_none] at hscan
    -- a record whose last field is another keeps it
    have hother : statPath { t with processor := f.processor + 1 } = statPath t := rfl
    obtain ⟨u, hu, hfields⟩ := hall [] _ hother
    rw [getProcStat_of_some hfile [] hother, readFile_of_ne_nil hne, List.drop_nil] at hu
    obtain ⟨u', hu', hkept⟩ :=
      parseStat_incomplete hrej hi hj hscan { t with processor := f.processor + 1 }
    cases hu.symm.trans hu'
    have hprocessor : u.processor = f.processor := congrArg ScannedFields.processor hfields
    rw [hprocessor] at hkept
    exact absurd hkept (by simp)

/-- And the other way round. -/
theorem vetted_of_complete (hcomplete : ∀ s, sys.file (statPath t) = some s →
    StatComplete (sys.base (statPath t)) (readFile (some s) bufSize (sys.stale (statPath t))).2
      (s.take (bufSize - 1))) : Vetted sys t := by
  refine ⟨?_, fun s hfile => ⟨(hcomplete s hfile).1, fun hrej => ?_⟩⟩
  · cases hfile : sys.file (statPath t) with
    | none =>
        left
        rw [getProcStat, hfile]
        rfl
    | some s =>
        obtain ⟨hleft, hright⟩ := hcomplete s hfile
        by_cases hrej : Rejected (nameLength (sys.base (statPath t))
            (cstr (readFile (some s) bufSize (sys.stale (statPath t))).2))
        · have hparse := getProcStat_of_some hfile (sys.stale (statPath t)) rfl
          rw [withStale_self, parseStat_of_rejected hrej] at hparse
          exact Or.inl hparse
        · obtain ⟨i, hi⟩ := Option.ne_none_iff_exists'.1 hleft
          obtain ⟨j, hj, hscan⟩ := hright hrej
          obtain ⟨vs, hvs⟩ := Option.isSome_iff_exists.1 hscan
          have hne : s.take (bufSize - 1) ≠ [] := by
            intro hnil
            rw [hnil, List.drop_nil] at hvs
            cases hvs
          rw [readFile_of_ne_nil hne, cstr_append] at hi hj hrej
          have hcstr := length_cstr_le (s.take (bufSize - 1))
          have hlen : (s.take (bufSize - 1)).length < 2 ^ 31 :=
            (List.length_take_le _ _).trans_lt (by decide)
          have hname := (not_rejected_iff _ hi hj (hcstr.trans_lt hlen)).1 hrej
          right
          refine ⟨⟨s, rfl, i, j, hname.1, getElem?_of_cstr (getElem?_of_strrchr hi),
            getElem?_of_cstr (getElem?_of_strrchr hj)⟩, ?_⟩
          · have hparse := parseStat_complete hrej hi hj hvs
            exact ⟨_, fun x t' hpath => by
              rw [getProcStat_of_some hfile x hpath, readFile_of_ne_nil hne]
              exact hparse _ t'⟩
  · obtain ⟨j, hj, -⟩ := (hcomplete s hfile).2 hrej
    rw [hj]
    exact Option.some_ne_none j

/-- **`get_proc_stat` vouches for the record exactly where the name is rejected or the file is
complete.** -/
theorem getProcStat_vetted_iff (sys : Sys) (t : Task) :
    Vetted sys t ↔ ∀ s, sys.file (statPath t) = some s →
      StatComplete (sys.base (statPath t)) (readFile (some s) bufSize (sys.stale (statPath t))).2
        (s.take (bufSize - 1)) :=
  ⟨fun h _ hfile => complete_of_vetted h hfile, vetted_of_complete⟩

/-- **A file that ends behind the state is accepted.** -/
theorem getProcStat_cutOff : ¬ ∀ (sys : Sys) (t : Task), Vetted sys t := by
  intro h
  have hcomplete := (getProcStat_vetted_iff _ Task.zero).1
    (h { hostSys 1 1 [] with file := fun _ => some "1 (a) S".toList } Task.zero) _ rfl
  have hrej : ¬ Rejected (nameLength 0 "1 (a) S".toList) := by
    have hi : strrchr '(' "1 (a) S".toList = some 2 := by decide
    have hj : strrchr ')' "1 (a) S".toList = some 4 := by decide
    exact (not_rejected_iff 0 hi hj (by decide)).2 ⟨by decide, by decide⟩
  obtain ⟨j, hj, hscan⟩ := hcomplete.2 hrej
  have hj' : strrchr ')' (cstr "1 (a) S".toList) = some 4 := by decide
  cases hj.symm.trans hj'
  exact absurd hscan (by decide)

end Vmtop
