/-
# How a pid file becomes a record

`set_domain` checks the pid and the id of a pid file (`checkedEntry`), and goes on with its
stat file and its threads only behind these checks.  Neither part looks at the list, so
an accepted record says where it comes from (`readEntry_eq_some`): cleared but for what the
checks and the stat file put into it, and with the threads that were read.
-/

import Vmtop.Refresh.Threads

namespace Vmtop

open CText CArray

variable {arch : Arch} {monitorId : ℤ} {sys : Sys} {l : VcpuList} {dom d : Domain} {name : Text}
  {entries : List Dirent} {r : ℤ}

/-- The record that `set_domain` goes on with once the pid and the id of an entry are
accepted. -/
def checkedEntry (monitorId : ℤ) (sys : Sys) (name : Text) : Option Domain :=
  let path := varRunQemuPath ++ '/' :: name
  let got := readFile (sys.file path) pidStringMax (sys.stale path)
  let pid := readPid (cstr got.2)
  let id := getIdFromCgroup sys pid
  if got.1 < 0 ∨ pid < 1 ∨ id < 0 ∨ (0 ≤ monitorId ∧ id ≠ monitorId) then none
  else some { Domain.zero with pid := pid, domainId := id }

/-- An entry that fails a check is rejected. -/
theorem setDomain_of_none (arch : Arch) (l : VcpuList)
    (h : checkedEntry monitorId sys name = none) :
    ∃ d, setDomain arch monitorId sys l name Domain.zero = .ok (-1, d) := by
  simp only [checkedEntry, ite_eq_left_iff, reduceCtorEq, imp_false, not_not] at h
  simp only [setDomain]
  split_ifs
  iterate 4 exact ⟨_, rfl⟩
  exact absurd h (by simp_all)

/-- An entry that passes them is loaded. -/
theorem setDomain_of_some (h : checkedEntry monitorId sys name = some dom) :
    setDomain arch monitorId sys l name Domain.zero = loadDomain arch sys l name dom := by
  simp only [checkedEntry] at h
  split_ifs at h with hcheck
  cases h
  simp only [not_or] at hcheck
  obtain ⟨hread, hpid, hid, hmonitor⟩ := hcheck
  simp only [setDomain]
  rw [if_neg hread, if_neg hpid, if_neg hid, if_neg hmonitor]

/-- What the checks leave is cleared but for the pid and the id. -/
theorem checkedEntry_eq (h : checkedEntry monitorId sys name = some dom) :
    dom = { Domain.zero with pid := dom.pid, domainId := dom.domainId } := by
  simp only [checkedEntry] at h
  split_ifs at h
  cases h
  rfl

/-- The record that the stat file of an accepted process makes; `none` when it is not
accepted. -/
def readProcess (monitorId : ℤ) (sys : Sys) (name : Text) : Option Domain :=
  (checkedEntry monitorId sys name).bind fun dom =>
    match getProcStat sys { dom.toTask with type := .isDomain } with
    | .ok (r, t) => if r < 0 then none else some { dom with toTask := t }
    | .error _ => none

/-- What the checks and the stat file leave cleared. -/
theorem readProcess_cleared (h : readProcess monitorId sys name = some dom) :
    dom.smpVcpus = 0 ∧ dom.stMax = 0 ∧ ∀ v, dom.delta v = 0 := by
  obtain ⟨dom₀, hcheck, h⟩ := Option.bind_eq_some_iff.1 h
  have hzero := checkedEntry_eq hcheck
  split at h
  · rename_i r t hstat
    split_ifs at h
    cases h
    have hframe := getProcStat_frame hstat
    refine ⟨?_, ?_, fun v => ?_⟩
    · exact hframe.smpVcpus.trans (by rw [hzero]; rfl)
    · exact hframe.stMax.trans (by rw [hzero]; rfl)
    · exact (congrFun hframe.delta v).trans (by rw [hzero]; rfl)
  · cases h

/-- **Where an accepted record comes from.** -/
theorem readEntry_eq_some {dirent : Dirent} :
    readEntry arch monitorId l (dirent, sys) = some d ↔
      ∃ dom r d', readProcess monitorId sys dirent.name = some dom ∧
        getChildPid arch sys l dom = .ok (r, d') ∧ 0 ≤ r ∧
        dirent.name.length < domainNameMax - 1 ∧
        { d' with vmname := dirent.name.take (dirent.name.length - ".pid".toList.length) } = d := by
  unfold readEntry readProcess
  cases hcheck : checkedEntry monitorId sys dirent.name with
  | none =>
      obtain ⟨d₀, hset⟩ := setDomain_of_none arch l hcheck
      simp [hset]
  | some dom =>
      rw [setDomain_of_some hcheck, Option.bind_some, loadDomain]
      cases getProcStat sys { dom.toTask with type := .isDomain } with
      | error e => simp [Bind.bind, Except.bind]
      | ok p =>
          obtain ⟨r, t⟩ := p
          rw [ok_bind]
          by_cases hr : r < 0
          · simp [hr]
          · simp only [hr, if_false, Option.some_inj, exists_and_left, exists_eq_left']
            cases getChildPid arch sys l { dom with toTask := t } with
            | error e => simp [Bind.bind, Except.bind]
            | ok q =>
                obtain ⟨r', d'⟩ := q
                rw [ok_bind]
                by_cases hr' : r' < 0
                · simp [hr', Int.not_le.2 hr']
                · by_cases hlen : domainNameMax - 1 ≤ dirent.name.length
                  · simp [hr', hlen]
                  · simp [hr', hlen, Int.not_lt.1 hr', Nat.not_le.1 hlen]

end Vmtop
