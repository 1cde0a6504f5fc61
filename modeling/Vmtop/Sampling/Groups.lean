/-
# Whose control group is read

The control group of a virtual machine is a directory `qemu-<id>-<vmname>-...`
(`CtlGroup`).  `get_vm_ctl_path` takes the first directory whose name begins with `qemu-`
and the digits of the id, and does not look at what follows the digits.  So it also
takes `qemu-10-...` for the domain `1`, and the group it chooses is the domain's own
exactly when no group of such an id stands before the groups of the domain
(`getVmCtlPath_own_iff`).
-/

import Vmtop.Resctrl

namespace Vmtop

open CText

/-- The name of a control group: `qemu-<id>-` and the rest. -/
def groupName (digits rest : Text) : Text := ctlGroupPrefix ++ (digits ++ '-' :: rest)

/-- A control group, as the resctrl file system lists it: `digits` is its `<id>`, `rest` its
name behind that, and the name of a directory has at most `NAME_MAX` characters. -/
structure CtlGroup where
  digits : Text
  rest : Text
  digits_ne_nil : digits ≠ []
  isDigit : ∀ c ∈ digits, c.isDigit = true
  length_le : (groupName digits rest).length ≤ 255

namespace CtlGroup

variable {g g' : CtlGroup} {d : ℤ}

/-- The name of the directory. -/
def name (g : CtlGroup) : Text := groupName g.digits g.rest

/-- The `<id>` as a number. -/
def id (g : CtlGroup) : ℕ := Nat.ofDigitChars 10 g.digits 0

/-- The directory of its counters. -/
def monData (g : CtlGroup) : Text :=
  snprintf vmtopGroupNameMax (resctrlFilesystemDir ++ '/' :: g.name ++ '/' :: monDataDir)

/-- The digits of an id end where they end in the name. -/
theorem takeWhile_digits (g : CtlGroup) :
    (g.digits ++ '-' :: g.rest).takeWhile Char.isDigit = g.digits := by
  rw [List.takeWhile_append_of_pos g.isDigit, List.takeWhile_cons_of_neg (by decide),
    List.append_nil]

/-- The name of a group determines its id. -/
theorem id_eq (h : g.name = g'.name) : g.id = g'.id := by
  have hbehind := List.append_cancel_left (h : ctlGroupPrefix ++ _ = ctlGroupPrefix ++ _)
  have hdigits := congrArg (List.takeWhile Char.isDigit) hbehind
  rw [takeWhile_digits, takeWhile_digits] at hdigits
  rw [id, id, hdigits]

/-- No path of a group is cut, so it determines the name. -/
theorem name_eq (h : g.monData = g'.monData) : g.name = g'.name := by
  have hwhole (g : CtlGroup) :
      g.monData = resctrlFilesystemDir ++ '/' :: g.name ++ '/' :: monDataDir := by
    have hdir : resctrlFilesystemDir.length = 15 ∧ monDataDir.length = 8 := by decide
    have hname : g.name.length ≤ 255 := g.length_le
    refine List.take_of_length_le ?_
    simp only [List.length_append, List.length_cons, hdir]
    unfold vmtopGroupNameMax
    omega
  rw [hwhole, hwhole] at h
  exact (List.cons.inj (List.append_cancel_left (List.append_cancel_right h))).2

/-- **What the comparison of names sees**: whether the `<id>` begins with the digits of the
domain's. -/
theorem isPrefixOf_iff :
    (ctlGroupPrefix ++ decimalInt d).isPrefixOf g.name = true ↔ decimalInt d <+: g.digits := by
  rw [List.isPrefixOf_iff_prefix, name, groupName, List.prefix_append_right_inj]
  constructor
  · intro h
    rcases Nat.lt_or_ge g.digits.length (decimalInt d).length with hlt | hle
    · -- the digits of the domain would reach past those of the group, to the dash
      have hdash : g.digits ++ ['-'] <+: decimalInt d := by
        refine List.prefix_of_prefix_length_le ?_ h (by simpa using hlt)
        rw [List.prefix_append_right_inj]
        exact ⟨g.rest, rfl⟩
      have hmem : '-' ∈ decimalInt d := hdash.subset (by simp)
      obtain ⟨c, ds, hds⟩ := List.exists_cons_of_ne_nil g.digits_ne_nil
      have hc : c.isDigit = true := g.isDigit c (by rw [hds]; exact List.mem_cons_self)
      unfold decimalInt at hdash hmem
      split_ifs at hdash hmem with hneg
      · rw [hds, List.cons_append, List.cons_prefix_cons] at hdash
        rw [hdash.1] at hc
        exact absurd hc (by decide)
      · exact absurd hmem (notMem_decimal rfl)
    · exact List.prefix_of_prefix_length_le h (List.prefix_append _ _) hle
  · exact fun h => h.trans (List.prefix_append _ _)

end CtlGroup

/-- The group that `get_vm_ctl_path` chooses is one of the domain `d`. -/
def OwnGroup (fs : MonFs) (names : List Text) (d : ℤ) : Prop :=
  ∀ path, getVmCtlPath fs d = some path →
    ∃ g : CtlGroup, g.name ∈ names ∧ path = g.monData ∧ (g.id : ℤ) = d

/-- A group of another domain whose id begins with the digits of `d` stands behind one of
`d`. -/
def Unshadowed (names : List Text) (d : ℤ) : Prop :=
  ∀ before (g : CtlGroup) after, names = before ++ g.name :: after →
    decimalInt d <+: g.digits → (g.id : ℤ) ≠ d →
    ∃ g' : CtlGroup, g'.name ∈ before ∧ decimalInt d <+: g'.digits ∧ (g'.id : ℤ) = d

variable {fs : MonFs} {names : List Text} {d : ℤ}

/-- The path is that of the first group whose id begins with the digits. -/
theorem getVmCtlPath_eq_some_iff (hdir : fs.dir resctrlFilesystemDir = some names)
    (hgroups : ∀ name ∈ names, ctlGroupPrefix <+: name → ∃ g : CtlGroup, g.name = name)
    (path : Text) :
    getVmCtlPath fs d = some path ↔ ∃ before, ∃ g : CtlGroup, ∃ after,
      names = before ++ g.name :: after ∧ decimalInt d <+: g.digits ∧ path = g.monData ∧
      ∀ g' : CtlGroup, g'.name ∈ before → ¬ decimalInt d <+: g'.digits := by
  rw [getVmCtlPath, hdir, Option.bind_some, Option.map_eq_some_iff]
  constructor
  · rintro ⟨name, hfind, rfl⟩
    obtain ⟨hname, before, after, rfl, hbefore⟩ := List.find?_eq_some_iff_append.1 hfind
    obtain ⟨g, rfl⟩ := hgroups name (by simp)
      ((List.prefix_append _ _).trans (List.isPrefixOf_iff_prefix.1 hname))
    refine ⟨before, g, after, rfl, CtlGroup.isPrefixOf_iff.1 hname, rfl, fun g' hg' hpre => ?_⟩
    have hnot := hbefore g'.name hg'
    rw [CtlGroup.isPrefixOf_iff.2 hpre] at hnot
    cases hnot
  · rintro ⟨before, g, after, rfl, hpre, rfl, hbefore⟩
    refine ⟨g.name, List.find?_eq_some_iff_append.2
      ⟨CtlGroup.isPrefixOf_iff.2 hpre, before, after, rfl, fun name hname => ?_⟩, rfl⟩
    by_contra hnot
    rw [Bool.not_eq_true', Bool.not_eq_false] at hnot
    obtain ⟨g', rfl⟩ := hgroups name (List.mem_append_left _ hname)
      ((List.prefix_append _ _).trans (List.isPrefixOf_iff_prefix.1 hnot))
    exact hbefore g' hname (CtlGroup.isPrefixOf_iff.1 hnot)

/-- The first group whose id begins with the digits is one of the domain, if none shadows
those. -/
theorem ownGroup_of_unshadowed (hdir : fs.dir resctrlFilesystemDir = some names)
    (hgroups : ∀ name ∈ names, ctlGroupPrefix <+: name → ∃ g : CtlGroup, g.name = name)
    (h : Unshadowed names d) : OwnGroup fs names d := by
  intro path hpath
  obtain ⟨before, g, after, hnames, hpre, rfl, hfirst⟩ :=
    (getVmCtlPath_eq_some_iff hdir hgroups path).1 hpath
  refine ⟨g, by simp [hnames], rfl, ?_⟩
  by_contra hid
  obtain ⟨g', hg', hpre', -⟩ := h before g after hnames hpre hid
  exact hfirst g' hg' hpre'

/-- A group whose id begins with the digits makes the search succeed. -/
theorem exists_getVmCtlPath (hdir : fs.dir resctrlFilesystemDir = some names) {g : CtlGroup}
    (hmem : g.name ∈ names) (hpre : decimalInt d <+: g.digits) :
    ∃ path, getVmCtlPath fs d = some path := by
  have hsome : (names.find? fun name => (ctlGroupPrefix ++ decimalInt d).isPrefixOf name).isSome :=
    List.find?_isSome.2 ⟨g.name, hmem, CtlGroup.isPrefixOf_iff.2 hpre⟩
  obtain ⟨name, hname⟩ := Option.isSome_iff_exists.1 hsome
  exact ⟨_, by rw [getVmCtlPath, hdir, Option.bind_some, hname, Option.map_some]⟩

/-- And if that first group is one of the domain, it stands before those that could shadow
it. -/
theorem unshadowed_of_ownGroup (hdir : fs.dir resctrlFilesystemDir = some names)
    (hgroups : ∀ name ∈ names, ctlGroupPrefix <+: name → ∃ g : CtlGroup, g.name = name)
    (h : OwnGroup fs names d) : Unshadowed names d := by
  intro before g after hnames hpre hid
  obtain ⟨path, hpath⟩ := exists_getVmCtlPath hdir (g := g) (by simp [hnames]) hpre
  obtain ⟨before₀, g₀, after₀, hnames₀, hpre₀, hpath₀, hfirst⟩ :=
    (getVmCtlPath_eq_some_iff hdir hgroups path).1 hpath
  obtain ⟨g₁, -, hpath₁, hid₁⟩ := h path hpath
  have hid₀ : (g₀.id : ℤ) = d := by
    rw [CtlGroup.id_eq (CtlGroup.name_eq (hpath₀.symm.trans hpath₁)), hid₁]
  -- the chosen group stands before `g`, or `g` before it
  rw [hnames₀, List.append_eq_append_iff] at hnames
  rcases hnames with ⟨between, rfl, hrest⟩ | ⟨between, rfl, hrest⟩
  · cases between with
    | nil =>
        have hname : g₀.name = g.name := (List.cons.inj hrest).1
        exact absurd (CtlGroup.id_eq hname ▸ hid₀) hid
    | cons name between =>
        have hname : g₀.name = name := (List.cons.inj hrest).1
        exact ⟨g₀, by simp [hname], hpre₀, hid₀⟩
  · cases between with
    | nil =>
        have hname : g.name = g₀.name := (List.cons.inj hrest).1
        exact absurd (CtlGroup.id_eq hname ▸ hid₀) hid
    | cons name between =>
        have hname : g.name = name := (List.cons.inj hrest).1
        exact absurd hpre (hfirst g (by simp [hname]))

/-- **The group that is chosen is the domain's own exactly when no group of an id that only
begins with its digits stands before those of the domain.**  Then no two domains read the
same group. -/
theorem getVmCtlPath_own_iff (hdir : fs.dir resctrlFilesystemDir = some names)
    (hgroups : ∀ name ∈ names, ctlGroupPrefix <+: name → ∃ g : CtlGroup, g.name = name) (d : ℤ) :
    (OwnGroup fs names d ↔ Unshadowed names d) ∧
      ∀ d' path, Unshadowed names d → Unshadowed names d' →
        getVmCtlPath fs d = some path → getVmCtlPath fs d' = some path → d = d' := by
  refine ⟨⟨unshadowed_of_ownGroup hdir hgroups, ownGroup_of_unshadowed hdir hgroups⟩, ?_⟩
  intro d' path h h' hpath hpath'
  obtain ⟨g, -, hg, rfl⟩ := ownGroup_of_unshadowed hdir hgroups h path hpath
  obtain ⟨g', -, hg', rfl⟩ := ownGroup_of_unshadowed hdir hgroups h' path hpath'
  rw [CtlGroup.id_eq (CtlGroup.name_eq (hg.symm.trans hg'))]

/-- The group of a domain, as libvirt names it. -/
def vmGroup (id : ℕ) (hid : id < 2 ^ 31) : CtlGroup where
  digits := decimal id
  rest := "vm-0".toList
  digits_ne_nil := Nat.toDigits_ne_nil
  isDigit _ hc := isDigit_of_mem_decimal hc
  length_le := by
    have hlen : (decimal id).length ≤ 10 :=
      (Nat.length_toDigits_le_iff (by decide) (by decide)).2 (by omega)
    have hprefix : ctlGroupPrefix.length = 5 ∧ "vm-0".toList.length = 4 := by decide
    simp only [groupName, List.length_append, List.length_cons, hprefix]
    omega

/-- The names of the control groups of the domains `ids`, in that order. -/
def groupNames (ids : List (Fin (2 ^ 31))) : List Text :=
  ids.map fun id : Fin (2 ^ 31) => (vmGroup id.val id.isLt).name

/-- A resctrl file system with these groups. -/
def groupsOf (ids : List (Fin (2 ^ 31))) : MonFs where
  dir _ := some (groupNames ids)
  fopen _ := none

theorem exists_groupsOf (ids : List (Fin (2 ^ 31))) :
    ∀ name ∈ groupNames ids, ctlGroupPrefix <+: name → ∃ g : CtlGroup, g.name = name := by
  intro name hname _
  obtain ⟨id, -, rfl⟩ := List.mem_map.1 hname
  exact ⟨_, rfl⟩

/-- A domain reads its own group where that stands first. -/
theorem getVmCtlPath_own_iff_first :
    OwnGroup (groupsOf [1, 10]) (groupNames [1, 10]) 1 := by
  have hid₁ : (vmGroup 1 (by decide)).id = 1 := by decide
  refine ((getVmCtlPath_own_iff rfl (exists_groupsOf [1, 10]) 1).1).2 ?_
  intro before g after hnames hpre hid
  cases before with
  | nil =>
      have hname : g.name = (vmGroup 1 (by decide)).name := (List.cons.inj hnames).1.symm
      rw [CtlGroup.id_eq hname, hid₁] at hid
      exact absurd rfl hid
  | cons name before =>
      have hname : name = (vmGroup 1 (by decide)).name := (List.cons.inj hnames).1.symm
      exact ⟨vmGroup 1 (by decide), by simp [hname], by decide, by rw [hid₁]; rfl⟩

/-- **The domain `1` reads the group of the domain `10`** where that stands first. -/
theorem getVmCtlPath_own_shadowed : ¬ ∀ (fs : MonFs) (names : List Text) (d : ℤ),
    fs.dir resctrlFilesystemDir = some names →
    (∀ name ∈ names, ctlGroupPrefix <+: name → ∃ g : CtlGroup, g.name = name) →
    OwnGroup fs names d := by
  intro h
  have hpath : getVmCtlPath (groupsOf [10, 1]) 1 = some (vmGroup 10 (by decide)).monData := by
    decide +kernel
  obtain ⟨g, -, hg, hid⟩ := h (groupsOf [10, 1]) _ 1 rfl (exists_groupsOf [10, 1]) _ hpath
  rw [← CtlGroup.id_eq (CtlGroup.name_eq hg)] at hid
  revert hid
  decide

end Vmtop
