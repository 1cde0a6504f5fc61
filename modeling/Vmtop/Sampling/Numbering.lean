/-
# How the nodes are numbered

`get_numa_num` takes the largest number that `atoi` reads behind `mon_MB_` in a name of the
listing, and `get_mon_MB` makes the names up again, two digits for every number up to it.
The two agree on the directories exactly where every counted name has two digits and comes
with the name of the number below (`getNumaNum_opens_iff`).
-/

import Vmtop.Sampling.Subscripts

namespace Vmtop

open CText CArray

variable {fs : MonFs} {names : List Text} {name : Text}

/-! ### The names -/

/-- The number that `get_numa_num` reads in a name. -/
def nodeId (name : Text) : ℤ := atoi (name.drop monDataPrefix.length)

/-- A name of the listing that `get_numa_num` counts. -/
def CountedDir (name : Text) : Prop :=
  monDataPrefix <+: name ∧ 0 ≤ nodeId name ∧ nodeId name < maxNodeNum

/-- The directory that `get_mon_MB` looks for, `mon_MB_%02d`. -/
def nodeDir (node : ℕ) : Text := monDataPrefix ++ decimal2 node

/-- The directories of `k` nodes are those of the listing that are counted. -/
def OpensListed (names : List Text) (k : ℤ) : Prop :=
  ∀ name, (∃ node : ℕ, (node : ℤ) < k ∧ name = nodeDir node) ↔ name ∈ names ∧ CountedDir name

/-- Every counted name has two digits, and the number below has its name in the listing. -/
structure Gapless (names : List Text) : Prop where
  two_digits : ∀ name ∈ names, CountedDir name →
    ∃ a b : Char, a.isDigit = true ∧ b.isDigit = true ∧ name = monDataPrefix ++ [a, b]
  below : ∀ name ∈ names, CountedDir name → ∀ node : ℕ, nodeId name = node + 1 →
    nodeDir node ∈ names

/-! ### Two digits -/

theorem mem_digits {c : Char} (hc : c.isDigit = true) : c ∈ "0123456789".toList := by
  obtain ⟨hlow, hhigh⟩ := isDigit_iff.1 hc
  have hall : ∀ n ≤ 57, 48 ≤ n → Char.ofNat n ∈ "0123456789".toList := by decide
  rw [← Char.ofNat_toNat c]
  exact hall c.toNat hhigh hlow

/-- Two digits are printed as they were read. -/
theorem decimal2_atoi {a b : Char} (ha : a.isDigit = true) (hb : b.isDigit = true) :
    decimal2 (atoi [a, b]).toNat = [a, b] := by
  have hall : ("0123456789".toList.all fun a => "0123456789".toList.all fun b =>
      decimal2 (atoi [a, b]).toNat == [a, b]) = true := by decide +kernel
  have ha := List.all_eq_true.1 hall a (mem_digits ha)
  exact beq_iff_eq.1 (List.all_eq_true.1 ha b (mem_digits hb))

/-- The name of a node is counted as its number, and has two digits. -/
theorem countedDir_nodeDir {node : ℕ} (h : node < maxNodeNum) :
    CountedDir (nodeDir node) ∧ nodeId (nodeDir node) = node ∧
      ∃ a b : Char, a.isDigit = true ∧ b.isDigit = true ∧
        nodeDir node = monDataPrefix ++ [a, b] := by
  have hall : ∀ node < maxNodeNum, atoi (decimal2 node) = node ∧ (decimal2 node).length = 2 ∧
      (decimal2 node).all Char.isDigit = true := by decide +kernel
  obtain ⟨hatoi, hlength, hdigits⟩ := hall node h
  rw [List.all_eq_true] at hdigits
  have hid : nodeId (nodeDir node) = node := by rw [nodeId, nodeDir, List.drop_left, hatoi]
  obtain ⟨a, b, hab⟩ := List.length_eq_two.1 hlength
  rw [hab] at hdigits
  refine ⟨⟨List.prefix_append _ _, ?_⟩, hid, a, b, hdigits a (by simp), hdigits b (by simp), ?_⟩
  · rw [hid]
    omega
  · rw [nodeDir, hab]

/-- A counted name with two digits is the name of its node. -/
theorem eq_nodeDir {a b : Char} (ha : a.isDigit = true) (hb : b.isDigit = true)
    (hname : name = monDataPrefix ++ [a, b]) : name = nodeDir (nodeId name).toNat := by
  subst hname
  rw [nodeDir, nodeId, List.drop_left, decimal2_atoi ha hb]

/-! ### The largest number -/

/-- One turn of the loop. -/
theorem maxNodeStep_of_counted (h : CountedDir name) (maxNode : ℤ) :
    maxNodeStep maxNode name = max maxNode (nodeId name) := by
  obtain ⟨hname, hlow, hhigh⟩ := h
  unfold nodeId at hlow hhigh ⊢
  rw [maxNodeStep, if_pos (List.isPrefixOf_iff_prefix.2 hname)]
  dsimp only
  rw [if_neg (by omega)]
  split_ifs <;> omega

theorem maxNodeStep_of_not_counted (h : ¬ CountedDir name) (maxNode : ℤ) :
    maxNodeStep maxNode name = maxNode := by
  rw [maxNodeStep]
  split_ifs with hname
  · dsimp only
    rw [if_pos]
    by_contra hrange
    rw [not_or, Int.not_lt, Int.not_le] at hrange
    exact h ⟨List.isPrefixOf_iff_prefix.1 hname, hrange⟩
  · rfl

/-- **The loop finds the largest number**: it is no less than that of any counted name, and
that of one if there is any. -/
theorem foldl_maxNodeStep (names : List Text) (m : ℤ) :
    m ≤ names.foldl maxNodeStep m ∧
      (∀ name ∈ names, CountedDir name → nodeId name ≤ names.foldl maxNodeStep m) ∧
      (names.foldl maxNodeStep m = m ∨
        ∃ name ∈ names, CountedDir name ∧ nodeId name = names.foldl maxNodeStep m) := by
  induction names generalizing m with
  | nil => simp
  | cons name names ih =>
      obtain ⟨hle, hall, hattained⟩ := ih (maxNodeStep m name)
      rw [List.foldl_cons, List.forall_mem_cons]
      by_cases hname : CountedDir name
      · have hstep := maxNodeStep_of_counted hname m
        refine ⟨by omega, ⟨fun _ => by omega, hall⟩, ?_⟩
        rcases hattained with heq | ⟨other, hmem, hother⟩
        · rcases max_choice m (nodeId name) with hmax | hmax
          · exact Or.inl (by omega)
          · exact Or.inr ⟨name, List.mem_cons_self, hname, by omega⟩
        · exact Or.inr ⟨other, List.mem_cons_of_mem _ hmem, hother⟩
      · rw [maxNodeStep_of_not_counted hname] at hle hall hattained ⊢
        refine ⟨hle, ⟨fun h => absurd h hname, hall⟩, hattained.imp_right ?_⟩
        rintro ⟨other, hmem, hother⟩
        exact ⟨other, List.mem_cons_of_mem _ hmem, hother⟩

/-! ### The directories that are opened -/

/-- Below a number that has its name, every number has. -/
theorem Gapless.nodeDir_mem (h : Gapless names) {node : ℕ} (hnode : node < maxNodeNum)
    (hmem : nodeDir node ∈ names) : ∀ n ≤ node, nodeDir n ∈ names := by
  induction node with
  | zero =>
      intro n hn
      obtain rfl : n = 0 := by omega
      exact hmem
  | succ node ih =>
      obtain ⟨hcounted, hid, -⟩ := countedDir_nodeDir hnode
      have hbelow := h.below _ hmem hcounted node (by rw [hid, Nat.cast_succ])
      intro n hn
      rcases Nat.of_le_succ hn with hn | rfl
      · exact ih (by omega) hbelow n hn
      · exact hmem

/-- **The directories that are opened are those that are listed exactly where the counted names
have two digits and leave no number out.** -/
theorem opensListed_iff (names : List Text) :
    OpensListed names (names.foldl maxNodeStep (-1) + 1) ↔ Gapless names := by
  obtain ⟨-, hle, hattained⟩ := foldl_maxNodeStep names (-1)
  have hbounds := foldl_maxNodeStep_bounds names
  constructor
  · intro h
    refine ⟨fun name hname hcounted => ?_, fun name hname hcounted node hid => ?_⟩
    · obtain ⟨node, hlt, rfl⟩ := (h name).2 ⟨hname, hcounted⟩
      exact (countedDir_nodeDir (by omega)).2.2
    · have hmax := hle name hname hcounted
      exact ((h (nodeDir node)).1 ⟨node, by omega, rfl⟩).1
  · intro h name
    constructor
    · rintro ⟨node, hlt, rfl⟩
      obtain ⟨top, htop, hcounted, hid⟩ := hattained.resolve_left (by omega)
      obtain ⟨a, b, ha, hb, hab⟩ := h.two_digits top htop hcounted
      rw [eq_nodeDir ha hb hab] at htop
      exact ⟨h.nodeDir_mem (by omega) htop node (by omega), (countedDir_nodeDir (by omega)).1⟩
    · rintro ⟨hname, hcounted⟩
      obtain ⟨a, b, ha, hb, hab⟩ := h.two_digits name hname hcounted
      have hmax := hle name hname hcounted
      have hlow := hcounted.2.1
      exact ⟨(nodeId name).toNat, by omega, eq_nodeDir ha hb hab⟩

/-- The nodes from `0` on, in the order of their numbers. -/
theorem gapless_range {k : ℕ} (hk : k ≤ maxNodeNum) : Gapless ((List.range k).map nodeDir) := by
  refine ⟨fun name hname _ => ?_, fun name hname _ node hid => ?_⟩
  · obtain ⟨n, hn, rfl⟩ := List.mem_map.1 hname
    rw [List.mem_range] at hn
    exact (countedDir_nodeDir (by omega)).2.2
  · obtain ⟨n, hn, rfl⟩ := List.mem_map.1 hname
    rw [List.mem_range] at hn
    rw [(countedDir_nodeDir (by omega)).2.1] at hid
    exact List.mem_map_of_mem (List.mem_range.2 (by omega))

/-- **`get_mon_MB` opens the directories that `get_numa_num` counted exactly where the names
are gapless.** -/
theorem getNumaNum_opens_iff (hdir : fs.dir rootMonData = some names) (nodeNum : ℤ) :
    OpensListed names (getNumaNum fs nodeNum).2 ↔ Gapless names := by
  rw [getNumaNum, hdir]
  exact opensListed_iff names

/-- The directory of a host, as a listing. -/
def listedFs (names : List Text) : MonFs := ⟨fun _ => some names, fun _ => none⟩

/-- A host with four nodes. -/
theorem getNumaNum_opens_iff_four : OpensListed ((List.range 4).map nodeDir)
    (getNumaNum (listedFs ((List.range 4).map nodeDir)) 0).2 :=
  (getNumaNum_opens_iff rfl 0).2 (gapless_range (by decide))

/-- **Without a node `0` the first directory that is opened is missing.** -/
theorem getNumaNum_gap : ¬ ∀ (fs : MonFs) (names : List Text) (nodeNum : ℤ),
    fs.dir rootMonData = some names → 1 ≤ (getNumaNum fs nodeNum).2 →
    OpensListed names (getNumaNum fs nodeNum).2 := by
  intro h
  have hopens := h (listedFs [nodeDir 1]) [nodeDir 1] 0 rfl (by decide +kernel)
  have hmissing : nodeDir 0 ∉ [nodeDir 1] := by decide
  exact hmissing ((hopens (nodeDir 0)).1 ⟨0, by decide +kernel, rfl⟩).1

end Vmtop
