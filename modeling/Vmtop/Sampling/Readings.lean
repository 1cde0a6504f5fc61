/-
# What counts as a reading

`get_mon_MB_once` hands the text of a counter file to `atol`, which reads `0` where there is no
number.  So `get_mon_MB` counts the text `Unavailable`, which resctrl shows in place of a
count, as a reading of `0`; what it does not count is an empty file, and a text that `atol`
reads as `-1`.  The means of a call are those of the genuine readings, of decimal numerals,
exactly when there are no such texts, every numeral fits, and so does what it is added to
(`getMonMB_genuine_iff`).
-/

import Vmtop.Sampling.Failures

namespace Vmtop

open CText CArray

variable {fs : MonFs} {path : Text} {nodes : List ℕ} {n : ℤ} {s : Text}

/-! ### Readings -/

/-- The text of a reading: the first line of what the file holds. -/
def readingText (s : Text) : Text := s.takeWhile (· != '\n')

/-- The value of a genuine reading, one whose text is a decimal numeral. -/
def genuine (s : Text) : Option ℕ :=
  if IsNumeral (readingText s) then some (numeralValue (readingText s)) else none

/-- What the `i`-th reading of a node finds; nothing where its file does not open. -/
def found (fs : MonFs) (path : Text) (node i : ℕ) : Text :=
  (fs.fopen (monDataPath path node)).elim [] fun file => file i

/-- The genuine readings of a node that are taken after the first pass. -/
def genuineReadings (fs : MonFs) (path : Text) (node : ℕ) : List ℕ :=
  ((List.range sampleTimesInner).drop 1).filterMap fun i => genuine (found fs path node i)

/-- After the first pass there is one more. -/
theorem genuineReadings_eq (node : ℕ) :
    genuineReadings fs path node = (genuine (found fs path node 1)).toList := by
  have hpasses : (List.range sampleTimesInner).drop 1 = [1] := by decide
  rw [genuineReadings, hpasses]
  cases hread : genuine (found fs path node 1) <;> simp [hread]

/-- The numeral fits in the buffer and in a `long`. -/
def Fits (s : Text) : Prop :=
  numeralValue ((readingText s).take (maxBandwidthLength - 1)) = numeralValue (readingText s) ∧
    numeralValue (readingText s) < 2 ^ 63

/-- The buffer holds the first line, as far as there is room, and perhaps its end. -/
theorem fgets_readingText (room : ℕ) (s : Text) :
    ∃ rest, (fgets room s).1 = (readingText s).take room ++ rest ∧ (rest = [] ∨ rest = ['\n']) := by
  induction s generalizing room with
  | nil => cases room <;> exact ⟨[], rfl, Or.inl rfl⟩
  | cons c s ih =>
      cases room with
      | zero => exact ⟨[], rfl, Or.inl rfl⟩
      | succ room =>
          rw [fgets, readingText]
          by_cases hc : c = '\n'
          · rw [if_pos hc, List.takeWhile_cons_of_neg (by simp [hc]), hc]
            exact ⟨['\n'], rfl, Or.inr rfl⟩
          · obtain ⟨rest, hrest, hend⟩ := ih room
            rw [if_neg hc, List.takeWhile_cons_of_pos (by simp [hc]), List.take_succ_cons, hrest]
            exact ⟨rest, rfl, hend⟩

/-- A numeral is read as far as it fits in the buffer, and saturates. -/
theorem getMonMBOnce_numeral (h : IsNumeral (readingText s)) :
    (getMonMBOnce s).toInt =
      min (numeralValue ((readingText s).take (maxBandwidthLength - 1)) : ℤ) (2 ^ 63 - 1) := by
  have hne : s ≠ [] := by
    rintro rfl
    exact h.1 rfl
  obtain ⟨rest, hgets, hrest⟩ := fgets_readingText (maxBandwidthLength - 1) s
  have hdigits : IsNumeral ((readingText s).take (maxBandwidthLength - 1)) := by
    refine ⟨fun hnil => ?_, fun c hc => h.2 c (List.mem_of_mem_take hc)⟩
    exact h.1 ((List.take_eq_nil_iff.1 hnil).resolve_left (by decide))
  have hend : ∀ c ∈ rest.head?, c.isDigit = false := by
    rcases hrest with rfl | rfl <;> simp
  have hnul : nul ∉ (readingText s).take (maxBandwidthLength - 1) ++ rest := by
    rw [List.mem_append, not_or]
    refine ⟨hdigits.notMem rfl, ?_⟩
    rcases hrest with rfl | rfl <;> decide
  rw [getMonMBOnce, if_neg (by simpa using hne), hgets, cstr_of_notMem hnul, atol,
    strtol_digits hdigits hend, Option.elim_some]
  exact Int64.toInt_ofInt_of_le (by omega) (by omega)

/-- The reading that the sampling loop counts of a node. -/
theorem counted_eq (node : ℕ) (hopen : (fs.fopen (monDataPath path node)).isSome) :
    counted fs path node = if getMonMBOnce (found fs path node 1) = -1 then none
      else some (getMonMBOnce (found fs path node 1)) := by
  obtain ⟨file, hfile⟩ := Option.isSome_iff_exists.1 hopen
  rw [counted, found, hfile]
  rfl

/-- A genuine reading is counted. -/
theorem counted_of_genuine {node v : ℕ} (hopen : (fs.fopen (monDataPath path node)).isSome)
    (hv : genuine (found fs path node 1) = some v) :
    numeralValue (readingText (found fs path node 1)) = v ∧
    ∃ reading, counted fs path node = some reading ∧ reading.toInt = min (numeralValue
      ((readingText (found fs path node 1)).take (maxBandwidthLength - 1)) : ℤ) (2 ^ 63 - 1) := by
  unfold genuine at hv
  split_ifs at hv with hnumeral
  have hread := getMonMBOnce_numeral hnumeral
  refine ⟨Option.some.inj hv, _, ?_, hread⟩
  rw [counted_eq node hopen, if_neg]
  intro hfail
  rw [hfail] at hread
  have hneg : (-1 : Long).toInt = -1 := rfl
  omega

/-- **A genuine reading is added at its value exactly when it fits and so does the sum.** -/
theorem toInt_add_reading {s : Text} {old reading : Long} (hread : reading.toInt =
    min (numeralValue ((readingText s).take (maxBandwidthLength - 1)) : ℤ) (2 ^ 63 - 1)) :
    (old + reading).toInt = old.toInt + numeralValue (readingText s) ↔
      Fits s ∧ old.toInt + numeralValue (readingText s) < 2 ^ 63 := by
  have hle := numeralValue_take_le (maxBandwidthLength - 1) (readingText s)
  have hold := old.le_toInt
  have hlow := (old + reading).le_toInt
  have hhigh := (old + reading).toInt_lt
  have hsum := Int64.toInt_add old reading
  rw [Int.bmod_def] at hsum
  unfold Fits
  omega

/-! ### A call -/

/-- What a call must do with the genuine readings of the nodes. -/
structure CountsGenuine (fs : MonFs) (path : Text) (n : ℤ) (bandwidth : Arr maxNodeNum Long) (r : ℤ)
    (bandwidth' : Arr maxNodeNum Long) : Prop where
  /-- The mean of the genuine readings is added on success. -/
  added : 0 ≤ r → ∀ node ∈ List.range n.toNat, ∃ old new, load bandwidth node = .ok old ∧
    load bandwidth' node = .ok new ∧ genuineReadings fs path node ≠ [] ∧ new.toInt = old.toInt +
      ((genuineReadings fs path node).sum : ℤ) / (genuineReadings fs path node).length
  /-- The other nodes are left alone. -/
  other : ∀ j ∉ List.range n.toNat, load bandwidth' j = load bandwidth j
  /-- No other reading is counted. -/
  counts : ∀ fps st, openNodes fs path (List.range n.toNat) (fun _ => none) = .ok (true, fps) →
    sampleNodes fps (List.range n.toNat) = .ok st → ∀ node ∈ List.range n.toNat,
    genuineReadings fs path node = [] → load st.times node = .ok 0
  /-- A node without a genuine reading makes the call fail. -/
  fails : (∃ node ∈ List.range n.toNat, genuineReadings fs path node = []) → r < 0

/-- Where all files open, a text that is no numeral is empty or read as `-1`, and where all
texts are numerals, they fit, and so do the sums. -/
def Distinguished (fs : MonFs) (path : Text) (n : ℤ) (bandwidth : Arr maxNodeNum Long) : Prop :=
  (∀ node ∈ List.range n.toNat, (fs.fopen (monDataPath path node)).isSome) →
    (∀ node ∈ List.range n.toNat, genuine (found fs path node 1) = none →
      found fs path node 1 = [] ∨
        atol (cstr (fgets (maxBandwidthLength - 1) (found fs path node 1)).1) = -1) ∧
    ((∀ node ∈ List.range n.toNat, (genuine (found fs path node 1)).isSome) →
      ∀ node ∈ List.range n.toNat, Fits (found fs path node 1) ∧
        ∀ old, load bandwidth node = .ok old →
          old.toInt + numeralValue (readingText (found fs path node 1)) < 2 ^ 63)

/-- What is not counted is an empty file, or read as `-1`. -/
theorem getMonMBOnce_eq_neg_one_iff : getMonMBOnce s = -1 ↔
    s = [] ∨ atol (cstr (fgets (maxBandwidthLength - 1) s).1) = -1 := by
  unfold getMonMBOnce
  by_cases hs : s = []
  · simp [hs]
  · have hmem := atol_mem (cstr (fgets (maxBandwidthLength - 1) s).1)
    have hneg : (-1 : Long).toInt = -1 := rfl
    rw [if_neg (by simpa using hs), ← Int64.toInt_inj, hneg,
      Int64.toInt_ofInt_of_le hmem.1 hmem.2]
    simp [hs]

theorem counted_eq_none_iff {node : ℕ} (hopen : (fs.fopen (monDataPath path node)).isSome) :
    counted fs path node = none ↔ found fs path node 1 = [] ∨
      atol (cstr (fgets (maxBandwidthLength - 1) (found fs path node 1)).1) = -1 := by
  rw [counted_eq node hopen, ← getMonMBOnce_eq_neg_one_iff]
  split_ifs with h <;> simp [h]

theorem genuineReadings_eq_nil_iff {node : ℕ} :
    genuineReadings fs path node = [] ↔ genuine (found fs path node 1) = none := by
  rw [genuineReadings_eq]
  cases genuine (found fs path node 1) <;> simp

/-- The mean of the one genuine reading of a node. -/
theorem mean_genuineReadings {node v : ℕ} (hv : genuine (found fs path node 1) = some v) :
    ((genuineReadings fs path node).sum : ℤ) / (genuineReadings fs path node).length = v := by
  rw [genuineReadings_eq, hv]
  simp

section Opened
variable {bandwidth bandwidth' : Arr maxNodeNum Long} {r : ℤ} {fps : Files} {st : Samples}
  (hopen : openNodes fs path (List.range n.toNat) (fun _ => none) = .ok (true, fps))
  (hst : sampleNodes fps (List.range n.toNat) = .ok st)
  (hadd : addMeans st (List.range n.toNat) bandwidth = .ok (r, bandwidth'))

include hopen hst hadd in
/-- A call that treats its readings right tells them apart. -/
theorem distinguished_of_counts (hcall : CountsGenuine fs path n bandwidth r bandwidth') :
    Distinguished fs path n bandwidth := by
  have hnodes : (List.range n.toNat).Nodup := List.nodup_range
  obtain ⟨hopens, hsampled⟩ := sampled_of_opened hnodes hopen hst
  obtain ⟨-, hr, -, hadded⟩ := addMeans_ok hnodes hsampled hadd
  refine fun _ => ⟨fun node hnode hnone => ?_, fun hall node hnode => ?_⟩
  · have htimes := hcall.counts fps st hopen hst node hnode (genuineReadings_eq_nil_iff.2 hnone)
    rw [(hsampled node hnode).1] at htimes
    rw [← counted_eq_none_iff (hopens node hnode)]
    cases hread : counted fs path node with
    | none => rfl
    | some v =>
        rw [hread] at htimes
        cases htimes
  · have hcounted : ∀ k ∈ List.range n.toNat, (counted fs path k).isSome := by
      intro k hk
      obtain ⟨v, hv⟩ := Option.isSome_iff_exists.1 (hall k hk)
      obtain ⟨-, reading, hreading, -⟩ := counted_of_genuine (hopens k hk) hv
      exact hreading ▸ rfl
    have hpos := hr.2 hcounted
    obtain ⟨old, new, hold, hnew, -, hsum⟩ := hcall.added hpos node hnode
    obtain ⟨old', reading, hold', hreading, hnew'⟩ := hadded hpos node hnode
    obtain ⟨v, hv⟩ := Option.isSome_iff_exists.1 (hall node hnode)
    obtain ⟨hvalue, reading', hreading', hread⟩ := counted_of_genuine (hopens node hnode) hv
    cases hold.symm.trans hold'
    cases hreading.symm.trans hreading'
    cases hnew.symm.trans hnew'
    rw [mean_genuineReadings hv, ← hvalue, toInt_add_reading hread] at hsum
    refine ⟨hsum.1, fun old' hold' => ?_⟩
    cases hold.symm.trans hold'
    exact hsum.2

include hopen hst hadd in
/-- And one that can tell them apart treats them right. -/
theorem counts_of_distinguished (hdist : Distinguished fs path n bandwidth) :
    CountsGenuine fs path n bandwidth r bandwidth' := by
  have hnodes : (List.range n.toNat).Nodup := List.nodup_range
  obtain ⟨hopens, hsampled⟩ := sampled_of_opened hnodes hopen hst
  obtain ⟨hframe, hr, -, hadded⟩ := addMeans_ok hnodes hsampled hadd
  obtain ⟨hother, hfits⟩ := hdist hopens
  have hnone : ∀ node ∈ List.range n.toNat, genuineReadings fs path node = [] →
      counted fs path node = none := fun node hnode hnil =>
    (counted_eq_none_iff (hopens node hnode)).2
      (hother node hnode (genuineReadings_eq_nil_iff.1 hnil))
  have hall : 0 ≤ r → ∀ node ∈ List.range n.toNat, genuineReadings fs path node ≠ [] := by
    intro hpos node hnode hnil
    have hsome := hr.1 hpos node hnode
    rw [hnone node hnode hnil] at hsome
    cases hsome
  refine ⟨fun hpos node hnode => ?_, hframe, fun fps' st' hopen' hst' node hnode hnil => ?_, ?_⟩
  · have hgenuine : ∀ k ∈ List.range n.toNat, (genuine (found fs path k 1)).isSome := by
      intro k hk
      rw [Option.isSome_iff_ne_none, ne_eq, ← genuineReadings_eq_nil_iff]
      exact hall hpos k hk
    obtain ⟨v, hv⟩ := Option.isSome_iff_exists.1 (hgenuine node hnode)
    obtain ⟨hvalue, reading, hreading, hread⟩ := counted_of_genuine (hopens node hnode) hv
    obtain ⟨old, reading', hold, hreading', hnew⟩ := hadded hpos node hnode
    cases hreading.symm.trans hreading'
    obtain ⟨hfit, hroom⟩ := hfits hgenuine node hnode
    refine ⟨old, _, hold, hnew, hall hpos node hnode, ?_⟩
    rw [mean_genuineReadings hv, ← hvalue, toInt_add_reading hread]
    exact ⟨hfit, hroom old hold⟩
  · rw [((sampled_of_opened hnodes hopen' hst').2 node hnode).1, hnone node hnode hnil]
    rfl
  · rintro ⟨node, hnode, hnil⟩
    by_contra hpos
    exact hall (Int.not_lt.1 hpos) node hnode hnil

end Opened

/-- **A call adds the means of the genuine readings exactly when it can tell them from the
others.** -/
theorem getMonMB_genuine_iff {bandwidth bandwidth' : Arr maxNodeNum Long} {r : ℤ}
    (h : getMonMB fs bandwidth path n = .ok (r, bandwidth')) :
    CountsGenuine fs path n bandwidth r bandwidth' ↔ Distinguished fs path n bandwidth := by
  rcases getMonMB_eq_ok h with ⟨⟨node, hnode, hclosed⟩, rfl, rfl⟩ | ⟨fps, st, hopen, hst, hadd⟩
  · constructor
    · exact fun _ hopens => absurd (hopens node hnode) hclosed
    · intro _
      exact
        { added := fun hr => absurd hr (by decide)
          other := fun _ _ => rfl
          counts := fun fps st hopen hst =>
            absurd ((sampled_of_opened List.nodup_range hopen hst).1 node hnode) hclosed
          fails := fun _ => by decide }
  · exact ⟨distinguished_of_counts hopen hst hadd, counts_of_distinguished hopen hst hadd⟩

/-! ### A group that shows no count -/

/-- Every counter file holds the line `text`. -/
def uniformFs (text : Text) : MonFs where
  dir _ := some []
  fopen _ := some fun _ => text ++ ['\n']

theorem exists_uniformFs (text : Text) :
    ∃ p, getMonMB (uniformFs text) (fun _ => 0) rootMonData 1 = .ok p := by
  have hends : Ends (getMonMB (uniformFs text) (fun _ => 0) rootMonData 1) (fun _ => True)
      fun _ => False := getMonMB_ends (by decide) _ _
  obtain ⟨p, hok, -⟩ := hends.exists_ok
  exact ⟨p, hok⟩

/-- Where every file shows a number, it is added to what was there. -/
theorem getMonMB_genuine_iff_numeral : ∃ bandwidth,
    getMonMB (uniformFs "4096".toList) (fun _ => 1000) rootMonData 1 = .ok (0, bandwidth) ∧
      CountsGenuine (uniformFs "4096".toList) rootMonData 1 (fun _ => 1000) 0 bandwidth ∧
      load bandwidth 0 = .ok 5096 := by
  have hrun : (getMonMB (uniformFs "4096".toList) (fun _ => 1000) rootMonData 1).toOption.map
      (fun p => (p.1, p.2 ⟨0, by decide⟩)) = some (0, 5096) := by decide +kernel
  obtain ⟨⟨r, bandwidth⟩, hok, hrun⟩ := Option.map_eq_some_iff.1 hrun
  rw [toOption_eq_some] at hok
  obtain ⟨rfl, hnew⟩ := Prod.mk.inj hrun
  refine ⟨bandwidth, hok, (getMonMB_genuine_iff hok).2 fun _ => ⟨?_, fun _ => ?_⟩, ?_⟩
  · decide +kernel
  · have hfits : Fits ("4096".toList ++ ['\n']) := ⟨by decide +kernel, by decide +kernel⟩
    have hvalue : numeralValue (readingText ("4096".toList ++ ['\n'])) = 4096 := by decide +kernel
    refine fun node _ => ⟨hfits, fun old hold => ?_⟩
    have hold : old = 1000 := by
      unfold load at hold
      split_ifs at hold
      exact (Except.ok.inj hold).symm
    change old.toInt + (numeralValue (readingText ("4096".toList ++ ['\n'])) : ℤ) < 2 ^ 63
    rw [hold, hvalue]
    decide
  · exact (load_of_lt _ (by decide)).trans (congrArg Except.ok hnew)

/-- **A node that shows `Unavailable` is read as `0`**, and the call succeeds. -/
theorem getMonMB_unavailable : ¬ ∀ (fs : MonFs) (bandwidth : Arr maxNodeNum Long) (path : Text)
    (n r : ℤ) (bandwidth' : Arr maxNodeNum Long),
    getMonMB fs bandwidth path n = .ok (r, bandwidth') →
    CountsGenuine fs path n bandwidth r bandwidth' := by
  intro h
  obtain ⟨⟨r, bandwidth⟩, hok⟩ := exists_uniformFs "Unavailable".toList
  have hdist := (getMonMB_genuine_iff hok).1 (h _ _ _ _ _ _ hok)
  have hcontra := (hdist fun _ _ => rfl).1 0 (by decide) (by decide +kernel)
  exact absurd hcontra (by decide +kernel)

end Vmtop
