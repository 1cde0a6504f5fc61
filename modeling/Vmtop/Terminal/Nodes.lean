/-
# The node count in a run

`node_num` comes from the names of directories, is kept by every refresh and by a listing
that fails, and bounds the loops over the arrays of the nodes and over the columns of the
nodes.  It stays between `0` and `MAX_NODE_NUM` along a run, so none of these loops leaves
its array (`nodes_in_bounds`); what may still fault in a run is an access to
`sample_times_vms` and the name of a process without one (`mainStep_inBounds`).
-/

import Vmtop.Terminal.Turns

namespace Vmtop

open CText CArray Runs

variable {c : Config} {input : FrameInput} {m : Main} {t : Turn} {g : Globals}

/-- A node count that the arrays have room for. -/
def NodesBounded (nodeNum : ℤ) : Prop := 0 ≤ nodeNum ∧ nodeNum ≤ maxNodeNum

/-- The faults that a run may meet. -/
abbrev RunFault (e : Fault) : Prop := PastTimes e ∨ BadPointer e

/-! ### The snapshot -/

/-- A listing of the nodes, also one that fails, leaves a count there is room for. -/
theorem getNumaNum_bounded {fs : MonFs} {nodeNum : ℤ} (h : NodesBounded nodeNum) :
    NodesBounded (getNumaNum fs nodeNum).2 := by
  unfold getNumaNum
  split
  · exact h
  · rename_i names _
    have hmax := foldl_maxNodeStep_bounds names
    constructor <;> dsimp only <;> omega

theorem sampleFrame_ends (c : Config) (env : FrameEnv) {s : Lists}
    (h : NodesBounded s.now.nodeNum) :
    Ends (sampleFrame c env s) (fun s' => NodesBounded s'.now.nodeNum) RunFault := by
  unfold sampleFrame
  refine ((refreshDomains_ends c.arch c.monitorId env.refresh s).with_eq.mono (fun _ hp => hp.1)
    fun _ => Or.inr).bind fun p hp => ?_
  obtain ⟨r, mid⟩ := p
  have hmid : NodesBounded mid.now.nodeNum := (refreshDomains_rotated hp).nodeNum ▸ h
  dsimp only
  split_ifs
  · refine ((refreshDomainsBandwidth_ends env.bandwidth mid.now).mono (fun _ hnow => hnow)
      fun _ he => Or.inl he.2.2).bind fun now hnow => ?_
    change NodesBounded now.nodeNum
    rw [hnow.2.1]
    exact getNumaNum_bounded hmid
  · exact hmid

/-! ### The drawing -/

/-- The column of a node is in the table. -/
theorem fdNode0_add_lt (arch : Arch) {i : ℕ} (hi : i < maxNodeNum) :
    fdNode0 arch + i < (fields arch).length := by
  rw [fields, List.length_append, List.length_ofFn, fdNode0]
  omega

/-- A node count that the arrays have room for, and the table of the columns as it was at the
start but for what is displayed: so the column of a node shows the entry of that node. -/
structure NodesInBounds (g : Globals) : Prop where
  bounded : NodesBounded g.lists.now.nodeNum
  columns : g.fields.map Fid.column = (fields g.arch).map Fid.column

theorem NodesInBounds.length_fields (h : NodesInBounds g) :
    g.fields.length = (fields g.arch).length := by
  have hlen := congrArg List.length h.columns
  rwa [List.length_map, List.length_map] at hlen

/-- A node that a loop comes to. -/
theorem NodesInBounds.node_lt (h : NodesInBounds g) {i : ℕ}
    (hi : i ∈ List.range g.lists.now.nodeNum.toNat) : i < maxNodeNum :=
  lt_of_mem_nodes h.bounded.2 hi

variable {E : Fault → Prop}

/-- `summary` reads the bandwidths of the nodes. -/
theorem summary_ends (h : NodesInBounds g) (tm : Option Tm) :
    Ends (summary g tm) (fun _ => True) E := by
  unfold summary
  dsimp only
  split_ifs
  · have hnodes : Ends (bandwidths g) (fun _ => True) E :=
      Ends.mapM fun _ hi => ends_load _ (h.node_lt hi)
    exact hnodes.bind fun _ _ => trivial
  · trivial

/-- `show_header` writes the columns of the nodes. -/
theorem setNodeFlags_ends (h : NodesInBounds g) :
    Ends (setNodeFlags g) (fun fields' => fields'.length = (fields g.arch).length) E := by
  refine Ends.foldlM (fun fields' i hi hlen => ?_) h.length_fields
  have hlt := fdNode0_add_lt g.arch (h.node_lt hi)
  dsimp only
  rw [if_pos (hlen ▸ hlt)]
  exact (List.length_modify _ _ _).trans hlen

/-- **Drawing never leaves an array.** -/
theorem drawFrame_ends (h : NodesInBounds g) (tm : Option Tm) (clkTck : ℕ) :
    Ends (drawFrame g tm clkTck) (fun _ => True) E :=
  (summary_ends h tm).bind fun _ _ => (setNodeFlags_ends h).bind fun _ _ => trivial

/-! ### The turns -/

/-- The snapshot of a turn is in bounds. -/
theorem beginFrame_inBounds (h : NodesInBounds g) (input : FrameInput) :
    Ends (beginFrame g input) NodesInBounds RunFault := by
  unfold beginFrame
  dsimp only
  split <;>
    exact (sampleFrame_ends _ _ h.bounded).bind fun lists hlists => ⟨hlists, h.columns⟩

/-- **What a turn does to the node count, and what it may fault on.** -/
theorem mainStep_inBounds (h : NodesInBounds m.g) :
    (∀ m', mainStep input m = .ok m' → NodesInBounds m'.g) ∧
      ∀ e, mainStep input m = .error (.fault e) → RunFault e := by
  have hbegin := beginFrame_inBounds h input
  constructor
  · intro m' hstep
    obtain ⟨t, hturn, rfl⟩ := mainStep_eq_ok hstep
    have hturned := turn_turned hturn
    have hsettings := hturned.settings.2
    have hsampled := sampleFrame_ends m.g.config input.env h.bounded
    rw [hturned.sampled] at hsampled
    have harch : t.next.g.arch = m.g.arch :=
      congrArg (fun s : Settings => s.config.arch) hsettings
    have hcolumns : t.next.g.fields.map Fid.column = m.g.fields.map Fid.column :=
      congrArg Settings.columns hsettings
    refine ⟨?_, ?_⟩
    · rw [hturned.lists]
      exact hsampled
    · rw [hcolumns, harch, h.columns]
  · intro e hstep
    unfold mainStep turn at hstep
    split_ifs at hstep
    · cases hstep
    · cases hframe : beginFrame m.g input with
      | error e' =>
          rw [hframe] at hstep hbegin
          cases hstep
          exact hbegin
      | ok g =>
          rw [hframe] at hstep hbegin
          have hdraw := drawFrame_ends (E := fun _ => False) hbegin input.tm input.clkTck
          obtain ⟨⟨frame, screen⟩, hok, -⟩ := hdraw.exists_ok
          simp only [hok] at hstep
          cases hend : endFrame frame input with
          | none =>
              rw [hend] at hstep
              cases hstep
          | some p =>
              rw [hend] at hstep
              cases hstep

/-- The main loop begins in bounds. -/
theorem Begins.inBounds (hm : Begins m) : NodesInBounds m.g := by
  obtain ⟨-, arch, rows, opts, hargs⟩ := hm
  rw [parseArgs_other hargs]
  exact ⟨⟨le_rfl, Int.natCast_nonneg _⟩, rfl⟩

/-- **The node count is in bounds in every state of a run, and no run leaves an array of the
nodes or the table of the columns.** -/
theorem nodes_in_bounds (hm : Begins m) (inputs : List FrameInput) :
    (∀ m', runAll mainStep inputs m = .ok m' → NodesInBounds m'.g) ∧
      ∀ i, runAll mainStep inputs m ≠ .error (.fault (.outOfBounds i maxNodeNum)) ∧
        runAll mainStep inputs m ≠ .error (.fault (.outOfBounds i (fields m.g.arch).length)) := by
  obtain ⟨hok, hfault⟩ := runAll_invariant (f := mainStep) (P := fun m => NodesInBounds m.g)
    (Q := fun halt => ∀ e, halt = .fault e → RunFault e)
    (fun input m m' h hstep => (mainStep_inBounds h).1 m' hstep)
    (fun input m halt h hstep e he => (mainStep_inBounds h).2 e (he ▸ hstep)) inputs hm.inBounds
  have hsize {i n : ℕ} (h : RunFault (.outOfBounds i n)) : n = maxVmTasksNum := by
    rcases h with ⟨j, h⟩ | h
    · cases h
      rfl
    · cases h
  refine ⟨hok, fun i => ⟨fun h => ?_, fun h => ?_⟩⟩
  · exact absurd (hsize (hfault _ h _ rfl)) (by decide)
  · have hlen (arch : Arch) : (fields arch).length ≠ maxVmTasksNum := by
      cases arch <;> decide +kernel
    exact hlen _ (hsize (hfault _ h _ rfl))

/-- A run whose first turn finds a node, and whose second one cannot list them. -/
theorem nodes_in_bounds_listed : ∃ m', runAll mainStep
    [terminalTurn (crowdedEnv 1) 24 none, terminalTurn default 24 none]
    ⟨meteredGlobals, false⟩ = .ok m' ∧ NodesInBounds m'.g := by
  have hrun : (runAll mainStep [terminalTurn (crowdedEnv 1) 24 none, terminalTurn default 24 none]
      ⟨meteredGlobals, false⟩).toOption.isSome := by decide +kernel
  obtain ⟨m', hm'⟩ := Option.isSome_iff_exists.1 hrun
  have hok := toOption_eq_some.1 hm'
  exact ⟨m', hok, (nodes_in_bounds ⟨rfl, .other, fun _ => Task.zero, [.G], rfl⟩ _).1 m' hok⟩

end Vmtop
