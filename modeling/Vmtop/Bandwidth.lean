/-
# The bandwidth of a snapshot

The rest of `src/domain.c`: `refresh_domains_bandwidth` samples the control group of
every virtual machine and the root group a few times, counting in
`sample_times_vms` how often each virtual machine was read, and
`calculate_all_bandwidth` turns the sums into means.

`sample_times_vms` has `MAX_VM_TASKS_NUM` entries and is indexed by the position in
the list, which nothing bounds; the accesses are checked.
-/

import Vmtop.Resctrl

namespace Vmtop

open CText CArray

/-- `MAX_VM_TASKS_NUM`. -/
def maxVmTasksNum : ℕ := 1024

/-- `SAMPLE_TIMES_OUTER`. -/
def sampleTimesOuter : ℕ := 3

/-- What one `refresh_domains_bandwidth` finds: when it counts the nodes, when it samples
a virtual machine in a round, and when it samples the root group in a round. -/
structure BandwidthEnv where
  numa : MonFs
  vm : ℕ → ℕ → MonFs
  root : ℕ → MonFs
  deriving Inhabited

/-- The array `sample_times_vms`. -/
abbrev SampleTimes := Arr maxVmTasksNum ℤ

/-! ### The means -/

/-- The inner loop of `calculate_all_bandwidth` for one node, from the `i`-th virtual
machine on: `host` is `now->bandwidth[node]` and `nodeVms` the `unsigned int` sum. -/
def meanVms (sampleTimesVms : SampleTimes) (node : ℕ) :
    ℕ → List Domain → Long → ℤ → Except Fault (List Domain × Long × ℤ)
  | _, [], host, nodeVms => .ok ([], host, nodeVms)
  | i, dom :: rest, host, nodeVms => do
      let times ← load sampleTimesVms i
      if 0 < times then
        let mean := divInt (← load dom.ctlBandwidth node) times
        let ctlBandwidth ← store dom.ctlBandwidth node mean
        let (doms, host, nodeVms) ←
          meanVms sampleTimesVms node (i + 1) rest (host + mean)
            ((nodeVms + mean.toInt) % 2 ^ 32)
        .ok ({ dom with ctlBandwidth := ctlBandwidth, bandwidthUpdatedSucc := true } :: doms,
          host, nodeVms)
      else
        let (doms, host, nodeVms) ← meanVms sampleTimesVms node (i + 1) rest host nodeVms
        .ok (dom :: doms, host, nodeVms)

/-- The body of the loop of `calculate_all_bandwidth`. -/
def calculateNode (sampleTimesVms : SampleTimes) (sampleTimesHost : ℤ) (now : DomainList)
    (node : ℕ) : Except Fault DomainList := do
  let sum ← load now.bandwidth node
  let host := if 0 < sampleTimesHost then divInt sum sampleTimesHost else sum
  let (domains, host, nodeVms) ← meanVms sampleTimesVms node 0 now.domains host 0
  -- the bandwidth of the host is at least that of its virtual machines
  let bandwidth ←
    store now.bandwidth node (if host.toInt < nodeVms then Int64.ofInt nodeVms else host)
  .ok { now with domains := domains, bandwidth := bandwidth }

/-- `calculate_all_bandwidth`. -/
def calculateAllBandwidth (now : DomainList) (sampleTimesVms : SampleTimes)
    (sampleTimesHost : ℤ) : Except Fault DomainList :=
  (List.range now.nodeNum.toNat).foldlM (calculateNode sampleTimesVms sampleTimesHost) now

/-! ### The samples -/

/-- `sample_times_vms[i]++`, which a failed sample skips. -/
def countSample (r : ℤ) (times : SampleTimes) (i : ℕ) : Except Fault SampleTimes :=
  if r < 0 then .ok times else do store times i ((← load times i) + 1)

/-- The loop over the virtual machines in one round, from the `i`-th on. -/
def sampleVms (fs : ℕ → MonFs) (nodeNum : ℤ) :
    ℕ → List Domain → SampleTimes → Except Fault (List Domain × SampleTimes)
  | _, [], times => .ok ([], times)
  | i, dom :: rest, times => do
      let (r, dom) ← getVmCtlBandwidth (fs i) dom nodeNum
      let times ← countSample r times i
      let (doms, times) ← sampleVms fs nodeNum (i + 1) rest times
      .ok (dom :: doms, times)

/-- What the rounds of `refresh_domains_bandwidth` change. -/
structure Rounds where
  now : DomainList
  sampleTimesVms : SampleTimes
  sampleTimesHost : ℤ

/-- The body of the loop over the rounds. -/
def sampleRound (env : BandwidthEnv) (st : Rounds) (round : ℕ) : Except Fault Rounds := do
  let (domains, times) ←
    sampleVms (env.vm round) st.now.nodeNum 0 st.now.domains st.sampleTimesVms
  let (r, bandwidth) ← getRootMonBandwidth (env.root round) st.now.bandwidth st.now.nodeNum
  .ok
    { now := { st.now with domains := domains, bandwidth := bandwidth }
      sampleTimesVms := times
      sampleTimesHost := if r < 0 then st.sampleTimesHost else st.sampleTimesHost + 1 }

/-- `refresh_domains_bandwidth`. -/
def refreshDomainsBandwidth (env : BandwidthEnv) (now : DomainList) : Except Fault DomainList :=
  let (r, nodeNum) := getNumaNum env.numa now.nodeNum
  let now := { now with nodeNum := nodeNum }
  if r < 0 then .ok now
  else do
    let st ← (List.range sampleTimesOuter).foldlM (sampleRound env) ⟨now, fun _ => 0, 0⟩
    calculateAllBandwidth st.now st.sampleTimesVms st.sampleTimesHost

end Vmtop
