import GraphDissect.Library.Runs
import GraphDissect.Scheduler.FastSync

/-!
# Driver attribution over a campaign

MFuzz switches drivers while the target records calls.  `setActiveDriver`
credits everything recorded since the last synchronisation to the outgoing
driver, by comparing the cached `HitNum` of each node with its live count.
`getCoveredFuncs` runs after the counters were unblocked and writes the same
`HitNum`, one node at a time, without crediting anybody.
-/

namespace GraphDissect.Scheduler

open CallGraph Fcov Library

structure SyncStats where
  newNodes : Nat
  newEdges : Nat
  totalNodes : Nat

/-- Where `run_schedule_policy` stands: before the first driver is set, in the
sleep of a window, after a switch, or inside the loop of `getCoveredFuncs`. -/
inductive PolicyPc where
  | starting
  | sleeping
  | switched
  | covering (rest : List NodeRef)

/-- A campaign.  `window` lists the calls recorded since the last
synchronisation and `syncs` the results of all synchronisations. -/
structure Campaign where
  fcov : FuncCoverage
  graph : CGGraph
  activeDriver : Nat
  pc : PolicyPc
  window : List (UInt64 × UInt64)
  syncs : List SyncStats

/-- A recorded call, a switch of the driver, and the steps of
`getCoveredFuncs`. -/
inductive CampaignAction where
  | fcovRecord (caller callee : UInt64)
  | setActiveDriver (driverId : Nat) (init : Bool)
  | getCoveredFuncs
  | readNode

namespace Campaign

/-- The campaign on a graph before its first driver is set. -/
def start (graph : CGGraph) : Campaign where
  fcov := FuncCoverage.zeroed
  graph
  activeDriver := 0
  pc := .starting
  window := []
  syncs := []

def nodeSync (state : Campaign) : NodeSync :=
  synchronizeNodes state.graph state.fcov state.activeDriver

def edgeSync (state : Campaign) : EdgeSync :=
  synchronizeEdgesAt state.nodeSync.graph state.fcov state.nodeSync.updatedNodes
    state.activeDriver

/-- Credit the active driver with what was recorded since the last time. -/
def synchronizeGraphs (state : Campaign) : Campaign :=
  if state.activeDriver = 0 then state
  else
    { state with
      graph := state.edgeSync.graph
      window := []
      syncs := state.syncs ++
        [⟨state.nodeSync.newHitNodes, state.edgeSync.newHitEdges,
          state.nodeSync.totalHitNodes⟩] }

/-- `Scheduler::setActiveDriver`; the flag is set before the synchronisation and
cleared after it. -/
def setActiveDriver (state : Campaign) (driverId : Nat) : Campaign :=
  let blocked := { state with fcov := { state.fcov with blockWrites := true } }
  let synced := blocked.synchronizeGraphs
  { synced with
    activeDriver := driverId
    fcov := { synced.fcov with blockWrites := false }
    pc := .switched }

/-- One turn of the loop of `getCoveredFuncs`. -/
def readNode (state : Campaign) (ref : NodeRef) : CGGraph :=
  let node := state.graph.nodes ref
  state.graph.setNode ref { node with hitNum := getNodeHitNum state.graph state.fcov node.id }

/-- Where the loop of `getCoveredFuncs` goes on. -/
def covering : List NodeRef → PolicyPc
  | [] => .sleeping
  | ref :: rest => .covering (ref :: rest)

def step (dladdr : UInt64 → Option UInt64) (state : Campaign) :
    CampaignAction → Option Campaign
  | .fcovRecord caller callee =>
      some { state with
        fcov := Fcov.fcovRecord dladdr state.fcov caller callee
        window := state.window ++ [(pcToFuncEntry dladdr caller, callee)] }
  | .setActiveDriver driverId init =>
      match state.pc, init with
      | .starting, true => some { state with activeDriver := driverId, pc := .sleeping }
      | .sleeping, false | .switched, false => some (state.setActiveDriver driverId)
      | _, _ => none
  | .getCoveredFuncs =>
      match state.pc with
      | .switched => some { state with pc := covering state.graph.nodeRefs }
      | _ => none
  | .readNode =>
      match state.pc with
      | .covering (ref :: rest) =>
          some { state with graph := state.readNode ref, pc := covering rest }
      | _ => none

def funcCalls (window : List (UInt64 × UInt64)) (key : UInt32) : Nat :=
  window.countP fun event => event.2.toUInt32 = key

def edgeCalls (window : List (UInt64 × UInt64)) (edgeKey : UInt64) : Nat :=
  window.countP fun event => fcovMakeEdgeKey event.1 event.2 = edgeKey

/-- The live counts of an edge's keys, added up without wrapping. -/
def liveSum (fcov : FuncCoverage) (keys : List UInt64) : Nat :=
  (keys.map fun edgeKey => (fcovIsEdgeVisited fcov edgeKey).toNat).sum

/-- Every node called in a window has the window's driver in its mask. -/
def NodesAttributed (before after : Campaign) : Prop :=
  ∀ ref ∈ before.graph.nodeRefs, funcCalls before.window (before.graph.nodes ref).key ≠ 0 →
    hasDriverId (after.graph.nodes ref).driverIdMask before.activeDriver = true

/-- Every edge called in a window has the window's driver in its mask and an
exact count. -/
def EdgesAttributed (before after : Campaign) : Prop :=
  ∀ ref ∈ allEdges before.graph,
    (∃ edgeKey ∈ (before.graph.edges ref).keys, edgeCalls before.window edgeKey ≠ 0) →
    hasDriverId (after.graph.edges ref).driverIdMask before.activeDriver = true ∧
      (after.graph.edges ref).hitNum = getEdgeHitNum after.fcov (after.graph.edges ref)

/-- All synchronisations together reported each covered node once. -/
def NewNodesCounted (after : Campaign) : Prop :=
  (after.syncs.map SyncStats.newNodes).sum =
    after.graph.nodeRefs.countP fun ref =>
      fcovIsNodeVisited after.fcov (after.graph.nodes ref).key ≠ 0

/-- A call is counted in both tables, and no count and no sum over the keys of
an edge wraps. -/
def Recordable (dladdr : UInt64 → Option UInt64) (state : Campaign) : CampaignAction → Prop
  | .fcovRecord caller callee =>
      let edgeKey := fcovMakeEdgeKey (pcToFuncEntry dladdr caller) callee
      callee ≠ 0 ∧ Counted state.fcov (.edge edgeKey) ∧
        Counted (fcovRecordEdge state.fcov edgeKey) (.func callee) ∧
        (fcovIsEdgeVisited state.fcov edgeKey).toNat + 1 < 2 ^ 32 ∧
        (fcovIsNodeVisited state.fcov callee.toUInt32).toNat + 1 < 2 ^ 32 ∧
        ∀ ref ∈ allEdges state.graph,
          liveSum (Fcov.fcovRecord dladdr state.fcov caller callee)
            (state.graph.edges ref).keys < 2 ^ 32
  | _ => True

instance (dladdr : UInt64 → Option UInt64) (state : Campaign) :
    DecidablePred (state.Recordable dladdr)
  | .fcovRecord _ _ => inferInstanceAs (Decidable (_ ∧ _ ∧ _ ∧ _ ∧ _ ∧ _))
  | .setActiveDriver _ _ | .getCoveredFuncs | .readNode => isTrue trivial

/-- The node the loop of `getCoveredFuncs` reads next. -/
def PolicyPc.nextNode : PolicyPc → Option NodeRef
  | .covering (ref :: _) => some ref
  | _ => none

/-- When `getCoveredFuncs` reads a node, no call of its function was recorded
since the last synchronisation. -/
def Undisturbed (state : Campaign) : CampaignAction → Prop
  | .readNode => ∀ ref ∈ PolicyPc.nextNode state.pc,
      funcCalls state.window (state.graph.nodes ref).key = 0
  | _ => True

instance (state : Campaign) : DecidablePred state.Undisturbed
  | .readNode => inferInstanceAs (Decidable (∀ ref ∈ PolicyPc.nextNode state.pc, _ = _))
  | .fcovRecord _ _ | .setActiveDriver _ _ | .getCoveredFuncs => isTrue trivial

/-- A graph that no campaign has touched. -/
structure Fresh (graph : CGGraph) : Prop where
  wellFormed : graph.WellFormed
  keyed : EdgesKeyed graph
  nodes : ∀ ref ∈ graph.nodeRefs, (graph.nodes ref).hitNum = 0
  edges : ∀ ref ∈ allEdges graph, (graph.edges ref).hitNum = 0

end Campaign

end GraphDissect.Scheduler
