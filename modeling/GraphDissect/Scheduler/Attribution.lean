import GraphDissect.Scheduler.Campaign
import Mathlib

/-!
# When attribution is right

Between two synchronisations the cached count of a node lags behind its live
count by exactly the calls of the window, and the cached count of an edge by
the calls along its keys.  This is kept by every action as long as
`getCoveredFuncs` only reads nodes that were not called in the window, and it
makes the closing synchronisation credit the right driver.
-/

namespace GraphDissect.Scheduler

open CallGraph Fcov Library

section Counts

variable {fcov : FuncCoverage}

theorem fcovRecord_eq {dladdr : UInt64 → Option UInt64} {caller callee : UInt64}
    (open_ : fcov.blockWrites = false) (nonzero : callee ≠ 0) :
    Fcov.fcovRecord dladdr fcov caller callee =
      recordAll fcov [.edge (fcovMakeEdgeKey (pcToFuncEntry dladdr caller) callee),
        .func callee] := by
  simp [Fcov.fcovRecord, open_, nonzero, recordAll, recordOne]

theorem fcovRecord_visited {dladdr : UInt64 → Option UInt64} {caller callee edgeKey : UInt64}
    (consistent : fcov.Consistent)
    (packed : edgeKey = fcovMakeEdgeKey (pcToFuncEntry dladdr caller) callee)
    (nonzero : callee ≠ 0) (edgeCounted : Counted fcov (.edge edgeKey))
    (funcCounted : Counted (fcovRecordEdge fcov edgeKey) (.func callee))
    (edgeFits : (fcovIsEdgeVisited fcov edgeKey).toNat + 1 < 2 ^ 32)
    (funcFits : (fcovIsNodeVisited fcov callee.toUInt32).toNat + 1 < 2 ^ 32) :
    (Fcov.fcovRecord dladdr fcov caller callee).Consistent ∧
      (∀ key, (fcovIsEdgeVisited (Fcov.fcovRecord dladdr fcov caller callee) key).toNat =
        (fcovIsEdgeVisited fcov key).toNat + if edgeKey = key then 1 else 0) ∧
      ∀ key, (fcovIsNodeVisited (Fcov.fcovRecord dladdr fcov caller callee) key).toNat =
        (fcovIsNodeVisited fcov key).toNat + if callee.toUInt32 = key then 1 else 0 := by
  rw [fcovRecord_eq edgeCounted.1 nonzero, ← packed]
  rcases recordAll_visited consistent [.edge edgeKey, .func callee] with ⟨kept, edges, funcs⟩
  refine ⟨kept, fun key => ?_, fun key => ?_⟩
  · have one : edgeIncrements key fcov [.edge edgeKey, .func callee] =
        if edgeKey = key then 1 else 0 := by
      by_cases same : edgeKey = key <;>
        simp [edgeIncrements, edgeIncrement, same]
      subst same
      exact edgeCounted
    rw [edges key, one, toNat_add_ofNat]
    split
    next same => rwa [← same]
    next => exact UInt32.toNat_lt _
  · have one : funcIncrements key fcov [.edge edgeKey, .func callee] =
        if callee.toUInt32 = key then 1 else 0 := by
      by_cases same : callee.toUInt32 = key <;>
        simp [funcIncrements, funcIncrement, CoverageRecord.funcKey, same]
      exact funcCounted
    rw [funcs key, one, toNat_add_ofNat]
    split
    next same => rwa [← same]
    next => exact UInt32.toNat_lt _

theorem toNat_getEdgeHitNum {edge : CGEdge} (fits : Campaign.liveSum fcov edge.keys < 2 ^ 32) :
    (getEdgeHitNum fcov edge).toNat = Campaign.liveSum fcov edge.keys := by
  have general : ∀ (keys : List UInt64) (start : UInt32),
      start.toNat + Campaign.liveSum fcov keys < 2 ^ 32 →
      (keys.foldl (fun hitNum edgeKey => hitNum + fcovIsEdgeVisited fcov edgeKey) start).toNat =
        start.toNat + Campaign.liveSum fcov keys := by
    intro keys
    induction keys with
    | nil => exact fun _ _ => rfl
    | cons edgeKey rest inductionHypothesis =>
        intro start bound
        simp only [Campaign.liveSum, List.map_cons, List.sum_cons] at bound ⊢
        have added : (start + fcovIsEdgeVisited fcov edgeKey).toNat =
            start.toNat + (fcovIsEdgeVisited fcov edgeKey).toNat := by
          rw [UInt32.toNat_add, Nat.mod_eq_of_lt (by omega)]
        rw [List.foldl_cons, inductionHypothesis]
        · rw [added, Campaign.liveSum]
          omega
        · rw [added, Campaign.liveSum]
          omega
  have total := general edge.keys 0 (by simpa using fits)
  simpa [getEdgeHitNum] using total

end Counts

namespace Campaign

/-- Calls along any of an edge's keys in a window. -/
def callSum (window : List (UInt64 × UInt64)) (keys : List UInt64) : Nat :=
  (keys.map (edgeCalls window)).sum

/-- The invariant of undisturbed campaigns. -/
structure Lagging (state : Campaign) : Prop where
  wellFormed : state.graph.WellFormed
  consistent : state.fcov.Consistent
  keyed : EdgesKeyed state.graph
  nodes : ∀ ref ∈ state.graph.nodeRefs,
    (state.graph.nodes ref).hitNum.toNat + funcCalls state.window (state.graph.nodes ref).key =
      (fcovIsNodeVisited state.fcov (state.graph.nodes ref).key).toNat
  edges : ∀ ref ∈ allEdges state.graph,
    (state.graph.edges ref).hitNum.toNat + callSum state.window (state.graph.edges ref).keys =
      liveSum state.fcov (state.graph.edges ref).keys
  sums : ∀ ref ∈ allEdges state.graph, liveSum state.fcov (state.graph.edges ref).keys < 2 ^ 32
  reported : (state.syncs.map SyncStats.newNodes).sum =
    state.graph.nodeRefs.countP fun ref => (state.graph.nodes ref).hitNum ≠ 0
  covering : ∀ rest, state.pc = .covering rest → ∀ ref ∈ rest, ref ∈ state.graph.nodeRefs

theorem callSum_nil (keys : List UInt64) : callSum [] keys = 0 := by
  apply List.sum_eq_zero
  intro calls listed
  rcases List.mem_map.mp listed with ⟨edgeKey, -, rfl⟩
  rfl

theorem funcCalls_append (window : List (UInt64 × UInt64)) (src callee : UInt64) (key : UInt32) :
    funcCalls (window ++ [(src, callee)]) key =
      funcCalls window key + if callee.toUInt32 = key then 1 else 0 := by
  simp [funcCalls, List.countP_append, List.countP_cons]

theorem edgeCalls_append (window : List (UInt64 × UInt64)) (src callee edgeKey : UInt64) :
    edgeCalls (window ++ [(src, callee)]) edgeKey =
      edgeCalls window edgeKey + if fcovMakeEdgeKey src callee = edgeKey then 1 else 0 := by
  simp [edgeCalls, List.countP_append, List.countP_cons]

theorem edgeCalls_le_funcCalls (window : List (UInt64 × UInt64)) (edgeKey : UInt64) :
    edgeCalls window edgeKey ≤ funcCalls window (calleeKey edgeKey) := by
  apply List.countP_mono_left
  intro event _ along
  simp only [decide_eq_true_eq] at along ⊢
  rw [← along, calleeKey_makeEdgeKey]

theorem Lagging.record {dladdr : UInt64 → Option UInt64} {state : Campaign}
    (lagging : state.Lagging) {caller callee : UInt64}
    (recordable : state.Recordable dladdr (.fcovRecord caller callee)) :
    Lagging { state with
      fcov := Fcov.fcovRecord dladdr state.fcov caller callee
      window := state.window ++ [(pcToFuncEntry dladdr caller, callee)] } := by
  rcases recordable with ⟨nonzero, edgeCounted, funcCounted, edgeFits, funcFits, sums⟩
  rcases fcovRecord_visited lagging.consistent rfl nonzero edgeCounted funcCounted edgeFits
    funcFits with ⟨kept, edgeVisited, funcVisited⟩
  refine ⟨lagging.wellFormed, kept, lagging.keyed, ?_, ?_, sums, lagging.reported,
    lagging.covering⟩
  · intro ref member
    rw [funcCalls_append, funcVisited, ← lagging.nodes ref member, Nat.add_assoc]
  · intro ref member
    have before := lagging.edges ref member
    have added : ∀ keys : List UInt64,
        callSum (state.window ++ [(pcToFuncEntry dladdr caller, callee)]) keys +
            liveSum state.fcov keys =
          callSum state.window keys +
            liveSum (Fcov.fcovRecord dladdr state.fcov caller callee) keys := by
      intro keys
      induction keys with
      | nil => rfl
      | cons edgeKey rest inductionHypothesis =>
          simp only [callSum, liveSum, List.map_cons, List.sum_cons, edgeCalls_append,
            edgeVisited] at inductionHypothesis ⊢
          omega
    have here := added (state.graph.edges ref).keys
    dsimp only
    omega

section Read

/-- Reading a node that was not called in the window changes nothing. -/
theorem Lagging.readNode_eq {state : Campaign} (lagging : state.Lagging) {ref : NodeRef}
    (member : ref ∈ state.graph.nodeRefs)
    (uncalled : funcCalls state.window (state.graph.nodes ref).key = 0) :
    state.readNode ref = state.graph := by
  have exact_ : (state.graph.nodes ref).hitNum =
      fcovIsNodeVisited state.fcov (state.graph.nodes ref).key := by
    have lag := lagging.nodes ref member
    rw [uncalled] at lag
    exact UInt32.toNat_inj.mp lag
  unfold readNode
  simp only [getNodeHitNum_eq lagging.wellFormed member, ← exact_]
  simp [CGGraph.setNode]

theorem Lagging.of_pc {state : Campaign} (lagging : state.Lagging) {activeDriver : Nat}
    {pc : PolicyPc}
    (covering : ∀ rest, pc = .covering rest → ∀ ref ∈ rest, ref ∈ state.graph.nodeRefs) :
    Lagging { state with activeDriver, pc } :=
  ⟨lagging.wellFormed, lagging.consistent, lagging.keyed, lagging.nodes, lagging.edges,
    lagging.sums, lagging.reported, covering⟩

theorem mem_of_covering_eq {refs rest : List NodeRef} (entered : covering refs = .covering rest) :
    ∀ ref ∈ rest, ref ∈ refs := by
  cases refs with
  | nil => cases entered
  | cons head tail =>
      cases entered
      exact fun _ member => member

end Read

section Closing

variable {state : Campaign}

theorem Lagging.stale_of_called (lagging : state.Lagging) {ref : NodeRef}
    (member : ref ∈ state.graph.nodeRefs)
    (called : funcCalls state.window (state.graph.nodes ref).key ≠ 0) :
    StaleNode state.fcov (state.graph.nodes ref) := by
  have lag := lagging.nodes ref member
  constructor
  · intro dead
    rw [dead] at lag
    simp at lag
    omega
  · intro same
    rw [same] at lag
    omega

theorem Lagging.hitNum_syncedNode (lagging : state.Lagging) {ref : NodeRef}
    (member : ref ∈ state.graph.nodeRefs) (drvId : Nat) :
    (syncedNode state.fcov drvId (state.graph.nodes ref)).hitNum =
      fcovIsNodeVisited state.fcov (state.graph.nodes ref).key := by
  have lag := lagging.nodes ref member
  unfold syncedNode
  split
  next => rfl
  next fresh =>
    by_contra differs
    apply fresh
    refine ⟨?_, differs⟩
    intro dead
    rw [dead] at lag differs
    apply differs
    apply UInt32.toNat_inj.mp
    simp at lag ⊢
    exact lag.1

theorem Lagging.edge_exact (lagging : state.Lagging) {ref : EdgeRef}
    (member : ref ∈ allEdges state.graph)
    (missed : ref ∉ edgesAt (synchronizeNodes state.graph state.fcov state.activeDriver).graph
      (synchronizeNodes state.graph state.fcov state.activeDriver).updatedNodes) :
    (state.graph.edges ref).hitNum = getEdgeHitNum state.fcov (state.graph.edges ref) := by
  rcases List.mem_flatMap.mp member with ⟨src, srcIn, out⟩
  have dstIn := (lagging.wellFormed.outgoing src srcIn ref out).2.1
  have uncalled : funcCalls state.window
      (state.graph.nodes (state.graph.edges ref).dst).key = 0 := by
    by_contra called
    exact missed (mem_edgesAt_of_stale lagging.wellFormed member
      (lagging.stale_of_called dstIn called))
  have silent : callSum state.window (state.graph.edges ref).keys = 0 := by
    apply List.sum_eq_zero
    intro calls listed
    rcases List.mem_map.mp listed with ⟨edgeKey, keyIn, rfl⟩
    have bound := edgeCalls_le_funcCalls state.window edgeKey
    rw [lagging.keyed ref member edgeKey keyIn, uncalled] at bound
    omega
  have lag := lagging.edges ref member
  apply UInt32.toNat_inj.mp
  rw [toNat_getEdgeHitNum (lagging.sums ref member)]
  omega

theorem Lagging.hitNum_syncedEdge (lagging : state.Lagging) {ref : EdgeRef}
    (member : ref ∈ allEdges state.graph) (drvId : Nat) :
    (syncedEdge state.fcov drvId (state.graph.edges ref)).hitNum =
      getEdgeHitNum state.fcov (state.graph.edges ref) := by
  unfold syncedEdge
  split
  next skipped =>
    rcases skipped with dead | same
    · have lag := lagging.edges ref member
      have live := toNat_getEdgeHitNum (lagging.sums ref member)
      apply UInt32.toNat_inj.mp
      rw [dead] at live ⊢
      simp at live ⊢
      omega
    · exact same
  next => rfl

/-- The graph as a closing synchronisation leaves it. -/
def closedGraph (state : Campaign) : CGGraph :=
  { syncedNodes state.graph state.fcov state.activeDriver state.graph.nodeRefs with
    edges := fun ref =>
      if ref ∈ allEdges state.graph then
        syncedEdge state.fcov state.activeDriver (state.graph.edges ref)
      else state.graph.edges ref }

theorem Lagging.nodeSync_eq (lagging : state.Lagging) :
    state.nodeSync =
      { graph := syncedNodes state.graph state.fcov state.activeDriver state.graph.nodeRefs
        newHitNodes :=
          state.graph.nodeRefs.countP fun ref => NewlyHitNode state.fcov (state.graph.nodes ref)
        totalHitNodes := state.graph.nodeRefs.countP fun ref =>
          fcovIsNodeVisited state.fcov (state.graph.nodes ref).key ≠ 0
        updatedNodes := (state.graph.nodeRefs.filter fun ref =>
          StaleNode state.fcov (state.graph.nodes ref)).map fun ref =>
            (state.graph.nodes ref).id } :=
  synchronizeNodes_eq lagging.wellFormed

theorem Lagging.edgeSync_graph (lagging : state.Lagging) :
    state.edgeSync.graph = closedGraph state := by
  have nodes := congrArg NodeSync.graph lagging.nodeSync_eq
  have full : state.edgeSync.graph.edges =
      (synchronizeEdges state.graph state.fcov state.activeDriver).graph.edges := by
    refine (synchronizeEdgesAt_eq_synchronizeEdges ?_ ?_ ?_).1
    · rw [nodes]
      rfl
    · intro ref visited
      rw [nodes] at visited
      exact mem_allEdges_of_mem_edgesAt lagging.wellFormed visited
    · exact fun ref member missed => lagging.edge_exact member missed
  have written : state.edgeSync.graph.edges = (closedGraph state).edges := by
    rw [full, synchronizeEdges_eq]
    funext ref
    exact foldl_syncEdge_edges (allEdges state.graph) ⟨state.graph, 0⟩ ref
  have kept : state.edgeSync.graph =
      { state.nodeSync.graph with edges := state.edgeSync.graph.edges } := by
    unfold edgeSync
    rw [synchronizeEdgesAt_eq, foldl_syncEdge]
  rw [kept, written, nodes]
  rfl

theorem Lagging.setActiveDriver_eq (lagging : state.Lagging) (active : state.activeDriver ≠ 0)
    (driverId : Nat) : state.setActiveDriver driverId =
      { fcov := { state.fcov with blockWrites := false }
        graph := closedGraph state
        activeDriver := driverId
        pc := .switched
        window := []
        syncs := state.syncs ++ [⟨state.nodeSync.newHitNodes, state.edgeSync.newHitEdges,
          state.nodeSync.totalHitNodes⟩] } := by
  rw [← lagging.edgeSync_graph]
  simp only [setActiveDriver, synchronizeGraphs, if_neg active]
  rfl

theorem closedGraph_nodes {ref : NodeRef} (member : ref ∈ state.graph.nodeRefs) :
    (closedGraph state).nodes ref =
      syncedNode state.fcov state.activeDriver (state.graph.nodes ref) :=
  if_pos member

theorem closedGraph_edges {ref : EdgeRef} (member : ref ∈ allEdges state.graph) :
    (closedGraph state).edges ref =
      syncedEdge state.fcov state.activeDriver (state.graph.edges ref) :=
  if_pos member

@[simp]
theorem closedGraph_key (ref : NodeRef) :
    ((closedGraph state).nodes ref).key = (state.graph.nodes ref).key := by
  change CGNode.key (if _ then _ else _) = _
  split
  · exact syncedNode_key _
  · rfl

theorem allEdges_closedGraph : allEdges (closedGraph state) = allEdges state.graph := by
  change (state.graph.nodeRefs.flatMap fun ref => ((closedGraph state).nodes ref).outEdges) =
    state.graph.nodeRefs.flatMap fun ref => (state.graph.nodes ref).outEdges
  apply List.flatMap_congr
  intro ref member
  rw [closedGraph_nodes member, (syncedNode_shape _).2.2]

theorem closedGraph_ends (ref : EdgeRef) :
    ((closedGraph state).edges ref).src = (state.graph.edges ref).src ∧
      ((closedGraph state).edges ref).dst = (state.graph.edges ref).dst := by
  change CGEdge.src (if _ then _ else _) = _ ∧ CGEdge.dst (if _ then _ else _) = _
  split
  · exact syncedEdge_ends _
  · exact ⟨rfl, rfl⟩

@[simp]
theorem closedGraph_keys (ref : EdgeRef) :
    ((closedGraph state).edges ref).keys = (state.graph.edges ref).keys := by
  change CGEdge.keys (if _ then _ else _) = _
  split
  · exact syncedEdge_keys _
  · rfl

theorem Lagging.countP_live (lagging : state.Lagging) :
    (state.graph.nodeRefs.countP fun ref =>
        fcovIsNodeVisited state.fcov (state.graph.nodes ref).key ≠ 0) =
      (state.graph.nodeRefs.countP fun ref => (state.graph.nodes ref).hitNum ≠ 0) +
        state.graph.nodeRefs.countP fun ref =>
          NewlyHitNode state.fcov (state.graph.nodes ref) := by
  apply countP_eq_add
  intro ref member
  have lag := lagging.nodes ref member
  constructor
  · constructor
    · intro live
      by_cases cached : (state.graph.nodes ref).hitNum = 0
      · exact .inr ⟨cached, live⟩
      · exact .inl cached
    · rintro (cached | newly) dead
      · apply cached
        apply UInt32.toNat_inj.mp
        rw [dead] at lag
        simp at lag ⊢
        exact lag.1
      · exact newly.2 dead
  · rintro ⟨cached, newly⟩
    exact cached newly.1

theorem Lagging.close (lagging : state.Lagging) (active : state.activeDriver ≠ 0)
    (driverId : Nat) : (state.setActiveDriver driverId).Lagging := by
  rw [lagging.setActiveDriver_eq active]
  have refs : (closedGraph state).nodeRefs = state.graph.nodeRefs := rfl
  refine ⟨?_, ⟨lagging.consistent.edges, lagging.consistent.funcs⟩, ?_, ?_, ?_, ?_, ?_, ?_⟩
  · exact (wellFormed_syncedNodes lagging.wellFormed _).of_edges closedGraph_ends
  · intro ref member edgeKey keyIn
    rw [allEdges_closedGraph] at member
    rw [closedGraph_keys] at keyIn
    rw [closedGraph_key, (closedGraph_ends ref).2]
    exact lagging.keyed ref member edgeKey keyIn
  · intro ref listed
    have member : ref ∈ state.graph.nodeRefs := listed
    dsimp only
    rw [closedGraph_nodes member, lagging.hitNum_syncedNode member, syncedNode_key]
    rfl
  · intro ref member
    rw [allEdges_closedGraph] at member
    dsimp only
    rw [closedGraph_keys, closedGraph_edges member, lagging.hitNum_syncedEdge member,
      toNat_getEdgeHitNum (lagging.sums ref member), callSum_nil]
    rfl
  · intro ref member
    rw [allEdges_closedGraph] at member
    dsimp only
    rw [closedGraph_keys]
    exact lagging.sums ref member
  · dsimp only
    rw [List.map_append, List.sum_append, lagging.reported, refs, lagging.nodeSync_eq]
    have caught : (state.graph.nodeRefs.countP fun ref =>
        ((closedGraph state).nodes ref).hitNum ≠ 0) = state.graph.nodeRefs.countP fun ref =>
          fcovIsNodeVisited state.fcov (state.graph.nodes ref).key ≠ 0 := by
      apply List.countP_congr
      intro ref member
      rw [closedGraph_nodes member, lagging.hitNum_syncedNode member]
    rw [caught, lagging.countP_live]
    simp
  · intro rest entered
    cases entered

end Closing

section Runs

variable {dladdr : UInt64 → Option UInt64} {state : Campaign}

theorem lagging_start {graph : CGGraph} (fresh : Fresh graph) : (start graph).Lagging where
  wellFormed := fresh.wellFormed
  consistent := consistent_zeroed
  keyed := fresh.keyed
  nodes := by
    intro ref member
    simp [start, fresh.nodes ref member, funcCalls]
  edges := by
    intro ref member
    simp [start, fresh.edges ref member, callSum_nil, liveSum, List.map_const']
  sums := by
    intro ref member
    simp [start, liveSum, List.map_const']
  reported := by
    have none_ : (graph.nodeRefs.countP fun ref => (graph.nodes ref).hitNum ≠ 0) = 0 := by
      apply List.countP_eq_zero.mpr
      intro ref member
      simp [fresh.nodes ref member]
    exact none_.symm
  covering := by
    intro rest entered
    cases entered

/-- Without an active driver a switch synchronises nothing. -/
theorem setActiveDriver_of_inactive (inactive : state.activeDriver = 0) (driverId : Nat) :
    state.setActiveDriver driverId =
      { state with
        fcov := { state.fcov with blockWrites := false }
        activeDriver := driverId
        pc := .switched } := by
  simp only [setActiveDriver, synchronizeGraphs, inactive, if_true]

theorem Lagging.setActiveDriver (lagging : state.Lagging) (driverId : Nat) :
    (state.setActiveDriver driverId).Lagging := by
  by_cases active : state.activeDriver = 0
  · rw [setActiveDriver_of_inactive active]
    refine ⟨lagging.wellFormed, ⟨lagging.consistent.edges, lagging.consistent.funcs⟩,
      lagging.keyed, lagging.nodes, lagging.edges, lagging.sums, lagging.reported, ?_⟩
    intro rest entered
    cases entered
  · exact lagging.close active driverId

theorem Lagging.step {next : Campaign} {action : CampaignAction} (lagging : state.Lagging)
    (allowed : state.Recordable dladdr action ∧ state.Undisturbed action)
    (taken : state.step dladdr action = some next) : next.Lagging := by
  cases action with
  | fcovRecord caller callee =>
      cases taken
      exact lagging.record allowed.1
  | setActiveDriver driverId init =>
      simp only [Campaign.step] at taken
      split at taken
      next =>
        cases taken
        exact lagging.of_pc fun rest entered => (by cases entered)
      next =>
        cases taken
        exact lagging.setActiveDriver driverId
      next =>
        cases taken
        exact lagging.setActiveDriver driverId
      next => cases taken
  | getCoveredFuncs =>
      simp only [Campaign.step] at taken
      split at taken
      next =>
        cases taken
        exact lagging.of_pc fun rest entered => mem_of_covering_eq entered
      next => cases taken
  | readNode =>
      simp only [Campaign.step] at taken
      split at taken
      next ref rest here =>
        cases taken
        have listed := lagging.covering _ here
        have uncalled := allowed.2 ref (by simp [PolicyPc.nextNode, here])
        rw [lagging.readNode_eq (listed ref List.mem_cons_self) uncalled]
        exact lagging.of_pc fun _ entered other member =>
          listed other (List.mem_cons_of_mem ref (mem_of_covering_eq entered other member))
      next => cases taken

theorem Lagging.attributed (lagging : state.Lagging) (active : state.activeDriver ≠ 0)
    (driverId : Nat) :
    NodesAttributed state (state.setActiveDriver driverId) ∧
      EdgesAttributed state (state.setActiveDriver driverId) ∧
      NewNodesCounted (state.setActiveDriver driverId) := by
  have closed := lagging.close active driverId
  have reported := closed.reported
  rw [lagging.setActiveDriver_eq active] at closed reported ⊢
  refine ⟨?_, ?_, ?_⟩
  · intro ref member called
    dsimp only
    rw [closedGraph_nodes member, syncedNode, if_pos (lagging.stale_of_called member called)]
    simp [hasDriverId_setDriverIdMask, active]
  · rintro ref member ⟨edgeKey, keyIn, called⟩
    have behind : (state.graph.edges ref).hitNum.toNat <
        (getEdgeHitNum state.fcov (state.graph.edges ref)).toNat := by
      have lag := lagging.edges ref member
      have some_ : edgeCalls state.window edgeKey ≤
          callSum state.window (state.graph.edges ref).keys :=
        List.single_le_sum (fun _ _ => Nat.zero_le _) _ (List.mem_map_of_mem keyIn)
      rw [toNat_getEdgeHitNum (lagging.sums ref member)]
      omega
    dsimp only
    constructor
    · rw [closedGraph_edges member, syncedEdge, if_neg]
      · simp [hasDriverId_setDriverIdMask, active]
      · rintro (dead | same)
        · rw [dead] at behind
          exact absurd behind (Nat.not_lt_zero _)
        · rw [same] at behind
          exact absurd behind (Nat.lt_irrefl _)
    · rw [closedGraph_edges member, lagging.hitNum_syncedEdge member]
      exact (getEdgeHitNum_syncedEdge _).symm
  · refine reported.trans ?_
    apply List.countP_congr
    intro ref listed
    have member : ref ∈ state.graph.nodeRefs := listed
    dsimp only
    rw [closedGraph_nodes member, lagging.hitNum_syncedNode member, syncedNode_key]
    rfl

/-- In a campaign whose `getCoveredFuncs` only reads nodes that were not called
since the last synchronisation, every closed window is credited to its driver
and every covered node is reported as new once. -/
theorem window_attributed {graph : CGGraph} {after : Campaign} {actions : List CampaignAction}
    {driverId : Nat} (fresh : Fresh graph)
    (allowed : Along (step dladdr)
      (fun state action => state.Recordable dladdr action ∧ state.Undisturbed action)
      (start graph) actions)
    (reached : runFrom (step dladdr) (start graph) actions = some state)
    (active : state.activeDriver ≠ 0)
    (closed : state.step dladdr (.setActiveDriver driverId false) = some after) :
    NodesAttributed state after ∧ EdgesAttributed state after ∧ NewNodesCounted after := by
  have lagging : state.Lagging :=
    allowed.invariant (fun _ _ _ kept permitted taken => kept.step permitted taken)
      (lagging_start fresh) reached
  have switched : after = state.setActiveDriver driverId := by
    simp only [Campaign.step] at closed
    split at closed
    next wrong => cases wrong
    next => exact (Option.some.inj closed).symm
    next => exact (Option.some.inj closed).symm
    next => cases closed
  rw [switched]
  exact lagging.attributed active driverId

end Runs

section Examples

theorem fresh_twoFunctions : Fresh twoFunctions :=
  ⟨by decide, by decide, by decide, by decide⟩

/-- The first switch of a campaign: driver 2 takes over from driver 1. -/
def firstSwitch : List CampaignAction := [.setActiveDriver 1 true, .setActiveDriver 2 false]

/-- The state a campaign on `twoFunctions` ends in. -/
def ends (actions : List CampaignAction)
    (taken : (runFrom (step fun _ => none) (start twoFunctions) actions).isSome = true) :
    Campaign :=
  (runFrom (step fun _ => none) (start twoFunctions) actions).get taken

theorem runFrom_ends (actions : List CampaignAction)
    (taken : (runFrom (step fun _ => none) (start twoFunctions) actions).isSome = true) :
    runFrom (step fun _ => none) (start twoFunctions) actions = some (ends actions taken) :=
  (Option.some_get taken).symm

theorem window_attributed_later_call : ∃ state after,
    runFrom (step fun _ => none) (start twoFunctions)
      (firstSwitch ++ [.getCoveredFuncs, .readNode, .readNode, .fcovRecord 0x401005 0x402000]) =
        some state ∧
      state.step (fun _ => none) (.setActiveDriver 1 false) = some after ∧
      NodesAttributed state after ∧ EdgesAttributed state after ∧ NewNodesCounted after :=
  ⟨_, _, runFrom_ends _ (by decide), rfl,
    window_attributed fresh_twoFunctions (by decide) (runFrom_ends _ (by decide)) (by decide) rfl⟩

/-- A call recorded between the switch and `getCoveredFuncs` is lost: its node
and its edge are not credited to driver 2, and the node is never reported. -/
theorem window_misattributed : ∃ actions state after,
    Along (step fun _ => none) (fun state action => state.Recordable (fun _ => none) action)
        (start twoFunctions) actions ∧
      runFrom (step fun _ => none) (start twoFunctions) actions = some state ∧
      state.activeDriver ≠ 0 ∧
      state.step (fun _ => none) (.setActiveDriver 1 false) = some after ∧
      ¬NodesAttributed state after ∧ ¬EdgesAttributed state after ∧ ¬NewNodesCounted after := by
  refine ⟨firstSwitch ++ [.fcovRecord 0x401005 0x402000, .getCoveredFuncs, .readNode, .readNode],
    _, _, by decide, runFrom_ends _ (by decide), by decide, rfl, ?_, ?_, ?_⟩
  · intro attributed
    exact absurd (attributed 1 (by decide) (by decide)) (by decide)
  · intro attributed
    have credited := attributed 0 (by decide)
      ⟨fcovMakeEdgeKey 0x401005 0x402000, by decide, by decide⟩
    exact absurd credited.1 (by decide)
  · unfold NewNodesCounted
    decide

end Examples

end Campaign

end GraphDissect.Scheduler
