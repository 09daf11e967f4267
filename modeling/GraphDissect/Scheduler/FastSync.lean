import GraphDissect.Fcov.Events
import GraphDissect.Scheduler.Sync

/-!
# Fast and full edge synchronisation

`synchronizeGraphs` visits only the edges at the nodes it has just updated.
When the graph was in sync before a batch of records, every recorded call was
recorded for its callee as well and no function count wrapped, this finds every
edge that changed.
-/

namespace GraphDissect.Scheduler

open CallGraph Fcov

/-- Every count of the graph is that of the coverage map. -/
structure InSync (graph : CGGraph) (fcov : FuncCoverage) : Prop where
  nodes : ∀ ref ∈ graph.nodeRefs,
    (graph.nodes ref).hitNum = fcovIsNodeVisited fcov (graph.nodes ref).key
  edges : ∀ ref ∈ allEdges graph, (graph.edges ref).hitNum = getEdgeHitNum fcov (graph.edges ref)

/-- The low half of each key of an edge is the key of its callee. -/
def EdgesKeyed (graph : CGGraph) : Prop :=
  ∀ ref ∈ allEdges graph, ∀ edgeKey ∈ (graph.edges ref).keys,
    calleeKey edgeKey = (graph.nodes (graph.edges ref).dst).key

-- The default instance for the inner quantifier would enumerate all 64-bit keys.
instance (graph : CGGraph) : Decidable (EdgesKeyed graph) :=
  @List.decidableBAll _ _ (fun _ => @List.decidableBAll _ _ (fun _ => inferInstance) _) _

/-- Each edge increment of a batch comes with one of the callee's function. -/
def Accompanied (fcov : FuncCoverage) (batch : List CoverageRecord) : Prop :=
  ∀ edgeKey, edgeIncrements edgeKey fcov batch ≠ 0 →
    funcIncrements (calleeKey edgeKey) fcov batch ≠ 0

/-- No function count passes `2 ^ 32` during a batch. -/
def FuncsFit (fcov : FuncCoverage) (batch : List CoverageRecord) : Prop :=
  ∀ key, (fcovIsNodeVisited fcov key).toNat + funcIncrements key fcov batch < 2 ^ 32

theorem getEdgeHitNum_congr {before after : FuncCoverage} {edge : CGEdge}
    (same : ∀ edgeKey ∈ edge.keys, fcovIsEdgeVisited after edgeKey =
      fcovIsEdgeVisited before edgeKey) :
    getEdgeHitNum after edge = getEdgeHitNum before edge := by
  unfold getEdgeHitNum
  apply List.foldl_ext
  intro hitNum edgeKey member
  rw [same edgeKey member]

section Batch

variable {graph : CGGraph} {fcov : FuncCoverage} {batch : List CoverageRecord} {drvId : Nat}

theorem staleNode_of_incremented (consistent : fcov.Consistent) (inSync : InSync graph fcov)
    (fits : FuncsFit fcov batch) {ref : NodeRef} (member : ref ∈ graph.nodeRefs)
    (called : funcIncrements (graph.nodes ref).key fcov batch ≠ 0) :
    StaleNode (recordAll fcov batch) (graph.nodes ref) := by
  have live := (recordAll_visited consistent batch).2.2 (graph.nodes ref).key
  have bound := fits (graph.nodes ref).key
  have counted : (fcovIsNodeVisited (recordAll fcov batch) (graph.nodes ref).key).toNat =
      (fcovIsNodeVisited fcov (graph.nodes ref).key).toNat +
        funcIncrements (graph.nodes ref).key fcov batch := by
    rw [live, toNat_add_ofNat bound]
  constructor
  · intro dead
    rw [dead] at counted
    simp at counted
    omega
  · intro same
    rw [inSync.nodes ref member] at same
    rw [← same] at counted
    omega

theorem mem_edgesAt_of_stale (wellFormed : graph.WellFormed) {after : FuncCoverage}
    {ref : EdgeRef} (member : ref ∈ allEdges graph)
    (stale : StaleNode after (graph.nodes (graph.edges ref).dst)) :
    ref ∈ edgesAt (synchronizeNodes graph after drvId).graph
      (synchronizeNodes graph after drvId).updatedNodes := by
  rcases List.mem_flatMap.mp member with ⟨src, srcIn, out⟩
  rcases wellFormed.outgoing src srcIn ref out with ⟨-, dstIn, into⟩
  rw [synchronizeNodes_eq wellFormed]
  refine mem_edgesAt.mpr ⟨(graph.nodes (graph.edges ref).dst).id, ?_, (graph.edges ref).dst,
    (wellFormed.getGNode_id dstIn).1, ?_⟩
  · exact List.mem_map.mpr ⟨_, List.mem_filter.mpr ⟨dstIn, by simpa using stale⟩, rfl⟩
  · apply List.mem_append_right
    change ref ∈ CGNode.inEdges (if _ then _ else _)
    rw [if_pos dstIn, (syncedNode_shape _).2.1]
    exact into

/-- The fast synchronisation visits edges of the graph only. -/
theorem mem_allEdges_of_mem_edgesAt (wellFormed : graph.WellFormed) {after : FuncCoverage}
    {nodeIds : List Nat} {ref : EdgeRef}
    (member : ref ∈ edgesAt (syncedNodes graph after drvId graph.nodeRefs) nodeIds) :
    ref ∈ allEdges graph := by
  rcases mem_edgesAt.mp member with ⟨nodeId, -, node, found, visited⟩
  have nodeIn : node ∈ graph.nodeRefs := CGGraph.mem_nodeRefs.mpr ⟨nodeId, found⟩
  have shape := @syncedNode_shape after drvId (graph.nodes node)
  have here : (syncedNodes graph after drvId graph.nodeRefs).nodes node =
      syncedNode after drvId (graph.nodes node) := if_pos nodeIn
  rw [here, shape.2.1, shape.2.2] at visited
  rcases List.mem_append.mp visited with out | into
  · exact List.mem_flatMap.mpr ⟨node, nodeIn, out⟩
  · rcases wellFormed.incoming node nodeIn ref into with ⟨-, srcIn, out⟩
    exact List.mem_flatMap.mpr ⟨_, srcIn, out⟩

/-- After a batch of paired records, synchronising the nodes and then the edges
at the updated nodes does to every edge what the full synchronisation does. -/
theorem fast_synchronizeEdges_eq_full (wellFormed : graph.WellFormed)
    (consistent : fcov.Consistent) (inSync : InSync graph fcov) (keyed : EdgesKeyed graph)
    (accompanied : Accompanied fcov batch) (fits : FuncsFit fcov batch) :
    let after := recordAll fcov batch
    let sync := synchronizeNodes graph after drvId
    let fast := synchronizeEdgesAt sync.graph after sync.updatedNodes drvId
    let full := synchronizeEdges graph after drvId
    fast.graph.edges = full.graph.edges ∧ fast.newHitEdges = full.newHitEdges := by
  intro after sync fast full
  have synced := @synchronizeNodes_eq after drvId graph wellFormed
  apply synchronizeEdgesAt_eq_synchronizeEdges
  · change (synchronizeNodes graph after drvId).graph.edges = graph.edges
    rw [synced]
    rfl
  · intro ref visited
    apply mem_allEdges_of_mem_edgesAt wellFormed
    change ref ∈ edgesAt (synchronizeNodes graph after drvId).graph _ at visited
    rw [synced] at visited
    exact visited
  · intro ref member missed
    rw [inSync.edges ref member]
    refine (getEdgeHitNum_congr fun edgeKey keyIn => ?_).symm
    have uncalled : edgeIncrements edgeKey fcov batch = 0 := by
      by_contra incremented
      rcases List.mem_flatMap.mp member with ⟨src, srcIn, out⟩
      have dstIn := (wellFormed.outgoing src srcIn ref out).2.1
      have called := accompanied edgeKey incremented
      rw [keyed ref member edgeKey keyIn] at called
      exact missed (mem_edgesAt_of_stale wellFormed member
        (staleNode_of_incremented consistent inSync fits dstIn called))
    rw [(recordAll_visited consistent batch).2.1 edgeKey, uncalled]
    exact add_ofNat_zero _

end Batch

section Example

/-- `main` calls `parse`; the call returns to `0x401005`. -/
def twoFunctions : CGGraph :=
  let graph := (CGGraph.empty.addNode "main".toList).1
  let graph := (graph.addNode "parse".toList).1
  let graph := (graph.addEdge 0 1).1
  let graph := graph.setNode 0 { graph.nodes 0 with key := 0x401000 }
  let graph := graph.setNode 1 { graph.nodes 1 with key := 0x402000 }
  graph.setEdge 0 { graph.edges 0 with keys := [fcovMakeEdgeKey 0x401005 0x402000] }

def oneCall : List CoverageRecord :=
  [.edge (fcovMakeEdgeKey 0x401005 0x402000), .func 0x402000]

theorem accompanied_oneCall : Accompanied FuncCoverage.zeroed oneCall := by
  intro edgeKey incremented
  by_cases same : edgeKey = fcovMakeEdgeKey 0x401005 0x402000
  · subst same
    decide
  · exact absurd incremented (by simp [oneCall, edgeIncrements, edgeIncrement, Ne.symm same])

theorem fast_synchronizeEdges_eq_full_oneCall :
    let after := recordAll FuncCoverage.zeroed oneCall
    let sync := synchronizeNodes twoFunctions after 3
    let fast := synchronizeEdgesAt sync.graph after sync.updatedNodes 3
    fast.graph.edges = (synchronizeEdges twoFunctions after 3).graph.edges ∧
      fast.newHitEdges = (synchronizeEdges twoFunctions after 3).newHitEdges :=
  fast_synchronizeEdges_eq_full (by decide) consistent_zeroed ⟨by decide, by decide⟩
    (by decide) accompanied_oneCall
    (fun key => by
      have small := funcIncrements_le key FuncCoverage.zeroed oneCall
      rw [fcovIsNodeVisited_zeroed]
      change 0 + _ < 2 ^ 32
      change _ ≤ 2 at small
      omega)

end Example

end GraphDissect.Scheduler
