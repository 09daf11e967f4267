import GraphDissect.CallGraph.Graph
import GraphDissect.Fcov.Table
import GraphDissect.Library.Visits

/-!
# Synchronising the graph with the coverage map

`synchronizeNodes` and the two `synchronizeEdges` of `scheduler.h`.  The full
edge synchronisation walks the whole graph; the fast one walks the edges at
the nodes that the node synchronisation has just updated.
-/

namespace GraphDissect.Scheduler

open CallGraph Fcov Library

def getNodeHitNum (graph : CGGraph) (fcov : FuncCoverage) (nodeId : Nat) : UInt32 :=
  if nodeId = 0 then 0
  else match graph.getGNode nodeId with
    | none => 0
    | some ref => fcovIsNodeVisited fcov (graph.nodes ref).key

/-- The live count of an edge: the sum over its call sites, modulo `2 ^ 32`. -/
def getEdgeHitNum (fcov : FuncCoverage) (edge : CGEdge) : UInt32 :=
  edge.keys.foldl (fun hitNum edgeKey => hitNum + fcovIsEdgeVisited fcov edgeKey) 0

/-- The results of `synchronizeNodes`. -/
structure NodeSync where
  graph : CGGraph
  newHitNodes : Nat
  totalHitNodes : Nat
  updatedNodes : List Nat

/-- One turn of the loop of `synchronizeNodes`. -/
def syncNode (fcov : FuncCoverage) (drvId : Nat) (sync : NodeSync) (ref : NodeRef) : NodeSync :=
  let node := sync.graph.nodes ref
  let nodeId := node.id
  let hitNum := getNodeHitNum sync.graph fcov nodeId
  let totalHitNodes := if hitNum ≠ 0 then sync.totalHitNodes + 1 else sync.totalHitNodes
  if hitNum = 0 ∨ node.hitNum = hitNum then { sync with totalHitNodes }
  else
    { graph := sync.graph.setNode ref
        { node with
          hitNum
          driverIdMask := setDriverIdMask node.driverIdMask drvId }
      newHitNodes := if node.hitNum = 0 then sync.newHitNodes + 1 else sync.newHitNodes
      totalHitNodes
      updatedNodes := sync.updatedNodes ++ [nodeId] }

/-- Bring the nodes up to date with the coverage map. -/
def synchronizeNodes (graph : CGGraph) (fcov : FuncCoverage) (drvId : Nat) : NodeSync :=
  graph.nodeRefs.foldl (syncNode fcov drvId) ⟨graph, 0, 0, []⟩

/-- The results of `synchronizeEdges`. -/
structure EdgeSync where
  graph : CGGraph
  newHitEdges : Nat

/-- The body that all loops over edges share. -/
def syncEdge (fcov : FuncCoverage) (drvId : Nat) (sync : EdgeSync) (ref : EdgeRef) : EdgeSync :=
  let edge := sync.graph.edges ref
  let hitNum := getEdgeHitNum fcov edge
  if hitNum = 0 ∨ edge.hitNum = hitNum then sync
  else
    { graph := sync.graph.setEdge ref
        { edge with
          hitNum
          driverIdMask := setDriverIdMask edge.driverIdMask drvId }
      newHitEdges := if edge.hitNum = 0 then sync.newHitEdges + 1 else sync.newHitEdges }

/-- The full synchronisation: every out-edge of every node. -/
def synchronizeEdges (graph : CGGraph) (fcov : FuncCoverage) (drvId : Nat) : EdgeSync :=
  graph.nodeRefs.foldl
    (fun sync ref => (sync.graph.nodes ref).outEdges.foldl (syncEdge fcov drvId) sync) ⟨graph, 0⟩

/-- The fast synchronisation: the out-edges and in-edges of the given nodes. -/
def synchronizeEdgesAt (graph : CGGraph) (fcov : FuncCoverage) (newHitNodes : List Nat)
    (drvId : Nat) : EdgeSync :=
  newHitNodes.foldl
    (fun sync nodeId =>
      match sync.graph.getGNode nodeId with
      | none => sync
      | some ref =>
          let sync := (sync.graph.nodes ref).outEdges.foldl (syncEdge fcov drvId) sync
          (sync.graph.nodes ref).inEdges.foldl (syncEdge fcov drvId) sync)
    ⟨graph, 0⟩

section Edges

variable (fcov : FuncCoverage) (drvId : Nat)

def syncedEdge (edge : CGEdge) : CGEdge :=
  if getEdgeHitNum fcov edge = 0 ∨ edge.hitNum = getEdgeHitNum fcov edge then edge
  else
    { edge with
      hitNum := getEdgeHitNum fcov edge
      driverIdMask := setDriverIdMask edge.driverIdMask drvId }

/-- An edge that a visit counts as newly hit. -/
def NewlyHit (edge : CGEdge) : Prop := edge.hitNum = 0 ∧ getEdgeHitNum fcov edge ≠ 0

instance (edge : CGEdge) : Decidable (NewlyHit fcov edge) :=
  inferInstanceAs (Decidable (edge.hitNum = 0 ∧ getEdgeHitNum fcov edge ≠ 0))

variable {fcov drvId}

@[simp]
theorem syncedEdge_keys (edge : CGEdge) : (syncedEdge fcov drvId edge).keys = edge.keys := by
  unfold syncedEdge
  split <;> rfl

@[simp]
theorem getEdgeHitNum_syncedEdge (edge : CGEdge) :
    getEdgeHitNum fcov (syncedEdge fcov drvId edge) = getEdgeHitNum fcov edge := by
  simp [getEdgeHitNum]

theorem syncedEdge_ends (edge : CGEdge) :
    (syncedEdge fcov drvId edge).src = edge.src ∧ (syncedEdge fcov drvId edge).dst = edge.dst := by
  unfold syncedEdge
  split <;> exact ⟨rfl, rfl⟩

@[simp]
theorem syncedEdge_syncedEdge (edge : CGEdge) :
    syncedEdge fcov drvId (syncedEdge fcov drvId edge) = syncedEdge fcov drvId edge := by
  rw [syncedEdge, getEdgeHitNum_syncedEdge, if_pos]
  unfold syncedEdge
  split
  next same => exact same
  next => exact .inr rfl

theorem not_newlyHit_syncedEdge (edge : CGEdge) :
    ¬NewlyHit fcov (syncedEdge fcov drvId edge) := by
  rintro ⟨zero, live⟩
  rw [getEdgeHitNum_syncedEdge] at live
  unfold syncedEdge at zero
  split at zero
  next skipped =>
    rcases skipped with dead | same
    · exact live dead
    · exact live (same.symm.trans zero)
  next => exact live zero

theorem syncEdge_eq (sync : EdgeSync) (ref : EdgeRef) :
    syncEdge fcov drvId sync ref =
      ⟨sync.graph.setEdge ref (syncedEdge fcov drvId (sync.graph.edges ref)),
        sync.newHitEdges + if NewlyHit fcov (sync.graph.edges ref) then 1 else 0⟩ := by
  unfold syncEdge syncedEdge NewlyHit
  by_cases dead : getEdgeHitNum fcov (sync.graph.edges ref) = 0
  · simp [dead, CGGraph.setEdge]
  · by_cases same : (sync.graph.edges ref).hitNum = getEdgeHitNum fcov (sync.graph.edges ref)
    · have live : (sync.graph.edges ref).hitNum ≠ 0 := by rwa [same]
      simp [same, CGGraph.setEdge, dead]
    · simp only [dead, same, or_self, if_false, not_false_iff, and_true, ne_eq]
      split <;> rfl

theorem foldl_syncEdge (refs : List EdgeRef) (sync : EdgeSync) :
    refs.foldl (syncEdge fcov drvId) sync =
      ⟨{ sync.graph with
          edges := (refs.foldl (visit (syncedEdge fcov drvId) (NewlyHit fcov))
            (sync.graph.edges, sync.newHitEdges)).1 },
        (refs.foldl (visit (syncedEdge fcov drvId) (NewlyHit fcov))
          (sync.graph.edges, sync.newHitEdges)).2⟩ := by
  induction refs generalizing sync with
  | nil => rfl
  | cons ref rest inductionHypothesis =>
      rw [List.foldl_cons, inductionHypothesis, syncEdge_eq]
      rfl

theorem foldl_syncEdge_edges (refs : List EdgeRef) (sync : EdgeSync) (ref : EdgeRef) :
    (refs.foldl (syncEdge fcov drvId) sync).graph.edges ref =
      if ref ∈ refs then syncedEdge fcov drvId (sync.graph.edges ref)
      else sync.graph.edges ref := by
  rw [foldl_syncEdge]
  exact foldl_visit_fst syncedEdge_syncedEdge refs _ ref

theorem foldl_syncEdge_newHitEdges (refs : List EdgeRef) (sync : EdgeSync) :
    (refs.foldl (syncEdge fcov drvId) sync).newHitEdges =
      sync.newHitEdges +
        (refs.toFinset.filter fun ref => NewlyHit fcov (sync.graph.edges ref)).card := by
  rw [foldl_syncEdge]
  exact foldl_visit_snd not_newlyHit_syncedEdge refs _

@[simp]
theorem syncEdge_nodes (sync : EdgeSync) (ref : EdgeRef) :
    (syncEdge fcov drvId sync ref).graph.nodes = sync.graph.nodes := by
  rw [syncEdge_eq]
  rfl

@[simp]
theorem syncEdge_idToNode (sync : EdgeSync) (ref : EdgeRef) :
    (syncEdge fcov drvId sync ref).graph.idToNode = sync.graph.idToNode := by
  rw [syncEdge_eq]
  rfl

/-- The edges the full synchronisation visits. -/
def allEdges (graph : CGGraph) : List EdgeRef :=
  graph.nodeRefs.flatMap fun ref => (graph.nodes ref).outEdges

/-- The edges the fast synchronisation visits. -/
def edgesAt (graph : CGGraph) (nodeIds : List Nat) : List EdgeRef :=
  nodeIds.flatMap fun nodeId =>
    match graph.getGNode nodeId with
    | none => []
    | some ref => (graph.nodes ref).outEdges ++ (graph.nodes ref).inEdges

theorem mem_edgesAt {graph : CGGraph} {nodeIds : List Nat} {edge : EdgeRef} :
    edge ∈ edgesAt graph nodeIds ↔ ∃ nodeId ∈ nodeIds, ∃ ref, graph.getGNode nodeId = some ref ∧
      edge ∈ (graph.nodes ref).outEdges ++ (graph.nodes ref).inEdges := by
  rw [edgesAt, List.mem_flatMap]
  refine exists_congr fun nodeId => and_congr_right fun _ => ?_
  cases graph.getGNode nodeId with
  | none => simp
  | some ref => simp

theorem synchronizeEdges_eq (graph : CGGraph) :
    synchronizeEdges graph fcov drvId =
      (allEdges graph).foldl (syncEdge fcov drvId) ⟨graph, 0⟩ :=
  @foldl_inner_eq _ _ _ _ _ _ (fun sync : EdgeSync => sync.graph.nodes = graph.nodes)
    (fun _ _ same => (syncEdge_nodes _ _).trans same)
    (fun _ ref same => by rw [same]) graph.nodeRefs _ rfl

theorem synchronizeEdgesAt_eq (graph : CGGraph) (nodeIds : List Nat) :
    synchronizeEdgesAt graph fcov nodeIds drvId =
      (edgesAt graph nodeIds).foldl (syncEdge fcov drvId) ⟨graph, 0⟩ := by
  have merged : synchronizeEdgesAt graph fcov nodeIds drvId =
      nodeIds.foldl (fun sync nodeId =>
        (edgesAt sync.graph [nodeId]).foldl (syncEdge fcov drvId) sync) ⟨graph, 0⟩ := by
    unfold synchronizeEdgesAt
    congr 1
    funext sync nodeId
    simp only [edgesAt, List.flatMap_cons, List.flatMap_nil, List.append_nil]
    cases sync.graph.getGNode nodeId with
    | none => rfl
    | some ref =>
        simp only [List.foldl_append]
        rw [foldl_syncEdge (sync.graph.nodes ref).outEdges sync]
  rw [merged]
  exact @foldl_inner_eq _ _ _ _ _ _
    (fun sync : EdgeSync => sync.graph.nodes = graph.nodes ∧
      sync.graph.idToNode = graph.idToNode)
    (fun sync ref same => ⟨(syncEdge_nodes sync ref).trans same.1,
      (syncEdge_idToNode sync ref).trans same.2⟩)
    (fun sync nodeId same => by
      simp only [edgesAt, CGGraph.getGNode, same, List.flatMap_cons, List.flatMap_nil,
        List.append_nil])
    nodeIds _ ⟨rfl, rfl⟩

end Edges

section Nodes

/-- A node that the synchronisation has to update. -/
def StaleNode (fcov : FuncCoverage) (node : CGNode) : Prop :=
  fcovIsNodeVisited fcov node.key ≠ 0 ∧ node.hitNum ≠ fcovIsNodeVisited fcov node.key

instance (fcov : FuncCoverage) (node : CGNode) : Decidable (StaleNode fcov node) :=
  inferInstanceAs (Decidable (_ ∧ _))

def syncedNode (fcov : FuncCoverage) (drvId : Nat) (node : CGNode) : CGNode :=
  if StaleNode fcov node then
    { node with
      hitNum := fcovIsNodeVisited fcov node.key
      driverIdMask := setDriverIdMask node.driverIdMask drvId }
  else node

/-- A node that a visit counts as newly hit. -/
def NewlyHitNode (fcov : FuncCoverage) (node : CGNode) : Prop :=
  node.hitNum = 0 ∧ fcovIsNodeVisited fcov node.key ≠ 0

instance (fcov : FuncCoverage) (node : CGNode) : Decidable (NewlyHitNode fcov node) :=
  inferInstanceAs (Decidable (_ ∧ _))

variable {fcov : FuncCoverage} {drvId : Nat}

theorem getNodeHitNum_eq {graph : CGGraph} (wellFormed : graph.WellFormed) {ref : NodeRef}
    (member : ref ∈ graph.nodeRefs) :
    getNodeHitNum graph fcov (graph.nodes ref).id =
      fcovIsNodeVisited fcov (graph.nodes ref).key := by
  rcases wellFormed.getGNode_id member with ⟨found, positive⟩
  rw [getNodeHitNum, if_neg positive, found]

theorem syncNode_eq {sync : NodeSync} {ref : NodeRef}
    (live : getNodeHitNum sync.graph fcov (sync.graph.nodes ref).id =
      fcovIsNodeVisited fcov (sync.graph.nodes ref).key) :
    syncNode fcov drvId sync ref =
      { graph := sync.graph.setNode ref (syncedNode fcov drvId (sync.graph.nodes ref))
        newHitNodes := sync.newHitNodes +
          if NewlyHitNode fcov (sync.graph.nodes ref) then 1 else 0
        totalHitNodes := sync.totalHitNodes +
          if fcovIsNodeVisited fcov (sync.graph.nodes ref).key ≠ 0 then 1 else 0
        updatedNodes := sync.updatedNodes ++
          if StaleNode fcov (sync.graph.nodes ref) then [(sync.graph.nodes ref).id] else [] } := by
  simp only [syncNode, live, syncedNode, NewlyHitNode, StaleNode]
  by_cases dead : fcovIsNodeVisited fcov (sync.graph.nodes ref).key = 0
  · simp [dead, CGGraph.setNode]
  · by_cases same : (sync.graph.nodes ref).hitNum =
        fcovIsNodeVisited fcov (sync.graph.nodes ref).key
    · simp [dead, same, CGGraph.setNode]
    · simp only [dead, same, or_self, if_false, not_false_iff, and_true, ne_eq, if_true]
      split <;> rfl

theorem syncedNode_shape (node : CGNode) :
    (syncedNode fcov drvId node).id = node.id ∧
      (syncedNode fcov drvId node).inEdges = node.inEdges ∧
      (syncedNode fcov drvId node).outEdges = node.outEdges := by
  unfold syncedNode
  split <;> exact ⟨rfl, rfl, rfl⟩

@[simp]
theorem syncedNode_key (node : CGNode) : (syncedNode fcov drvId node).key = node.key := by
  unfold syncedNode
  split <;> rfl

/-- The graph when some of its nodes have been visited. -/
def syncedNodes (graph : CGGraph) (fcov : FuncCoverage) (drvId : Nat) (done : List NodeRef) :
    CGGraph :=
  { graph with
    nodes := fun ref =>
      if ref ∈ done then syncedNode fcov drvId (graph.nodes ref) else graph.nodes ref }

theorem wellFormed_syncedNodes {graph : CGGraph} (wellFormed : graph.WellFormed)
    (done : List NodeRef) : (syncedNodes graph fcov drvId done).WellFormed := by
  apply wellFormed.of_nodes
  intro ref
  split
  · exact syncedNode_shape (graph.nodes ref)
  · exact ⟨rfl, rfl, rfl⟩

theorem foldl_syncNode {graph : CGGraph} (wellFormed : graph.WellFormed)
    (refs done : List NodeRef) (distinct : (done ++ refs).Nodup)
    (listed : ∀ ref ∈ refs, ref ∈ graph.nodeRefs) (newHit total : Nat) (updated : List Nat) :
    refs.foldl (syncNode fcov drvId) ⟨syncedNodes graph fcov drvId done, newHit, total, updated⟩ =
      { graph := syncedNodes graph fcov drvId (done ++ refs)
        newHitNodes := newHit + refs.countP fun ref => NewlyHitNode fcov (graph.nodes ref)
        totalHitNodes := total +
          refs.countP fun ref => fcovIsNodeVisited fcov (graph.nodes ref).key ≠ 0
        updatedNodes := updated ++
          (refs.filter fun ref => StaleNode fcov (graph.nodes ref)).map
            fun ref => (graph.nodes ref).id } := by
  induction refs generalizing done newHit total updated with
  | nil => simp
  | cons ref rest inductionHypothesis =>
      have fresh : ref ∉ done := by
        intro again
        exact (List.nodup_append.mp distinct).2.2 ref again ref List.mem_cons_self rfl
      have here : (syncedNodes graph fcov drvId done).nodes ref = graph.nodes ref := if_neg fresh
      have visited : (syncedNodes graph fcov drvId done).setNode ref
          (syncedNode fcov drvId (graph.nodes ref)) =
            syncedNodes graph fcov drvId (done ++ [ref]) := by
        unfold CGGraph.setNode syncedNodes
        congr 1
        funext other
        by_cases same : other = ref
        · subst same
          simp
        · simp [same]
      rw [List.foldl_cons, syncNode_eq (getNodeHitNum_eq (wellFormed_syncedNodes wellFormed done)
        (listed ref List.mem_cons_self)), here, visited,
        inductionHypothesis (done ++ [ref]) (by simpa using distinct)
          (fun other member => listed other (List.mem_cons_of_mem ref member))]
      simp only [List.append_assoc, List.singleton_append, List.countP_cons, List.filter_cons]
      congr 1
      · simp only [decide_eq_true_eq]
        omega
      · simp only [decide_eq_true_eq]
        omega
      · by_cases stale : StaleNode fcov (graph.nodes ref) <;> simp [stale]

theorem synchronizeNodes_eq {graph : CGGraph} (wellFormed : graph.WellFormed) :
    synchronizeNodes graph fcov drvId =
      { graph := syncedNodes graph fcov drvId graph.nodeRefs
        newHitNodes := graph.nodeRefs.countP fun ref => NewlyHitNode fcov (graph.nodes ref)
        totalHitNodes :=
          graph.nodeRefs.countP fun ref => fcovIsNodeVisited fcov (graph.nodes ref).key ≠ 0
        updatedNodes := (graph.nodeRefs.filter fun ref => StaleNode fcov (graph.nodes ref)).map
          fun ref => (graph.nodes ref).id } := by
  have untouched : syncedNodes graph fcov drvId [] = graph := by
    simp [syncedNodes]
  have folded := @foldl_syncNode fcov drvId _ wellFormed graph.nodeRefs []
    (by simpa using wellFormed.nodup_nodeRefs) (fun _ member => member) 0 0 []
  rw [untouched] at folded
  simpa [synchronizeNodes] using folded

end Nodes

section Equivalence

variable {fcov : FuncCoverage} {drvId : Nat}

/-- The fast and the full synchronisation agree when every edge that the fast
one misses is up to date. -/
theorem synchronizeEdgesAt_eq_synchronizeEdges {graph visited : CGGraph} {nodeIds : List Nat}
    (sameEdges : visited.edges = graph.edges)
    (inside : ∀ ref ∈ edgesAt visited nodeIds, ref ∈ allEdges graph)
    (complete : ∀ ref ∈ allEdges graph, ref ∉ edgesAt visited nodeIds →
      (graph.edges ref).hitNum = getEdgeHitNum fcov (graph.edges ref)) :
    (synchronizeEdgesAt visited fcov nodeIds drvId).graph.edges =
        (synchronizeEdges graph fcov drvId).graph.edges ∧
      (synchronizeEdgesAt visited fcov nodeIds drvId).newHitEdges =
        (synchronizeEdges graph fcov drvId).newHitEdges := by
  rw [synchronizeEdgesAt_eq, synchronizeEdges_eq]
  constructor
  · funext ref
    rw [foldl_syncEdge_edges, foldl_syncEdge_edges, sameEdges]
    by_cases fast : ref ∈ edgesAt visited nodeIds
    · rw [if_pos fast, if_pos (inside ref fast)]
    · rw [if_neg fast]
      split
      next full => rw [syncedEdge, if_pos (.inr (complete ref full fast))]
      next => rfl
  · rw [foldl_syncEdge_newHitEdges, foldl_syncEdge_newHitEdges, sameEdges]
    congr 2
    ext ref
    simp only [Finset.mem_filter, List.mem_toFinset]
    constructor
    · rintro ⟨fast, newly⟩
      exact ⟨inside ref fast, newly⟩
    · rintro ⟨full, newly⟩
      refine ⟨?_, newly⟩
      by_contra missed
      exact newly.2 ((complete ref full missed).symm.trans newly.1)

end Equivalence

end GraphDissect.Scheduler
