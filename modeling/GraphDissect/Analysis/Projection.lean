import GraphDissect.Analysis.DriverGraph

/-!
# Projection onto the backbone

The analyses compare driver subgraphs with the part of the call graph that
`main` reaches.  RQ3 and RQ4 filter the edges of a driver by this backbone, and
RQ5 filters its nodes.
-/

namespace GraphDissect.Analysis

open CallGraph Library

/-- A node list and an edge list, as the module `sgmarker` returns them. -/
abbrev GraphLists := List Nat × List (Nat × Nat)

/-- The nodes and edges of an `nx.DiGraph`. -/
structure DiGraph where
  nodes : Finset Nat
  edges : Finset (Nat × Nat)

namespace DiGraph

/-- `nx.DiGraph()`. -/
def empty : DiGraph := ⟨∅, ∅⟩

def addNodesFrom (graph : DiGraph) (nodes : List Nat) : DiGraph :=
  { graph with nodes := graph.nodes ∪ nodes.toFinset }

/-- `add_edges_from`, which adds the ends of the edges too. -/
def addEdgesFrom (graph : DiGraph) (edges : List (Nat × Nat)) : DiGraph where
  nodes := graph.nodes ∪ (edges.flatMap fun edge => [edge.1, edge.2]).toFinset
  edges := graph.edges ∪ edges.toFinset

end DiGraph

section Modularity

/-- `_build_whole_subgraph` of RQ3. -/
def buildWholeSubgraph (whole : GraphLists) : DiGraph :=
  (DiGraph.empty.addNodesFrom whole.1).addEdgesFrom (whole.2.filter fun edge => edge.1 ≠ edge.2)

/-- `_build_driver_subgraph` of RQ3. -/
def buildDriverSubgraph (view : GraphLists) (backbone : Option DiGraph) : DiGraph :=
  let Vd := view.1.toFinset
  if Vd = ∅ then DiGraph.empty
  else
    let Gd := DiGraph.empty.addNodesFrom view.1
    let Ed := view.2.filter fun edge => edge.1 ∈ Vd ∧ edge.2 ∈ Vd
    let Ed :=
      match backbone with
      | none => Ed
      | some backbone => Ed.filter fun edge => edge ∈ backbone.edges
    Gd.addEdgesFrom Ed

structure Sizes where
  nNodes : Nat
  nEdges : Nat
  nodeRatio : ℚ
  edgeRatio : ℚ

/-- The sizes of a driver subgraph against those of the backbone. -/
def sizes (backbone Gd : DiGraph) : Sizes :=
  let n := Gd.nodes.card
  let m := Gd.edges.card
  let V := backbone.nodes.card
  let E := backbone.edges.card
  { nNodes := n
    nEdges := m
    nodeRatio := if V = 0 then 0 else n / V
    edgeRatio := if E = 0 then 0 else m / E }

end Modularity

section Overlap

/-- `_load_backbone_edge_set` of RQ4. -/
def loadBackboneEdgeSet (whole : GraphLists) : Finset (Nat × Nat) :=
  (whole.2.filter fun edge => edge.1 ≠ edge.2).toFinset

/-- `_compute_driver_cov_sets` of RQ4 for one driver: `func_cov` and `edge_cov`. -/
def computeDriverCovSets (view : GraphLists) (backboneEdgeSet : Option (Finset (Nat × Nat))) :
    Finset Nat × Finset (Nat × Nat) :=
  let Vd := view.1.toFinset
  let keeps (edge : Nat × Nat) : Bool :=
    edge.1 ≠ edge.2 ∧ edge.1 ∈ Vd ∧ edge.2 ∈ Vd ∧
      backboneEdgeSet.all fun backboneEdgeSet => edge ∈ backboneEdgeSet
  (Vd, (view.2.filter keeps).toFinset)

end Overlap

section Blindspot

/-- `_load_backbone` of RQ5. -/
def loadBackbone (whole : GraphLists) : Finset Nat × Finset (Nat × Nat) :=
  let V := whole.1.toFinset
  (V, (whole.2.filter fun edge => edge.1 ≠ edge.2 ∧ edge.1 ∈ V ∧ edge.2 ∈ V).toFinset)

/-- The inner loop of `_compute_union_node_coverage`. -/
def coverNodes (backboneNodes covered : Finset Nat) (nodes : List Nat) : Finset Nat :=
  nodes.foldl (fun covered node => if node ∈ backboneNodes then insert node covered else covered) covered

/-- `_compute_union_node_coverage` of RQ5 over the node lists of the drivers. -/
def computeUnionNodeCoverage (drivers : List (List Nat)) (backboneNodes : Finset Nat) : Finset Nat :=
  drivers.foldl (coverNodes backboneNodes) ∅

end Blindspot

def driverSubgraph (marker : SubCgMarker) (whole : GraphLists) (driverId : Nat) : DiGraph :=
  buildDriverSubgraph (marker.getDriverGraph driverId) (some (buildWholeSubgraph whole))

/-- The driver subgraph of RQ3 lies in the backbone, and RQ4 and RQ5 use its
nodes. -/
structure Projected (marker : SubCgMarker) (whole : GraphLists) (driverId : Nat) : Prop where
  nodes : (driverSubgraph marker whole driverId).nodes ⊆ whole.1.toFinset
  edges : ∀ edge ∈ (driverSubgraph marker whole driverId).edges, edge ∈ whole.2 ∧ edge.1 ≠ edge.2
  nodeRatio : (sizes (buildWholeSubgraph whole) (driverSubgraph marker whole driverId)).nodeRatio ≤ 1
  edgeRatio : (sizes (buildWholeSubgraph whole) (driverSubgraph marker whole driverId)).edgeRatio ≤ 1
  overlap : (driverSubgraph marker whole driverId).nodes =
    (computeDriverCovSets (marker.getDriverGraph driverId) (some (loadBackboneEdgeSet whole))).1
  blindspot : (driverSubgraph marker whole driverId).nodes =
    computeUnionNodeCoverage [(marker.getDriverGraph driverId).1] (loadBackbone whole).1

/-- Every function of a driver can be reached from an entry. -/
def ReachedFrom (marker : SubCgMarker) (entry : NodeRef) (driverId : Nat) : Prop :=
  ∀ ref ∈ marker.wholeCg.nodeRefs,
    hasDriverId (marker.wholeCg.nodes ref).driverIdMask driverId → Reaches marker.callees entry ref

section Subgraphs

variable {view whole : GraphLists} {backbone : DiGraph}

theorem buildDriverSubgraph_nodes : (buildDriverSubgraph view (some backbone)).nodes = view.1.toFinset := by
  unfold buildDriverSubgraph
  dsimp only
  split
  next none =>
    rw [none]
    rfl
  next =>
    dsimp only [DiGraph.addEdgesFrom, DiGraph.addNodesFrom, DiGraph.empty]
    rw [Finset.empty_union, Finset.union_eq_left]
    intro node member
    rcases List.mem_flatMap.mp (List.mem_toFinset.mp member) with ⟨edge, edgeIn, isEnd⟩
    have ends := of_decide_eq_true (List.mem_filter.mp (List.mem_filter.mp edgeIn).1).2
    rcases List.mem_pair.mp isEnd with rfl | rfl
    · exact ends.1
    · exact ends.2

theorem buildDriverSubgraph_edges : (buildDriverSubgraph view (some backbone)).edges ⊆ backbone.edges := by
  unfold buildDriverSubgraph
  dsimp only
  split
  next => exact Finset.empty_subset _
  next =>
    dsimp only [DiGraph.addEdgesFrom, DiGraph.addNodesFrom, DiGraph.empty]
    rw [Finset.empty_union]
    intro edge member
    exact of_decide_eq_true (List.mem_filter.mp (List.mem_toFinset.mp member)).2

theorem mem_buildWholeSubgraph_edges {edge : Nat × Nat} :
    edge ∈ (buildWholeSubgraph whole).edges ↔ edge ∈ whole.2 ∧ edge.1 ≠ edge.2 := by
  simp [buildWholeSubgraph, DiGraph.addEdgesFrom, DiGraph.addNodesFrom, DiGraph.empty]

theorem subset_buildWholeSubgraph_nodes : whole.1.toFinset ⊆ (buildWholeSubgraph whole).nodes := by
  unfold buildWholeSubgraph DiGraph.addEdgesFrom DiGraph.addNodesFrom DiGraph.empty
  intro node member
  exact Finset.mem_union_left _ (Finset.mem_union_right _ member)

theorem ratio_le_one {part whole : Nat} (le : part ≤ whole) :
    (if whole = 0 then 0 else (part : ℚ) / whole) ≤ 1 := by
  split
  · exact zero_le_one
  · exact div_le_one_of_le₀ (Nat.cast_le.mpr le) (Nat.cast_nonneg whole)

theorem coverNodes_eq (backboneNodes covered : Finset Nat) (nodes : List Nat) :
    coverNodes backboneNodes covered nodes = covered ∪ nodes.toFinset ∩ backboneNodes := by
  unfold coverNodes
  induction nodes generalizing covered with
  | nil => simp
  | cons node rest inductionHypothesis =>
      rw [List.foldl_cons, inductionHypothesis, List.toFinset_cons]
      split
      next inside => rw [Finset.insert_inter_of_mem inside, Finset.insert_union, Finset.union_insert]
      next outside => rw [Finset.insert_inter_of_notMem outside]

theorem computeUnionNodeCoverage_singleton (nodes : List Nat) (backboneNodes : Finset Nat) :
    computeUnionNodeCoverage [nodes] backboneNodes = nodes.toFinset ∩ backboneNodes :=
  (coverNodes_eq backboneNodes ∅ nodes).trans (Finset.empty_union _)

end Subgraphs

section Backbone

variable {marker : SubCgMarker} {entry : NodeRef} {driverId : Nat} {found : List NodeRef}

theorem driverSubgraph_nodes (whole : GraphLists) :
    (driverSubgraph marker whole driverId).nodes = (marker.getDriverGraph driverId).1.toFinset :=
  buildDriverSubgraph_nodes

theorem driverNodes_subset_iff (entryIn : entry < marker.wholeCg.nodeAllocs)
    (reached : ∀ ref, ref ∈ found ↔ Reaches marker.callees entry ref) :
    (marker.getDriverGraph driverId).1.toFinset ⊆ (marker.asLists found).1.toFinset ↔
      ReachedFrom marker entry driverId := by
  constructor
  · intro subset ref refIn recorded
    have inside := marker.loaded.mem_nodeRefs.mp refIn
    have listed : (marker.wholeCg.nodes ref).id ∈ (marker.getDriverGraph driverId).1 :=
      List.mem_map.mpr ⟨ref, marker.mem_driverNodes.mpr ⟨inside, recorded⟩, rfl⟩
    have inBackbone := List.mem_toFinset.mp (subset (List.mem_toFinset.mpr listed))
    rcases List.mem_map.mp inBackbone with ⟨other, otherIn, same⟩
    have reaches := (reached other).mp otherIn
    rwa [marker.id_injective (marker.lt_of_reaches entryIn reaches) inside same] at reaches
  · intro reachedFrom id member
    rcases List.mem_map.mp (List.mem_toFinset.mp member) with ⟨ref, refIn, rfl⟩
    rcases marker.mem_driverNodes.mp refIn with ⟨inside, recorded⟩
    have reaches := reachedFrom ref (marker.loaded.mem_nodeRefs.mpr inside) recorded
    exact List.mem_toFinset.mpr (List.mem_map.mpr ⟨ref, (reached ref).mpr reaches, rfl⟩)

theorem projected_iff_subset (whole : GraphLists) : Projected marker whole driverId ↔
    (marker.getDriverGraph driverId).1.toFinset ⊆ whole.1.toFinset := by
  constructor
  · intro projected
    have subset := projected.nodes
    rwa [driverSubgraph_nodes] at subset
  · intro subset
    have edges : (driverSubgraph marker whole driverId).edges ⊆ (buildWholeSubgraph whole).edges :=
      buildDriverSubgraph_edges
    have nodes : (driverSubgraph marker whole driverId).nodes ⊆ (buildWholeSubgraph whole).nodes := by
      rw [driverSubgraph_nodes]
      exact subset.trans subset_buildWholeSubgraph_nodes
    exact {
      nodes := by
        rw [driverSubgraph_nodes]
        exact subset
      edges := fun edge member => mem_buildWholeSubgraph_edges.mp (edges member)
      nodeRatio := ratio_le_one (Finset.card_le_card nodes)
      edgeRatio := ratio_le_one (Finset.card_le_card edges)
      overlap := driverSubgraph_nodes whole
      blindspot := by
        rw [driverSubgraph_nodes, computeUnionNodeCoverage_singleton]
        exact (Finset.inter_eq_left.mpr subset).symm }

end Backbone

/-- The subgraph of a driver is a projection onto the backbone just when `main`
reaches all functions of the driver. -/
theorem driverSubgraph_projected_iff (marker : SubCgMarker) {entry : NodeRef}
    (isMain : marker.wholeCg.getNode "main".toList = some entry) (driverId : Nat) :
    ∃ whole, marker.getWholeGraph = some whole ∧
      (Projected marker whole driverId ↔ ReachedFrom marker entry driverId) := by
  rcases marker.getReachableGraph_eq_some isMain with ⟨found, isFound, -, reached⟩
  refine ⟨marker.asLists found, ?_, ?_⟩
  · rw [SubCgMarker.getWholeGraph, isFound]
    rfl
  · rw [projected_iff_subset]
    exact driverNodes_subset_iff (marker.loaded.lt_of_getNode isMain) reached

/-- Driver 1 ran `main` and the function it calls. -/
def calledText : List Char :=
  let nodes := (CGGraph.empty.addRecord ⟨"main".toList, [true], 3, 0x401000, 5⟩).addRecord
    ⟨"parse".toList, [true], 2, 0x402000, 4⟩
  markedViz.witeGraph (nodes.addMaskedEdge 0 1 [true])

theorem driverSubgraph_projected_called :
    ∃ marker, SubCgMarker.init (fun _ => false) calledText = some marker ∧
      marker.wholeCg.getNode "main".toList = some 0 ∧
      ∃ whole, marker.getWholeGraph = some whole ∧
        (Projected marker whole 1 ↔ ReachedFrom marker 0 1) := by
  have loaded : (SubCgMarker.init (fun _ => false) calledText).any (fun marker =>
      marker.wholeCg.getNode "main".toList = some 0) = true := by decide +kernel
  rcases (Option.any_eq_true _ _).mp loaded with ⟨marker, isMarker, isMain⟩
  rw [decide_eq_true_iff] at isMain
  exact ⟨marker, isMarker, isMain, driverSubgraph_projected_iff marker isMain 1⟩

/-- Driver 1 ran two handlers to which no edge leads. -/
def handlersText : List Char :=
  markedViz.witeGraph (((CGGraph.empty.addRecord ⟨"main".toList, [true], 3, 0x401000, 5⟩).addRecord
    ⟨"onExit".toList, [true], 2, 0x402000, 5⟩).addRecord ⟨"onError".toList, [true], 2, 0x403000, 1⟩)

/-- Three functions of driver 1 stand against a backbone of one. -/
theorem handlers_outside :
    ∃ marker, SubCgMarker.init (fun _ => false) handlersText = some marker ∧
      marker.wholeCg.getNode "main".toList = some 0 ∧ marker.getWholeGraph = some ([1], []) ∧
      (driverSubgraph marker ([1], []) 1).nodes = {1, 2, 3} ∧
      (sizes (buildWholeSubgraph ([1], [])) (driverSubgraph marker ([1], []) 1)).nodeRatio = 3 ∧
      computeUnionNodeCoverage [(marker.getDriverGraph 1).1] (loadBackbone ([1], [])).1 = {1} ∧
      ¬ Projected marker ([1], []) 1 := by
  have loaded : (SubCgMarker.init (fun _ => false) handlersText).any (fun marker =>
      marker.wholeCg.getNode "main".toList = some 0 ∧ marker.getWholeGraph = some ([1], []) ∧
        (driverSubgraph marker ([1], []) 1).nodes = {1, 2, 3} ∧
        (sizes (buildWholeSubgraph ([1], [])) (driverSubgraph marker ([1], []) 1)).nodeRatio = 3 ∧
        computeUnionNodeCoverage [(marker.getDriverGraph 1).1] (loadBackbone ([1], [])).1 = {1}) =
      true := by decide +kernel
  rcases (Option.any_eq_true _ _).mp loaded with ⟨marker, isMarker, facts⟩
  rcases of_decide_eq_true facts with ⟨isMain, whole, nodes, ratio, blindspot⟩
  refine ⟨marker, isMarker, isMain, whole, nodes, ratio, blindspot, fun projected => ?_⟩
  have bounded := projected.nodeRatio
  rw [ratio] at bounded
  norm_num at bounded

end GraphDissect.Analysis
