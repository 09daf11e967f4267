import GraphDissect.CallGraph.Mutators
import Mathlib

/-!
# The representation of the call graph

The maps hold the same nodes under their ids and names, both edge sets of every
edge hold it in order, two nodes are joined by at most one edge in each
direction, and the counters count.  Edges come and go without harm as long as no
second attribute joins two nodes; nodes come without harm as long as the next id
is unused, and never go without harm.
-/

namespace GraphDissect.CallGraph

open Library

/-- The nodes that were made and not removed are the nodes of both maps, each
under its own id and name, and are counted. -/
structure NodesKept (graph : CGGraph) (alive : List NodeRef) : Prop where
  ids : ∀ id ref, graph.getGNode id = some ref → (graph.nodes ref).id = id
  named : graph.Named
  kept : ∀ ref, ref ∈ alive ↔ ref ∈ graph.nodeRefs
  nodeNum : graph.nodeNum = graph.nodeRefs.length

/-- An edge is in the out-set of its source if and only if it is in the in-set
of its destination, the sets are ordered and searchable, two nodes are joined by
at most one edge, and the edges are counted. -/
structure EdgesKept (graph : CGGraph) : Prop where
  outgoing : ∀ ref ∈ graph.nodeRefs, ∀ edge ∈ (graph.nodes ref).outEdges,
    (graph.edges edge).src = ref ∧ (graph.edges edge).dst ∈ graph.nodeRefs ∧
      edge ∈ (graph.nodes (graph.edges edge).dst).inEdges
  incoming : ∀ ref ∈ graph.nodeRefs, ∀ edge ∈ (graph.nodes ref).inEdges,
    (graph.edges edge).dst = ref ∧ (graph.edges edge).src ∈ graph.nodeRefs ∧
      edge ∈ (graph.nodes (graph.edges edge).src).outEdges
  orderedOut : ∀ ref ∈ graph.nodeRefs, graph.Ordered (graph.nodes ref).outEdges
  orderedIn : ∀ ref ∈ graph.nodeRefs, graph.Ordered (graph.nodes ref).inEdges
  searchOut : ∀ ref ∈ graph.nodeRefs, ∀ edge ∈ (graph.nodes ref).outEdges,
    graph.searchEdge edge (graph.nodes ref).outEdges = some edge
  searchIn : ∀ ref ∈ graph.nodeRefs, ∀ edge ∈ (graph.nodes ref).inEdges,
    graph.searchEdge edge (graph.nodes ref).inEdges = some edge
  single : ∀ ref ∈ graph.nodeRefs, ∀ first ∈ (graph.nodes ref).outEdges,
    ∀ second ∈ (graph.nodes ref).outEdges,
      (graph.edges first).dst = (graph.edges second).dst → first = second
  edgeNum : graph.edgeNum = graph.graphEdges.card

/-- The representation invariant. -/
structure GraphRun.Represents (run : GraphRun) : Prop where
  nodes : NodesKept run.graph run.alive
  edges : EdgesKept run.graph

/-- Nodes and edges of the graph are allocated. -/
structure Allocated (graph : CGGraph) : Prop where
  node : ∀ ref ∈ graph.nodeRefs, ref < graph.nodeAllocs
  edge : ∀ ref ∈ graph.nodeRefs, ∀ edge ∈ (graph.nodes ref).outEdges, edge < graph.edgeAllocs

variable {graph : CGGraph} {alive : List NodeRef} {ref : EdgeRef}

section Nodes

theorem NodesKept.eq_of_id (kept : NodesKept graph alive) {first second : NodeRef}
    (firstIn : first ∈ graph.nodeRefs) (secondIn : second ∈ graph.nodeRefs)
    (same : (graph.nodes first).id = (graph.nodes second).id) : first = second := by
  rcases CGGraph.mem_nodeRefs.mp firstIn with ⟨id, firstFound⟩
  rcases CGGraph.mem_nodeRefs.mp secondIn with ⟨other, secondFound⟩
  rw [kept.ids id first firstFound, kept.ids other second secondFound] at same
  subst other
  exact Option.some.inj (firstFound.symm.trans secondFound)

theorem NodesKept.getGNode (kept : NodesKept graph alive) {node : NodeRef}
    (member : node ∈ graph.nodeRefs) : graph.getGNode (graph.nodes node).id = some node := by
  rcases CGGraph.mem_nodeRefs.mp member with ⟨id, found⟩
  rw [kept.ids id node found]
  exact found

/-- Of the nodes, the maps concern ids and names only. -/
theorem NodesKept.of_nodes (kept : NodesKept graph alive) {nodes : NodeRef → CGNode}
    {edges : EdgeRef → CGEdge} {edgeNum edgeAllocs : Nat}
    (same : ∀ node, (nodes node).id = (graph.nodes node).id ∧
      (nodes node).funcName = (graph.nodes node).funcName) :
    NodesKept { graph with nodes, edges, edgeNum, edgeAllocs } alive where
  ids id node found := (same node).1.trans (kept.ids id node found)
  named := {
    entries := fun entry member => by
      rcases kept.named.entries entry member with ⟨listed, name⟩
      exact ⟨listed, (same entry.2).2.trans name⟩
    listed := fun node member => by
      change graph.fnameToNode.find (nodes node).funcName = some node
      rw [(same node).2]
      exact kept.named.listed node member }
  kept := kept.kept
  nodeNum := kept.nodeNum

end Nodes

section Edges

theorem EdgesKept.of_ordered
    (outgoing : ∀ ref ∈ graph.nodeRefs, ∀ edge ∈ (graph.nodes ref).outEdges,
      (graph.edges edge).src = ref ∧ (graph.edges edge).dst ∈ graph.nodeRefs ∧
        edge ∈ (graph.nodes (graph.edges edge).dst).inEdges)
    (incoming : ∀ ref ∈ graph.nodeRefs, ∀ edge ∈ (graph.nodes ref).inEdges,
      (graph.edges edge).dst = ref ∧ (graph.edges edge).src ∈ graph.nodeRefs ∧
        edge ∈ (graph.nodes (graph.edges edge).src).outEdges)
    (orderedOut : ∀ ref ∈ graph.nodeRefs, graph.Ordered (graph.nodes ref).outEdges)
    (orderedIn : ∀ ref ∈ graph.nodeRefs, graph.Ordered (graph.nodes ref).inEdges)
    (single : ∀ ref ∈ graph.nodeRefs, ∀ first ∈ (graph.nodes ref).outEdges,
      ∀ second ∈ (graph.nodes ref).outEdges,
        (graph.edges first).dst = (graph.edges second).dst → first = second)
    (edgeNum : graph.edgeNum = graph.graphEdges.card) : EdgesKept graph where
  outgoing := outgoing
  incoming := incoming
  orderedOut := orderedOut
  orderedIn := orderedIn
  searchOut := fun ref member _ out => (orderedOut ref member).searchEdge out
  searchIn := fun ref member _ into => (orderedIn ref member).searchEdge into
  single := single
  edgeNum := edgeNum

theorem EdgesKept.inGraph (kept : EdgesKept graph) {node : NodeRef}
    (member : node ∈ graph.nodeRefs) (out : ref ∈ (graph.nodes node).outEdges) :
    graph.inGraph ref := by
  have src := (kept.outgoing node member ref out).1
  subst src
  exact ⟨member, out⟩

theorem EdgesKept.inGraph_of_in (kept : EdgesKept graph) {node : NodeRef}
    (member : node ∈ graph.nodeRefs) (into : ref ∈ (graph.nodes node).inEdges) :
    graph.inGraph ref := by
  rcases kept.incoming node member ref into with ⟨-, src, out⟩
  exact ⟨src, out⟩

theorem Allocated.lt_of_inGraph (allocated : Allocated graph) (inGraph : graph.inGraph ref) :
    ref < graph.edgeAllocs :=
  allocated.edge _ inGraph.1 ref inGraph.2

theorem mem_graphEdges (allocated : Allocated graph) :
    ref ∈ graph.graphEdges ↔ graph.inGraph ref := by
  rw [CGGraph.graphEdges, Finset.mem_filter, Finset.mem_range]
  exact and_iff_right_of_imp allocated.lt_of_inGraph

/-- Linking meets an edge with the same attribute and ends, or puts the edge into
both sets. -/
theorem linkEdge_cases (nodesKept : NodesKept graph alive) (kept : EdgesKept graph)
    (ends : graph.hasEnds ref) :
    ((graph.linkEdge ref).1 = graph ∧
        ∃ other ∈ (graph.nodes (graph.edges ref).src).outEdges,
          (graph.edges other).dst = (graph.edges ref).dst ∧
            (graph.edges other).attr = (graph.edges ref).attr) ∨
      ∃ nodes, (graph.linkEdge ref).1 = { graph with nodes, edgeNum := graph.edgeNum + 1 } ∧
        (∀ node, (nodes node).id = (graph.nodes node).id ∧
          (nodes node).funcName = (graph.nodes node).funcName) ∧
        (∀ node edge, edge ∈ (nodes node).inEdges ↔
          edge = ref ∧ node = (graph.edges ref).dst ∨ edge ∈ (graph.nodes node).inEdges) ∧
        (∀ node edge, edge ∈ (nodes node).outEdges ↔
          edge = ref ∧ node = (graph.edges ref).src ∨ edge ∈ (graph.nodes node).outEdges) ∧
        (∀ node ∈ graph.nodeRefs, graph.Ordered (nodes node).inEdges) ∧
        (∀ node ∈ graph.nodeRefs, graph.Ordered (nodes node).outEdges) ∧
        ∀ other ∈ (graph.nodes (graph.edges ref).src).outEdges,
          (graph.edges other).dst = (graph.edges ref).dst →
            (graph.edges other).attr ≠ (graph.edges ref).attr := by
  have placed : ∀ others, graph.Placed ref graph.edgeKey others :=
    fun _ _ _ => ⟨edgeBefore_iff_key, edgeBefore_iff_key⟩
  have twin : ∀ other ∈ (graph.nodes (graph.edges ref).src).outEdges,
      graph.edgeKey other = graph.edgeKey ref →
        ∃ into ∈ (graph.nodes (graph.edges ref).dst).inEdges,
          graph.edgeKey into = graph.edgeKey ref := by
    intro other out same
    rcases kept.outgoing _ ends.1 other out with ⟨-, dst, into⟩
    have sameDst := nodesKept.eq_of_id dst ends.2 (edgeKey_eq_iff.mp same).2.2
    exact ⟨other, sameDst ▸ into, same⟩
  rcases CGGraph.linkEdge_sorted ends.1 ends.2 (placed _) (placed _)
      (fun node member => ordered_iff.mp (kept.orderedIn node member))
      (fun node member => ordered_iff.mp (kept.orderedOut node member)) twin with
    ⟨unchanged, other, into, same⟩ |
      ⟨nodes, linked, named, memIn, memOut, orderedIn, orderedOut, apart⟩
  · rcases kept.incoming _ ends.2 other into with ⟨dst, src, out⟩
    rcases edgeKey_eq_iff.mp same with ⟨sameAttr, sameId, -⟩
    have sameSrc := nodesKept.eq_of_id src ends.1 sameId
    exact .inl ⟨unchanged, other, sameSrc ▸ out, dst, sameAttr⟩
  · refine .inr ⟨nodes, linked, named, memIn, memOut,
      fun node member => ordered_iff.mpr (orderedIn node member),
      fun node member => ordered_iff.mpr (orderedOut node member), ?_⟩
    -- a parallel edge of the attribute would have been met in the in-set
    intro other out sameDst sameAttr
    rcases kept.outgoing _ ends.1 other out with ⟨src, -, into⟩
    rw [sameDst] at into
    refine apart other into (edgeKey_eq_iff.mpr ⟨sameAttr, ?_, ?_⟩)
    · rw [src]
    · rw [sameDst]

theorem EdgesKept.joined (kept : EdgesKept graph) (allocated : Allocated graph)
    (below : ref < graph.edgeAllocs) (ends : graph.hasEnds ref) {nodes : NodeRef → CGNode}
    (named : ∀ node, (nodes node).id = (graph.nodes node).id ∧
      (nodes node).funcName = (graph.nodes node).funcName)
    (memIn : ∀ node edge, edge ∈ (nodes node).inEdges ↔
      edge = ref ∧ node = (graph.edges ref).dst ∨ edge ∈ (graph.nodes node).inEdges)
    (memOut : ∀ node edge, edge ∈ (nodes node).outEdges ↔
      edge = ref ∧ node = (graph.edges ref).src ∨ edge ∈ (graph.nodes node).outEdges)
    (orderedIn : ∀ node ∈ graph.nodeRefs, graph.Ordered (nodes node).inEdges)
    (orderedOut : ∀ node ∈ graph.nodeRefs, graph.Ordered (nodes node).outEdges)
    (alone : ∀ other ∈ (graph.nodes (graph.edges ref).src).outEdges,
      (graph.edges other).dst ≠ (graph.edges ref).dst) :
    EdgesKept { graph with nodes, edgeNum := graph.edgeNum + 1 } ∧
      Allocated { graph with nodes, edgeNum := graph.edgeNum + 1 } := by
  have inGraph_iff : ∀ edge, CGGraph.inGraph { graph with nodes, edgeNum := graph.edgeNum + 1 } edge ↔
      edge = ref ∨ graph.inGraph edge := by
    intro edge
    change (graph.edges edge).src ∈ graph.nodeRefs ∧ edge ∈ (nodes (graph.edges edge).src).outEdges ↔ _
    rw [memOut]
    constructor
    · rintro ⟨src, ⟨rfl, -⟩ | out⟩
      · exact .inl rfl
      · exact .inr ⟨src, out⟩
    · rintro (rfl | ⟨src, out⟩)
      · exact ⟨ends.1, .inl ⟨rfl, rfl⟩⟩
      · exact ⟨src, .inr out⟩
  have fresh : ref ∉ graph.graphEdges := by
    rw [mem_graphEdges allocated]
    exact fun inGraph => alone ref inGraph.2 rfl
  constructor
  · apply EdgesKept.of_ordered
    · intro node member edge out
      change (graph.edges edge).src = node ∧ (graph.edges edge).dst ∈ graph.nodeRefs ∧
        edge ∈ (nodes (graph.edges edge).dst).inEdges
      rw [memIn]
      rcases (memOut node edge).mp out with ⟨rfl, rfl⟩ | old
      · exact ⟨rfl, ends.2, .inl ⟨rfl, rfl⟩⟩
      · rcases kept.outgoing node member edge old with ⟨src, dst, into⟩
        exact ⟨src, dst, .inr into⟩
    · intro node member edge into
      change (graph.edges edge).dst = node ∧ (graph.edges edge).src ∈ graph.nodeRefs ∧
        edge ∈ (nodes (graph.edges edge).src).outEdges
      rw [memOut]
      rcases (memIn node edge).mp into with ⟨rfl, rfl⟩ | old
      · exact ⟨rfl, ends.1, .inl ⟨rfl, rfl⟩⟩
      · rcases kept.incoming node member edge old with ⟨dst, src, out⟩
        exact ⟨dst, src, .inr out⟩
    · intro node member
      exact (orderedOut node member).congr (fun _ _ => ⟨rfl, rfl, rfl⟩)
        fun _ _ => ⟨(named _).1, (named _).1⟩
    · intro node member
      exact (orderedIn node member).congr (fun _ _ => ⟨rfl, rfl, rfl⟩)
        fun _ _ => ⟨(named _).1, (named _).1⟩
    · intro node member first firstOut second secondOut same
      rcases (memOut node first).mp firstOut with ⟨rfl, rfl⟩ | firstOld
      · rcases (memOut _ second).mp secondOut with ⟨rfl, -⟩ | secondOld
        · rfl
        · exact absurd same.symm (alone second secondOld)
      · rcases (memOut node second).mp secondOut with ⟨rfl, rfl⟩ | secondOld
        · exact absurd same (alone first firstOld)
        · exact kept.single node member first firstOld second secondOld same
    · have more : CGGraph.graphEdges { graph with nodes, edgeNum := graph.edgeNum + 1 } =
          insert ref graph.graphEdges := by
        ext edge
        rw [CGGraph.graphEdges, Finset.mem_filter, inGraph_iff, Finset.mem_insert,
          mem_graphEdges allocated, Finset.mem_range]
        refine and_iff_right_of_imp ?_
        rintro (rfl | inGraph)
        · exact below
        · exact allocated.lt_of_inGraph inGraph
      rw [more, Finset.card_insert_of_notMem fresh, ← kept.edgeNum]
  · refine ⟨allocated.node, ?_⟩
    intro node member edge out
    rcases (memOut node edge).mp out with ⟨rfl, -⟩ | old
    · exact below
    · exact allocated.edge node member edge old

theorem rmEdge_sets (kept : EdgesKept graph) (inGraph : graph.inGraph ref) :
    ∃ nodes, graph.rmEdge ref = { graph with nodes, edgeNum := graph.edgeNum - 1 } ∧
      (∀ node, (nodes node).id = (graph.nodes node).id ∧
        (nodes node).funcName = (graph.nodes node).funcName) ∧
      (∀ node, (nodes node).inEdges =
        if node = (graph.edges ref).dst then (graph.nodes node).inEdges.erase ref
        else (graph.nodes node).inEdges) ∧
      ∀ node, (nodes node).outEdges =
        if node = (graph.edges ref).src then (graph.nodes node).outEdges.erase ref
        else (graph.nodes node).outEdges := by
  rcases kept.outgoing _ inGraph.1 ref inGraph.2 with ⟨-, dst, into⟩
  have erasedIn := (kept.orderedIn _ dst).eraseEdge into
  generalize rest : (graph.nodes (graph.edges ref).dst).inEdges.erase ref = inEdges at erasedIn
  have sameNode := fun node => graph.nodes_setNode_inEdges (graph.edges ref).dst node inEdges
  have erasedOut : (graph.setNode (graph.edges ref).dst
      { graph.nodes (graph.edges ref).dst with inEdges }).eraseEdge ref
        ((graph.setNode (graph.edges ref).dst
          { graph.nodes (graph.edges ref).dst with inEdges }).nodes
            (graph.edges ref).src).outEdges =
      (graph.nodes (graph.edges ref).src).outEdges.erase ref := by
    rw [(sameNode _).2]
    refine CGGraph.Ordered.eraseEdge ?_ inGraph.2
    exact (kept.orderedOut _ inGraph.1).congr (fun _ _ => ⟨rfl, rfl, rfl⟩)
      fun _ _ => ⟨(sameNode _).1, (sameNode _).1⟩
  have sameEdges : (graph.setNode (graph.edges ref).dst
      { graph.nodes (graph.edges ref).dst with inEdges }).edges = graph.edges := rfl
  unfold CGGraph.rmEdge
  dsimp only
  rw [erasedIn, sameEdges, erasedOut]
  dsimp only [CGGraph.setNode]
  refine ⟨_, rfl, ?_, ?_, ?_⟩
  · intro node
    rw [update_edgeSets]
    exact ⟨rfl, rfl⟩
  · intro node
    rw [update_edgeSets]
    by_cases same : node = (graph.edges ref).dst
    · simp only [same, if_true, rest]
    · simp only [same, if_false]
  · intro node
    rw [update_edgeSets]
    by_cases same : node = (graph.edges ref).src
    · simp only [same, if_true]
    · simp only [same, if_false]

theorem rmEdge_cases (kept : EdgesKept graph) (inGraph : graph.inGraph ref) :
    ∃ nodes, graph.rmEdge ref = { graph with nodes, edgeNum := graph.edgeNum - 1 } ∧
      (∀ node, (nodes node).id = (graph.nodes node).id ∧
        (nodes node).funcName = (graph.nodes node).funcName) ∧
      (∀ node ∈ graph.nodeRefs, (nodes node).inEdges.Sublist (graph.nodes node).inEdges ∧
        ∀ edge, edge ∈ (nodes node).inEdges ↔ edge ≠ ref ∧ edge ∈ (graph.nodes node).inEdges) ∧
      ∀ node ∈ graph.nodeRefs, (nodes node).outEdges.Sublist (graph.nodes node).outEdges ∧
        ∀ edge, edge ∈ (nodes node).outEdges ↔ edge ≠ ref ∧ edge ∈ (graph.nodes node).outEdges := by
  rcases rmEdge_sets kept inGraph with ⟨nodes, removed, named, inSets, outSets⟩
  refine ⟨nodes, removed, named, ?_, ?_⟩
  · intro node member
    rw [inSets]
    split
    · exact ⟨List.erase_sublist, fun _ => (kept.orderedIn node member).nodup.mem_erase_iff⟩
    · rename_i elsewhere
      refine ⟨.refl _, fun edge => (and_iff_right_of_imp ?_).symm⟩
      rintro into rfl
      exact elsewhere (kept.incoming node member edge into).1.symm
  · intro node member
    rw [outSets]
    split
    · exact ⟨List.erase_sublist, fun _ => (kept.orderedOut node member).nodup.mem_erase_iff⟩
    · rename_i elsewhere
      refine ⟨.refl _, fun edge => (and_iff_right_of_imp ?_).symm⟩
      rintro out rfl
      exact elsewhere (kept.outgoing node member edge out).1.symm

theorem EdgesKept.rmEdge (kept : EdgesKept graph) (allocated : Allocated graph)
    (inGraph : graph.inGraph ref) :
    EdgesKept (graph.rmEdge ref) ∧ Allocated (graph.rmEdge ref) := by
  rcases rmEdge_cases kept inGraph with ⟨nodes, removed, named, inSets, outSets⟩
  rw [removed]
  have inGraph_iff : ∀ edge, CGGraph.inGraph { graph with nodes, edgeNum := graph.edgeNum - 1 } edge ↔
      edge ≠ ref ∧ graph.inGraph edge := by
    intro edge
    change (graph.edges edge).src ∈ graph.nodeRefs ∧ edge ∈ (nodes (graph.edges edge).src).outEdges ↔ _
    constructor
    · rintro ⟨src, out⟩
      rcases ((outSets _ src).2 edge).mp out with ⟨other, old⟩
      exact ⟨other, src, old⟩
    · rintro ⟨other, src, old⟩
      exact ⟨src, ((outSets _ src).2 edge).mpr ⟨other, old⟩⟩
  constructor
  · apply EdgesKept.of_ordered
    · intro node member edge out
      rcases ((outSets node member).2 edge).mp out with ⟨other, old⟩
      rcases kept.outgoing node member edge old with ⟨src, dst, into⟩
      exact ⟨src, dst, ((inSets _ dst).2 edge).mpr ⟨other, into⟩⟩
    · intro node member edge into
      rcases ((inSets node member).2 edge).mp into with ⟨other, old⟩
      rcases kept.incoming node member edge old with ⟨dst, src, out⟩
      exact ⟨dst, src, ((outSets _ src).2 edge).mpr ⟨other, out⟩⟩
    · intro node member
      have ordered : graph.Ordered (nodes node).outEdges :=
        List.Pairwise.sublist (outSets node member).1 (kept.orderedOut node member)
      exact ordered.congr (fun _ _ => ⟨rfl, rfl, rfl⟩) fun _ _ => ⟨(named _).1, (named _).1⟩
    · intro node member
      have ordered : graph.Ordered (nodes node).inEdges :=
        List.Pairwise.sublist (inSets node member).1 (kept.orderedIn node member)
      exact ordered.congr (fun _ _ => ⟨rfl, rfl, rfl⟩) fun _ _ => ⟨(named _).1, (named _).1⟩
    · intro node member first firstOut second secondOut same
      exact kept.single node member first ((outSets node member).1.subset firstOut) second
        ((outSets node member).1.subset secondOut) same
    · have fewer : CGGraph.graphEdges { graph with nodes, edgeNum := graph.edgeNum - 1 } =
          graph.graphEdges.erase ref := by
        ext edge
        rw [CGGraph.graphEdges, Finset.mem_filter, inGraph_iff, Finset.mem_erase,
          mem_graphEdges allocated, Finset.mem_range]
        exact and_iff_right_of_imp fun left => allocated.lt_of_inGraph left.2
      rw [fewer, Finset.card_erase_of_mem ((mem_graphEdges allocated).mpr inGraph), ← kept.edgeNum]
  · refine ⟨allocated.node, ?_⟩
    intro node member edge out
    exact allocated.edge node member edge ((outSets node member).1.subset out)

def withEdge (graph : CGGraph) (edge : CGEdge) : CGGraph :=
  { graph with
    edges := Function.update graph.edges graph.edgeAllocs edge
    edgeAllocs := graph.edgeAllocs + 1 }

theorem withEdge_edges (kept : EdgesKept graph) (allocated : Allocated graph) (edge : CGEdge) :
    EdgesKept (withEdge graph edge) ∧ Allocated (withEdge graph edge) := by
  unfold withEdge
  generalize isEdges : Function.update graph.edges graph.edgeAllocs edge = edges
  have old : ∀ ref, graph.inGraph ref → edges ref = graph.edges ref := by
    intro ref inGraph
    rw [← isEdges]
    exact Function.update_of_ne (Nat.ne_of_lt (allocated.lt_of_inGraph inGraph)) _ _
  have oldOut : ∀ node ∈ graph.nodeRefs, ∀ ref ∈ (graph.nodes node).outEdges,
      edges ref = graph.edges ref :=
    fun node member ref out => old ref (kept.inGraph member out)
  have oldIn : ∀ node ∈ graph.nodeRefs, ∀ ref ∈ (graph.nodes node).inEdges,
      edges ref = graph.edges ref :=
    fun node member ref into => old ref (kept.inGraph_of_in member into)
  constructor
  · apply EdgesKept.of_ordered
    · intro node member ref out
      dsimp only
      rw [oldOut node member ref out]
      exact kept.outgoing node member ref out
    · intro node member ref into
      dsimp only
      rw [oldIn node member ref into]
      exact kept.incoming node member ref into
    · intro node member
      refine (kept.orderedOut node member).congr ?_ fun _ _ => ⟨rfl, rfl⟩
      intro ref out
      dsimp only
      rw [oldOut node member ref out]
      exact ⟨rfl, rfl, rfl⟩
    · intro node member
      refine (kept.orderedIn node member).congr ?_ fun _ _ => ⟨rfl, rfl⟩
      intro ref into
      dsimp only
      rw [oldIn node member ref into]
      exact ⟨rfl, rfl, rfl⟩
    · intro node member first firstOut second secondOut same
      dsimp only at same
      rw [oldOut node member first firstOut, oldOut node member second secondOut] at same
      exact kept.single node member first firstOut second secondOut same
    · refine kept.edgeNum.trans (congrArg Finset.card ?_)
      ext ref
      rw [mem_graphEdges allocated, CGGraph.graphEdges, Finset.mem_filter, Finset.mem_range]
      constructor
      · intro inGraph
        refine ⟨Nat.lt_succ_of_lt (allocated.lt_of_inGraph inGraph), ?_⟩
        change (edges ref).src ∈ graph.nodeRefs ∧ ref ∈ (graph.nodes (edges ref).src).outEdges
        rw [old ref inGraph]
        exact inGraph
      · rintro ⟨-, src, out⟩
        exact kept.inGraph src out
  · refine ⟨allocated.node, ?_⟩
    intro node member ref out
    exact Nat.lt_succ_of_lt (allocated.edge node member ref out)

end Edges

/-- The representation invariant with the bounds of the references. -/
structure GraphRun.Sound (run : GraphRun) : Prop where
  nodes : NodesKept run.graph run.alive
  edges : EdgesKept run.graph
  allocated : Allocated run.graph

namespace GraphRun

variable {run next : GraphRun}

theorem Sound.represents (sound : run.Sound) : run.Represents := ⟨sound.nodes, sound.edges⟩

theorem start_sound : start.Sound where
  nodes := {
    ids := fun _ _ found => by cases found
    named := ⟨fun _ member => (List.not_mem_nil member).elim,
      fun _ member => (List.not_mem_nil member).elim⟩
    kept := fun _ => Iff.rfl
    nodeNum := rfl }
  edges := {
    outgoing := fun _ member => (List.not_mem_nil member).elim
    incoming := fun _ member => (List.not_mem_nil member).elim
    orderedOut := fun _ member => (List.not_mem_nil member).elim
    orderedIn := fun _ member => (List.not_mem_nil member).elim
    searchOut := fun _ member => (List.not_mem_nil member).elim
    searchIn := fun _ member => (List.not_mem_nil member).elim
    single := fun _ member => (List.not_mem_nil member).elim
    edgeNum := rfl }
  allocated := ⟨fun _ member => (List.not_mem_nil member).elim,
    fun _ member => (List.not_mem_nil member).elim⟩

section AddNode

variable {funcName : List Char}

def withNode (graph : CGGraph) (funcName : List Char) : CGGraph :=
  { graph with
    nodes := Function.update graph.nodes graph.nodeAllocs (CGNode.new (graph.nodeNum + 1) funcName)
    fnameToNode := graph.fnameToNode.insert funcName graph.nodeAllocs
    idToNode := graph.idToNode.insert (graph.nodeNum + 1) graph.nodeAllocs
    nodeNum := graph.nodeNum + 1
    nodeAllocs := graph.nodeAllocs + 1 }

theorem addNode_of_absent (absent : graph.getNode funcName = none) :
    graph.addNode funcName = (withNode graph funcName, graph.nodeAllocs) := by
  rw [CGGraph.addNode, absent]
  rfl

theorem addNode_of_known {node : NodeRef} (known : graph.getNode funcName = some node) :
    graph.addNode funcName = (graph, node) := by
  rw [CGGraph.addNode, known]

theorem getGNode_withNode (id : Nat) : (withNode graph funcName).getGNode id =
    if id = graph.nodeNum + 1 then some graph.nodeAllocs else graph.getGNode id :=
  OrderedMap.find_insert _ _ _ _

theorem getNode_withNode (other : List Char) : (withNode graph funcName).getNode other =
    if other = funcName then some graph.nodeAllocs else graph.getNode other := by
  change (graph.fnameToNode.insert funcName graph.nodeAllocs).find other = _
  rw [OrderedMap.find_insert]
  congr

theorem mem_nodeRefs_withNode (unused : graph.getGNode (graph.nodeNum + 1) = none)
    {node : NodeRef} : node ∈ (withNode graph funcName).nodeRefs ↔
      node = graph.nodeAllocs ∨ node ∈ graph.nodeRefs := by
  simp only [CGGraph.mem_nodeRefs, getGNode_withNode]
  constructor
  · rintro ⟨id, found⟩
    split at found
    · exact .inl (Option.some.inj found).symm
    · exact .inr ⟨id, found⟩
  · rintro (rfl | ⟨id, found⟩)
    · exact ⟨_, if_pos rfl⟩
    · refine ⟨id, ?_⟩
      rw [if_neg]
      · exact found
      · rintro rfl
        rw [unused] at found
        cases found

theorem nodes_withNode_self : (withNode graph funcName).nodes graph.nodeAllocs =
    CGNode.new (graph.nodeNum + 1) funcName := Function.update_self _ _ _

theorem nodes_withNode_of_mem (allocated : Allocated graph) {node : NodeRef}
    (member : node ∈ graph.nodeRefs) :
    (withNode graph funcName).nodes node = graph.nodes node :=
  Function.update_of_ne (Nat.ne_of_lt (allocated.node node member)) _ _

theorem withNode_nodes (kept : NodesKept graph alive) (allocated : Allocated graph)
    (absent : graph.getNode funcName = none)
    (unused : graph.getGNode (graph.nodeNum + 1) = none) :
    NodesKept (withNode graph funcName) (graph.nodeAllocs :: alive) where
  ids := by
    intro id node found
    rw [getGNode_withNode] at found
    split at found
    · rename_i new
      cases found
      rw [nodes_withNode_self, new]
      rfl
    · rw [nodes_withNode_of_mem allocated (CGGraph.mem_nodeRefs.mpr ⟨id, found⟩)]
      exact kept.ids id node found
  named := {
    entries := by
      intro entry member
      have found : (withNode graph funcName).getNode entry.1 = some entry.2 :=
        OrderedMap.find_eq_some_iff.mpr member
      rw [getNode_withNode] at found
      split at found
      · rename_i new
        rw [← Option.some.inj found, nodes_withNode_self, new]
        exact ⟨(mem_nodeRefs_withNode unused).mpr (.inl rfl), rfl⟩
      · rcases kept.named.of_getNode found with ⟨listed, name⟩
        refine ⟨(mem_nodeRefs_withNode unused).mpr (.inr listed), ?_⟩
        rw [nodes_withNode_of_mem allocated listed]
        exact name
    listed := by
      intro node member
      rw [getNode_withNode]
      rcases (mem_nodeRefs_withNode unused).mp member with rfl | old
      · rw [nodes_withNode_self]
        exact if_pos rfl
      · rw [nodes_withNode_of_mem allocated old, if_neg]
        · exact kept.named.listed node old
        · intro same
          have known := kept.named.listed node old
          rw [same, absent] at known
          cases known }
  kept := by
    intro node
    rw [mem_nodeRefs_withNode unused, List.mem_cons, kept.kept]
  nodeNum := by
    have more := (OrderedMap.perm_insert graph.nodeAllocs unused).length_eq
    have listed : graph.nodeRefs.length = graph.idToNode.entries.length := List.length_map _
    change graph.nodeNum + 1 = ((graph.idToNode.insert _ _).entries.map Prod.snd).length
    rw [List.length_map, more, List.length_cons, kept.nodeNum, listed]

theorem mem_of_out_withNode (unused : graph.getGNode (graph.nodeNum + 1) = none) {node : NodeRef}
    (member : node ∈ (withNode graph funcName).nodeRefs) {edge : EdgeRef}
    (out : edge ∈ ((withNode graph funcName).nodes node).outEdges) : node ∈ graph.nodeRefs := by
  rcases (mem_nodeRefs_withNode unused).mp member with rfl | listed
  · rw [nodes_withNode_self] at out
    exact (List.not_mem_nil out).elim
  · exact listed

theorem mem_of_into_withNode (unused : graph.getGNode (graph.nodeNum + 1) = none) {node : NodeRef}
    (member : node ∈ (withNode graph funcName).nodeRefs) {edge : EdgeRef}
    (into : edge ∈ ((withNode graph funcName).nodes node).inEdges) : node ∈ graph.nodeRefs := by
  rcases (mem_nodeRefs_withNode unused).mp member with rfl | listed
  · rw [nodes_withNode_self] at into
    exact (List.not_mem_nil into).elim
  · exact listed

theorem inGraph_withNode_iff (allocated : Allocated graph)
    (unused : graph.getGNode (graph.nodeNum + 1) = none) (edge : EdgeRef) :
    (withNode graph funcName).inGraph edge ↔ graph.inGraph edge := by
  constructor
  · rintro ⟨src, out⟩
    have listed := mem_of_out_withNode unused src out
    rw [nodes_withNode_of_mem allocated listed] at out
    exact ⟨listed, out⟩
  · rintro ⟨src, out⟩
    refine ⟨(mem_nodeRefs_withNode unused).mpr (.inr src), ?_⟩
    rw [← nodes_withNode_of_mem allocated src] at out
    exact out

theorem withNode_allocated (allocated : Allocated graph)
    (unused : graph.getGNode (graph.nodeNum + 1) = none) : Allocated (withNode graph funcName) := by
  constructor
  · intro node member
    rcases (mem_nodeRefs_withNode unused).mp member with rfl | listed
    · exact Nat.lt_succ_self _
    · exact Nat.lt_succ_of_lt (allocated.node node listed)
  · intro node member edge out
    have listed := mem_of_out_withNode unused member out
    rw [nodes_withNode_of_mem allocated listed] at out
    exact allocated.edge node listed edge out

theorem withNode_edgesKept (kept : EdgesKept graph) (allocated : Allocated graph)
    (unused : graph.getGNode (graph.nodeNum + 1) = none) : EdgesKept (withNode graph funcName) := by
  have old : ∀ node ∈ graph.nodeRefs,
      (withNode graph funcName).nodes node = graph.nodes node :=
    fun node member => nodes_withNode_of_mem allocated member
  have stays : ∀ node ∈ graph.nodeRefs, node ∈ (withNode graph funcName).nodeRefs :=
    fun node member => (mem_nodeRefs_withNode unused).mpr (.inr member)
  apply EdgesKept.of_ordered
  · intro node member edge out
    have listed := mem_of_out_withNode unused member out
    rw [old node listed] at out
    rcases kept.outgoing node listed edge out with ⟨src, dst, into⟩
    refine ⟨src, stays _ dst, ?_⟩
    rw [← old _ dst] at into
    exact into
  · intro node member edge into
    have listed := mem_of_into_withNode unused member into
    rw [old node listed] at into
    rcases kept.incoming node listed edge into with ⟨dst, src, out⟩
    refine ⟨dst, stays _ src, ?_⟩
    rw [← old _ src] at out
    exact out
  · intro node member
    rcases (mem_nodeRefs_withNode unused).mp member with rfl | listed
    · rw [nodes_withNode_self]
      exact .nil
    · rw [old node listed]
      refine (kept.orderedOut node listed).congr (fun _ _ => ⟨rfl, rfl, rfl⟩) ?_
      intro edge out
      rcases kept.outgoing node listed edge out with ⟨src, dst, -⟩
      rw [src, old _ listed, old _ dst]
      exact ⟨rfl, rfl⟩
  · intro node member
    rcases (mem_nodeRefs_withNode unused).mp member with rfl | listed
    · rw [nodes_withNode_self]
      exact .nil
    · rw [old node listed]
      refine (kept.orderedIn node listed).congr (fun _ _ => ⟨rfl, rfl, rfl⟩) ?_
      intro edge into
      rcases kept.incoming node listed edge into with ⟨dst, src, -⟩
      rw [dst, old _ listed, old _ src]
      exact ⟨rfl, rfl⟩
  · intro node member first firstOut second secondOut same
    have listed := mem_of_out_withNode unused member firstOut
    rw [old node listed] at firstOut secondOut
    exact kept.single node listed first firstOut second secondOut same
  · refine kept.edgeNum.trans (congrArg Finset.card ?_)
    ext edge
    rw [CGGraph.graphEdges, CGGraph.graphEdges, Finset.mem_filter, Finset.mem_filter,
      inGraph_withNode_iff allocated unused]
    rfl

end AddNode

section UpdateNodeId

variable {node other : NodeRef} {id : Nat}

def renamed (graph : CGGraph) (node : NodeRef) (id : Nat) : CGGraph :=
  { graph.setNode node { graph.nodes node with id } with
    idToNode := (graph.idToNode.erase (graph.nodes node).id).insert id node }

theorem updateNodeId_eq (kept : NodesKept graph alive) (member : node ∈ graph.nodeRefs) :
    graph.updateNodeId node id = some (renamed graph node id) := by
  rw [CGGraph.updateNodeId, kept.getGNode member]
  rfl

theorem getGNode_renamed (key : Nat) : (renamed graph node id).getGNode key =
    if key = id then some node
    else if key = (graph.nodes node).id then none else graph.getGNode key := by
  change ((graph.idToNode.erase _).insert id node).find key = _
  rw [OrderedMap.find_insert, OrderedMap.find_erase]
  rfl

theorem nodes_renamed : (renamed graph node id).nodes other =
    { graph.nodes other with id := if other = node then id else (graph.nodes other).id } := by
  change Function.update graph.nodes node _ other = _
  rw [Function.update_apply]
  split
  next same => rw [same]
  next => rfl

theorem mem_nodeRefs_renamed (kept : NodesKept graph alive) (member : node ∈ graph.nodeRefs)
    (unused : graph.getGNode id = none) :
    other ∈ (renamed graph node id).nodeRefs ↔ other ∈ graph.nodeRefs := by
  simp only [CGGraph.mem_nodeRefs, getGNode_renamed]
  constructor
  · rintro ⟨key, found⟩
    split at found
    · cases found
      exact CGGraph.mem_nodeRefs.mp member
    · split at found
      · cases found
      · exact ⟨key, found⟩
  · rintro ⟨key, found⟩
    have different : key ≠ id := by
      rintro rfl
      rw [unused] at found
      cases found
    by_cases old : key = (graph.nodes node).id
    · rw [old, kept.getGNode member] at found
      exact ⟨id, (if_pos rfl).trans found⟩
    · exact ⟨key, by rw [if_neg different, if_neg old, found]⟩

theorem renamed_nodes (kept : NodesKept graph alive) (member : node ∈ graph.nodeRefs)
    (unused : graph.getGNode id = none) : NodesKept (renamed graph node id) alive where
  ids := by
    intro key other found
    rw [getGNode_renamed] at found
    rw [nodes_renamed]
    split at found
    · rename_i new
      cases found
      exact (if_pos rfl).trans new.symm
    · split at found
      · cases found
      · rename_i old
        have own := kept.ids key other found
        have different : other ≠ node := by
          rintro rfl
          exact old own.symm
        exact (if_neg different).trans own
  named := {
    entries := by
      intro entry listed
      rcases kept.named.entries entry listed with ⟨known, name⟩
      refine ⟨(mem_nodeRefs_renamed kept member unused).mpr known, ?_⟩
      rw [nodes_renamed]
      exact name
    listed := by
      intro other known
      rw [nodes_renamed]
      exact kept.named.listed other ((mem_nodeRefs_renamed kept member unused).mp known) }
  kept := by
    intro other
    rw [mem_nodeRefs_renamed kept member unused, kept.kept]
  nodeNum := by
    have absent : (graph.idToNode.erase (graph.nodes node).id).find id = none := by
      rw [OrderedMap.find_erase]
      split
      · rfl
      · exact unused
    have fewer := (OrderedMap.perm_erase (kept.getGNode member)).length_eq
    have more := (OrderedMap.perm_insert node absent).length_eq
    have listed : graph.nodeRefs.length = graph.idToNode.entries.length := List.length_map _
    change graph.nodeNum = (((graph.idToNode.erase _).insert _ _).entries.map Prod.snd).length
    rw [List.length_map, more, List.length_cons, kept.nodeNum, listed, fewer, List.length_cons]

/-- The edge sets of all nodes keep their order under a new id. -/
def KeepsOrder (graph : CGGraph) (node : NodeRef) (id : Nat) : Prop :=
  ∀ other ∈ graph.nodeRefs, (renamed graph node id).Ordered (graph.nodes other).outEdges ∧
    (renamed graph node id).Ordered (graph.nodes other).inEdges

theorem renamed_edges (nodesKept : NodesKept graph alive) (kept : EdgesKept graph)
    (allocated : Allocated graph) (member : node ∈ graph.nodeRefs)
    (unused : graph.getGNode id = none) (keepsOrder : KeepsOrder graph node id) :
    EdgesKept (renamed graph node id) ∧ Allocated (renamed graph node id) := by
  have listed : ∀ other, other ∈ (renamed graph node id).nodeRefs ↔ other ∈ graph.nodeRefs :=
    fun _ => mem_nodeRefs_renamed nodesKept member unused
  constructor
  · apply EdgesKept.of_ordered
    · intro other otherIn edge out
      rw [nodes_renamed] at out
      rcases kept.outgoing other ((listed other).mp otherIn) edge out with ⟨src, dst, into⟩
      refine ⟨src, (listed _).mpr dst, ?_⟩
      rw [nodes_renamed]
      exact into
    · intro other otherIn edge into
      rw [nodes_renamed] at into
      rcases kept.incoming other ((listed other).mp otherIn) edge into with ⟨dst, src, out⟩
      refine ⟨dst, (listed _).mpr src, ?_⟩
      rw [nodes_renamed]
      exact out
    · intro other otherIn
      rw [nodes_renamed]
      exact (keepsOrder other ((listed other).mp otherIn)).1
    · intro other otherIn
      rw [nodes_renamed]
      exact (keepsOrder other ((listed other).mp otherIn)).2
    · intro other otherIn first firstOut second secondOut same
      rw [nodes_renamed] at firstOut secondOut
      exact kept.single other ((listed other).mp otherIn) first firstOut second secondOut same
    · refine kept.edgeNum.trans (congrArg Finset.card ?_)
      refine Finset.filter_congr ?_
      intro edge _
      change _ ↔ (graph.edges edge).src ∈ (renamed graph node id).nodeRefs ∧
        edge ∈ ((renamed graph node id).nodes (graph.edges edge).src).outEdges
      rw [listed, nodes_renamed]
      rfl
  · constructor
    · intro other otherIn
      exact allocated.node other ((listed other).mp otherIn)
    · intro other otherIn edge out
      rw [nodes_renamed] at out
      exact allocated.edge other ((listed other).mp otherIn) edge out

end UpdateNodeId

section Steps

/-- No edge with another attribute joins two nodes. -/
def SameAttr (graph : CGGraph) (src dst : NodeRef) (attr : EdgeAttr) : Prop :=
  ∀ other ∈ (graph.nodes src).outEdges, (graph.edges other).dst = dst →
    (graph.edges other).attr = attr

/-- What a call needs to keep the representation. -/
def Safe (run : GraphRun) : Mutation → Prop
  | .addNode funcName =>
      (run.graph.getNode funcName).isSome ∨ run.graph.getGNode (run.graph.nodeNum + 1) = none
  | .makeEdge _ _ _ => True
  | .addEdge ref =>
      SameAttr run.graph (run.graph.edges ref).src (run.graph.edges ref).dst
        (run.graph.edges ref).attr
  | .addEdgeBetween src dst => SameAttr run.graph src dst .cfg
  | .addEdgeMasked src dst _ => SameAttr run.graph src dst .cfg
  | .rmEdge _ => True
  | .rmNode _ => False
  | .updateNodeId ref id => KeepsOrder run.graph ref id

/-- Linking changes nodes by their edge sets only. -/
theorem linkEdge_nodes (nodesKept : NodesKept graph alive) (kept : EdgesKept graph)
    (ends : graph.hasEnds ref) : NodesKept (graph.linkEdge ref).1 alive := by
  rcases linkEdge_cases nodesKept kept ends with ⟨unchanged, -⟩ | ⟨nodes, linked, named, -⟩
  · rwa [unchanged]
  · rw [linked]
    exact nodesKept.of_nodes named

theorem linkEdge_sound (nodesKept : NodesKept graph alive) (kept : EdgesKept graph)
    (allocated : Allocated graph) (below : ref < graph.edgeAllocs) (ends : graph.hasEnds ref)
    (same : SameAttr graph (graph.edges ref).src (graph.edges ref).dst (graph.edges ref).attr) :
    EdgesKept (graph.linkEdge ref).1 ∧ Allocated (graph.linkEdge ref).1 := by
  rcases linkEdge_cases nodesKept kept ends with
    ⟨unchanged, -⟩ | ⟨nodes, linked, named, memIn, memOut, orderedIn, orderedOut, fresh⟩
  · rw [unchanged]
    exact ⟨kept, allocated⟩
  · rw [linked]
    apply kept.joined allocated below ends named memIn memOut orderedIn orderedOut
    exact fun other out sameDst => fresh other out sameDst (same other out sameDst)

theorem sameAttr_of_linkEdge (nodesKept : NodesKept graph alive) (kept : EdgesKept graph)
    (ends : graph.hasEnds ref) (after : EdgesKept (graph.linkEdge ref).1) :
    SameAttr graph (graph.edges ref).src (graph.edges ref).dst (graph.edges ref).attr := by
  intro other out sameDst
  rcases linkEdge_cases nodesKept kept ends with
    ⟨-, twin, twinOut, twinDst, twinAttr⟩ | ⟨nodes, linked, -, -, memOut, -⟩
  · rw [kept.single _ ends.1 other out twin twinOut (sameDst.trans twinDst.symm)]
    exact twinAttr
  · rw [linked] at after
    have firstOut : other ∈ (nodes (graph.edges ref).src).outEdges :=
      (memOut _ other).mpr (.inr out)
    have secondOut : ref ∈ (nodes (graph.edges ref).src).outEdges :=
      (memOut _ ref).mpr (.inl ⟨rfl, rfl⟩)
    rw [after.single (graph.edges ref).src ends.1 other firstOut ref secondOut sameDst]

variable {edge : CGEdge}

theorem edges_withEdge : (withEdge graph edge).edges graph.edgeAllocs = edge :=
  Function.update_self _ _ _

theorem withEdge_nodes (kept : NodesKept graph alive) : NodesKept (withEdge graph edge) alive :=
  kept.of_nodes fun _ => ⟨rfl, rfl⟩

theorem hasEnds_withEdge (src : edge.src ∈ graph.nodeRefs) (dst : edge.dst ∈ graph.nodeRefs) :
    (withEdge graph edge).hasEnds graph.edgeAllocs := by
  rw [CGGraph.hasEnds, edges_withEdge]
  exact ⟨src, dst⟩

theorem sameAttr_withEdge (allocated : Allocated graph) (src : edge.src ∈ graph.nodeRefs) :
    SameAttr (withEdge graph edge) ((withEdge graph edge).edges graph.edgeAllocs).src
        ((withEdge graph edge).edges graph.edgeAllocs).dst
        ((withEdge graph edge).edges graph.edgeAllocs).attr ↔
      SameAttr graph edge.src edge.dst edge.attr := by
  rw [edges_withEdge]
  refine forall₂_congr fun other out => ?_
  have old : (withEdge graph edge).edges other = graph.edges other :=
    Function.update_of_ne (Nat.ne_of_lt (allocated.edge _ src other out)) _ _
  rw [old]

/-- A new edge between two nodes of the graph keeps the representation if and
only if no edge with another attribute joins them. -/
theorem Sound.linkNew (sound : run.Sound) (src : edge.src ∈ run.graph.nodeRefs)
    (dst : edge.dst ∈ run.graph.nodeRefs) :
    (SameAttr run.graph edge.src edge.dst edge.attr →
      Sound { run with
        graph := ((withEdge run.graph edge).linkEdge run.graph.edgeAllocs).1 }) ∧
    (EdgesKept ((withEdge run.graph edge).linkEdge run.graph.edgeAllocs).1 →
      SameAttr run.graph edge.src edge.dst edge.attr) := by
  have nodes := @withEdge_nodes _ _ edge sound.nodes
  have ends := hasEnds_withEdge src dst
  rcases withEdge_edges sound.edges sound.allocated edge with ⟨edges, allocated⟩
  constructor
  · intro same
    rw [← sameAttr_withEdge sound.allocated src] at same
    rcases linkEdge_sound nodes edges allocated (Nat.lt_succ_self _) ends same with
      ⟨edgesAfter, allocatedAfter⟩
    exact ⟨linkEdge_nodes nodes edges ends, edgesAfter, allocatedAfter⟩
  · intro after
    rw [← sameAttr_withEdge sound.allocated src]
    exact sameAttr_of_linkEdge nodes edges ends after

theorem Sound.not_represents_rmNode (sound : run.Sound) {node : NodeRef}
    (taken : run.step (.rmNode node) = some next) : ¬next.Represents := by
  intro represents
  rcases step_rmNode taken with ⟨member, graph, removed, rfl⟩
  unfold CGGraph.rmNode at removed
  split at removed
  · rcases Option.map_eq_some_iff.mp removed with ⟨_, _, rfl⟩
    have named : run.graph.getNode (run.graph.nodes node).funcName = some node :=
      sound.nodes.named.listed node member
    rcases CGGraph.mem_nodeRefs.mp (represents.nodes.named.of_getNode named).1 with ⟨id, found⟩
    change (run.graph.idToNode.erase _).find id = some node at found
    rw [OrderedMap.find_erase] at found
    split at found
    · cases found
    · rename_i other
      exact other (sound.nodes.ids id node found).symm
  · cases removed

theorem Sound.not_represents_addNode (sound : run.Sound) {funcName : List Char} {old : NodeRef}
    (absent : run.graph.getNode funcName = none)
    (used : run.graph.getGNode (run.graph.nodeNum + 1) = some old)
    (taken : run.step (.addNode funcName) = some next) : ¬next.Represents := by
  intro represents
  simp only [step, absent, Option.isSome_none, Bool.false_eq_true, if_false,
    addNode_of_absent absent, Option.some.injEq] at taken
  subst next
  have listed : old ∈ run.graph.nodeRefs := CGGraph.mem_nodeRefs.mpr ⟨_, used⟩
  have alive := List.mem_cons_of_mem run.graph.nodeAllocs ((sound.nodes.kept old).mpr listed)
  rcases CGGraph.mem_nodeRefs.mp ((represents.nodes.kept old).mp alive) with ⟨id, found⟩
  change (withNode run.graph funcName).getGNode id = some old at found
  rw [getGNode_withNode] at found
  split at found
  · exact absurd (Option.some.inj found) (Nat.ne_of_gt (sound.allocated.node old listed))
  · rename_i other
    have own := sound.nodes.ids id old found
    rw [sound.nodes.ids _ old used] at own
    exact other own.symm

theorem Sound.step {action : Mutation} (sound : run.Sound) (safe : run.Safe action)
    (taken : run.step action = some next) : next.Sound := by
  cases action with
  | addNode funcName =>
      simp only [GraphRun.step, Option.some.injEq] at taken
      subst next
      cases known : run.graph.getNode funcName with
      | some node =>
          rw [addNode_of_known known]
          exact sound
      | none =>
          have unused := safe.resolve_left (by simp [known])
          rw [addNode_of_absent known]
          exact ⟨withNode_nodes sound.nodes sound.allocated known unused,
            withNode_edgesKept sound.edges sound.allocated unused,
            withNode_allocated sound.allocated unused⟩
  | makeEdge src dst attr =>
      cases taken
      rcases withEdge_edges sound.edges sound.allocated { CGEdge.new src dst with attr } with
        ⟨edges, allocated⟩
      exact ⟨withEdge_nodes sound.nodes, edges, allocated⟩
  | addEdge ref =>
      rcases step_addEdge taken with ⟨⟨below, -, ends⟩, rfl⟩
      rcases linkEdge_sound sound.nodes sound.edges sound.allocated below ends safe with
        ⟨edges, allocated⟩
      exact ⟨linkEdge_nodes sound.nodes sound.edges ends, edges, allocated⟩
  | addEdgeBetween src dst =>
      rcases step_addEdgeBetween taken with ⟨⟨hasSrc, hasDst⟩, rfl⟩
      exact (@Sound.linkNew _ (CGEdge.new src dst) sound hasSrc hasDst).1 safe
  | addEdgeMasked src dst mask =>
      rcases step_addEdgeMasked taken with ⟨⟨hasSrc, hasDst⟩, rfl⟩
      exact (@Sound.linkNew _ { CGEdge.new src dst with driverIdMask := mask } sound
        hasSrc hasDst).1 safe
  | rmEdge ref =>
      rcases step_rmEdge taken with ⟨inGraph, rfl⟩
      rcases sound.edges.rmEdge sound.allocated inGraph with ⟨edges, allocated⟩
      rcases rmEdge_cases sound.edges inGraph with ⟨nodes, removed, named, -⟩
      refine ⟨?_, edges, allocated⟩
      rw [removed]
      exact sound.nodes.of_nodes named
  | rmNode node => exact safe.elim
  | updateNodeId node id =>
      rcases step_updateNodeId taken with ⟨⟨member, unused⟩, graph, renamed, rfl⟩
      rw [updateNodeId_eq sound.nodes member, Option.some.injEq] at renamed
      subst graph
      rcases renamed_edges sound.nodes sound.edges sound.allocated member unused safe with
        ⟨edges, allocated⟩
      exact ⟨renamed_nodes sound.nodes member unused, edges, allocated⟩

theorem Sound.safe {action : Mutation} (sound : run.Sound) (taken : run.step action = some next)
    (represents : next.Represents) : run.Safe action := by
  cases action with
  | addNode funcName =>
      cases known : run.graph.getNode funcName with
      | some node => exact .inl (by rw [known]; rfl)
      | none =>
          cases used : run.graph.getGNode (run.graph.nodeNum + 1) with
          | none => exact .inr used
          | some old => exact absurd represents (sound.not_represents_addNode known used taken)
  | makeEdge src dst attr => trivial
  | addEdge ref =>
      rcases step_addEdge taken with ⟨⟨-, -, ends⟩, rfl⟩
      exact sameAttr_of_linkEdge sound.nodes sound.edges ends represents.edges
  | addEdgeBetween src dst =>
      rcases step_addEdgeBetween taken with ⟨⟨hasSrc, hasDst⟩, rfl⟩
      exact (@Sound.linkNew _ (CGEdge.new src dst) sound hasSrc hasDst).2 represents.edges
  | addEdgeMasked src dst mask =>
      rcases step_addEdgeMasked taken with ⟨⟨hasSrc, hasDst⟩, rfl⟩
      exact (@Sound.linkNew _ { CGEdge.new src dst with driverIdMask := mask } sound
        hasSrc hasDst).2 represents.edges
  | rmEdge ref => trivial
  | rmNode node => exact absurd represents (sound.not_represents_rmNode taken)
  | updateNodeId node id =>
      rcases step_updateNodeId taken with ⟨⟨inGraph, unused⟩, graph, renamed, rfl⟩
      rw [updateNodeId_eq sound.nodes inGraph, Option.some.injEq] at renamed
      subst graph
      intro other member
      have listed := (mem_nodeRefs_renamed sound.nodes inGraph unused).mpr member
      have out := represents.edges.orderedOut other listed
      have into := represents.edges.orderedIn other listed
      rw [nodes_renamed] at out into
      exact ⟨out, into⟩

end Steps

/-- In every run of the mutators from an empty graph, every state represents its
graph if and only if every call is safe: no node is removed, no new node gets a
used id, no two attributes join two nodes and no new id of a node disturbs the
order of an edge set. -/
theorem represents_iff (actions : List Mutation) :
    (start.Represents ∧
      Along step (fun run action => ∀ next, run.step action = some next → next.Represents)
        start actions) ↔
      Along step (fun run action => (run.step action).isSome → run.Safe action) start actions := by
  have same := along_iff_along
    (fun run action (sound : run.Sound) =>
      show (∀ next, run.step action = some next → next.Represents) ↔
          ((run.step action).isSome → run.Safe action) from by
        constructor
        · intro keeps enabled
          rcases Option.isSome_iff_exists.mp enabled with ⟨next, taken⟩
          exact sound.safe taken (keeps next taken)
        · intro safe next taken
          exact (sound.step (safe (Option.isSome_iff_exists.mpr ⟨next, taken⟩)) taken).represents)
    (fun run action next (sound : run.Sound) keeps taken =>
      sound.step (sound.safe taken (keeps next taken)) taken)
    start_sound actions
  rw [same]
  exact and_iff_right start_sound.represents

/-- After a removal the next new node overwrites another one. -/
theorem node_overwritten :
    ∃ final, runFrom step start
        [.addNode ['f'], .addNode ['g'], .rmNode 0, .addNode ['h']] = some final ∧
      ¬final.Represents := by
  refine ⟨_, rfl, ?_⟩
  intro represents
  have lost := (represents.nodes.kept 1).mp (by decide)
  revert lost
  decide

end GraphRun

end GraphDissect.CallGraph
