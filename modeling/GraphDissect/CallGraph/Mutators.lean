import GraphDissect.CallGraph.Loaded
import Mathlib

/-!
# The mutators of the call graph

`AddNode`, `AddEdge`, `RmEdge`, `RmNode` and `UpdateNodeId` in any order on an
empty graph.  New ids come from the number of nodes, the name map is not told of
removals, and the edge sets are ordered by ids that change under them: what a
run needs to stay consistent is stated call by call.
-/

namespace GraphDissect.CallGraph

open Library

namespace CGGraph

/-- `RmIncomingEdge` and `RmOutgoingEdge`: the edge set without the edge that
the comparator finds. -/
def eraseEdge (graph : CGGraph) (ref : EdgeRef) : List EdgeRef → List EdgeRef
  | [] => []
  | other :: rest =>
      if graph.edgeBefore (graph.edges other) (graph.edges ref) then
        other :: eraseEdge graph ref rest
      else if graph.edgeBefore (graph.edges ref) (graph.edges other) then other :: rest
      else rest

/-- `GetIncomingEdge` and `GetOutgoingEdge`: the edge that the comparator finds. -/
def searchEdge (graph : CGGraph) (ref : EdgeRef) : List EdgeRef → Option EdgeRef
  | [] => none
  | other :: rest =>
      if graph.edgeBefore (graph.edges other) (graph.edges ref) then searchEdge graph ref rest
      else if graph.edgeBefore (graph.edges ref) (graph.edges other) then none
      else some other

def rmEdge (graph : CGGraph) (ref : EdgeRef) : CGGraph :=
  let dst := (graph.edges ref).dst
  let graph := graph.setNode dst
    { graph.nodes dst with inEdges := graph.eraseEdge ref (graph.nodes dst).inEdges }
  let src := (graph.edges ref).src
  let graph := graph.setNode src
    { graph.nodes src with outEdges := graph.eraseEdge ref (graph.nodes src).outEdges }
  { graph with edgeNum := graph.edgeNum - 1 }

/-- `RmNode`; `none` is a failed assertion. -/
def rmNode (graph : CGGraph) (ref : NodeRef) : Option CGGraph :=
  if (graph.nodes ref).inEdges = [] ∧ (graph.nodes ref).outEdges = [] then
    (graph.getGNode (graph.nodes ref).id).map fun _ =>
      { graph with
        idToNode := graph.idToNode.erase (graph.nodes ref).id
        nodeNum := graph.nodeNum - 1 }
  else none

/-- `UpdateNodeId`; `none` is a failed assertion. -/
def updateNodeId (graph : CGGraph) (ref : NodeRef) (id : Nat) : Option CGGraph :=
  (graph.getGNode (graph.nodes ref).id).map fun _ =>
    { graph.setNode ref { graph.nodes ref with id } with
      idToNode := (graph.idToNode.erase (graph.nodes ref).id).insert id ref }

/-- The `CGEdge` constructor followed by `SetAttr`; the graph has no part in it. -/
def makeEdge (graph : CGGraph) (src dst : NodeRef) (attr : EdgeAttr) : CGGraph :=
  { graph with
    edges := Function.update graph.edges graph.edgeAllocs { CGEdge.new src dst with attr }
    edgeAllocs := graph.edgeAllocs + 1 }

/-- An edge that stands in the out-set of its source, a node of the graph. -/
def inGraph (graph : CGGraph) (ref : EdgeRef) : Prop :=
  (graph.edges ref).src ∈ graph.nodeRefs ∧
    ref ∈ (graph.nodes (graph.edges ref).src).outEdges

instance (graph : CGGraph) (ref : EdgeRef) : Decidable (graph.inGraph ref) :=
  inferInstanceAs (Decidable (_ ∧ _))

/-- Both ends of an edge are nodes of the graph. -/
def hasEnds (graph : CGGraph) (ref : EdgeRef) : Prop :=
  (graph.edges ref).src ∈ graph.nodeRefs ∧ (graph.edges ref).dst ∈ graph.nodeRefs

instance (graph : CGGraph) (ref : EdgeRef) : Decidable (graph.hasEnds ref) :=
  inferInstanceAs (Decidable (_ ∧ _))

def graphEdges (graph : CGGraph) : Finset EdgeRef :=
  (Finset.range graph.edgeAllocs).filter graph.inGraph

end CGGraph

section Order

variable {graph : CGGraph} {ref other : EdgeRef} {edges : List EdgeRef}

/-- What the comparator of the edge sets compares. -/
def CGGraph.edgeKey (graph : CGGraph) (ref : EdgeRef) : Nat ×ₗ Nat ×ₗ Nat :=
  let edge := graph.edges ref
  toLex (edge.attr.value, toLex ((graph.nodes edge.src).id, (graph.nodes edge.dst).id))

theorem EdgeAttr.value_injective : Function.Injective EdgeAttr.value := by
  intro first second same
  cases first <;> cases second <;> first | rfl | cases same

theorem edgeBefore_iff_key :
    graph.edgeBefore (graph.edges ref) (graph.edges other) ↔
      graph.edgeKey ref < graph.edgeKey other := by
  unfold CGGraph.edgeBefore CGGraph.edgeKey
  simp only [Prod.Lex.toLex_lt_toLex]
  by_cases sameAttr : (graph.edges ref).attr = (graph.edges other).attr
  · rw [if_neg (not_not.mpr sameAttr), sameAttr]
    by_cases sameSrc : (graph.nodes (graph.edges ref).src).id =
        (graph.nodes (graph.edges other).src).id
    · rw [if_neg (not_not.mpr sameSrc), sameSrc]
      simp
    · rw [if_pos sameSrc]
      simp [sameSrc]
  · have sameValue : (graph.edges ref).attr.value ≠ (graph.edges other).attr.value :=
      fun same => sameAttr (EdgeAttr.value_injective same)
    rw [if_pos sameAttr]
    simp [sameValue]

theorem edgeKey_eq_iff :
    graph.edgeKey ref = graph.edgeKey other ↔
      (graph.edges ref).attr = (graph.edges other).attr ∧
      (graph.nodes (graph.edges ref).src).id = (graph.nodes (graph.edges other).src).id ∧
      (graph.nodes (graph.edges ref).dst).id = (graph.nodes (graph.edges other).dst).id := by
  unfold CGGraph.edgeKey
  simp only [EmbeddingLike.apply_eq_iff_eq, Prod.mk.injEq, EdgeAttr.value_injective.eq_iff]

/-- An edge set in the order of the comparator. -/
def CGGraph.Ordered (graph : CGGraph) (edges : List EdgeRef) : Prop :=
  edges.Pairwise fun first second => graph.edgeBefore (graph.edges first) (graph.edges second)

theorem ordered_iff :
    graph.Ordered edges ↔ edges.Pairwise fun first second =>
      graph.edgeKey first < graph.edgeKey second := by
  unfold CGGraph.Ordered
  simp only [edgeBefore_iff_key]

theorem CGGraph.Ordered.nodup (ordered : graph.Ordered edges) : edges.Nodup :=
  (ordered_iff.mp ordered).imp fun before same => absurd (same ▸ before) (lt_irrefl _)

theorem CGGraph.Ordered.searchEdge (ordered : graph.Ordered edges) (member : ref ∈ edges) :
    graph.searchEdge ref edges = some ref := by
  rw [ordered_iff] at ordered
  induction edges with
  | nil => cases member
  | cons head rest inductionHypothesis =>
      rw [List.pairwise_cons] at ordered
      simp only [CGGraph.searchEdge, edgeBefore_iff_key]
      rcases List.mem_cons.mp member with rfl | later
      · rw [if_neg (lt_irrefl _), if_neg (lt_irrefl _)]
      · rw [if_pos (ordered.1 ref later)]
        exact inductionHypothesis ordered.2 later

theorem CGGraph.Ordered.eraseEdge (ordered : graph.Ordered edges) (member : ref ∈ edges) :
    graph.eraseEdge ref edges = edges.erase ref := by
  rw [ordered_iff] at ordered
  induction edges with
  | nil => cases member
  | cons head rest inductionHypothesis =>
      rw [List.pairwise_cons] at ordered
      simp only [CGGraph.eraseEdge, edgeBefore_iff_key]
      by_cases here : head = ref
      · subst head
        rw [if_neg (lt_irrefl _), if_neg (lt_irrefl _), List.erase_cons_head]
      · have later := (List.mem_cons.mp member).resolve_left (Ne.symm here)
        rw [if_pos (ordered.1 ref later), inductionHypothesis ordered.2 later,
          List.erase_cons_tail (by simpa using here)]

/-- The order reads the ids of the nodes and the attributes and ends of the edges. -/
theorem CGGraph.Ordered.congr {other : CGGraph} (ordered : graph.Ordered edges)
    (sameEdges : ∀ ref ∈ edges, (other.edges ref).attr = (graph.edges ref).attr ∧
      (other.edges ref).src = (graph.edges ref).src ∧
      (other.edges ref).dst = (graph.edges ref).dst)
    (sameIds : ∀ ref ∈ edges,
      (other.nodes (graph.edges ref).src).id = (graph.nodes (graph.edges ref).src).id ∧
      (other.nodes (graph.edges ref).dst).id = (graph.nodes (graph.edges ref).dst).id) :
    other.Ordered edges := by
  rw [ordered_iff] at ordered ⊢
  have sameKey : ∀ ref ∈ edges, other.edgeKey ref = graph.edgeKey ref := by
    intro ref member
    rcases sameEdges ref member with ⟨attr, src, dst⟩
    rcases sameIds ref member with ⟨srcId, dstId⟩
    simp only [CGGraph.edgeKey, attr, src, dst, srcId, dstId]
  refine ordered.imp_of_mem ?_
  intro first second firstIn secondIn before
  rwa [sameKey first firstIn, sameKey second secondIn]

end Order

section Runs

/-- A graph with the nodes that were made and not removed, and the edges that
were deleted. -/
structure GraphRun where
  graph : CGGraph
  alive : List NodeRef
  freed : List EdgeRef

/-- A call of a mutator, or an edge made by a caller. -/
inductive Mutation where
  | addNode (funcName : List Char)
  | makeEdge (src dst : NodeRef) (attr : EdgeAttr)
  | addEdge (ref : EdgeRef)
  | addEdgeBetween (src dst : NodeRef)
  | addEdgeMasked (src dst : NodeRef) (mask : DriverIdMask)
  | rmEdge (ref : EdgeRef)
  | rmNode (ref : NodeRef)
  | updateNodeId (ref : NodeRef) (id : Nat)

namespace GraphRun

def start : GraphRun := ⟨CGGraph.empty, [], []⟩

/-- One call.  Edges are added between nodes of the graph, edges and nodes of the
graph are removed, a node without edges at that, and a new id is unused. -/
def step (run : GraphRun) : Mutation → Option GraphRun
  | .addNode funcName =>
      some
        { run with
          graph := (run.graph.addNode funcName).1
          alive :=
            if (run.graph.getNode funcName).isSome then run.alive
            else (run.graph.addNode funcName).2 :: run.alive }
  | .makeEdge src dst attr => some { run with graph := run.graph.makeEdge src dst attr }
  | .addEdge ref =>
      if ref < run.graph.edgeAllocs ∧ ref ∉ run.freed ∧ run.graph.hasEnds ref then
        some { run with graph := (run.graph.linkEdge ref).1 }
      else none
  | .addEdgeBetween src dst =>
      if src ∈ run.graph.nodeRefs ∧ dst ∈ run.graph.nodeRefs then
        some { run with graph := (run.graph.addEdge src dst).1 }
      else none
  | .addEdgeMasked src dst mask =>
      if src ∈ run.graph.nodeRefs ∧ dst ∈ run.graph.nodeRefs then
        some { run with graph := run.graph.addMaskedEdge src dst mask }
      else none
  | .rmEdge ref =>
      if run.graph.inGraph ref then
        some { run with graph := run.graph.rmEdge ref, freed := ref :: run.freed }
      else none
  | .rmNode ref =>
      if ref ∈ run.graph.nodeRefs then
        (run.graph.rmNode ref).map fun graph =>
          { run with graph, alive := run.alive.filter (· ≠ ref) }
      else none
  | .updateNodeId ref id =>
      if ref ∈ run.graph.nodeRefs ∧ run.graph.getGNode id = none then
        (run.graph.updateNodeId ref id).map fun graph => { run with graph }
      else none

variable {run next : GraphRun} {src dst : NodeRef}

theorem step_addEdge {ref : EdgeRef} (taken : run.step (.addEdge ref) = some next) :
    (ref < run.graph.edgeAllocs ∧ ref ∉ run.freed ∧ run.graph.hasEnds ref) ∧
      next = { run with graph := (run.graph.linkEdge ref).1 } := by
  rcases Option.ite_none_right_eq_some.mp taken with ⟨given, called⟩
  exact ⟨given, (Option.some.inj called).symm⟩

theorem step_addEdgeBetween (taken : run.step (.addEdgeBetween src dst) = some next) :
    (src ∈ run.graph.nodeRefs ∧ dst ∈ run.graph.nodeRefs) ∧
      next = { run with graph := (run.graph.addEdge src dst).1 } := by
  rcases Option.ite_none_right_eq_some.mp taken with ⟨given, called⟩
  exact ⟨given, (Option.some.inj called).symm⟩

theorem step_addEdgeMasked {mask : DriverIdMask}
    (taken : run.step (.addEdgeMasked src dst mask) = some next) :
    (src ∈ run.graph.nodeRefs ∧ dst ∈ run.graph.nodeRefs) ∧
      next = { run with graph := run.graph.addMaskedEdge src dst mask } := by
  rcases Option.ite_none_right_eq_some.mp taken with ⟨given, called⟩
  exact ⟨given, (Option.some.inj called).symm⟩

theorem step_rmEdge {ref : EdgeRef} (taken : run.step (.rmEdge ref) = some next) :
    run.graph.inGraph ref ∧
      next = { run with graph := run.graph.rmEdge ref, freed := ref :: run.freed } := by
  rcases Option.ite_none_right_eq_some.mp taken with ⟨given, called⟩
  exact ⟨given, (Option.some.inj called).symm⟩

theorem step_rmNode {ref : NodeRef} (taken : run.step (.rmNode ref) = some next) :
    ref ∈ run.graph.nodeRefs ∧ ∃ graph, run.graph.rmNode ref = some graph ∧
      next = { run with graph, alive := run.alive.filter (· ≠ ref) } := by
  rcases Option.ite_none_right_eq_some.mp taken with ⟨given, called⟩
  rcases Option.map_eq_some_iff.mp called with ⟨graph, removed, rfl⟩
  exact ⟨given, graph, removed, rfl⟩

theorem step_updateNodeId {ref : NodeRef} {id : Nat}
    (taken : run.step (.updateNodeId ref id) = some next) :
    (ref ∈ run.graph.nodeRefs ∧ run.graph.getGNode id = none) ∧
      ∃ graph, run.graph.updateNodeId ref id = some graph ∧ next = { run with graph } := by
  rcases Option.ite_none_right_eq_some.mp taken with ⟨given, called⟩
  rcases Option.map_eq_some_iff.mp called with ⟨graph, renamed, rfl⟩
  exact ⟨given, graph, renamed, rfl⟩

end GraphRun

end Runs

end GraphDissect.CallGraph
