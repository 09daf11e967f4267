import GraphDissect.CallGraph.DotParser
import GraphDissect.Library.Runs

/-!
# Loaded graphs

What holds of every graph that `Dot2Graph` builds, whatever stands in the file:
the maps list the nodes under their ids and names, both ends of an edge hold
it, and two nodes are joined by at most one edge in each direction.
-/

namespace GraphDissect.CallGraph

open Library

/-- The invariant of a graph that only grows. -/
structure Loaded (graph : CGGraph) : Prop where
  nodeNum : graph.nodeNum = graph.nodeAllocs
  entries : graph.idToNode.entries = (List.range graph.nodeAllocs).map fun ref => (ref + 1, ref)
  id : ∀ ref < graph.nodeAllocs, (graph.nodes ref).id = ref + 1
  names : ∀ name ref, graph.getNode name = some ref ↔
    ref < graph.nodeAllocs ∧ (graph.nodes ref).funcName = name
  outgoing : ∀ ref < graph.nodeAllocs, ∀ edge ∈ (graph.nodes ref).outEdges,
    (graph.edges edge).src = ref ∧ (graph.edges edge).dst < graph.nodeAllocs ∧
      edge ∈ (graph.nodes (graph.edges edge).dst).inEdges
  incoming : ∀ ref < graph.nodeAllocs, ∀ edge ∈ (graph.nodes ref).inEdges,
    (graph.edges edge).dst = ref ∧ (graph.edges edge).src < graph.nodeAllocs ∧
      edge ∈ (graph.nodes (graph.edges edge).src).outEdges
  allocated : ∀ ref < graph.nodeAllocs, ∀ edge ∈ (graph.nodes ref).outEdges,
    edge < graph.edgeAllocs ∧ (graph.edges edge).attr = .cfg
  sortedOut : ∀ ref < graph.nodeAllocs, (graph.nodes ref).outEdges.Pairwise fun first second =>
    (graph.edges first).dst < (graph.edges second).dst
  sortedIn : ∀ ref < graph.nodeAllocs, (graph.nodes ref).inEdges.Pairwise fun first second =>
    (graph.edges first).src < (graph.edges second).src

theorem loaded_empty : Loaded CGGraph.empty where
  nodeNum := rfl
  entries := rfl
  id ref inside := absurd inside (Nat.not_lt_zero ref)
  names name ref := by simp [CGGraph.getNode, CGGraph.empty]
  outgoing ref inside := absurd inside (Nat.not_lt_zero ref)
  incoming ref inside := absurd inside (Nat.not_lt_zero ref)
  allocated ref inside := absurd inside (Nat.not_lt_zero ref)
  sortedOut ref inside := absurd inside (Nat.not_lt_zero ref)
  sortedIn ref inside := absurd inside (Nat.not_lt_zero ref)

namespace Loaded

variable {graph : CGGraph}

theorem of_frame (loaded : Loaded graph) {nodes : NodeRef → CGNode} {edges : EdgeRef → CGEdge}
    (node : ∀ ref, (nodes ref).id = (graph.nodes ref).id ∧
      (nodes ref).funcName = (graph.nodes ref).funcName ∧
      (nodes ref).inEdges = (graph.nodes ref).inEdges ∧
      (nodes ref).outEdges = (graph.nodes ref).outEdges)
    (edge : ∀ ref, (edges ref).src = (graph.edges ref).src ∧
      (edges ref).dst = (graph.edges ref).dst ∧ (edges ref).attr = (graph.edges ref).attr) :
    Loaded { graph with nodes, edges } where
  nodeNum := loaded.nodeNum
  entries := loaded.entries
  id ref inside := (node ref).1.trans (loaded.id ref inside)
  names name ref := by
    rw [(node ref).2.1]
    exact loaded.names name ref
  outgoing ref inside linked member := by
    rw [(node ref).2.2.2] at member
    rw [(edge linked).1, (edge linked).2.1, (node _).2.2.1]
    exact loaded.outgoing ref inside linked member
  incoming ref inside linked member := by
    rw [(node ref).2.2.1] at member
    rw [(edge linked).1, (edge linked).2.1, (node _).2.2.2]
    exact loaded.incoming ref inside linked member
  allocated ref inside linked member := by
    rw [(node ref).2.2.2] at member
    rw [(edge linked).2.2]
    exact loaded.allocated ref inside linked member
  sortedOut ref inside := by
    rw [(node ref).2.2.2]
    exact (loaded.sortedOut ref inside).imp fun before => by
      rwa [(edge _).2.1, (edge _).2.1]
  sortedIn ref inside := by
    rw [(node ref).2.2.1]
    exact (loaded.sortedIn ref inside).imp fun before => by
      rwa [(edge _).1, (edge _).1]

theorem setNode (loaded : Loaded graph) {ref : NodeRef} {node : CGNode}
    (id : node.id = (graph.nodes ref).id) (funcName : node.funcName = (graph.nodes ref).funcName)
    (inEdges : node.inEdges = (graph.nodes ref).inEdges)
    (outEdges : node.outEdges = (graph.nodes ref).outEdges) : Loaded (graph.setNode ref node) := by
  refine loaded.of_frame (fun other => ?_) fun _ => ⟨rfl, rfl, rfl⟩
  rw [Function.update_apply]
  split
  next same =>
    subst same
    exact ⟨id, funcName, inEdges, outEdges⟩
  next => exact ⟨rfl, rfl, rfl, rfl⟩

theorem setEdge (loaded : Loaded graph) {ref : EdgeRef} {edge : CGEdge}
    (src : edge.src = (graph.edges ref).src) (dst : edge.dst = (graph.edges ref).dst)
    (attr : edge.attr = (graph.edges ref).attr) : Loaded (graph.setEdge ref edge) := by
  refine loaded.of_frame (fun _ => ⟨rfl, rfl, rfl, rfl⟩) fun other => ?_
  rw [Function.update_apply]
  split
  next same =>
    subst same
    exact ⟨src, dst, attr⟩
  next => exact ⟨rfl, rfl, rfl⟩

theorem lt_of_getNode (loaded : Loaded graph) {name : List Char} {ref : NodeRef}
    (found : graph.getNode name = some ref) : ref < graph.nodeAllocs :=
  ((loaded.names name ref).mp found).1

theorem names_insert (loaded : Loaded graph) {name : List Char} (absent : graph.getNode name = none)
    {nodes : NodeRef → CGNode} (old : ∀ ref < graph.nodeAllocs, nodes ref = graph.nodes ref)
    (last : (nodes graph.nodeAllocs).funcName = name) (other : List Char) (ref : NodeRef) :
    (graph.fnameToNode.insert name graph.nodeAllocs).find other = some ref ↔
      ref < graph.nodeAllocs + 1 ∧ (nodes ref).funcName = other := by
  have known := loaded.names other ref
  dsimp only [CGGraph.getNode] at known absent
  rw [OrderedMap.find_insert]
  by_cases fresh : ref = graph.nodeAllocs
  · subst fresh
    rw [last]
    by_cases same : other = name
    · simp [same]
    · rw [if_neg same, known]
      simp [Ne.symm same]
  · have before : ref < graph.nodeAllocs + 1 ↔ ref < graph.nodeAllocs :=
      ⟨fun inside => (Nat.lt_succ_iff_lt_or_eq.mp inside).resolve_right fresh, Nat.lt_succ_of_lt⟩
    rw [before]
    by_cases same : other = name
    · subst same
      rw [absent] at known
      constructor
      · intro found
        rw [if_pos rfl] at found
        exact absurd (Option.some.inj found).symm fresh
      · rintro ⟨inside, named⟩
        rw [old ref inside] at named
        exact absurd (known.mpr ⟨inside, named⟩) (by simp)
    · rw [if_neg same, known]
      exact and_congr_right fun inside => by rw [old ref inside]

theorem appendNode (loaded : Loaded graph) {name : List Char} (absent : graph.getNode name = none) :
    Loaded { graph with
      nodes := Function.update graph.nodes graph.nodeAllocs (CGNode.new (graph.nodeNum + 1) name)
      fnameToNode := graph.fnameToNode.insert name graph.nodeAllocs
      idToNode := graph.idToNode.insert (graph.nodeNum + 1) graph.nodeAllocs
      nodeNum := graph.nodeNum + 1
      nodeAllocs := graph.nodeAllocs + 1 } := by
  generalize isNodes : Function.update graph.nodes graph.nodeAllocs
    (CGNode.new (graph.nodeNum + 1) name) = nodes
  -- the nodes that were there are untouched
  have old : ∀ ref < graph.nodeAllocs, nodes ref = graph.nodes ref := by
    intro ref inside
    rw [← isNodes, Function.update_of_ne (Nat.ne_of_lt inside)]
  have last : nodes graph.nodeAllocs = CGNode.new (graph.nodeNum + 1) name := by
    rw [← isNodes, Function.update_self]
  have split : ∀ ref < graph.nodeAllocs + 1,
      (ref < graph.nodeAllocs ∧ nodes ref = graph.nodes ref) ∨
        (nodes ref).outEdges = [] ∧ (nodes ref).inEdges = [] := by
    intro ref inside
    rcases Nat.lt_succ_iff_lt_or_eq.mp inside with before | rfl
    · exact .inl ⟨before, old ref before⟩
    · rw [last]
      exact .inr ⟨rfl, rfl⟩
  exact {
    nodeNum := congrArg (· + 1) loaded.nodeNum
    entries := by
      dsimp only
      rw [OrderedMap.entries_insert_last, loaded.entries, List.range_succ, List.map_append,
        List.map_singleton, loaded.nodeNum]
      rw [loaded.entries, loaded.nodeNum]
      intro entry member
      rcases List.mem_map.mp member with ⟨ref, inside, rfl⟩
      exact Nat.succ_lt_succ (List.mem_range.mp inside)
    id := fun ref inside => by
      rcases Nat.lt_succ_iff_lt_or_eq.mp inside with before | rfl
      · dsimp only
        rw [old ref before]
        exact loaded.id ref before
      · dsimp only
        rw [last, ← loaded.nodeNum]
        rfl
    names := loaded.names_insert absent old (congrArg CGNode.funcName last)
    outgoing := fun ref inside edge member => by
      dsimp only at member ⊢
      rcases split ref inside with ⟨before, same⟩ | ⟨noOut, -⟩
      · rw [same] at member
        rcases loaded.outgoing ref before edge member with ⟨src, dst, into⟩
        refine ⟨src, Nat.lt_succ_of_lt dst, ?_⟩
        rwa [old _ dst]
      · simp [noOut] at member
    incoming := fun ref inside edge member => by
      dsimp only at member ⊢
      rcases split ref inside with ⟨before, same⟩ | ⟨-, noIn⟩
      · rw [same] at member
        rcases loaded.incoming ref before edge member with ⟨dst, src, out⟩
        refine ⟨dst, Nat.lt_succ_of_lt src, ?_⟩
        rwa [old _ src]
      · simp [noIn] at member
    allocated := fun ref inside edge member => by
      dsimp only at member ⊢
      rcases split ref inside with ⟨before, same⟩ | ⟨noOut, -⟩
      · rw [same] at member
        exact loaded.allocated ref before edge member
      · simp [noOut] at member
    sortedOut := fun ref inside => by
      dsimp only
      rcases split ref inside with ⟨before, same⟩ | ⟨noOut, -⟩
      · rw [same]
        exact loaded.sortedOut ref before
      · rw [noOut]
        exact .nil
    sortedIn := fun ref inside => by
      dsimp only
      rcases split ref inside with ⟨before, same⟩ | ⟨-, noIn⟩
      · rw [same]
        exact loaded.sortedIn ref before
      · rw [noIn]
        exact .nil }

theorem addNode (loaded : Loaded graph) (name : List Char) :
    Loaded (graph.addNode name).1 ∧ (graph.addNode name).2 < (graph.addNode name).1.nodeAllocs ∧
      graph.nodeAllocs ≤ (graph.addNode name).1.nodeAllocs := by
  unfold CGGraph.addNode
  split
  next ref found => exact ⟨loaded, loaded.lt_of_getNode found, Nat.le_refl _⟩
  next absent => exact ⟨loaded.appendNode absent, Nat.lt_succ_self _, Nat.le_succ _⟩

theorem allocEdge (loaded : Loaded graph) (edge : CGEdge) :
    Loaded { graph with
      edges := Function.update graph.edges graph.edgeAllocs edge
      edgeAllocs := graph.edgeAllocs + 1 } := by
  generalize isEdges : Function.update graph.edges graph.edgeAllocs edge = edges
  have old : ∀ ref < graph.nodeAllocs, ∀ linked ∈ (graph.nodes ref).outEdges,
      edges linked = graph.edges linked := by
    intro ref inside linked member
    rw [← isEdges, Function.update_of_ne]
    exact Nat.ne_of_lt (loaded.allocated ref inside linked member).1
  have oldIn : ∀ ref < graph.nodeAllocs, ∀ linked ∈ (graph.nodes ref).inEdges,
      edges linked = graph.edges linked := by
    intro ref inside linked member
    rcases loaded.incoming ref inside linked member with ⟨-, src, out⟩
    exact old _ src linked out
  exact {
    nodeNum := loaded.nodeNum
    entries := loaded.entries
    id := loaded.id
    names := loaded.names
    outgoing := fun ref inside linked member => by
      dsimp only
      rw [old ref inside linked member]
      exact loaded.outgoing ref inside linked member
    incoming := fun ref inside linked member => by
      dsimp only
      rw [oldIn ref inside linked member]
      exact loaded.incoming ref inside linked member
    allocated := fun ref inside linked member => by
      dsimp only
      rw [old ref inside linked member]
      rcases loaded.allocated ref inside linked member with ⟨below, cfg⟩
      exact ⟨Nat.lt_succ_of_lt below, cfg⟩
    sortedOut := fun ref inside => by
      apply (loaded.sortedOut ref inside).imp_of_mem
      intro first second firstIn secondIn before
      dsimp only
      rwa [old ref inside first firstIn, old ref inside second secondIn]
    sortedIn := fun ref inside => by
      apply (loaded.sortedIn ref inside).imp_of_mem
      intro first second firstIn secondIn before
      dsimp only
      rwa [oldIn ref inside first firstIn, oldIn ref inside second secondIn] }

end Loaded

/-- The comparator puts an edge among others by a position. -/
def CGGraph.Placed {Position : Type*} [LinearOrder Position] (graph : CGGraph) (ref : EdgeRef)
    (position : EdgeRef → Position) (others : List EdgeRef) : Prop :=
  ∀ other ∈ others,
    (graph.edgeBefore (graph.edges ref) (graph.edges other) ↔ position ref < position other) ∧
      (graph.edgeBefore (graph.edges other) (graph.edges ref) ↔ position other < position ref)

theorem CGGraph.insertEdge_sorted {Position : Type*} [LinearOrder Position] {graph : CGGraph}
    {ref : EdgeRef} {position : EdgeRef → Position} {others : List EdgeRef}
    (before : graph.Placed ref position others)
    (sorted : others.Pairwise fun first second => position first < position second) :
    (graph.insertEdge ref others = none ∧ ∃ other ∈ others, position other = position ref) ∨
      ∃ inserted, graph.insertEdge ref others = some inserted ∧
        (∀ edge, edge ∈ inserted ↔ edge = ref ∨ edge ∈ others) ∧
        (inserted.Pairwise fun first second => position first < position second) ∧
        ∀ other ∈ others, position other ≠ position ref := by
  induction others with
  | nil => exact .inr ⟨[ref], rfl, by simp, List.pairwise_singleton _ _, by simp⟩
  | cons head rest inductionHypothesis =>
      rcases before head List.mem_cons_self with ⟨isBefore, isAfter⟩
      rw [List.pairwise_cons] at sorted
      rw [CGGraph.insertEdge]
      by_cases first : position ref < position head
      · rw [if_pos (isBefore.mpr first)]
        have above : ∀ other ∈ head :: rest, position ref < position other := by
          intro other member
          rcases List.mem_cons.mp member with rfl | later
          · exact first
          · exact first.trans (sorted.1 other later)
        refine .inr ⟨_, rfl, by simp, ?_, fun other member => (above other member).ne'⟩
        exact List.pairwise_cons.mpr ⟨above, List.pairwise_cons.mpr sorted⟩
      · rw [if_neg fun early => first (isBefore.mp early)]
        by_cases last : position head < position ref
        · rw [if_pos (isAfter.mpr last)]
          rcases inductionHypothesis (fun other member => before other (List.mem_cons_of_mem _ member))
            sorted.2 with ⟨absent, other, member, same⟩ | ⟨inserted, found, mem, ordered, apart⟩
          · rw [absent]
            exact .inl ⟨rfl, other, List.mem_cons_of_mem head member, same⟩
          · rw [found]
            refine .inr ⟨head :: inserted, rfl, fun edge => ?_, ?_, ?_⟩
            · rw [List.mem_cons, List.mem_cons, mem edge]
              tauto
            · refine List.pairwise_cons.mpr ⟨fun other member => ?_, ordered⟩
              rcases (mem other).mp member with rfl | later
              · exact last
              · exact sorted.1 other later
            · intro other member
              rcases List.mem_cons.mp member with rfl | later
              · exact last.ne
              · exact apart other later
        · rw [if_neg fun late => last (isAfter.mp late)]
          exact .inl ⟨rfl, head, List.mem_cons_self,
            le_antisymm (not_lt.mp first) (not_lt.mp last)⟩

/-- Both ends of an edge are nodes of the graph. -/
structure Ends (graph : CGGraph) (edge : CGEdge) : Prop where
  src : edge.src < graph.nodeAllocs
  dst : edge.dst < graph.nodeAllocs
  cfg : edge.attr = .cfg

/-- The order of the edge sets reads the ids of nodes only. -/
theorem CGGraph.edgeBefore_setNode {graph : CGGraph} {ref : NodeRef} {node : CGNode}
    (id : node.id = (graph.nodes ref).id) (first second : CGEdge) :
    (graph.setNode ref node).edgeBefore first second ↔ graph.edgeBefore first second := by
  have ids : ∀ other, ((graph.setNode ref node).nodes other).id = (graph.nodes other).id := by
    intro other
    dsimp only [CGGraph.setNode]
    rw [Function.update_apply]
    split
    next same => rw [id, same]
    next => rfl
  unfold CGGraph.edgeBefore
  simp only [ids]

theorem CGGraph.nodes_setNode_inEdges (graph : CGGraph) (dst node : NodeRef)
    (inEdges : List EdgeRef) :
    ((graph.setNode dst { graph.nodes dst with inEdges }).nodes node).id = (graph.nodes node).id ∧
      ((graph.setNode dst { graph.nodes dst with inEdges }).nodes node).outEdges =
        (graph.nodes node).outEdges := by
  dsimp only [CGGraph.setNode]
  rw [Function.update_apply]
  split
  next same =>
    subst same
    exact ⟨rfl, rfl⟩
  next => exact ⟨rfl, rfl⟩

theorem update_edgeSets (nodes : NodeRef → CGNode) (src dst : NodeRef) (inEdges outEdges : List EdgeRef)
    (other : NodeRef) :
    Function.update (Function.update nodes dst { nodes dst with inEdges }) src
        { Function.update nodes dst { nodes dst with inEdges } src with outEdges } other =
      { nodes other with
        inEdges := if other = dst then inEdges else (nodes other).inEdges
        outEdges := if other = src then outEdges else (nodes other).outEdges } := by
  simp only [Function.update_apply]
  by_cases isSrc : other = src
  · subst isSrc
    by_cases isDst : other = dst
    · subst isDst
      simp
    · simp [isDst]
  · by_cases isDst : other = dst
    · subst isDst
      simp [isSrc]
    · simp [isSrc, isDst]

section Linking

variable {Position : Type*} [LinearOrder Position] {graph : CGGraph} {ref : EdgeRef}
  {Inside : NodeRef → Prop} {inPosition outPosition : EdgeRef → Position}

/-- An edge that joined the in-set of its destination joins the out-set of its
source: a twin there would have been met in the in-set. -/
theorem CGGraph.insertEdge_out {inEdges : List EdgeRef}
    (placed : graph.Placed ref outPosition (graph.nodes (graph.edges ref).src).outEdges)
    (sorted : (graph.nodes (graph.edges ref).src).outEdges.Pairwise fun first second =>
      outPosition first < outPosition second)
    (apart : ∀ other ∈ (graph.nodes (graph.edges ref).src).outEdges,
      outPosition other ≠ outPosition ref) :
    ∃ outEdges, (graph.setNode (graph.edges ref).dst
        { graph.nodes (graph.edges ref).dst with inEdges }).insertEdge ref
        (graph.nodes (graph.edges ref).src).outEdges = some outEdges ∧
      (∀ edge, edge ∈ outEdges ↔ edge = ref ∨ edge ∈ (graph.nodes (graph.edges ref).src).outEdges) ∧
      outEdges.Pairwise fun first second => outPosition first < outPosition second := by
  have placedStill : (graph.setNode (graph.edges ref).dst
      { graph.nodes (graph.edges ref).dst with inEdges }).Placed ref outPosition
      (graph.nodes (graph.edges ref).src).outEdges := by
    have same := @CGGraph.edgeBefore_setNode graph (graph.edges ref).dst
      { graph.nodes (graph.edges ref).dst with inEdges } rfl
    exact fun other member => ⟨(same _ _).trans (placed other member).1,
      (same _ _).trans (placed other member).2⟩
  rcases CGGraph.insertEdge_sorted placedStill sorted with
    ⟨-, other, member, same⟩ | ⟨outEdges, found, mem, ordered, -⟩
  · exact absurd same (apart other member)
  · exact ⟨outEdges, found, mem, ordered⟩

/-- Linking meets an edge at the position of `ref`, or puts `ref` into both sets
that it belongs to. -/
theorem CGGraph.linkEdge_sorted (src : Inside (graph.edges ref).src)
    (dst : Inside (graph.edges ref).dst)
    (placedIn : graph.Placed ref inPosition (graph.nodes (graph.edges ref).dst).inEdges)
    (placedOut : graph.Placed ref outPosition (graph.nodes (graph.edges ref).src).outEdges)
    (sortedIn : ∀ node, Inside node → (graph.nodes node).inEdges.Pairwise fun first second =>
      inPosition first < inPosition second)
    (sortedOut : ∀ node, Inside node → (graph.nodes node).outEdges.Pairwise fun first second =>
      outPosition first < outPosition second)
    (twin : ∀ other ∈ (graph.nodes (graph.edges ref).src).outEdges,
      outPosition other = outPosition ref →
        ∃ into ∈ (graph.nodes (graph.edges ref).dst).inEdges, inPosition into = inPosition ref) :
    ((graph.linkEdge ref).1 = graph ∧
        ∃ other ∈ (graph.nodes (graph.edges ref).dst).inEdges, inPosition other = inPosition ref) ∨
      ∃ nodes, (graph.linkEdge ref).1 = { graph with nodes, edgeNum := graph.edgeNum + 1 } ∧
        (∀ node, (nodes node).id = (graph.nodes node).id ∧
          (nodes node).funcName = (graph.nodes node).funcName) ∧
        (∀ node edge, edge ∈ (nodes node).inEdges ↔
          edge = ref ∧ node = (graph.edges ref).dst ∨ edge ∈ (graph.nodes node).inEdges) ∧
        (∀ node edge, edge ∈ (nodes node).outEdges ↔
          edge = ref ∧ node = (graph.edges ref).src ∨ edge ∈ (graph.nodes node).outEdges) ∧
        (∀ node, Inside node → (nodes node).inEdges.Pairwise fun first second =>
          inPosition first < inPosition second) ∧
        (∀ node, Inside node → (nodes node).outEdges.Pairwise fun first second =>
          outPosition first < outPosition second) ∧
        ∀ other ∈ (graph.nodes (graph.edges ref).dst).inEdges,
          inPosition other ≠ inPosition ref := by
  unfold CGGraph.linkEdge
  dsimp only
  rcases CGGraph.insertEdge_sorted placedIn (sortedIn _ dst) with
    ⟨absent, met⟩ | ⟨inEdges, foundIn, memIn, orderedIn, apart⟩
  · rw [absent]
    exact .inl ⟨rfl, met⟩
  · have single : ∀ other ∈ (graph.nodes (graph.edges ref).src).outEdges,
        outPosition other ≠ outPosition ref := by
      intro other member same
      rcases twin other member same with ⟨into, isInto, position⟩
      exact apart into isInto position
    rcases @CGGraph.insertEdge_out _ _ graph ref outPosition inEdges placedOut
      (sortedOut _ src) single with ⟨outEdges, foundOut, memOut, orderedOut⟩
    have kept := (graph.nodes_setNode_inEdges (graph.edges ref).dst (graph.edges ref).src inEdges).2
    have sameEdges : (graph.setNode (graph.edges ref).dst
        { graph.nodes (graph.edges ref).dst with inEdges }).edges = graph.edges := rfl
    rw [foundIn]
    dsimp only
    rw [sameEdges, kept, foundOut]
    dsimp only [CGGraph.setNode]
    refine .inr ⟨_, rfl, ?_, ?_, ?_, ?_, ?_, apart⟩
    · intro node
      rw [update_edgeSets]
      exact ⟨rfl, rfl⟩
    · intro node edge
      rw [update_edgeSets]
      by_cases same : node = (graph.edges ref).dst
      · simp [same, memIn]
      · simp [same]
    · intro node edge
      rw [update_edgeSets]
      by_cases same : node = (graph.edges ref).src
      · simp [same, memOut]
      · simp [same]
    · intro node inside
      rw [update_edgeSets]
      by_cases same : node = (graph.edges ref).dst
      · simpa [same] using orderedIn
      · simpa [same] using sortedIn node inside
    · intro node inside
      rw [update_edgeSets]
      by_cases same : node = (graph.edges ref).src
      · simpa [same] using orderedOut
      · simpa [same] using sortedOut node inside

end Linking

namespace Loaded

variable {graph : CGGraph}

theorem edgeBefore_iff (loaded : Loaded graph) {first second : CGEdge} (firstEnds : Ends graph first)
    (secondEnds : Ends graph second) : graph.edgeBefore first second ↔
      first.src < second.src ∨ first.src = second.src ∧ first.dst < second.dst := by
  unfold CGGraph.edgeBefore
  rw [if_neg (by rw [firstEnds.cfg, secondEnds.cfg]; simp), loaded.id _ firstEnds.src,
    loaded.id _ secondEnds.src, loaded.id _ firstEnds.dst, loaded.id _ secondEnds.dst]
  by_cases same : first.src = second.src <;> simp [same]

theorem ends_out (loaded : Loaded graph) {ref : NodeRef} (inside : ref < graph.nodeAllocs)
    {edge : EdgeRef} (member : edge ∈ (graph.nodes ref).outEdges) : Ends graph (graph.edges edge) := by
  rcases loaded.outgoing ref inside edge member with ⟨src, dst, -⟩
  exact ⟨src ▸ inside, dst, (loaded.allocated ref inside edge member).2⟩

theorem ends_in (loaded : Loaded graph) {ref : NodeRef} (inside : ref < graph.nodeAllocs)
    {edge : EdgeRef} (member : edge ∈ (graph.nodes ref).inEdges) : Ends graph (graph.edges edge) := by
  rcases loaded.incoming ref inside edge member with ⟨-, src, out⟩
  exact loaded.ends_out src out

theorem placedIn (loaded : Loaded graph) {ref : EdgeRef} (ends : Ends graph (graph.edges ref)) :
    graph.Placed ref (fun edge => (graph.edges edge).src)
      (graph.nodes (graph.edges ref).dst).inEdges := by
  intro other member
  have same := (loaded.incoming _ ends.dst other member).1
  have otherEnds := loaded.ends_in ends.dst member
  rw [loaded.edgeBefore_iff ends otherEnds, loaded.edgeBefore_iff otherEnds ends, same]
  simp

theorem placedOut (loaded : Loaded graph) {ref : EdgeRef} (ends : Ends graph (graph.edges ref)) :
    graph.Placed ref (fun edge => (graph.edges edge).dst)
      (graph.nodes (graph.edges ref).src).outEdges := by
  intro other member
  have same := (loaded.outgoing _ ends.src other member).1
  have otherEnds := loaded.ends_out ends.src member
  rw [loaded.edgeBefore_iff ends otherEnds, loaded.edgeBefore_iff otherEnds ends, same]
  simp

theorem joined (loaded : Loaded graph) {ref : EdgeRef} (allocated : ref < graph.edgeAllocs)
    (ends : Ends graph (graph.edges ref)) {nodes : NodeRef → CGNode} (edgeNum : Nat)
    (named : ∀ other, (nodes other).id = (graph.nodes other).id ∧
      (nodes other).funcName = (graph.nodes other).funcName)
    (memIn : ∀ other edge, edge ∈ (nodes other).inEdges ↔
      edge = ref ∧ other = (graph.edges ref).dst ∨ edge ∈ (graph.nodes other).inEdges)
    (memOut : ∀ other edge, edge ∈ (nodes other).outEdges ↔
      edge = ref ∧ other = (graph.edges ref).src ∨ edge ∈ (graph.nodes other).outEdges)
    (sortedIn : ∀ other < graph.nodeAllocs, (nodes other).inEdges.Pairwise fun first second =>
      (graph.edges first).src < (graph.edges second).src)
    (sortedOut : ∀ other < graph.nodeAllocs, (nodes other).outEdges.Pairwise fun first second =>
      (graph.edges first).dst < (graph.edges second).dst) :
    Loaded { graph with nodes, edgeNum } where
  nodeNum := loaded.nodeNum
  entries := loaded.entries
  id other inside := (named other).1.trans (loaded.id other inside)
  names name other := by
    rw [(named other).2]
    exact loaded.names name other
  outgoing other inside edge member := by
    rw [memIn]
    rcases (memOut other edge).mp member with ⟨rfl, rfl⟩ | old
    · exact ⟨rfl, ends.dst, .inl ⟨rfl, rfl⟩⟩
    · rcases loaded.outgoing other inside edge old with ⟨src, dst, into⟩
      exact ⟨src, dst, .inr into⟩
  incoming other inside edge member := by
    rw [memOut]
    rcases (memIn other edge).mp member with ⟨rfl, rfl⟩ | old
    · exact ⟨rfl, ends.src, .inl ⟨rfl, rfl⟩⟩
    · rcases loaded.incoming other inside edge old with ⟨dst, src, out⟩
      exact ⟨dst, src, .inr out⟩
  allocated other inside edge member := by
    rcases (memOut other edge).mp member with ⟨rfl, rfl⟩ | old
    · exact ⟨allocated, ends.cfg⟩
    · exact loaded.allocated other inside edge old
  sortedOut := sortedOut
  sortedIn := sortedIn

/-- Linking finds an edge with the same ends, or puts the edge into the two sets
it belongs to. -/
theorem linkEdge_cases (loaded : Loaded graph) {ref : EdgeRef} (ends : Ends graph (graph.edges ref)) :
    ((graph.linkEdge ref).1 = graph ∧ ∃ other ∈ (graph.nodes (graph.edges ref).src).outEdges,
        (graph.edges other).dst = (graph.edges ref).dst) ∨
      ∃ nodes edgeNum, (graph.linkEdge ref).1 = { graph with nodes, edgeNum } ∧
        (∀ other, (nodes other).id = (graph.nodes other).id ∧
          (nodes other).funcName = (graph.nodes other).funcName) ∧
        (∀ other edge, edge ∈ (nodes other).inEdges ↔
          edge = ref ∧ other = (graph.edges ref).dst ∨ edge ∈ (graph.nodes other).inEdges) ∧
        (∀ other edge, edge ∈ (nodes other).outEdges ↔
          edge = ref ∧ other = (graph.edges ref).src ∨ edge ∈ (graph.nodes other).outEdges) ∧
        (∀ other < graph.nodeAllocs, (nodes other).inEdges.Pairwise fun first second =>
          (graph.edges first).src < (graph.edges second).src) ∧
        ∀ other < graph.nodeAllocs, (nodes other).outEdges.Pairwise fun first second =>
          (graph.edges first).dst < (graph.edges second).dst := by
  have twin : ∀ other ∈ (graph.nodes (graph.edges ref).src).outEdges,
      (graph.edges other).dst = (graph.edges ref).dst →
        ∃ into ∈ (graph.nodes (graph.edges ref).dst).inEdges,
          (graph.edges into).src = (graph.edges ref).src := by
    intro other out same
    rcases loaded.outgoing _ ends.src other out with ⟨src, -, into⟩
    exact ⟨other, same ▸ into, src⟩
  rcases CGGraph.linkEdge_sorted ends.src ends.dst (loaded.placedIn ends) (loaded.placedOut ends)
      loaded.sortedIn loaded.sortedOut twin with
    ⟨unchanged, other, into, same⟩ | ⟨nodes, linked, named, memIn, memOut, sortedIn, sortedOut, -⟩
  · rcases loaded.incoming _ ends.dst other into with ⟨dst, -, out⟩
    exact .inl ⟨unchanged, other, same ▸ out, dst⟩
  · exact .inr ⟨nodes, _, linked, named, memIn, memOut, sortedIn, sortedOut⟩

theorem linkEdge (loaded : Loaded graph) {ref : EdgeRef} (allocated : ref < graph.edgeAllocs)
    (ends : Ends graph (graph.edges ref)) : Loaded (graph.linkEdge ref).1 := by
  rcases loaded.linkEdge_cases ends with
    ⟨unchanged, -⟩ | ⟨nodes, edgeNum, linked, named, memIn, memOut, sortedIn, sortedOut⟩
  · rwa [unchanged]
  · rw [linked]
    exact loaded.joined allocated ends edgeNum named memIn memOut sortedIn sortedOut

theorem addMaskedEdge (loaded : Loaded graph) {src dst : NodeRef} (srcIn : src < graph.nodeAllocs)
    (dstIn : dst < graph.nodeAllocs) (mask : DriverIdMask) :
    Loaded (graph.addMaskedEdge src dst mask) := by
  unfold CGGraph.addMaskedEdge
  refine (loaded.allocEdge _).linkEdge (Nat.lt_succ_self _) ?_
  dsimp only
  rw [Function.update_self]
  exact ⟨srcIn, dstIn, rfl⟩

theorem addEdge (loaded : Loaded graph) {src dst : NodeRef} (srcIn : src < graph.nodeAllocs)
    (dstIn : dst < graph.nodeAllocs) : Loaded (graph.addEdge src dst).1 :=
  loaded.addMaskedEdge srcIn dstIn []

end Loaded

section Parsing

variable {graph next : CGGraph} {line : List Char}

theorem parseNodeLine_loaded (loaded : Loaded graph) (taken : parseNodeLine graph line = some next) :
    Loaded next := by
  rcases parseNodeLine_cases taken with rfl | ⟨nodeName, rest, -, mask, blockNum, key, hitNum, rfl⟩
  · exact loaded
  · exact (loaded.addNode _).1.setNode rfl rfl rfl rfl

theorem setEdgeFields_loaded (loaded : Loaded graph) {src dst : NodeRef} {keys : List UInt64}
    (taken : setEdgeFields graph src dst keys line = some next) : Loaded next := by
  rcases setEdgeFields_cases taken with rfl | ⟨edge, hitNum, rfl⟩
  · exact loaded
  · exact loaded.setEdge rfl rfl rfl

theorem parseEdgeLine_loaded (loaded : Loaded graph) (taken : parseEdgeLine graph line = some next) :
    Loaded next := by
  rcases parseEdgeLine_cases taken with
    rfl | ⟨srcName, dstName, src, dst, mask, keys, isSrc, isDst, fields⟩
  · exact loaded
  · refine setEdgeFields_loaded ?_ fields
    exact loaded.addMaskedEdge (loaded.lt_of_getNode isSrc) (loaded.lt_of_getNode isDst) mask

theorem parseDotAif_loaded {text : List Char} (loaded : Loaded graph)
    (parsed : parseDotAif graph text = some next) : Loaded next := by
  rcases Option.bind_eq_some_iff.mp parsed with ⟨noded, nodes, edges⟩
  rw [foldlM_eq_runFrom] at nodes edges
  have hasNodes := runFrom_invariant (fun _ _ _ => parseNodeLine_loaded) loaded nodes
  exact runFrom_invariant (fun _ _ _ => parseEdgeLine_loaded) hasNodes edges

/-- The state of the SVF parser: `NodeMap` refers to nodes of the graph. -/
structure SvfLoaded (s : SvfState) : Prop where
  loaded : Loaded s.graph
  listed : ∀ index ref, s.nodeMap.find index = some ref → ref < s.graph.nodeAllocs

theorem parseSvfNode_loaded {isLibFunc : List Char → Bool} {s after : SvfState}
    (before : SvfLoaded s) (taken : parseSvfNode isLibFunc s line = some after) :
    SvfLoaded after := by
  unfold parseSvfNode at taken
  split at taken
  next index _ _ _ =>
    split at taken
    next name _ _ _ _ =>
      rcases Option.map_eq_some_iff.mp taken with ⟨blockNum, -, rfl⟩
      split
      · exact before
      · rcases before.loaded.addNode name with ⟨loaded, inside, grows⟩
        refine ⟨loaded.setNode rfl rfl rfl rfl, ?_⟩
        intro other ref found
        dsimp only [CGGraph.setNode] at found ⊢
        rw [OrderedMap.find_insert] at found
        split at found
        · rwa [← Option.some.inj found]
        · exact (before.listed other ref found).trans_le grows
    next =>
      cases taken
      exact before
  next =>
    cases taken
    exact before

theorem addEdge_nodeAllocs (graph : CGGraph) (src dst : NodeRef) :
    (graph.addEdge src dst).1.nodeAllocs = graph.nodeAllocs := by
  unfold CGGraph.addEdge CGGraph.linkEdge
  dsimp only
  split
  · rfl
  · split <;> rfl

theorem parseSvfEdge_loaded {s : SvfState} (before : SvfLoaded s) (line : List Char) :
    SvfLoaded (parseSvfEdge s line) := by
  unfold parseSvfEdge
  split
  · split
    · exact before
    · split
      next src dst isSrc isDst =>
        refine ⟨before.loaded.addEdge (before.listed _ src isSrc) (before.listed _ dst isDst), ?_⟩
        intro index ref found
        dsimp only
        rw [addEdge_nodeAllocs]
        exact before.listed index ref found
      next => exact before
  · exact before

theorem parseDotSvf_loaded {isLibFunc : List Char → Bool} {text : List Char}
    (loaded : Loaded graph) (parsed : parseDotSvf isLibFunc graph text = some next) : Loaded next := by
  rcases Option.bind_eq_some_iff.mp parsed with ⟨s, nodes, edges⟩
  rw [foldlM_eq_runFrom] at nodes
  have start : SvfLoaded ⟨graph, OrderedMap.empty⟩ := ⟨loaded, by simp⟩
  have noded : SvfLoaded s := runFrom_invariant (fun _ _ _ => parseSvfNode_loaded) start nodes
  have linked : SvfLoaded ((getlines '\n' text).foldl parseSvfEdge s) :=
    List.foldlRecOn _ _ noded fun _ before line _ => parseSvfEdge_loaded before line
  rw [← Option.some.inj edges]
  exact linked.loaded

theorem dot2Graph_loaded {isLibFunc : List Char → Bool} {text : List Char}
    (parsed : dot2Graph isLibFunc text = some graph) : Loaded graph := by
  unfold dot2Graph at parsed
  split at parsed
  · exact parseDotSvf_loaded loaded_empty parsed
  · exact parseDotAif_loaded loaded_empty parsed

end Parsing

namespace Loaded

variable {graph : CGGraph}

theorem nodeRefs_eq (loaded : Loaded graph) : graph.nodeRefs = List.range graph.nodeAllocs := by
  rw [CGGraph.nodeRefs, OrderedMap.values, loaded.entries, List.map_map]
  exact List.map_id _

theorem mem_nodeRefs (loaded : Loaded graph) {ref : NodeRef} :
    ref ∈ graph.nodeRefs ↔ ref < graph.nodeAllocs := by
  rw [loaded.nodeRefs_eq, List.mem_range]

theorem edge_unique (loaded : Loaded graph) {ref : NodeRef} (inside : ref < graph.nodeAllocs)
    {first second : EdgeRef} (firstOut : first ∈ (graph.nodes ref).outEdges)
    (secondOut : second ∈ (graph.nodes ref).outEdges)
    (same : (graph.edges first).dst = (graph.edges second).dst) : first = second := by
  have nodup : ((graph.nodes ref).outEdges.map fun edge => (graph.edges edge).dst).Nodup := by
    rw [List.Nodup, List.pairwise_map]
    exact (loaded.sortedOut ref inside).imp fun before => Nat.ne_of_lt before
  exact List.inj_on_of_nodup_map nodup firstOut secondOut same

theorem nodup_outEdges (loaded : Loaded graph) {ref : NodeRef} (inside : ref < graph.nodeAllocs) :
    (graph.nodes ref).outEdges.Nodup :=
  (loaded.sortedOut ref inside).imp fun before same => absurd before (by simp [same])

theorem wellFormed (loaded : Loaded graph) : graph.WellFormed where
  ids := by
    rw [loaded.entries]
    intro entry member
    rcases List.mem_map.mp member with ⟨ref, inside, rfl⟩
    exact ⟨loaded.id ref (List.mem_range.mp inside), ref.succ_ne_zero⟩
  outgoing ref member edge out := by
    rw [loaded.mem_nodeRefs] at member ⊢
    exact loaded.outgoing ref member edge out
  incoming ref member edge into := by
    rw [loaded.mem_nodeRefs] at member ⊢
    exact loaded.incoming ref member edge into

theorem named (loaded : Loaded graph) : graph.Named where
  entries entry member := by
    rw [loaded.mem_nodeRefs]
    exact (loaded.names entry.1 entry.2).mp (OrderedMap.find_eq_some_iff.mpr member)
  listed ref member := by
    rw [loaded.mem_nodeRefs] at member
    exact (loaded.names _ ref).mpr ⟨member, rfl⟩

end Loaded

/-- The parser gives what the scheduler and the mapper of call sites expect of a
graph. -/
theorem dot2Graph_wellFormed {isLibFunc : List Char → Bool} {text : List Char} {graph : CGGraph}
    (parsed : dot2Graph isLibFunc text = some graph) : graph.WellFormed ∧ graph.Named :=
  ⟨(dot2Graph_loaded parsed).wellFormed, (dot2Graph_loaded parsed).named⟩

end GraphDissect.CallGraph
