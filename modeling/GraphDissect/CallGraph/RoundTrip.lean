import GraphDissect.CallGraph.DotRecords
import GraphDissect.Library.Runs

/-!
# Writing and reading a marked call graph

The label of a marked node repeats the name, and two copies of a name can spell
the text by which the parser tells SVF's graphs.  In the first ten lines of the
file this makes it read the graph as one of SVF, without nodes.  All other
graphs with plain names come back as they were.
-/

namespace GraphDissect.CallGraph

open Library

section View

/-- What a reader of the graph sees of an edge. -/
structure EdgeView where
  dst : Nat
  keys : List UInt64
  hitNum : UInt32
  drivers : Nat → Bool

/-- What a reader of the graph sees of a node and its edges. -/
structure NodeView where
  id : Nat
  funcName : List Char
  blockNum : UInt32
  key : UInt32
  hitNum : UInt32
  drivers : Nat → Bool
  out : List EdgeView

def CGGraph.viewEdge (graph : CGGraph) (edge : CGEdge) : EdgeView where
  dst := (graph.nodes edge.dst).id
  keys := edge.keys
  hitNum := edge.hitNum
  drivers := hasDriverId edge.driverIdMask

def CGGraph.viewNode (graph : CGGraph) (node : CGNode) : NodeView where
  id := node.id
  funcName := node.funcName
  blockNum := node.blockNum
  key := node.key
  hitNum := node.hitNum
  drivers := hasDriverId node.driverIdMask
  out := node.outEdges.map fun edge => graph.viewEdge (graph.edges edge)

/-- Nodes in the order of their ids, edges in the order of the edge sets. -/
def CGGraph.view (graph : CGGraph) : List NodeView :=
  graph.nodeRefs.map fun ref => graph.viewNode (graph.nodes ref)

end View

/-- The graph that is read is the graph that was written. -/
def RoundTrips (isLibFunc : List Char → Bool) (graph : CGGraph) : Prop :=
  ∃ parsed, dot2Graph isLibFunc (markedViz.witeGraph graph) = some parsed ∧
    parsed.view = graph.view

/-- Graphs with ids from 1 on and names that the format can carry. -/
structure Marked (graph : CGGraph) : Prop where
  wellFormed : graph.WellFormed
  named : graph.Named
  ids : graph.idToNode.entries.map Prod.fst = List.range' 1 graph.idToNode.entries.length
  plain : ∀ ref ∈ graph.nodeRefs, PlainName (graph.nodes ref).funcName
  small : ∀ ref ∈ graph.nodeRefs, (graph.nodes ref).blockNum.toNat < 2147483648
  counted : ∀ ref ∈ graph.nodeRefs, ∀ edge ∈ (graph.nodes ref).outEdges,
    (graph.edges edge).hitNum ≠ 0 → (graph.edges edge).keys ≠ []
  cfg : ∀ ref ∈ graph.nodeRefs, ∀ edge ∈ (graph.nodes ref).outEdges, (graph.edges edge).attr = .cfg
  sorted : ∀ ref ∈ graph.nodeRefs,
    (graph.nodes ref).outEdges.Pairwise fun first second =>
      graph.edgeBefore (graph.edges first) (graph.edges second)

instance (graph : CGGraph) : Decidable (Marked graph) :=
  decidable_of_iff
    (graph.WellFormed ∧ graph.Named ∧
      graph.idToNode.entries.map Prod.fst = List.range' 1 graph.idToNode.entries.length ∧
      (∀ ref ∈ graph.nodeRefs, PlainName (graph.nodes ref).funcName) ∧
      (∀ ref ∈ graph.nodeRefs, (graph.nodes ref).blockNum.toNat < 2147483648) ∧
      (∀ ref ∈ graph.nodeRefs, ∀ edge ∈ (graph.nodes ref).outEdges,
        (graph.edges edge).hitNum ≠ 0 → (graph.edges edge).keys ≠ []) ∧
      (∀ ref ∈ graph.nodeRefs, ∀ edge ∈ (graph.nodes ref).outEdges,
        (graph.edges edge).attr = .cfg) ∧
      ∀ ref ∈ graph.nodeRefs, (graph.nodes ref).outEdges.Pairwise fun first second =>
        graph.edgeBefore (graph.edges first) (graph.edges second))
    ⟨fun ⟨wellFormed, named, ids, plain, small, counted, cfg, sorted⟩ =>
      ⟨wellFormed, named, ids, plain, small, counted, cfg, sorted⟩,
      fun ⟨wellFormed, named, ids, plain, small, counted, cfg, sorted⟩ =>
        ⟨wellFormed, named, ids, plain, small, counted, cfg, sorted⟩⟩

def CGGraph.nodeRecords (graph : CGGraph) : List NodeRec :=
  graph.nodeRefs.map fun ref => (graph.nodes ref).record

def CGGraph.edgeRecords (graph : CGGraph) : List EdgeRec :=
  graph.nodeRefs.flatMap fun ref =>
    (graph.nodes ref).outEdges.map fun edge => graph.edgeRecord (graph.edges edge)

/-- What is seen of the edge of a record. -/
def EdgeRec.view (r : EdgeRec) : EdgeView := ⟨r.dst + 1, r.keys, r.hitNum, hasDriverId r.mask⟩

theorem Represents.viewEdge_eq {graph : CGGraph} {nodes : List NodeRec} {edges : List EdgeRec}
    (represents : Represents graph nodes edges) {ref : EdgeRef} {r : EdgeRec}
    (listed : edges[ref]? = some r) : graph.viewEdge (graph.edges ref) = r.view := by
  obtain ⟨-, dst⟩ := represents.ends r (List.mem_of_getElem? listed)
  rw [represents.edge ref r listed]
  simp only [CGGraph.viewEdge, EdgeRec.edge, represents.id_eq dst, hasDriverId_readMask, EdgeRec.view]

namespace Marked

variable {graph : CGGraph}

theorem id_eq (marked : Marked graph) {index : Nat} {ref : NodeRef}
    (listed : graph.nodeRefs[index]? = some ref) : (graph.nodes ref).id = index + 1 := by
  obtain ⟨entry, found, rfl⟩ := Option.map_eq_some_iff.mp (List.getElem?_map ▸ listed)
  have key : (graph.idToNode.entries.map Prod.fst)[index]? = some entry.1 := by
    rw [List.getElem?_map, found, Option.map_some]
  rw [marked.ids] at key
  obtain ⟨inside, same⟩ := List.getElem?_eq_some_iff.mp key
  rw [List.getElem_range', Nat.one_mul, Nat.add_comm] at same
  rw [(marked.wellFormed.ids entry (List.mem_of_getElem? found)).1, same]

theorem getElem?_id (marked : Marked graph) {ref : NodeRef} (member : ref ∈ graph.nodeRefs) :
    graph.nodeRefs[(graph.nodes ref).id - 1]? = some ref := by
  obtain ⟨index, listed⟩ := List.mem_iff_getElem?.mp member
  rw [marked.id_eq listed]
  exact listed

theorem nameAt_id (marked : Marked graph) {ref : NodeRef} (member : ref ∈ graph.nodeRefs) :
    nameAt graph.nodeRecords ((graph.nodes ref).id - 1) = (graph.nodes ref).funcName := by
  rw [nameAt, CGGraph.nodeRecords, List.getElem?_map, marked.getElem?_id member]
  rfl

theorem pairwise_id (marked : Marked graph) :
    graph.nodeRefs.Pairwise fun first second =>
      (graph.nodes first).id < (graph.nodes second).id := by
  rw [CGGraph.nodeRefs, OrderedMap.values, List.pairwise_map]
  apply graph.idToNode.sorted.imp_of_mem
  intro first second firstIn secondIn before
  rw [(marked.wellFormed.ids first firstIn).1, (marked.wellFormed.ids second secondIn).1]
  exact before

theorem index_lt (marked : Marked graph) {ref : NodeRef} (member : ref ∈ graph.nodeRefs) :
    (graph.nodes ref).id - 1 < graph.nodeRecords.length := by
  rw [CGGraph.nodeRecords, List.length_map]
  exact (List.getElem?_eq_some_iff.mp (marked.getElem?_id member)).1

theorem mem_edgeRecords {r : EdgeRec} :
    r ∈ graph.edgeRecords ↔ ∃ ref ∈ graph.nodeRefs, ∃ edge ∈ (graph.nodes ref).outEdges,
      graph.edgeRecord (graph.edges edge) = r := by
  simp [CGGraph.edgeRecords]

theorem pairwise_edgeRecords (marked : Marked graph) :
    graph.edgeRecords.Pairwise EdgeRec.Before := by
  rw [CGGraph.edgeRecords, List.pairwise_flatMap]
  constructor
  · intro ref member
    rw [List.pairwise_map]
    apply (marked.sorted ref member).imp_of_mem
    intro first second firstOut secondOut before
    obtain ⟨firstSrc, firstDst, -⟩ := marked.wellFormed.outgoing ref member first firstOut
    obtain ⟨secondSrc, secondDst, -⟩ := marked.wellFormed.outgoing ref member second secondOut
    have firstPositive := (marked.wellFormed.getGNode_id firstDst).2
    simp only [CGGraph.edgeBefore, marked.cfg ref member first firstOut,
      marked.cfg ref member second secondOut, firstSrc, secondSrc, ne_eq, not_true_eq_false,
      if_false] at before
    refine .inr ⟨?_, ?_⟩
    · simp only [CGGraph.edgeRecord, firstSrc, secondSrc]
    · simp only [CGGraph.edgeRecord]
      omega
  · apply marked.pairwise_id.imp_of_mem
    intro first second firstIn secondIn before r firstOut other secondOut
    obtain ⟨edge, out, rfl⟩ := List.mem_map.mp firstOut
    obtain ⟨otherEdge, otherOut, rfl⟩ := List.mem_map.mp secondOut
    have firstPositive := (marked.wellFormed.getGNode_id firstIn).2
    refine .inl ?_
    simp only [CGGraph.edgeRecord, (marked.wellFormed.outgoing first firstIn edge out).1,
      (marked.wellFormed.outgoing second secondIn otherEdge otherOut).1]
    omega

theorem printable (marked : Marked graph) : Printable graph.nodeRecords graph.edgeRecords where
  plain := by
    intro r member
    obtain ⟨ref, listed, rfl⟩ := List.mem_map.mp member
    exact marked.plain ref listed
  small := by
    intro r member
    obtain ⟨ref, listed, rfl⟩ := List.mem_map.mp member
    exact marked.small ref listed
  distinct := by
    rw [CGGraph.nodeRecords, List.map_map]
    apply marked.wellFormed.nodup_nodeRefs.map_on
    intro first firstIn second secondIn same
    have found := marked.named.listed first firstIn
    rw [show (graph.nodes first).funcName = (graph.nodes second).funcName from same,
      marked.named.listed second secondIn] at found
    exact (Option.some.inj found).symm
  ends := by
    intro r member
    obtain ⟨ref, listed, edge, out, rfl⟩ := mem_edgeRecords.mp member
    obtain ⟨src, dst, -⟩ := marked.wellFormed.outgoing ref listed edge out
    exact ⟨marked.index_lt (src ▸ listed), marked.index_lt dst⟩
  counted := by
    intro r member
    obtain ⟨ref, listed, edge, out, rfl⟩ := mem_edgeRecords.mp member
    exact marked.counted ref listed edge out
  sorted := marked.pairwise_edgeRecords

theorem filter_edgeRecords (marked : Marked graph) {index : Nat} {ref : NodeRef}
    (listed : graph.nodeRefs[index]? = some ref) :
    graph.edgeRecords.filter (fun r => r.src = index) =
      (graph.nodes ref).outEdges.map fun edge => graph.edgeRecord (graph.edges edge) := by
  have member := List.mem_of_getElem? listed
  have own : ∀ other ∈ graph.nodeRefs, ((graph.nodes other).outEdges.map fun edge =>
      graph.edgeRecord (graph.edges edge)).filter (fun r => r.src = index) =
        if other = ref then (graph.nodes ref).outEdges.map fun edge =>
          graph.edgeRecord (graph.edges edge) else [] := by
    intro other otherIn
    have src : ∀ r ∈ (graph.nodes other).outEdges.map (fun edge =>
        graph.edgeRecord (graph.edges edge)), r.src = (graph.nodes other).id - 1 := by
      intro r out
      obtain ⟨edge, edgeOut, rfl⟩ := List.mem_map.mp out
      simp only [CGGraph.edgeRecord, (marked.wellFormed.outgoing other otherIn edge edgeOut).1]
    split
    · next same =>
      subst same
      apply List.filter_eq_self.mpr
      intro r out
      simp [src r out, marked.id_eq listed]
    · next different =>
      apply List.filter_eq_nil_iff.mpr
      intro r out
      rw [src r out, decide_eq_true_eq]
      intro same
      have found := marked.getElem?_id otherIn
      rw [same, listed] at found
      exact different (Option.some.inj found).symm
  rw [CGGraph.edgeRecords, List.filter_flatMap, List.flatMap_congr own,
    flatMap_single marked.wellFormed.nodup_nodeRefs member]

theorem view_edgeRecord (marked : Marked graph) {edge : CGEdge} (dst : edge.dst ∈ graph.nodeRefs) :
    (graph.edgeRecord edge).view = graph.viewEdge edge := by
  have positive := (marked.wellFormed.getGNode_id dst).2
  simp only [EdgeRec.view, CGGraph.edgeRecord, CGGraph.viewEdge,
    Nat.sub_add_cancel (Nat.pos_of_ne_zero positive)]

theorem view_eq (marked : Marked graph) {parsed : CGGraph}
    (represents : Represents parsed graph.nodeRecords graph.edgeRecords) :
    parsed.view = graph.view := by
  have refs : parsed.nodeRefs = List.range graph.nodeRefs.length := by
    rw [CGGraph.nodeRefs, OrderedMap.values, represents.entries, List.map_map]
    simp [CGGraph.nodeRecords, Function.comp_def]
  apply List.ext_getElem?
  intro index
  rw [CGGraph.view, CGGraph.view, List.getElem?_map, List.getElem?_map, refs]
  cases listed : graph.nodeRefs[index]? with
  | none => simp [List.getElem?_eq_none_iff.mp listed]
  | some ref =>
    have inside := (List.getElem?_eq_some_iff.mp listed).1
    have record : graph.nodeRecords[index]? = some (graph.nodes ref).record := by
      rw [CGGraph.nodeRecords, List.getElem?_map, listed, Option.map_some]
    have out : (edgeRefs (fun r => r.src = index) graph.edgeRecords).map (fun edge =>
        parsed.viewEdge (parsed.edges edge)) =
          (graph.nodes ref).outEdges.map fun edge => graph.viewEdge (graph.edges edge) := by
      rw [map_edgeRefs _ _ EdgeRec.view fun edge r => represents.viewEdge_eq,
        marked.filter_edgeRecords listed, List.map_map]
      refine List.map_congr_left fun edge member => ?_
      obtain ⟨-, dst, -⟩ := marked.wellFormed.outgoing ref (List.mem_of_getElem? listed) edge member
      exact marked.view_edgeRecord dst
    rw [List.getElem?_range inside, Option.map_some, Option.map_some, represents.node index _ record]
    simp only [CGGraph.viewNode, NodeRec.node, CGNode.record, hasDriverId_readMask, out,
      marked.id_eq listed]

section Lines

theorem isVizNode_markedViz (node : CGNode) : markedViz.isVizNode node = true := by
  rw [CGViz.isVizNode, if_neg fun shallow => shallow.1 rfl]
  rfl

theorem vizNodes_markedViz (graph : CGGraph) :
    markedViz.vizNodes graph = graph.nodeRefs.map graph.nodes :=
  List.filter_eq_self.mpr fun node _ => isVizNode_markedViz node

theorem vizEdges_markedViz (graph : CGGraph) : markedViz.vizEdges graph =
    graph.nodeRefs.flatMap fun ref => (graph.nodes ref).outEdges.map graph.edges := by
  rw [CGViz.vizEdges, vizNodes_markedViz, List.flatMap_map]
  refine List.flatMap_congr fun ref _ => ?_
  exact List.filter_eq_self.mpr fun edge _ => isVizNode_markedViz _

def edgeLines (graph : CGGraph) : List (List Char) :=
  between ++ (markedViz.vizEdges graph).map (writeEdge graph) ++ ["\x7d".toList]

theorem lines_eq (graph : CGGraph) : markedViz.lines graph = markedViz.header ++
    ((graph.nodeRefs.map fun ref => writeNode (graph.nodes ref)) ++ edgeLines graph) := by
  rw [CGViz.lines, vizNodes_markedViz, List.map_map, edgeLines, between]
  simp only [List.append_assoc]
  rfl

theorem writeEdge_cases (marked : Marked graph) {edge : CGEdge}
    (listed : edge ∈ markedViz.vizEdges graph) :
    PlainName (graph.nodes edge.src).funcName ∧ PlainName (graph.nodes edge.dst).funcName ∧
      graph.edgeRecord edge ∈ graph.edgeRecords := by
  rw [vizEdges_markedViz] at listed
  obtain ⟨ref, member, edgeIn⟩ := List.mem_flatMap.mp listed
  obtain ⟨edgeRef, out, rfl⟩ := List.mem_map.mp edgeIn
  obtain ⟨src, dst, -⟩ := marked.wellFormed.outgoing ref member edgeRef out
  exact ⟨marked.plain _ (src ▸ member), marked.plain _ dst,
    mem_edgeRecords.mpr ⟨ref, member, edgeRef, out, rfl⟩⟩

theorem untilNul_subset {c : Char} {s : List Char} (member : c ∈ untilNul s) : c ∈ s :=
  (List.takeWhile_prefix _).subset member

theorem edgeLines_plain (marked : Marked graph) :
    ∀ line ∈ edgeLines graph, '\n' ∉ line ∧ ¬ svfMark <:+: line := by
  intro line member
  simp only [edgeLines, List.mem_append, or_assoc] at member
  obtain middle | printed | last := member
  · have unmarked : ∀ line ∈ between, ¬ svfMark <:+: line := by decide
    exact ⟨(isRemark_between line middle).2.2, unmarked line middle⟩
  · obtain ⟨edge, listed, rfl⟩ := List.mem_map.mp printed
    obtain ⟨srcPlain, dstPlain, -⟩ := marked.writeEdge_cases listed
    rw [writeEdge_eq]
    constructor
    · have text := EdgeRec.notMem_text (r := graph.edgeRecord edge) (c := '\n')
        (srcPlain.notMem (by decide)) (dstPlain.notMem (by decide)) (by decide) (by decide)
      simp only [List.mem_cons, not_or]
      exact ⟨by decide, fun newline => text (untilNul_subset newline)⟩
    · intro found
      have inText : svfMark <:+: untilNul _ := (infix_skip_iff (s := ['\t']) (by decide)).mp found
      exact EdgeRec.not_infix_text srcPlain dstPlain
        (inText.trans (List.takeWhile_prefix _).isInfix)
  · have unmarked : ∀ line ∈ ["\x7d".toList], ¬ svfMark <:+: line := by decide
    exact ⟨(isRemark_end line last).2.2, unmarked line last⟩

theorem newline_notMem_writeNode (marked : Marked graph) {ref : NodeRef}
    (member : ref ∈ graph.nodeRefs) : '\n' ∉ writeNode (graph.nodes ref) := by
  have text : '\n' ∉ (graph.nodes ref).record.text :=
    NodeRec.notMem_text ((marked.plain ref member).notMem (by decide)) (by decide)
  rw [writeNode_eq, List.mem_cons, not_or]
  exact ⟨by decide, fun newline => text (untilNul_subset newline)⟩

theorem getlines_witeGraph (marked : Marked graph) :
    getlines '\n' (markedViz.witeGraph graph) = markedViz.lines graph := by
  apply getlines_unlines
  intro line member
  rw [lines_eq, List.mem_append, List.mem_append] at member
  obtain header | node | behind := member
  · exact (isRemark_header line header).2.2
  · obtain ⟨ref, listed, rfl⟩ := List.mem_map.mp node
    exact marked.newline_notMem_writeNode listed
  · exact (marked.edgeLines_plain line behind).1

/-- Five lines stand before the nodes, so five node lines decide the type. -/
theorem calDotType_eq_svf_iff (marked : Marked graph) :
    calDotType (markedViz.witeGraph graph) = .svf ↔
      ∃ ref ∈ graph.nodeRefs.take 5, svfMark <:+: writeNode (graph.nodes ref) := by
  have header : ∀ line ∈ markedViz.header, contains "Node0x" line = false := by decide +kernel
  have behind : ∀ line ∈ (edgeLines graph).take (5 - graph.nodeRefs.length),
      contains "Node0x" line = false := by
    intro line member
    rw [Bool.eq_false_iff, ne_eq, contains_iff]
    exact (marked.edgeLines_plain line (List.mem_of_mem_take member)).2
  have first : (getlines '\n' (markedViz.witeGraph graph)).take 10 = markedViz.header ++
      ((graph.nodeRefs.take 5).map (fun ref => writeNode (graph.nodes ref)) ++
        (edgeLines graph).take (5 - graph.nodeRefs.length)) := by
    rw [marked.getlines_witeGraph, lines_eq, List.take_append, List.take_append, List.map_take,
      List.length_map, List.take_of_length_le (show markedViz.header.length ≤ 10 by decide)]
    rfl
  rw [calDotType, first, List.any_append, List.any_append]
  rw [List.any_eq_false.mpr fun line member => Bool.eq_false_iff.mp (header line member),
    List.any_eq_false.mpr fun line member => Bool.eq_false_iff.mp (behind line member),
    Bool.false_or, Bool.or_false, List.any_map]
  constructor
  · intro isSvf
    split at isSvf
    · next found =>
      obtain ⟨ref, member, has⟩ := List.any_eq_true.mp found
      exact ⟨ref, member, contains_iff.mp has⟩
    · cases isSvf
  · rintro ⟨ref, member, has⟩
    rw [if_pos (List.any_eq_true.mpr ⟨ref, member, contains_iff.mpr has⟩)]

theorem mem_take_iff (marked : Marked graph) {ref : NodeRef} (member : ref ∈ graph.nodeRefs) :
    ref ∈ graph.nodeRefs.take 5 ↔ (graph.nodes ref).id ≤ 5 := by
  rw [List.mem_iff_getElem?]
  have positive := (marked.wellFormed.getGNode_id member).2
  constructor
  · rintro ⟨index, listed⟩
    rw [List.getElem?_take] at listed
    split at listed
    · rw [marked.id_eq listed]
      omega
    · cases listed
  · intro early
    refine ⟨(graph.nodes ref).id - 1, ?_⟩
    rw [List.getElem?_take, if_pos (by omega)]
    exact marked.getElem?_id member

theorem infix_writeNode (marked : Marked graph) {ref : NodeRef} (member : ref ∈ graph.nodeRefs)
    (found : svfMark <:+: writeNode (graph.nodes ref)) :
    maskNone (graph.nodes ref).driverIdMask = false ∧
      svfMark <:+: (graph.nodes ref).funcName ++ (graph.nodes ref).funcName := by
  rw [writeNode_eq] at found
  have inText : svfMark <:+: untilNul _ := (infix_skip_iff (s := ['\t']) (by decide)).mp found
  exact (NodeRec.infix_text_iff (marked.plain ref member)).mp
    (inText.trans (List.takeWhile_prefix _).isInfix)

end Lines

section Complete

variable (complete : ∀ ref ∈ graph.nodeRefs, '\x00' ∉ (graph.nodes ref).funcName)

include complete

theorem writeNode_complete {ref : NodeRef} (member : ref ∈ graph.nodeRefs) :
    writeNode (graph.nodes ref) = nodeLine (graph.nodes ref).record := by
  rw [writeNode_eq, untilNul_eq_self_iff.mpr, nodeLine]
  exact NodeRec.notMem_text (complete ref member) (by decide)

theorem writeEdge_complete (marked : Marked graph) {edge : CGEdge}
    (listed : edge ∈ markedViz.vizEdges graph) :
    writeEdge graph edge = edgeLine graph.nodeRecords (graph.edgeRecord edge) := by
  rw [vizEdges_markedViz] at listed
  obtain ⟨ref, member, edgeIn⟩ := List.mem_flatMap.mp listed
  obtain ⟨edgeRef, out, rfl⟩ := List.mem_map.mp edgeIn
  obtain ⟨src, dst, -⟩ := marked.wellFormed.outgoing ref member edgeRef out
  have srcIn : (graph.edges edgeRef).src ∈ graph.nodeRefs := src ▸ member
  rw [writeEdge_eq, edgeLine, CGGraph.edgeRecord, marked.nameAt_id srcIn, marked.nameAt_id dst,
    untilNul_eq_self_iff.mpr]
  exact EdgeRec.notMem_text (complete _ srcIn) (complete _ dst) (by decide) (by decide)

theorem lines_complete (marked : Marked graph) :
    markedViz.lines graph = recordLines graph.nodeRecords graph.edgeRecords := by
  have nodes : graph.nodeRefs.map (fun ref => writeNode (graph.nodes ref)) =
      graph.nodeRecords.map nodeLine := by
    rw [CGGraph.nodeRecords, List.map_map]
    exact List.map_congr_left fun ref member => writeNode_complete complete member
  have edges : (markedViz.vizEdges graph).map (writeEdge graph) =
      graph.edgeRecords.map (edgeLine graph.nodeRecords) := by
    rw [List.map_congr_left fun edge listed => marked.writeEdge_complete complete listed,
      vizEdges_markedViz, CGGraph.edgeRecords, List.map_flatMap, List.map_flatMap]
    simp only [List.map_map, Function.comp_def]
  rw [lines_eq, edgeLines, nodes, edges, recordLines]
  simp only [List.append_assoc]

end Complete

end Marked

section Parsed

variable {Holds : CGNode → Prop} {graph : CGGraph}

theorem setNode_keeps (every : ∀ ref, Holds (graph.nodes ref)) {node : CGNode} (holds : Holds node)
    (ref other : NodeRef) : Holds ((graph.setNode ref node).nodes other) := by
  show Holds (Function.update graph.nodes ref node other)
  by_cases same : other = ref
  · subst same
    rwa [Function.update_self]
  · rw [Function.update_of_ne same]
    exact every other

theorem addNode_keeps (every : ∀ ref, Holds (graph.nodes ref)) {name : List Char}
    (holds : ∀ id, Holds (CGNode.new id name)) (ref : NodeRef) :
    Holds ((graph.addNode name).1.nodes ref) := by
  unfold CGGraph.addNode
  split
  · exact every ref
  · exact setNode_keeps every (holds _) graph.nodeAllocs ref

/-- Linking an edge changes the edge sets only. -/
theorem linkEdge_keeps
    (blind : ∀ node inEdges outEdges, Holds node → Holds { node with inEdges, outEdges })
    (every : ∀ ref, Holds (graph.nodes ref)) (edge : EdgeRef) (ref : NodeRef) :
    Holds ((graph.linkEdge edge).1.nodes ref) := by
  unfold CGGraph.linkEdge
  dsimp only
  split
  · exact every ref
  · next inEdges _ =>
    have into : ∀ other, Holds ((graph.setNode (graph.edges edge).dst
        { graph.nodes (graph.edges edge).dst with inEdges }).nodes other) :=
      setNode_keeps every (blind _ inEdges _ (every _)) _
    split
    · exact into ref
    · next outEdges _ => exact setNode_keeps into (blind _ _ outEdges (into _)) _ ref

def Unmasked (node : CGNode) : Prop := node.driverIdMask = []

def NulFree (node : CGNode) : Prop := '\x00' ∉ node.funcName

theorem parseSvfNode_unmasked {isLibFunc : List Char → Bool} {s next : SvfState} {line : List Char}
    (every : ∀ ref, Unmasked (s.graph.nodes ref))
    (taken : parseSvfNode isLibFunc s line = some next) (ref : NodeRef) :
    Unmasked (next.graph.nodes ref) := by
  unfold parseSvfNode at taken
  split at taken
  · split at taken
    · next name _ _ _ _ =>
      obtain ⟨blockNum, -, rfl⟩ := Option.map_eq_some_iff.mp taken
      split
      · exact every ref
      · have new : ∀ id, Unmasked (CGNode.new id name) := fun _ => rfl
        have added := addNode_keeps every new
        refine setNode_keeps added ?_ _ ref
        exact added _
    · cases taken
      exact every ref
  · cases taken
    exact every ref

theorem parseSvfEdge_unmasked {s : SvfState} (every : ∀ ref, Unmasked (s.graph.nodes ref))
    (line : List Char) (ref : NodeRef) : Unmasked ((parseSvfEdge s line).graph.nodes ref) := by
  unfold parseSvfEdge
  split
  · split
    · exact every ref
    · split
      · refine linkEdge_keeps (fun _ _ _ unmasked => unmasked) ?_ _ ref
        exact every
      · exact every ref
  · exact every ref

theorem parseDotSvf_unmasked {isLibFunc : List Char → Bool} {text : List Char}
    (parsed : parseDotSvf isLibFunc CGGraph.empty text = some graph) (ref : NodeRef) :
    Unmasked (graph.nodes ref) := by
  obtain ⟨s, nodes, edges⟩ := Option.bind_eq_some_iff.mp parsed
  rw [foldlM_eq_runFrom] at nodes
  have keeps : ∀ (s : SvfState) line next, (∀ ref, Unmasked (s.graph.nodes ref)) →
      parseSvfNode isLibFunc s line = some next → ∀ ref, Unmasked (next.graph.nodes ref) :=
    fun _ _ _ every taken => parseSvfNode_unmasked every taken
  have start : ∀ ref, Unmasked (CGGraph.empty.nodes ref) := fun _ => rfl
  have noded := runFrom_invariant keeps start nodes
  have keepsAll : ∀ (lines : List (List Char)) (s : SvfState),
      (∀ ref, Unmasked (s.graph.nodes ref)) →
        ∀ ref, Unmasked ((lines.foldl parseSvfEdge s).graph.nodes ref) := by
    intro lines
    induction lines with
    | nil => exact fun s every => every
    | cons line rest inductionHypothesis =>
      exact fun s every => inductionHypothesis _ (parseSvfEdge_unmasked every line)
  rw [← Option.some.inj edges]
  exact keepsAll _ s noded ref

theorem trim_subset {c : Char} {s : List Char} (member : c ∈ trim isCSpace s) : c ∈ s := by
  have back := (List.dropWhile_suffix isCSpace).subset (List.mem_reverse.mp member)
  exact (List.dropWhile_suffix isCSpace).subset (List.mem_reverse.mp back)

theorem parseNodeLine_nulFree {next : CGGraph} {line : List Char} (absent : '\x00' ∉ line)
    (every : ∀ ref, NulFree (graph.nodes ref)) (taken : parseNodeLine graph line = some next)
    (ref : NodeRef) : NulFree (next.nodes ref) := by
  rcases parseNodeLine_cases taken with
    rfl | ⟨nodeName, rest, found, mask, blockNum, key, hitNum, rfl⟩
  · exact every ref
  · have new : ∀ id, NulFree (CGNode.new id (trim isCSpace nodeName)) := by
      intro id nul
      exact absent (trim_subset (breakOn_subset found (trim_subset nul)))
    have added := addNode_keeps every new
    refine setNode_keeps added ?_ _ ref
    exact added _

theorem setEdgeFields_nodes {next : CGGraph} {src dst : NodeRef} {keys : List UInt64}
    {line : List Char} (taken : setEdgeFields graph src dst keys line = some next) :
    next.nodes = graph.nodes := by
  rcases setEdgeFields_cases taken with rfl | ⟨edge, hitNum, rfl⟩
  · rfl
  · rfl

theorem parseEdgeLine_nulFree {next : CGGraph} {line : List Char}
    (every : ∀ ref, NulFree (graph.nodes ref)) (taken : parseEdgeLine graph line = some next)
    (ref : NodeRef) : NulFree (next.nodes ref) := by
  rcases parseEdgeLine_cases taken with rfl | ⟨srcName, dstName, src, dst, mask, keys, -, -, fields⟩
  · exact every ref
  · rw [setEdgeFields_nodes fields]
    refine linkEdge_keeps (fun _ _ _ nulFree => nulFree) ?_ _ ref
    exact every

theorem parseDotAif_nulFree {text : List Char} (absent : ∀ line ∈ getlines '\n' text, '\x00' ∉ line)
    (parsed : parseDotAif CGGraph.empty text = some graph) (ref : NodeRef) :
    NulFree (graph.nodes ref) := by
  obtain ⟨noded, nodes, edges⟩ := Option.bind_eq_some_iff.mp parsed
  rw [foldlM_eq_runFrom] at nodes edges
  have start : ∀ ref, NulFree (CGGraph.empty.nodes ref) := fun _ => List.not_mem_nil
  have nodeKeeps : ∀ (graph : CGGraph) line next, (∀ ref, NulFree (graph.nodes ref)) →
      '\x00' ∉ line → parseNodeLine graph line = some next → ∀ ref, NulFree (next.nodes ref) :=
    fun _ _ _ every nulFree taken => parseNodeLine_nulFree nulFree every taken
  have edgeKeeps : ∀ (graph : CGGraph) line next, (∀ ref, NulFree (graph.nodes ref)) →
      parseEdgeLine graph line = some next → ∀ ref, NulFree (next.nodes ref) :=
    fun _ _ _ every taken => parseEdgeLine_nulFree every taken
  have hasNodes := Along.invariant nodeKeeps
    (along_of_forall (fun line member _ => absent line member) _) start nodes
  exact runFrom_invariant edgeKeeps hasNodes edges ref

end Parsed

/-- No name has a NUL, and no early marked node has a name whose double spells
the mark. -/
def Readable (graph : CGGraph) : Prop :=
  ∀ ref ∈ graph.nodeRefs, '\x00' ∉ (graph.nodes ref).funcName ∧
    ((graph.nodes ref).id ≤ 5 → maskNone (graph.nodes ref).driverIdMask = false →
      ¬ "Node0x".toList <:+: (graph.nodes ref).funcName ++ (graph.nodes ref).funcName)

theorem exists_hasDriverId {mask : DriverIdMask} (set : maskNone mask = false) :
    ∃ driverId, hasDriverId mask driverId = true := by
  obtain ⟨bit, member, isSet⟩ := List.all_eq_false.mp set
  obtain ⟨index, listed⟩ := List.mem_iff_getElem?.mp member
  refine ⟨index + 1, ?_⟩
  rw [hasDriverId_eq index.succ_ne_zero, Nat.succ_sub_one, listed]
  simpa using isSet

instance (graph : CGGraph) : Decidable (Readable graph) := by
  unfold Readable
  infer_instance

namespace Marked

variable {graph : CGGraph} {isLibFunc : List Char → Bool}

theorem nul_notMem_lines (graph : CGGraph) : ∀ line ∈ markedViz.lines graph, '\x00' ∉ line := by
  intro line member
  rw [lines_eq, edgeLines] at member
  simp only [List.mem_append, or_assoc] at member
  have printed : ∀ s, '\x00' ∉ '\t' :: untilNul s := by
    intro s
    rw [List.mem_cons, not_or]
    exact ⟨by decide, nul_notMem_untilNul s⟩
  obtain header | node | middle | edge | last := member
  · have plain : ∀ line ∈ markedViz.header, '\x00' ∉ line := by decide +kernel
    exact plain line header
  · obtain ⟨ref, -, rfl⟩ := List.mem_map.mp node
    rw [writeNode_eq]
    exact printed _
  · have plain : ∀ line ∈ between, '\x00' ∉ line := by decide
    exact plain line middle
  · obtain ⟨edge, -, rfl⟩ := List.mem_map.mp edge
    rw [writeEdge_eq]
    exact printed _
  · have plain : ∀ line ∈ ["\x7d".toList], '\x00' ∉ line := by decide
    exact plain line last

theorem not_svf_of_roundTrips (marked : Marked graph) (roundTrips : RoundTrips isLibFunc graph) :
    calDotType (markedViz.witeGraph graph) = .aif := by
  obtain ⟨parsed, read, same⟩ := roundTrips
  cases isType : calDotType (markedViz.witeGraph graph) with
  | aif => rfl
  | svf =>
    obtain ⟨ref, early, found⟩ := marked.calDotType_eq_svf_iff.mp isType
    have member := List.mem_of_mem_take early
    obtain ⟨driverId, has⟩ := exists_hasDriverId (marked.infix_writeNode member found).1
    rw [dot2Graph, isType] at read
    have shown : graph.viewNode (graph.nodes ref) ∈ parsed.view :=
      same ▸ List.mem_map_of_mem member
    obtain ⟨other, -, view⟩ := List.mem_map.mp shown
    have drivers := congrFun (congrArg NodeView.drivers view) driverId
    simp only [CGGraph.viewNode] at drivers
    rw [has, show (parsed.nodes other).driverIdMask = [] from parseDotSvf_unmasked read other]
      at drivers
    simp [hasDriverId] at drivers

theorem nulFree_of_roundTrips (marked : Marked graph) (roundTrips : RoundTrips isLibFunc graph) :
    ∀ ref ∈ graph.nodeRefs, '\x00' ∉ (graph.nodes ref).funcName := by
  have isAif := marked.not_svf_of_roundTrips roundTrips
  obtain ⟨parsed, read, same⟩ := roundTrips
  rw [dot2Graph, isAif] at read
  intro ref member
  have shown : graph.viewNode (graph.nodes ref) ∈ parsed.view := same ▸ List.mem_map_of_mem member
  obtain ⟨other, -, view⟩ := List.mem_map.mp shown
  have name : (parsed.nodes other).funcName = (graph.nodes ref).funcName :=
    congrArg NodeView.funcName view
  rw [← name]
  refine parseDotAif_nulFree ?_ read other
  rw [marked.getlines_witeGraph]
  exact nul_notMem_lines graph

theorem readable_of_roundTrips (marked : Marked graph) (roundTrips : RoundTrips isLibFunc graph) :
    Readable graph := by
  have complete := marked.nulFree_of_roundTrips roundTrips
  have isAif := marked.not_svf_of_roundTrips roundTrips
  intro ref member
  refine ⟨complete ref member, fun early set doubled => ?_⟩
  have printed : svfMark <:+: writeNode (graph.nodes ref) := by
    rw [writeNode_complete complete member, nodeLine]
    have inText : svfMark <:+: (graph.nodes ref).record.text :=
      (NodeRec.infix_text_iff (marked.plain ref member)).mpr ⟨set, doubled⟩
    exact inText.trans (List.suffix_cons _ _).isInfix
  have isSvf := marked.calDotType_eq_svf_iff.mpr ⟨ref, (marked.mem_take_iff member).mpr early, printed⟩
  rw [isAif] at isSvf
  cases isSvf

theorem roundTrips_of_readable (marked : Marked graph) (readable : Readable graph) :
    RoundTrips isLibFunc graph := by
  have isAif : calDotType (markedViz.witeGraph graph) = .aif := by
    cases isType : calDotType (markedViz.witeGraph graph) with
    | aif => rfl
    | svf =>
      obtain ⟨ref, early, found⟩ := marked.calDotType_eq_svf_iff.mp isType
      have member := List.mem_of_mem_take early
      obtain ⟨set, doubled⟩ := marked.infix_writeNode member found
      exact absurd doubled
        ((readable ref member).2 ((marked.mem_take_iff member).mp early) set)
  obtain ⟨parsed, read, represents⟩ := marked.printable.parseDotAif_recordLines
  refine ⟨parsed, ?_, marked.view_eq represents⟩
  rw [dot2Graph, isAif, CGViz.witeGraph,
    marked.lines_complete fun ref member => (readable ref member).1]
  exact read

end Marked

/-- A marked graph comes back exactly when its file is readable. -/
theorem roundTrips_iff_readable (isLibFunc : List Char → Bool) {graph : CGGraph}
    (marked : Marked graph) : RoundTrips isLibFunc graph ↔ Readable graph :=
  ⟨marked.readable_of_roundTrips, marked.roundTrips_of_readable⟩

/-- `main` calls a function whose marks are set; the call was hit. -/
def callGraph : CGGraph :=
  let nodes := (CGGraph.empty.addRecord ⟨"main".toList, [], 3, 7, 1⟩).addRecord
    ⟨"run".toList, [false, true], 2, 9, 4⟩
  let linked := nodes.addMaskedEdge 0 1 [true]
  linked.setEdge 0 { linked.edges 0 with keys := [30064771081], hitNum := 2 }

theorem callGraph_roundTrips : Marked callGraph ∧ RoundTrips (fun _ => false) callGraph := by
  have marked : Marked callGraph := by decide +kernel
  exact ⟨marked, (roundTrips_iff_readable _ marked).mpr (by decide +kernel)⟩

/-- One marked function; twice its name is `e0xNode0xNod`. -/
def doubledGraph : CGGraph := CGGraph.empty.addRecord ⟨"e0xNod".toList, [true], 1, 7, 0⟩

theorem doubledGraph_lost : Marked doubledGraph ∧ ¬ RoundTrips (fun _ => false) doubledGraph := by
  have marked : Marked doubledGraph := by decide +kernel
  refine ⟨marked, fun roundTrips => ?_⟩
  have unreadable : ¬ Readable doubledGraph := by decide +kernel
  exact unreadable (marked.readable_of_roundTrips roundTrips)

end GraphDissect.CallGraph
