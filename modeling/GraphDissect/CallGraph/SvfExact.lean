import GraphDissect.CallGraph.Loaded
import GraphDissect.CallGraph.SvfLines

/-!
# When an SVF call graph is read exactly

`ParseDotSvf` cuts eighteen characters for the index of a declaration and of a
source, and reads a destination whole.  What becomes of a file is decided by the
lengths of its indices.
-/

namespace GraphDissect.CallGraph

open Library

section Joins

variable {graph : CGGraph} {src dst : NodeRef}

/-- An edge leads from one node to the other. -/
def CGGraph.Joins (graph : CGGraph) (src dst : NodeRef) : Prop :=
  ∃ edge ∈ (graph.nodes src).outEdges, (graph.edges edge).dst = dst

/-- An edge that is only allocated joins nothing. -/
theorem Loaded.joins_allocEdge (loaded : Loaded graph) (edge : CGEdge)
    (inside : src < graph.nodeAllocs) :
    CGGraph.Joins { graph with
      edges := Function.update graph.edges graph.edgeAllocs edge
      edgeAllocs := graph.edgeAllocs + 1 } src dst ↔ graph.Joins src dst := by
  have old : ∀ linked ∈ (graph.nodes src).outEdges,
      Function.update graph.edges graph.edgeAllocs edge linked = graph.edges linked := by
    intro linked member
    exact Function.update_of_ne (loaded.allocated src inside linked member).1.ne _ _
  constructor
  · rintro ⟨linked, member, isDst⟩
    exact ⟨linked, member, by rwa [← old linked member]⟩
  · rintro ⟨linked, member, isDst⟩
    exact ⟨linked, member, by
      dsimp only
      rwa [old linked member]⟩

theorem Loaded.joins_linkEdge (loaded : Loaded graph) {ref : EdgeRef}
    (ends : Ends graph (graph.edges ref)) :
    (graph.linkEdge ref).1.Joins src dst ↔ graph.Joins src dst ∨
      src = (graph.edges ref).src ∧ dst = (graph.edges ref).dst := by
  rcases loaded.linkEdge_cases ends with
    ⟨unchanged, other, out, same⟩ | ⟨nodes, edgeNum, linked, -, -, memOut, -, -⟩
  · rw [unchanged]
    refine ⟨.inl, ?_⟩
    rintro (joins | ⟨rfl, rfl⟩)
    · exact joins
    · exact ⟨other, out, same⟩
  · rw [linked]
    constructor
    · rintro ⟨edge, member, rfl⟩
      rcases (memOut src edge).mp member with ⟨rfl, isSrc⟩ | old
      · exact .inr ⟨isSrc, rfl⟩
      · exact .inl ⟨edge, old, rfl⟩
    · rintro (⟨edge, old, rfl⟩ | ⟨rfl, rfl⟩)
      · exact ⟨edge, (memOut src edge).mpr (.inr old), rfl⟩
      · exact ⟨ref, (memOut _ ref).mpr (.inl ⟨rfl, rfl⟩), rfl⟩

theorem Loaded.funcName_linkEdge (loaded : Loaded graph) {ref : EdgeRef}
    (ends : Ends graph (graph.edges ref)) (other : NodeRef) :
    ((graph.linkEdge ref).1.nodes other).funcName = (graph.nodes other).funcName := by
  rcases loaded.linkEdge_cases ends with ⟨unchanged, -⟩ | ⟨nodes, edgeNum, linked, named, -⟩
  · rw [unchanged]
  · rw [linked]
    exact (named other).2

theorem Loaded.addEdge_spec (loaded : Loaded graph) (srcIn : src < graph.nodeAllocs)
    (dstIn : dst < graph.nodeAllocs) :
    (∀ a b, a < graph.nodeAllocs →
        ((graph.addEdge src dst).1.Joins a b ↔ graph.Joins a b ∨ a = src ∧ b = dst)) ∧
      ∀ ref, ((graph.addEdge src dst).1.nodes ref).funcName = (graph.nodes ref).funcName := by
  have allocated := loaded.allocEdge (CGEdge.new src dst)
  have isNew : Function.update graph.edges graph.edgeAllocs (CGEdge.new src dst) graph.edgeAllocs =
      CGEdge.new src dst := Function.update_self _ _ _
  have ends : Ends { graph with
      edges := Function.update graph.edges graph.edgeAllocs (CGEdge.new src dst)
      edgeAllocs := graph.edgeAllocs + 1 }
      (Function.update graph.edges graph.edgeAllocs (CGEdge.new src dst) graph.edgeAllocs) := by
    rw [isNew]
    exact ⟨srcIn, dstIn, rfl⟩
  refine ⟨fun a b inside => ?_, fun ref => allocated.funcName_linkEdge ends ref⟩
  have linked := @Loaded.joins_linkEdge _ a b allocated graph.edgeAllocs ends
  dsimp only at linked
  rw [isNew, loaded.joins_allocEdge _ inside] at linked
  exact linked

end Joins

section Passes

variable {graph : CGGraph} {s start : SvfState}

theorem Loaded.addNode_spec (loaded : Loaded graph) (name : List Char) :
    ((graph.addNode name).1.nodes (graph.addNode name).2).funcName = name ∧
      (∀ ref < graph.nodeAllocs, (graph.addNode name).1.nodes ref = graph.nodes ref) ∧
      ∀ ref < (graph.addNode name).1.nodeAllocs, ref < graph.nodeAllocs ∨
        ref = (graph.addNode name).2 ∧ ((graph.addNode name).1.nodes ref).outEdges = [] := by
  unfold CGGraph.addNode
  split
  next ref found =>
    exact ⟨((loaded.names name ref).mp found).2, fun _ _ => rfl, fun _ inside => .inl inside⟩
  next =>
    refine ⟨by simp [CGNode.new], fun ref inside => Function.update_of_ne inside.ne _ _, ?_⟩
    intro ref inside
    rcases Nat.lt_succ_iff_lt_or_eq.mp inside with old | rfl
    · exact .inl old
    · exact .inr ⟨rfl, by simp [CGNode.new]⟩

/-- The state after these declarations. -/
structure Noded (seen : List SvfNode) (s : SvfState) : Prop where
  loaded : SvfLoaded s
  names : ∀ name, (∃ ref < s.graph.nodeAllocs, (s.graph.nodes ref).funcName = name) ↔
    ∃ node ∈ seen, node.name = name
  found : ∀ node ∈ seen, ∃ ref, s.nodeMap.find node.key = some ref
  keys : ∀ index ref, s.nodeMap.find index = some ref →
    ∃ node ∈ seen, node.key = index ∧ (s.graph.nodes ref).funcName = node.name
  isolated : ∀ ref < s.graph.nodeAllocs, (s.graph.nodes ref).outEdges = []

theorem noded_start : Noded [] ⟨CGGraph.empty, OrderedMap.empty⟩ where
  loaded := ⟨loaded_empty, by simp⟩
  names name := by simp [CGGraph.empty]
  found node member := by cases member
  keys index ref found := by simp at found
  isolated ref inside := absurd inside (Nat.not_lt_zero ref)

theorem Noded.declare {seen : List SvfNode} (noded : Noded seen s) (node : SvfNode) :
    Noded (seen ++ [node]) (s.declare node) := by
  rcases noded.loaded.loaded.addNode node.name with ⟨loaded, inside, grows⟩
  rcases noded.loaded.loaded.addNode_spec node.name with ⟨isName, old, split⟩
  -- Only the block count of the node is written.
  have names (ref : NodeRef) : ((s.declare node).graph.nodes ref).funcName =
      ((s.graph.addNode node.name).1.nodes ref).funcName ∧
      ((s.declare node).graph.nodes ref).outEdges =
        ((s.graph.addNode node.name).1.nodes ref).outEdges := by
    dsimp only [SvfState.declare, CGGraph.setNode]
    rw [Function.update_apply]
    split
    next same => rw [same]; exact ⟨rfl, rfl⟩
    next => exact ⟨rfl, rfl⟩
  have allocs : (s.declare node).graph.nodeAllocs = (s.graph.addNode node.name).1.nodeAllocs := rfl
  have find (index : List Char) : (s.declare node).nodeMap.find index =
      if index = node.key then some (s.graph.addNode node.name).2 else s.nodeMap.find index := by
    refine (OrderedMap.find_insert _ _ _ _).trans ?_
    congr
  refine ⟨⟨loaded.setNode rfl rfl rfl rfl, ?_⟩, ?_, ?_, ?_, ?_⟩
  · intro index ref found
    rw [find] at found
    rw [allocs]
    split at found
    · rwa [← Option.some.inj found]
    · exact (noded.loaded.listed index ref found).trans_le grows
  · intro name
    rw [allocs]
    constructor
    · rintro ⟨ref, isIn, rfl⟩
      rw [(names ref).1]
      rcases split ref isIn with before | ⟨rfl, -⟩
      · rcases (noded.names _).mp ⟨ref, before, rfl⟩ with ⟨other, member, same⟩
        exact ⟨other, List.mem_append_left _ member, by rw [old ref before, same]⟩
      · exact ⟨node, by simp, isName.symm⟩
    · rintro ⟨other, member, rfl⟩
      rcases List.mem_append.mp member with earlier | last
      · rcases (noded.names _).mpr ⟨other, earlier, rfl⟩ with ⟨ref, before, same⟩
        exact ⟨ref, before.trans_le grows, by rw [(names ref).1, old ref before, same]⟩
      · cases List.mem_singleton.mp last
        exact ⟨_, inside, by rw [(names _).1, isName]⟩
  · intro other member
    rw [find]
    split
    · exact ⟨_, rfl⟩
    · next apart =>
      rcases List.mem_append.mp member with earlier | last
      · exact noded.found other earlier
      · cases List.mem_singleton.mp last
        exact absurd rfl apart
  · intro index ref found
    rw [find] at found
    split at found
    · next isKey =>
      cases found
      exact ⟨node, by simp, isKey.symm, by rw [(names _).1, isName]⟩
    · rcases noded.keys index ref found with ⟨other, member, isKey, same⟩
      refine ⟨other, List.mem_append_left _ member, isKey, ?_⟩
      rw [(names ref).1, old ref (noded.loaded.listed index ref found), same]
  · intro ref isIn
    rw [(names ref).2]
    rcases split ref isIn with before | ⟨-, isolated⟩
    · rw [old ref before, noded.isolated ref before]
    · exact isolated

theorem Noded.foldl_declare {seen : List SvfNode} (noded : Noded seen s) (more : List SvfNode) :
    Noded (seen ++ more) (more.foldl SvfState.declare s) := by
  induction more generalizing seen s with
  | nil => rwa [List.append_nil]
  | cons node rest inductionHypothesis =>
      have next := inductionHypothesis (noded.declare node)
      rwa [List.append_assoc] at next

/-- The state after these calls. -/
structure Linked (start : SvfState) (seen : List SvfEdge) (s : SvfState) : Prop where
  loaded : SvfLoaded s
  nodeMap : s.nodeMap = start.nodeMap
  nodeAllocs : s.graph.nodeAllocs = start.graph.nodeAllocs
  names : ∀ ref, (s.graph.nodes ref).funcName = (start.graph.nodes ref).funcName
  joins : ∀ src dst, src < s.graph.nodeAllocs → (s.graph.Joins src dst ↔ ∃ edge ∈ seen,
    start.nodeMap.find edge.srcKey = some src ∧ start.nodeMap.find edge.dstKey = some dst)

theorem Noded.linked {seen : List SvfNode} (noded : Noded seen s) : Linked s [] s where
  loaded := noded.loaded
  nodeMap := rfl
  nodeAllocs := rfl
  names _ := rfl
  joins src dst inside := by simp [CGGraph.Joins, noded.isolated src inside]

theorem Linked.connect {seen : List SvfEdge} (linked : Linked start seen s) (edge : SvfEdge) :
    Linked start (seen ++ [edge]) (s.connect edge) := by
  have more (src dst : NodeRef) : (∃ other ∈ seen ++ [edge],
      start.nodeMap.find other.srcKey = some src ∧ start.nodeMap.find other.dstKey = some dst) ↔
      (∃ other ∈ seen, start.nodeMap.find other.srcKey = some src ∧
        start.nodeMap.find other.dstKey = some dst) ∨
        start.nodeMap.find edge.srcKey = some src ∧ start.nodeMap.find edge.dstKey = some dst := by
    simp only [List.mem_append, List.mem_singleton, or_and_right, exists_or, exists_eq_left]
  rw [SvfState.connect]
  split
  next first second isFirst isSecond =>
    have firstIn := linked.loaded.listed edge.srcKey first isFirst
    have secondIn := linked.loaded.listed edge.dstKey second isSecond
    rw [linked.nodeMap] at isFirst isSecond
    rcases linked.loaded.loaded.addEdge_spec firstIn secondIn with ⟨joins, names⟩
    have allocs := addEdge_nodeAllocs s.graph first second
    refine ⟨⟨linked.loaded.loaded.addEdge firstIn secondIn, ?_⟩, linked.nodeMap, ?_, ?_, ?_⟩
    · intro index ref found
      dsimp only
      rw [allocs]
      exact linked.loaded.listed index ref found
    · exact allocs.trans linked.nodeAllocs
    · exact fun ref => (names ref).trans (linked.names ref)
    · intro src dst inside
      dsimp only at inside ⊢
      rw [allocs] at inside
      rw [joins src dst inside, linked.joins src dst inside, more, isFirst, isSecond,
        Option.some.injEq, Option.some.injEq, eq_comm, @eq_comm _ dst]
  next missing =>
    refine ⟨linked.loaded, linked.nodeMap, linked.nodeAllocs, linked.names, ?_⟩
    intro src dst inside
    rw [linked.joins src dst inside, more]
    refine ⟨.inl, ?_⟩
    rintro (joined | ⟨isSrc, isDst⟩)
    · exact joined
    · rw [linked.nodeMap] at missing
      exact absurd isDst (missing src dst isSrc)

theorem Linked.foldl_connect {seen : List SvfEdge} (linked : Linked start seen s)
    (more : List SvfEdge) : Linked start (seen ++ more) (more.foldl SvfState.connect s) := by
  induction more generalizing seen s with
  | nil => rwa [List.append_nil]
  | cons edge rest inductionHypothesis =>
      have next := inductionHypothesis (linked.connect edge)
      rwa [List.append_assoc] at next

end Passes

section Keys

theorem take_append_of_not_mem {first later digits : List Char} {c : Char} {n : Nat}
    (taken : (first ++ c :: later).take n = digits) (absent : c ∉ digits) : digits <+: first := by
  rw [List.take_append] at taken
  by_cases long : n ≤ first.length
  · rw [Nat.sub_eq_zero_of_le long, List.take_zero, List.append_nil] at taken
    exact taken ▸ List.take_prefix n first
  · rcases Nat.exists_eq_add_of_lt (Nat.not_le.mp long) with ⟨rest, rfl⟩
    refine absurd ?_ absent
    rw [← taken, show first.length + rest + 1 - first.length = rest + 1 by omega]
    simp

theorem SvfNode.key_eq {node : SvfNode} (length : node.index.digits.length = 12) :
    node.key = "Node0x".toList ++ node.index.digits := by
  rw [SvfNode.key_def, ← length, List.take_left']
  rfl

theorem SvfNode.length_key (node : SvfNode) : node.key.length = 18 := by
  have long : 12 ≤ (node.index.digits ++ nodeHead).length := by
    rw [List.length_append, length_nodeHead]
    omega
  rw [SvfNode.key_def, List.length_append, List.length_take_of_le long]
  rfl

/-- What is cut for a source is an index of twelve digits only when the source
starts with them. -/
theorem SvfEdge.srcKey_eq_iff {edge : SvfEdge} {index : HexNumber} (length : index.digits.length = 12) :
    edge.srcKey = "Node0x".toList ++ index.digits ↔ index.digits <+: edge.src.digits := by
  have stop : ∃ c later, edge.rest = c :: later ∧ isHexDigit c = false := by
    rw [SvfEdge.rest, SvfEdge.source]
    cases edge.port with
    | none => exact ⟨_, _, rfl, by decide⟩
    | some k => exact ⟨_, _, rfl, by decide⟩
  rcases stop with ⟨c, later, rest, special⟩
  rw [SvfEdge.srcKey_def, List.append_cancel_left_eq]
  constructor
  · intro taken
    rw [rest] at taken
    exact take_append_of_not_mem taken (index.not_mem special)
  · rintro ⟨more, isSrc⟩
    rw [← isSrc, List.append_assoc, ← length, List.take_left']
    rfl

theorem SvfEdge.dstKey_eq_iff {edge : SvfEdge} {index : HexNumber} :
    edge.dstKey = "Node0x".toList ++ index.digits ↔ edge.dst.digits = index.digits := by
  rw [SvfEdge.dstKey_def, List.append_cancel_left_eq]

end Keys

/-- The names of the functions of a graph. -/
def CGGraph.functions (graph : CGGraph) : List (List Char) :=
  graph.nodeRefs.map fun ref => (graph.nodes ref).funcName

/-- The graph has an edge between two functions. -/
def CGGraph.Calls (graph : CGGraph) (caller callee : List Char) : Prop :=
  ∃ src ∈ graph.nodeRefs, ∃ dst, graph.Joins src dst ∧
    (graph.nodes src).funcName = caller ∧ (graph.nodes dst).funcName = callee

section Exact

variable {isLibFunc : List Char → Bool} {lines : List SvfLine}

def SvfLine.kept (isLibFunc : List Char → Bool) (lines : List SvfLine) : List SvfNode :=
  (SvfLine.nodes lines).filter fun node => node.Kept isLibFunc

theorem SvfLine.mem_kept {node : SvfNode} : node ∈ SvfLine.kept isLibFunc lines ↔
    node ∈ SvfLine.nodes lines ∧ node.Kept isLibFunc := by
  simp [SvfLine.kept]

/-- The graph has the functions and the calls of the file. -/
structure SvfLine.ReadAs (isLibFunc : List Char → Bool) (lines : List SvfLine) (graph : CGGraph) :
    Prop where
  unique : graph.functions.Nodup
  functions : ∀ name, name ∈ graph.functions ↔
    ∃ node ∈ SvfLine.nodes lines, node.Kept isLibFunc ∧ node.name = name
  calls : ∀ caller callee, graph.Calls caller callee ↔ ∃ edge ∈ SvfLine.edges lines,
    ∃ src ∈ SvfLine.nodes lines, ∃ dst ∈ SvfLine.nodes lines,
      src.Kept isLibFunc ∧ dst.Kept isLibFunc ∧ edge.src.digits = src.index.digits ∧
        edge.dst.digits = dst.index.digits ∧ src.name = caller ∧ dst.name = callee

def SvfLine.ReadExactly (isLibFunc : List Char → Bool) (lines : List SvfLine) : Prop :=
  ∃ graph, parseDotSvf isLibFunc CGGraph.empty (SvfLine.file lines) = some graph ∧
    SvfLine.ReadAs isLibFunc lines graph

theorem noded_declared (isLibFunc : List Char → Bool) (lines : List SvfLine) :
    Noded (SvfLine.kept isLibFunc lines) (SvfLine.declared isLibFunc lines) := by
  have noded := noded_start.foldl_declare (SvfLine.kept isLibFunc lines)
  rw [List.nil_append] at noded
  exact noded

theorem parseDotSvf_spec {graph : CGGraph}
    (parsed : parseDotSvf isLibFunc CGGraph.empty (SvfLine.file lines) = some graph) :
    graph.functions.Nodup ∧
      (∀ name, name ∈ graph.functions ↔
        ∃ node ∈ SvfLine.nodes lines, node.Kept isLibFunc ∧ node.name = name) ∧
      ∀ caller callee, graph.Calls caller callee ↔ ∃ edge ∈ SvfLine.edges lines, ∃ src dst,
        (SvfLine.declared isLibFunc lines).nodeMap.find edge.srcKey = some src ∧
          (SvfLine.declared isLibFunc lines).nodeMap.find edge.dstKey = some dst ∧
          ((SvfLine.declared isLibFunc lines).graph.nodes src).funcName = caller ∧
          ((SvfLine.declared isLibFunc lines).graph.nodes dst).funcName = callee := by
  have noded := noded_declared isLibFunc lines
  have linked := noded.linked.foldl_connect (SvfLine.edges lines)
  rw [List.nil_append] at linked
  rw [parseDotSvf_file] at parsed
  split at parsed
  · cases parsed
    have loaded := linked.loaded.loaded
    refine ⟨?_, ?_, ?_⟩
    · rw [CGGraph.functions, loaded.nodeRefs_eq]
      refine (List.nodup_range).map_on fun first firstIn second secondIn same => ?_
      have isFirst := (loaded.names _ first).mpr ⟨List.mem_range.mp firstIn, rfl⟩
      have isSecond := (loaded.names _ second).mpr ⟨List.mem_range.mp secondIn, rfl⟩
      rw [same, isSecond] at isFirst
      exact (Option.some.inj isFirst).symm
    · intro name
      have listed := noded.names name
      simp only [SvfLine.mem_kept, and_assoc] at listed
      rw [CGGraph.functions, loaded.nodeRefs_eq, List.mem_map, ← listed, ← linked.nodeAllocs]
      simp only [List.mem_range, linked.names]
    · intro caller callee
      simp only [CGGraph.Calls, loaded.mem_nodeRefs, linked.names]
      constructor
      · rintro ⟨src, inside, dst, joins, isCaller, isCallee⟩
        rcases (linked.joins src dst inside).mp joins with ⟨edge, member, isSrc, isDst⟩
        exact ⟨edge, member, src, dst, isSrc, isDst, isCaller, isCallee⟩
      · rintro ⟨edge, member, src, dst, isSrc, isDst, isCaller, isCallee⟩
        have inside : src < _ := linked.nodeAllocs ▸ noded.loaded.listed edge.srcKey src isSrc
        exact ⟨src, inside, dst, (linked.joins src dst inside).mpr ⟨edge, member, isSrc, isDst⟩,
          isCaller, isCallee⟩
  · cases parsed

/-- Which declarations are read right: the index of a function that is kept has
twelve digits and starts no other index, and no block count overflows `stoi`. -/
structure FixedLength (isLibFunc : List Char → Bool) (nodes : List SvfNode)
    (foreign : List HexNumber) : Prop where
  blocks : ∀ node ∈ nodes, node.blocks < 2147483648
  length : ∀ node ∈ nodes, node.Kept isLibFunc → node.index.digits.length = 12
  apart : ∀ node ∈ nodes, node.Kept isLibFunc →
    ∀ index ∈ nodes.map SvfNode.index ++ foreign, node.index.digits <+: index.digits →
      index.digits = node.index.digits

/-- Both ends of a call are indices of the file. -/
def SvfEdge.Within (nodes : List SvfNode) (foreign : List HexNumber) (edge : SvfEdge) : Prop :=
  edge.src ∈ nodes.map SvfNode.index ++ foreign ∧ edge.dst ∈ nodes.map SvfNode.index ++ foreign

theorem node_eq_of_digits {nodes : List SvfNode}
    (distinct : (nodes.map fun node => node.index.digits).Nodup) {first second : SvfNode}
    (firstIn : first ∈ nodes) (secondIn : second ∈ nodes)
    (same : first.index.digits = second.index.digits) : first = second :=
  List.inj_on_of_nodup_map distinct firstIn secondIn same

theorem readExactly_of_fixedLength {foreign : List HexNumber}
    (distinct : ((SvfLine.nodes lines).map fun node => node.index.digits).Nodup)
    (fixed : FixedLength isLibFunc (SvfLine.nodes lines) foreign)
    (within : ∀ edge ∈ SvfLine.edges lines, edge.Within (SvfLine.nodes lines) foreign) :
    SvfLine.ReadExactly isLibFunc lines := by
  have parsed := @parseDotSvf_file isLibFunc lines
  rw [if_pos fixed.blocks] at parsed
  rcases parseDotSvf_spec parsed with ⟨unique, functions, calls⟩
  have noded := noded_declared isLibFunc lines
  -- A key of the map belongs to one declaration.
  have resolved {index : HexNumber} {node : SvfNode} (member : node ∈ SvfLine.nodes lines)
      (kept : node.Kept isLibFunc) (same : index.digits = node.index.digits) :
      ∃ ref, (SvfLine.declared isLibFunc lines).nodeMap.find
        ("Node0x".toList ++ index.digits) = some ref ∧
        ((SvfLine.declared isLibFunc lines).graph.nodes ref).funcName = node.name := by
    rw [same, ← SvfNode.key_eq (fixed.length node member kept)]
    rcases noded.found node (SvfLine.mem_kept.mpr ⟨member, kept⟩) with ⟨ref, found⟩
    rcases noded.keys _ ref found with ⟨other, among, isKey, name⟩
    rcases SvfLine.mem_kept.mp among with ⟨otherIn, otherKept⟩
    rw [SvfNode.key_eq (fixed.length node member kept),
      SvfNode.key_eq (fixed.length other otherIn otherKept), List.append_cancel_left_eq] at isKey
    rw [node_eq_of_digits distinct otherIn member isKey] at name
    exact ⟨ref, found, name⟩
  refine ⟨_, parsed, unique, functions, fun caller callee => ?_⟩
  rw [calls]
  constructor
  · rintro ⟨edge, member, src, dst, isSrc, isDst, rfl, rfl⟩
    rcases noded.keys _ src isSrc with ⟨first, firstAmong, firstKey, firstName⟩
    rcases noded.keys _ dst isDst with ⟨second, secondAmong, secondKey, secondName⟩
    rcases SvfLine.mem_kept.mp firstAmong with ⟨firstIn, firstKept⟩
    rcases SvfLine.mem_kept.mp secondAmong with ⟨secondIn, secondKept⟩
    have firstLength := fixed.length first firstIn firstKept
    rw [SvfNode.key_eq firstLength, eq_comm, SvfEdge.srcKey_eq_iff firstLength] at firstKey
    rw [SvfNode.key_eq (fixed.length second secondIn secondKept), eq_comm,
      SvfEdge.dstKey_eq_iff] at secondKey
    exact ⟨edge, member, first, firstIn, second, secondIn, firstKept, secondKept,
      fixed.apart first firstIn firstKept edge.src (within edge member).1 firstKey, secondKey,
      firstName.symm, secondName.symm⟩
  · rintro ⟨edge, member, first, firstIn, second, secondIn, firstKept, secondKept, isSrc, isDst,
      rfl, rfl⟩
    rcases resolved firstIn firstKept rfl with ⟨src, srcFound, srcName⟩
    rcases resolved secondIn secondKept isDst with ⟨dst, dstFound, dstName⟩
    have srcKey : edge.srcKey = "Node0x".toList ++ first.index.digits := by
      rw [SvfEdge.srcKey_eq_iff (fixed.length first firstIn firstKept), isSrc]
    exact ⟨edge, member, src, dst, by rw [srcKey, srcFound], dstFound, srcName, dstName⟩

def SvfEdge.between (src dst : HexNumber) : SvfEdge where
  indent := []
  src
  port := none
  dst
  color := "black".toList
  blank := by simp
  plain := by simp

def SvfLine.withEdge (nodes : List SvfNode) (src dst : HexNumber) : List SvfLine :=
  nodes.map SvfLine.node ++ [.edge (SvfEdge.between src dst)]

theorem SvfLine.nodes_map (nodes : List SvfNode) : SvfLine.nodes (nodes.map SvfLine.node) = nodes := by
  simp [SvfLine.nodes]

theorem SvfLine.edges_map (nodes : List SvfNode) : SvfLine.edges (nodes.map SvfLine.node) = [] := by
  simp [SvfLine.edges]

theorem SvfLine.nodes_withEdge (nodes : List SvfNode) (src dst : HexNumber) :
    SvfLine.nodes (SvfLine.withEdge nodes src dst) = nodes := by
  rw [SvfLine.withEdge, SvfLine.nodes, List.filterMap_append, ← SvfLine.nodes, SvfLine.nodes_map]
  simp

theorem SvfLine.edges_withEdge (nodes : List SvfNode) (src dst : HexNumber) :
    SvfLine.edges (SvfLine.withEdge nodes src dst) = [SvfEdge.between src dst] := by
  rw [SvfLine.withEdge, SvfLine.edges, List.filterMap_append, ← SvfLine.edges, SvfLine.edges_map]
  simp

theorem length_dst_of_reads {edge : SvfEdge} {ref : NodeRef}
    (found : (SvfLine.declared isLibFunc lines).nodeMap.find edge.dstKey = some ref) :
    edge.dst.digits.length = 12 := by
  rcases (noded_declared isLibFunc lines).keys _ ref found with ⟨node, -, isKey, -⟩
  have length := congrArg List.length isKey
  rw [node.length_key, SvfEdge.dstKey_def, List.length_append,
    show "Node0x".toList.length = 6 from rfl] at length
  omega

section Needed

variable {nodes : List SvfNode} {foreign : List HexNumber}
  (everyFile : ∀ lines, SvfLine.nodes lines = nodes →
    (∀ edge ∈ SvfLine.edges lines, edge.Within nodes foreign) → SvfLine.ReadExactly isLibFunc lines)

include everyFile

theorem blocks_of_readExactly : ∀ node ∈ nodes, node.blocks < 2147483648 := by
  rcases everyFile (nodes.map SvfLine.node) (SvfLine.nodes_map nodes)
    (by simp [SvfLine.edges_map]) with ⟨graph, parsed, -⟩
  rw [parseDotSvf_file, SvfLine.nodes_map] at parsed
  split at parsed
  · assumption
  · cases parsed

theorem calls_withEdge {src dst : HexNumber}
    (isSrc : src ∈ nodes.map SvfNode.index ++ foreign)
    (isDst : dst ∈ nodes.map SvfNode.index ++ foreign) (caller callee : List Char) :
    (∃ first second, (SvfLine.declared isLibFunc (SvfLine.withEdge nodes src dst)).nodeMap.find
          (SvfEdge.between src dst).srcKey = some first ∧
        (SvfLine.declared isLibFunc (SvfLine.withEdge nodes src dst)).nodeMap.find
          (SvfEdge.between src dst).dstKey = some second ∧
        ((SvfLine.declared isLibFunc (SvfLine.withEdge nodes src dst)).graph.nodes
          first).funcName = caller ∧
        ((SvfLine.declared isLibFunc (SvfLine.withEdge nodes src dst)).graph.nodes
          second).funcName = callee) ↔
      ∃ first ∈ nodes, ∃ second ∈ nodes, first.Kept isLibFunc ∧ second.Kept isLibFunc ∧
        src.digits = first.index.digits ∧ dst.digits = second.index.digits ∧
          first.name = caller ∧ second.name = callee := by
  have within : ∀ edge ∈ SvfLine.edges (SvfLine.withEdge nodes src dst),
      edge.Within nodes foreign := by
    rw [SvfLine.edges_withEdge, List.forall_mem_singleton]
    exact ⟨isSrc, isDst⟩
  rcases everyFile _ (SvfLine.nodes_withEdge nodes src dst) within with ⟨graph, parsed, -, -, calls⟩
  have spec := (parseDotSvf_spec parsed).2.2 caller callee
  rw [calls, SvfLine.edges_withEdge, SvfLine.nodes_withEdge] at spec
  simpa [SvfEdge.between] using spec.symm

theorem length_of_readExactly {node : SvfNode} (member : node ∈ nodes) (kept : node.Kept isLibFunc) :
    node.index.digits.length = 12 := by
  have isIndex : node.index ∈ nodes.map SvfNode.index ++ foreign :=
    List.mem_append_left _ (List.mem_map_of_mem member)
  rcases (calls_withEdge everyFile isIndex isIndex node.name node.name).mpr
    ⟨node, member, node, member, kept, kept, rfl, rfl, rfl, rfl⟩ with ⟨-, ref, -, found, -⟩
  exact length_dst_of_reads found

theorem apart_of_readExactly {node : SvfNode} (member : node ∈ nodes) (kept : node.Kept isLibFunc)
    {index : HexNumber} (isIndex : index ∈ nodes.map SvfNode.index ++ foreign)
    (longer : node.index.digits <+: index.digits) : index.digits = node.index.digits := by
  have length := length_of_readExactly everyFile member kept
  have noded := noded_declared isLibFunc (SvfLine.withEdge nodes index node.index)
  have among : node ∈ SvfLine.kept isLibFunc (SvfLine.withEdge nodes index node.index) := by
    rw [SvfLine.mem_kept, SvfLine.nodes_withEdge]
    exact ⟨member, kept⟩
  rcases noded.found node among with ⟨ref, found⟩
  rw [SvfNode.key_eq length] at found
  have srcKey : (SvfEdge.between index node.index).srcKey =
      "Node0x".toList ++ node.index.digits := (SvfEdge.srcKey_eq_iff length).mpr longer
  rcases (calls_withEdge everyFile isIndex (List.mem_append_left _ (List.mem_map_of_mem member)) _ _).mp
    ⟨ref, ref, by rw [srcKey, found], found, rfl, rfl⟩ with
    ⟨first, firstIn, -, -, firstKept, -, same, -⟩
  -- Only a kept declaration with twelve digits can have been meant.
  have firstLength := length_of_readExactly everyFile firstIn firstKept
  rw [← same, ← length] at firstLength
  exact (longer.eq_of_length firstLength.symm).symm

end Needed

/-- Every file with these declarations is read exactly, whatever calls between
their indices and the given further ones it has, when and only when their
indices have the fixed length. -/
theorem readExactly_iff (isLibFunc : List Char → Bool) (nodes : List SvfNode)
    (foreign : List HexNumber) (distinct : (nodes.map fun node => node.index.digits).Nodup) :
    (∀ lines, SvfLine.nodes lines = nodes →
        (∀ edge ∈ SvfLine.edges lines, edge.Within nodes foreign) →
        SvfLine.ReadExactly isLibFunc lines) ↔ FixedLength isLibFunc nodes foreign := by
  constructor
  · intro everyFile
    exact ⟨blocks_of_readExactly everyFile, fun node member kept => length_of_readExactly everyFile member kept,
      fun node member kept index isIndex longer =>
        apart_of_readExactly everyFile member kept isIndex longer⟩
  · rintro fixed lines rfl within
    exact readExactly_of_fixedLength distinct fixed within

/-- An index that is given by its digits. -/
def HexNumber.ofDigits (digits : List Char) (nonempty : digits ≠ [])
    (hex : digits.all isHexDigit = true) : HexNumber :=
  ⟨digits, nonempty, List.all_eq_true.mp hex⟩

def SvfNode.simple (index : HexNumber) (name : List Char)
    (plain : (name.all fun c => c ≠ ' ' && c ≠ ':' && c ≠ '\\' && c ≠ '\n') = true) : SvfNode where
  indent := ['\t']
  index
  id := 20
  name
  attr := ['0']
  blocks := 3
  ports := []
  blank := by simp
  plain := by
    intro c member
    rcases List.mem_append.mp member with inName | inAttr
    · simpa [and_assoc] using List.all_eq_true.mp plain c inName
    · rw [List.mem_singleton.mp inAttr]
      decide
  labels := by simp

/-- The two declarations of the comment in `DotParser.h`. -/
def heapNodes : List SvfNode :=
  [.simple (.ofDigits "55558860cb50".toList (by decide) (by decide)) "strtoul".toList (by decide),
    .simple (.ofDigits "5555886b1ef0".toList (by decide) (by decide)) "xmlListWalk".toList (by decide)]

theorem readExactly_heapNodes :
    (heapNodes.map fun node => node.index.digits).Nodup ∧
      ∀ lines, SvfLine.nodes lines = heapNodes →
        (∀ edge ∈ SvfLine.edges lines, edge.Within heapNodes []) →
        SvfLine.ReadExactly (fun _ => false) lines := by
  have distinct : (heapNodes.map fun node => node.index.digits).Nodup := by decide
  refine ⟨distinct, (readExactly_iff (fun _ => false) heapNodes [] distinct).mpr ⟨?_, ?_, ?_⟩⟩
  · decide
  · intro node member _
    revert node
    decide
  · have apart : ∀ node ∈ heapNodes, ∀ other ∈ heapNodes,
        node.index.digits <+: other.index.digits → other.index.digits = node.index.digits := by
      decide
    intro node member _ index isIndex longer
    rw [List.append_nil] at isIndex
    rcases List.mem_map.mp isIndex with ⟨other, otherIn, rfl⟩
    exact apart node member other otherIn longer

/-- Addresses of a program that is not relocated: eight digits. -/
def lowNodes : List SvfNode :=
  [.simple (.ofDigits "08049a10".toList (by decide) (by decide)) "main".toList (by decide),
    .simple (.ofDigits "08049b60".toList (by decide) (by decide)) "parse".toList (by decide)]

/-- The file with a call from the first to the second. -/
def lowFile : List SvfLine :=
  SvfLine.withEdge lowNodes (.ofDigits "08049a10".toList (by decide) (by decide))
    (.ofDigits "08049b60".toList (by decide) (by decide))

/-- Both functions are there, and the call is lost. -/
theorem lowFile_loses_call :
    (parseDotSvf (fun _ => false) CGGraph.empty (SvfLine.file lowFile)).map (fun graph =>
        (graph.functions, graph.nodeRefs.flatMap fun ref => (graph.nodes ref).outEdges)) =
      some (["main".toList, "parse".toList], []) ∧
      ¬ ∀ (isLibFunc : List Char → Bool) (lines : List SvfLine),
        ((SvfLine.nodes lines).map fun node => node.index.digits).Nodup →
          SvfLine.ReadExactly isLibFunc lines := by
  refine ⟨by decide +kernel, fun exactly => ?_⟩
  rcases exactly (fun _ => false) lowFile (by decide) with ⟨graph, parsed, -, -, calls⟩
  have called : graph.Calls "main".toList "parse".toList := by
    rw [calls, lowFile, SvfLine.edges_withEdge, SvfLine.nodes_withEdge]
    exact ⟨_, List.mem_singleton_self _, _, List.mem_cons_self, _,
      List.mem_cons_of_mem _ (List.mem_singleton_self _), ⟨by decide, rfl⟩, ⟨by decide, rfl⟩, rfl, rfl,
      rfl, rfl⟩
  rcases ((parseDotSvf_spec parsed).2.2 _ _).mp called with ⟨edge, member, -, ref, -, found, -⟩
  have length := length_dst_of_reads found
  rw [lowFile, SvfLine.edges_withEdge, List.mem_singleton] at member
  rw [member] at length
  exact absurd length (by decide)

end Exact

end GraphDissect.CallGraph
