import GraphDissect.CallGraph.DotLines

/-!
# The graph of a list of records

Parsed nodes and edges get the next free reference, so a graph under
construction is given by the records of its nodes and edges.  The edge lines
come in the order of the edge sets, and every edge goes to the end of its two
sets.
-/

namespace GraphDissect.CallGraph

open Library

/-- The positions of the edges with a property. -/
def edgeRefs (keep : EdgeRec → Bool) (edges : List EdgeRec) : List EdgeRef :=
  (List.range edges.length).filter fun ref => edges[ref]?.any keep

section EdgeRefs

variable {keep : EdgeRec → Bool} {edges : List EdgeRec} {ref : EdgeRef}

theorem mem_edgeRefs : ref ∈ edgeRefs keep edges ↔ ∃ r, edges[ref]? = some r ∧ keep r = true := by
  rw [edgeRefs, List.mem_filter, List.mem_range]
  constructor
  · rintro ⟨inside, kept⟩
    rw [List.getElem?_eq_getElem inside] at kept ⊢
    exact ⟨_, rfl, kept⟩
  · rintro ⟨r, found, kept⟩
    rw [found]
    exact ⟨(List.getElem?_eq_some_iff.mp found).1, kept⟩

theorem edgeRefs_append (keep : EdgeRec → Bool) (edges : List EdgeRec) (r : EdgeRec) :
    edgeRefs keep (edges ++ [r]) =
      edgeRefs keep edges ++ if keep r then [edges.length] else [] := by
  have old : (List.range edges.length).filter (fun ref => (edges ++ [r])[ref]?.any keep) =
      edgeRefs keep edges := by
    apply List.filter_congr
    intro ref member
    rw [List.getElem?_append_left (List.mem_range.mp member)]
  rw [edgeRefs, List.length_append, List.length_singleton, List.range_succ, List.filter_append, old,
    List.filter_singleton, List.getElem?_concat_length, Option.any_some, Bool.cond_eq_ite]

theorem map_edgeRefs {View : Type} (keep : EdgeRec → Bool) (view : EdgeRef → View) (shown : EdgeRec → View)
    (same : ∀ ref r, edges[ref]? = some r → view ref = shown r) :
    (edgeRefs keep edges).map view = (edges.filter keep).map shown := by
  induction edges using List.reverseRecOn with
  | nil => rfl
  | append_singleton edges r inductionHypothesis =>
    have last : view edges.length = shown r := same _ r List.getElem?_concat_length
    rw [edgeRefs_append, List.map_append, List.filter_append, List.map_append,
      inductionHypothesis fun ref other found => same ref other
        ((List.getElem?_append_left (List.getElem?_eq_some_iff.mp found).1).trans found)]
    cases kept : keep r <;> simp [kept, last]

end EdgeRefs

def NodeRec.node (r : NodeRec) (ref : NodeRef) (edges : List EdgeRec) : CGNode where
  id := ref + 1
  funcName := r.name
  hitNum := r.hitNum
  depth := 0
  blockNum := r.blockNum
  key := r.key
  driverIdMask := readMask r.mask
  inEdges := edgeRefs (·.dst = ref) edges
  outEdges := edgeRefs (·.src = ref) edges

def EdgeRec.edge (r : EdgeRec) : CGEdge where
  src := r.src
  dst := r.dst
  attr := .cfg
  hitNum := r.hitNum
  keys := r.keys
  driverIdMask := readMask r.mask

/-- An edge between the two nodes of a record. -/
structure EdgeRec.Joins (r : EdgeRec) (edge : CGEdge) : Prop where
  src : edge.src = r.src
  dst : edge.dst = r.dst
  attr : edge.attr = .cfg

def EdgeRec.Before (first second : EdgeRec) : Prop :=
  first.src < second.src ∨ first.src = second.src ∧ first.dst < second.dst

/-- A graph holds these nodes and edges. -/
structure Represents (graph : CGGraph) (nodes : List NodeRec) (edges : List EdgeRec) : Prop where
  nodeNum : graph.nodeNum = nodes.length
  nodeAllocs : graph.nodeAllocs = nodes.length
  edgeAllocs : graph.edgeAllocs = edges.length
  entries : graph.idToNode.entries = (List.range nodes.length).map fun ref => (ref + 1, ref)
  names : ∀ name ref, graph.getNode name = some ref ↔ nodes[ref]?.map NodeRec.name = some name
  node : ∀ ref r, nodes[ref]? = some r → graph.nodes ref = r.node ref edges
  edge : ∀ ref r, edges[ref]? = some r → graph.edges ref = r.edge
  ends : ∀ r ∈ edges, r.src < nodes.length ∧ r.dst < nodes.length

theorem represents_empty : Represents CGGraph.empty [] [] where
  nodeNum := rfl
  nodeAllocs := rfl
  edgeAllocs := rfl
  entries := rfl
  names := by simp [CGGraph.getNode, CGGraph.empty]
  node := by simp
  edge := by simp
  ends := by simp

namespace Represents

variable {graph : CGGraph} {nodes : List NodeRec} {edges : List EdgeRec}

theorem id_eq (represents : Represents graph nodes edges) {ref : NodeRef}
    (inside : ref < nodes.length) : (graph.nodes ref).id = ref + 1 := by
  rw [represents.node ref _ (List.getElem?_eq_getElem inside)]
  rfl

theorem getNode_fresh (represents : Represents graph nodes edges) {name : List Char}
    (fresh : name ∉ nodes.map NodeRec.name) : graph.getNode name = none := by
  rw [Option.eq_none_iff_forall_not_mem]
  intro ref found
  obtain ⟨old, listed, same⟩ := Option.map_eq_some_iff.mp ((represents.names _ _).mp found)
  exact fresh (same ▸ List.mem_map_of_mem (List.mem_of_getElem? listed))

theorem addRecord_eq (represents : Represents graph nodes []) {r : NodeRec}
    (fresh : r.name ∉ nodes.map NodeRec.name) :
    graph.addRecord r = { graph with
      nodes := Function.update graph.nodes nodes.length (r.node nodes.length [])
      fnameToNode := graph.fnameToNode.insert r.name nodes.length
      idToNode := graph.idToNode.insert (nodes.length + 1) nodes.length
      nodeNum := nodes.length + 1
      nodeAllocs := nodes.length + 1 } := by
  simp [CGGraph.addRecord, CGGraph.addNode, represents.getNode_fresh fresh, CGGraph.setNode,
    CGNode.new, NodeRec.node, edgeRefs, represents.nodeNum, represents.nodeAllocs]

theorem addRecord (represents : Represents graph nodes []) {r : NodeRec}
    (fresh : r.name ∉ nodes.map NodeRec.name) :
    Represents (graph.addRecord r) (nodes ++ [r]) [] := by
  rw [represents.addRecord_eq fresh]
  constructor
  case nodeNum => simp
  case nodeAllocs => simp
  case edgeAllocs => exact represents.edgeAllocs
  case entries =>
    dsimp only
    rw [OrderedMap.entries_insert_last]
    · simp [represents.entries, List.range_succ]
    · intro entry member
      rw [represents.entries] at member
      obtain ⟨ref, inside, rfl⟩ := List.mem_map.mp member
      have := List.mem_range.mp inside
      dsimp only
      omega
  case names =>
    intro name ref
    have old := represents.names name ref
    rw [CGGraph.getNode] at old ⊢
    dsimp only
    rw [OrderedMap.find_insert]
    obtain inside | rfl | beyond := lt_trichotomy ref nodes.length
    · rw [List.getElem?_append_left inside, ← old]
      split
      · next same =>
        have absent := represents.getNode_fresh fresh
        rw [CGGraph.getNode, ← same] at absent
        simp [absent, inside.ne']
      · exact Iff.rfl
    · rw [List.getElem?_concat_length, Option.map_some]
      split
      · next same => simp [same]
      · next other =>
        have unlisted : nodes[nodes.length]?.map NodeRec.name ≠ some name := by simp
        exact iff_of_false (fun found => unlisted (old.mp found)) (by simpa using Ne.symm other)
    · have outside : nodes.length + 1 ≤ ref := beyond
      rw [List.getElem?_eq_none (by simpa using outside)]
      rw [List.getElem?_eq_none (by omega)] at old
      split
      · simp [beyond.ne]
      · simpa using old
  case node =>
    intro ref other listed
    dsimp only
    by_cases last : ref = nodes.length
    · subst last
      rw [List.getElem?_concat_length] at listed
      cases listed
      exact Function.update_self _ _ _
    · have inside : ref < nodes.length := by
        have bound := (List.getElem?_eq_some_iff.mp listed).1
        rw [List.length_append, List.length_singleton] at bound
        exact lt_of_le_of_ne (Nat.le_of_lt_succ bound) last
      rw [List.getElem?_append_left inside] at listed
      rw [Function.update_of_ne last]
      exact represents.node ref other listed
  case edge => simp
  case ends => simp

theorem edgeBefore_iff {first second : EdgeRec} {firstEdge secondEdge : CGEdge} {bound : Nat}
    (ids : ∀ ref < bound, (graph.nodes ref).id = ref + 1)
    (firstEnds : first.src < bound ∧ first.dst < bound)
    (secondEnds : second.src < bound ∧ second.dst < bound)
    (isFirst : first.Joins firstEdge) (isSecond : second.Joins secondEdge) :
    graph.edgeBefore firstEdge secondEdge ↔ first.Before second := by
  unfold CGGraph.edgeBefore EdgeRec.Before
  rw [isFirst.src, isFirst.dst, isFirst.attr, isSecond.src, isSecond.dst, isSecond.attr,
    ids _ firstEnds.1, ids _ firstEnds.2, ids _ secondEnds.1, ids _ secondEnds.2]
  simp only [ne_eq, not_true_eq_false, if_false]
  split <;> omega

theorem insertEdge_last {ref : EdgeRef} {others : List EdgeRef}
    (later : ∀ other ∈ others, graph.edgeBefore (graph.edges other) (graph.edges ref) ∧
      ¬ graph.edgeBefore (graph.edges ref) (graph.edges other)) :
    graph.insertEdge ref others = some (others ++ [ref]) := by
  induction others with
  | nil => rfl
  | cons other rest inductionHypothesis =>
    obtain ⟨before, notAfter⟩ := later other List.mem_cons_self
    rw [CGGraph.insertEdge, if_neg notAfter, if_pos before,
      inductionHypothesis fun next member => later next (List.mem_cons_of_mem other member)]
    rfl

theorem insertEdge_edgeRefs {r : EdgeRec} {bound : Nat} (keep : EdgeRec → Bool)
    (ids : ∀ ref < bound, (graph.nodes ref).id = ref + 1)
    (old : ∀ ref (other : EdgeRec), edges[ref]? = some other → other.Joins (graph.edges ref))
    (new : r.Joins (graph.edges edges.length))
    (ends : ∀ other ∈ edges, other.src < bound ∧ other.dst < bound)
    (newEnds : r.src < bound ∧ r.dst < bound) (before : ∀ other ∈ edges, other.Before r) :
    graph.insertEdge edges.length (edgeRefs keep edges) =
      some (edgeRefs keep edges ++ [edges.length]) := by
  apply insertEdge_last
  intro ref member
  obtain ⟨other, listed, -⟩ := mem_edgeRefs.mp member
  have inside := List.mem_of_getElem? listed
  rw [edgeBefore_iff ids (ends other inside) newEnds (old ref other listed) new,
    edgeBefore_iff ids newEnds (ends other inside) new (old ref other listed)]
  have earlier := before other inside
  refine ⟨earlier, ?_⟩
  unfold EdgeRec.Before at earlier ⊢
  omega

theorem linkEdge_last {ref : EdgeRef} {src dst : NodeRef} (isSrc : (graph.edges ref).src = src)
    (isDst : (graph.edges ref).dst = dst)
    (into : graph.insertEdge ref (graph.nodes dst).inEdges =
      some ((graph.nodes dst).inEdges ++ [ref]))
    (out : (graph.setNode dst { graph.nodes dst with
        inEdges := (graph.nodes dst).inEdges ++ [ref] }).insertEdge ref (graph.nodes src).outEdges =
      some ((graph.nodes src).outEdges ++ [ref])) :
    (graph.linkEdge ref).1 = { graph with
      nodes := fun other => { graph.nodes other with
        inEdges := (graph.nodes other).inEdges ++ if dst = other then [ref] else []
        outEdges := (graph.nodes other).outEdges ++ if src = other then [ref] else [] }
      edgeNum := graph.edgeNum + 1 } := by
  have same : ((graph.setNode dst { graph.nodes dst with
      inEdges := (graph.nodes dst).inEdges ++ [ref] }).nodes src).outEdges =
        (graph.nodes src).outEdges := by
    by_cases loop : src = dst
    · subst loop
      simp [CGGraph.setNode]
    · simp [CGGraph.setNode, Function.update_of_ne loop]
  unfold CGGraph.linkEdge
  dsimp only
  rw [isDst, into]
  dsimp only
  rw [show ((graph.setNode dst _).edges ref).src = src from isSrc, same, out]
  dsimp only [CGGraph.setNode]
  congr 1
  funext other
  by_cases atSrc : src = other
  · subst atSrc
    by_cases atDst : dst = src
    · subst atDst
      simp
    · simp [atDst, Function.update_of_ne (Ne.symm atDst)]
  · by_cases atDst : dst = other
    · subst atDst
      simp [atSrc, Function.update_of_ne (Ne.symm atSrc)]
    · simp [atSrc, atDst, Function.update_of_ne (Ne.symm atSrc), Function.update_of_ne (Ne.symm atDst)]

/-- The graph with one more edge at the end of its two sets. -/
def appendEdge (graph : CGGraph) (ref : EdgeRef) (edge : CGEdge) : CGGraph :=
  { graph with
    nodes := fun other => { graph.nodes other with
      inEdges := (graph.nodes other).inEdges ++ if edge.dst = other then [ref] else []
      outEdges := (graph.nodes other).outEdges ++ if edge.src = other then [ref] else [] }
    edges := Function.update graph.edges ref edge
    edgeNum := graph.edgeNum + 1
    edgeAllocs := ref + 1 }

theorem addMaskedEdge_eq (represents : Represents graph nodes edges) {r : EdgeRec}
    (ends : r.src < nodes.length ∧ r.dst < nodes.length) (before : ∀ other ∈ edges, other.Before r)
    (mask : DriverIdMask) :
    graph.addMaskedEdge r.src r.dst mask =
      appendEdge graph edges.length { CGEdge.new r.src r.dst with driverIdMask := mask } := by
  have srcNode := represents.node _ _ (List.getElem?_eq_getElem ends.1)
  have dstNode := represents.node _ _ (List.getElem?_eq_getElem ends.2)
  have old : ∀ ref (other : EdgeRec), edges[ref]? = some other →
      other.Joins (Function.update graph.edges edges.length
        { CGEdge.new r.src r.dst with driverIdMask := mask } ref) := by
    intro ref other listed
    have inside := (List.getElem?_eq_some_iff.mp listed).1
    rw [Function.update_of_ne inside.ne, represents.edge ref other listed]
    exact ⟨rfl, rfl, rfl⟩
  have new : r.Joins (Function.update graph.edges edges.length
      { CGEdge.new r.src r.dst with driverIdMask := mask } edges.length) := by
    rw [Function.update_self]
    exact ⟨rfl, rfl, rfl⟩
  unfold CGGraph.addMaskedEdge
  dsimp only
  rw [represents.edgeAllocs, linkEdge_last new.src new.dst]
  · rfl
  · dsimp only
    rw [dstNode]
    exact insertEdge_edgeRefs _ (fun ref => represents.id_eq) old new represents.ends ends before
  · dsimp only
    rw [srcNode]
    refine insertEdge_edgeRefs _ (fun ref inside => ?_) old new represents.ends ends before
    dsimp only [CGGraph.setNode]
    by_cases here : ref = r.dst
    · subst here
      rw [Function.update_self]
      exact represents.id_eq inside
    · rw [Function.update_of_ne here]
      exact represents.id_eq inside

theorem appendEdge_represents (represents : Represents graph nodes edges) {r : EdgeRec}
    (ends : r.src < nodes.length ∧ r.dst < nodes.length) :
    Represents (appendEdge graph edges.length r.edge) nodes (edges ++ [r]) where
  nodeNum := represents.nodeNum
  nodeAllocs := represents.nodeAllocs
  edgeAllocs := by simp [appendEdge]
  entries := represents.entries
  names := represents.names
  node := by
    intro ref other listed
    dsimp only [appendEdge]
    rw [represents.node ref other listed]
    simp only [NodeRec.node, edgeRefs_append, decide_eq_true_eq]
    rfl
  edge := by
    intro ref other listed
    dsimp only [appendEdge]
    by_cases last : ref = edges.length
    · subst last
      rw [List.getElem?_concat_length] at listed
      cases listed
      exact Function.update_self _ _ _
    · have inside : ref < edges.length := by
        have bound := (List.getElem?_eq_some_iff.mp listed).1
        rw [List.length_append, List.length_singleton] at bound
        exact lt_of_le_of_ne (Nat.le_of_lt_succ bound) last
      rw [List.getElem?_append_left inside] at listed
      rw [Function.update_of_ne last]
      exact represents.edge ref other listed
  ends := by
    intro other member
    obtain old | new := List.mem_append.mp member
    · exact represents.ends other old
    · rw [List.mem_singleton.mp new]
      exact ends

/-- The first edge to the destination is the new one: the source's other edges
go to smaller ids. -/
theorem find_appendEdge (represents : Represents graph nodes edges) {r : EdgeRec} {edge : CGEdge}
    (joins : r.Joins edge) (ends : r.src < nodes.length ∧ r.dst < nodes.length)
    (before : ∀ other ∈ edges, other.Before r) :
    ((appendEdge graph edges.length edge).nodes r.src).outEdges.find?
        (fun ref => ((appendEdge graph edges.length edge).edges ref).dst = r.dst) =
      some edges.length := by
  have srcNode := represents.node _ _ (List.getElem?_eq_getElem ends.1)
  have sources : ((appendEdge graph edges.length edge).nodes r.src).outEdges =
      edgeRefs (·.src = r.src) edges ++ [edges.length] := by
    simp [appendEdge, srcNode, NodeRec.node, joins.src]
  rw [sources, List.find?_append, List.find?_eq_none.mpr, Option.none_or, List.find?_singleton]
  · simp [appendEdge, joins.dst]
  · intro ref member
    obtain ⟨other, listed, sameSrc⟩ := mem_edgeRefs.mp member
    have inside := (List.getElem?_eq_some_iff.mp listed).1
    have earlier := before other (List.mem_of_getElem? listed)
    have same : other.src = r.src := of_decide_eq_true sameSrc
    have isDst : ((appendEdge graph edges.length edge).edges ref).dst = other.dst := by
      dsimp only [appendEdge]
      rw [Function.update_of_ne inside.ne, represents.edge ref other listed]
      rfl
    have different : other.dst ≠ r.dst := by
      unfold EdgeRec.Before at earlier
      omega
    rw [isDst, decide_eq_true_eq]
    exact different

theorem setEdgeFields_eq (represents : Represents graph nodes edges) {r : EdgeRec}
    (ends : r.src < nodes.length ∧ r.dst < nodes.length) (before : ∀ other ∈ edges, other.Before r)
    (counted : r.hitNum ≠ 0 → r.keys ≠ []) {line : List Char}
    (hits : getHitNum line = some r.hitNum) :
    setEdgeFields (graph.addMaskedEdge r.src r.dst (readMask r.mask)) r.src r.dst r.keys line =
      some (appendEdge graph edges.length r.edge) := by
  rw [represents.addMaskedEdge_eq ends before, setEdgeFields]
  by_cases keyless : r.keys = []
  · have unhit : r.hitNum = 0 := by
      by_contra hit
      exact counted hit keyless
    rw [if_pos keyless]
    simp [EdgeRec.edge, CGEdge.new, keyless, unhit]
  · rw [if_neg keyless, represents.find_appendEdge ⟨rfl, rfl, rfl⟩ ends before]
    dsimp only
    rw [hits, Option.map_some]
    dsimp only [appendEdge, CGGraph.setEdge]
    rw [Function.update_self, Function.update_idem]
    rfl

end Represents

section Reading

/-- Records that the format can carry. -/
structure Printable (nodes : List NodeRec) (edges : List EdgeRec) : Prop where
  plain : ∀ r ∈ nodes, PlainName r.name
  small : ∀ r ∈ nodes, r.blockNum.toNat < 2147483648
  distinct : (nodes.map NodeRec.name).Nodup
  ends : ∀ r ∈ edges, r.src < nodes.length ∧ r.dst < nodes.length
  counted : ∀ r ∈ edges, r.hitNum ≠ 0 → r.keys ≠ []
  sorted : edges.Pairwise EdgeRec.Before

def nameAt (nodes : List NodeRec) (ref : Nat) : List Char := (nodes[ref]?.map NodeRec.name).getD []

def nodeLine (r : NodeRec) : List Char := '\t' :: r.text

def edgeLine (nodes : List NodeRec) (r : EdgeRec) : List Char :=
  '\t' :: r.text (nameAt nodes r.src) (nameAt nodes r.dst)

theorem nameAt_eq {nodes : List NodeRec} {ref : Nat} (inside : ref < nodes.length) :
    nodes[ref]?.map NodeRec.name = some (nameAt nodes ref) ∧
      ∃ r ∈ nodes, r.name = nameAt nodes ref := by
  rw [nameAt, List.getElem?_eq_getElem inside]
  exact ⟨rfl, _, List.getElem_mem inside, rfl⟩

variable {nodes : List NodeRec} {edges : List EdgeRec}

theorem Printable.plain_nameAt (printable : Printable nodes edges) {ref : Nat}
    (inside : ref < nodes.length) : PlainName (nameAt nodes ref) := by
  obtain ⟨-, r, member, same⟩ := nameAt_eq inside
  exact same ▸ printable.plain r member

theorem Represents.foldlM_nodeLine {graph : CGGraph} {read : List NodeRec}
    (represents : Represents graph read []) {rest : List NodeRec}
    (printable : Printable (read ++ rest) edges) :
    ∃ final, (rest.map nodeLine).foldlM parseNodeLine graph = some final ∧
      Represents final (read ++ rest) [] := by
  induction rest generalizing graph read with
  | nil => exact ⟨graph, rfl, by rwa [List.append_nil]⟩
  | cons r rest inductionHypothesis =>
    have member : r ∈ read ++ r :: rest := by simp
    have fresh : r.name ∉ read.map NodeRec.name := by
      have distinct := printable.distinct
      rw [List.map_append, List.map_cons] at distinct
      intro again
      exact (List.nodup_append.mp distinct).2.2 _ again _ List.mem_cons_self rfl
    have split : read ++ r :: rest = (read ++ [r]) ++ rest := by simp
    rw [split] at printable ⊢
    obtain ⟨final, run, reached⟩ :=
      inductionHypothesis (represents.addRecord fresh) printable
    refine ⟨final, ?_, reached⟩
    rw [List.map_cons, List.foldlM_cons, nodeLine,
      NodeRec.parseNodeLine_text (printable.plain r (split ▸ member))
        (printable.small r (split ▸ member))]
    exact run

theorem Represents.foldlM_edgeLine {graph : CGGraph} {read rest : List EdgeRec}
    (represents : Represents graph nodes read) (printable : Printable nodes (read ++ rest)) :
    ∃ final, (rest.map (edgeLine nodes)).foldlM parseEdgeLine graph = some final ∧
      Represents final nodes (read ++ rest) := by
  induction rest generalizing graph read with
  | nil => exact ⟨graph, rfl, by rwa [List.append_nil]⟩
  | cons r rest inductionHypothesis =>
    have member : r ∈ read ++ r :: rest := by simp
    have ends := printable.ends r member
    have before : ∀ other ∈ read, other.Before r := fun other earlier =>
      (List.pairwise_append.mp printable.sorted).2.2 other earlier r List.mem_cons_self
    have srcPlain := printable.plain_nameAt ends.1
    have dstPlain := printable.plain_nameAt ends.2
    have step : parseEdgeLine graph (edgeLine nodes r) =
        some (Represents.appendEdge graph read.length r.edge) := by
      rw [edgeLine, EdgeRec.parseEdgeLine_text srcPlain dstPlain
        ((represents.names _ _).mpr (nameAt_eq ends.1).1)
        ((represents.names _ _).mpr (nameAt_eq ends.2).1)]
      exact represents.setEdgeFields_eq ends before (printable.counted r member)
        (EdgeRec.getHitNum_text srcPlain dstPlain)
    have split : read ++ r :: rest = (read ++ [r]) ++ rest := by simp
    rw [split] at printable ⊢
    obtain ⟨final, run, reached⟩ :=
      inductionHypothesis (represents.appendEdge_represents ends) printable
    refine ⟨final, ?_, reached⟩
    rw [List.map_cons, List.foldlM_cons, step]
    exact run

theorem foldlM_skip {State Line : Type} {step : State → Line → Option State} {state : State}
    {lines : List Line} (skips : ∀ line ∈ lines, step state line = some state) :
    lines.foldlM step state = some state := by
  induction lines with
  | nil => rfl
  | cons line rest inductionHypothesis =>
    rw [List.foldlM_cons, skips line List.mem_cons_self]
    exact inductionHypothesis fun other member => skips other (List.mem_cons_of_mem line member)

/-- A line that is neither a node nor an edge. -/
def IsRemark (line : List Char) : Prop :=
  contains "->" (trim isCSpace line) = false ∧ contains " [" (trim isCSpace line) = false ∧
    '\n' ∉ line

instance (line : List Char) : Decidable (IsRemark line) := by
  unfold IsRemark
  infer_instance

theorem IsRemark.parseNodeLine_eq {line : List Char} (remark : IsRemark line) (graph : CGGraph) :
    parseNodeLine graph line = some graph := by
  have bracket : breakOn " [".toList (trim isCSpace line) = none :=
    Option.not_isSome_iff_eq_none.mp (Bool.eq_false_iff.mp remark.2.1)
  unfold parseNodeLine
  dsimp only
  rw [remark.1, if_neg Bool.false_ne_true, bracket]

theorem IsRemark.parseEdgeLine_eq {line : List Char} (remark : IsRemark line) (graph : CGGraph) :
    parseEdgeLine graph line = some graph := by
  have arrow : breakOn " -> ".toList (trim isCSpace line) = none := by
    rw [breakOn_eq_none_iff]
    intro spaced
    have bare : "->".toList <:+: trim isCSpace line := List.IsInfix.trans ⟨[' '], [' '], rfl⟩ spaced
    exact Bool.eq_false_iff.mp remark.1 (contains_iff.mpr bare)
  unfold parseEdgeLine
  dsimp only
  rw [arrow]

/-- The lines between the nodes and the edges. -/
def between : List (List Char) := [[], [], "\t// Define the edges".toList]

def recordLines (nodes : List NodeRec) (edges : List EdgeRec) : List (List Char) :=
  markedViz.header ++ nodes.map nodeLine ++ between ++ edges.map (edgeLine nodes) ++ ["\x7d".toList]

theorem isRemark_header : ∀ line ∈ markedViz.header, IsRemark line := by decide +kernel

theorem isRemark_between : ∀ line ∈ between, IsRemark line := by decide +kernel

theorem isRemark_end : ∀ line ∈ ["\x7d".toList], IsRemark line := by decide +kernel

theorem Printable.newline_notMem (printable : Printable nodes edges) :
    ∀ line ∈ recordLines nodes edges, '\n' ∉ line := by
  intro line member
  simp only [recordLines, List.mem_append, or_assoc] at member
  obtain header | node | middle | edge | last := member
  · exact (isRemark_header line header).2.2
  · obtain ⟨r, listed, rfl⟩ := List.mem_map.mp node
    have text := NodeRec.notMem_text ((printable.plain r listed).notMem (c := '\n') (by decide))
      (by decide)
    simpa [nodeLine] using text
  · exact (isRemark_between line middle).2.2
  · obtain ⟨r, listed, rfl⟩ := List.mem_map.mp edge
    obtain ⟨srcInside, dstInside⟩ := printable.ends r listed
    have text := EdgeRec.notMem_text (r := r)
      ((printable.plain_nameAt srcInside).notMem (c := '\n') (by decide))
      ((printable.plain_nameAt dstInside).notMem (by decide)) (by decide) (by decide)
    simpa [edgeLine] using text
  · exact (isRemark_end line last).2.2

theorem Printable.parseDotAif_recordLines (printable : Printable nodes edges) :
    ∃ graph, parseDotAif CGGraph.empty (unlines (recordLines nodes edges)) = some graph ∧
      Represents graph nodes edges := by
  obtain ⟨noded, nodeRun, hasNodes⟩ : ∃ graph,
      (nodes.map nodeLine).foldlM parseNodeLine CGGraph.empty = some graph ∧
        Represents graph nodes [] :=
    represents_empty.foldlM_nodeLine printable
  obtain ⟨final, edgeRun, hasEdges⟩ : ∃ graph,
      (edges.map (edgeLine nodes)).foldlM parseEdgeLine noded = some graph ∧
        Represents graph nodes edges :=
    hasNodes.foldlM_edgeLine printable
  refine ⟨final, ?_, hasEdges⟩
  -- the first loop stops at node lines only, the second at edge lines
  have nodesSkipped : (edges.map (edgeLine nodes)).foldlM parseNodeLine noded = some noded := by
    apply foldlM_skip
    intro line member
    obtain ⟨r, listed, rfl⟩ := List.mem_map.mp member
    exact EdgeRec.parseNodeLine_text (printable.plain_nameAt (printable.ends r listed).1) noded
  have edgesSkipped : (nodes.map nodeLine).foldlM parseEdgeLine noded = some noded := by
    apply foldlM_skip
    intro line member
    obtain ⟨r, listed, rfl⟩ := List.mem_map.mp member
    exact NodeRec.parseEdgeLine_text (printable.plain r listed) noded
  have first : (recordLines nodes edges).foldlM parseNodeLine CGGraph.empty = some noded := by
    simp only [recordLines, List.foldlM_append, Option.bind_eq_bind]
    rw [foldlM_skip fun line member => (isRemark_header line member).parseNodeLine_eq _,
      Option.bind_some, nodeRun, Option.bind_some,
      foldlM_skip fun line member => (isRemark_between line member).parseNodeLine_eq _,
      Option.bind_some, nodesSkipped, Option.bind_some,
      foldlM_skip fun line member => (isRemark_end line member).parseNodeLine_eq _]
  have second : (recordLines nodes edges).foldlM parseEdgeLine noded = some final := by
    simp only [recordLines, List.foldlM_append, Option.bind_eq_bind]
    rw [foldlM_skip fun line member => (isRemark_header line member).parseEdgeLine_eq _,
      Option.bind_some, edgesSkipped, Option.bind_some,
      foldlM_skip fun line member => (isRemark_between line member).parseEdgeLine_eq _,
      Option.bind_some, edgeRun, Option.bind_some,
      foldlM_skip fun line member => (isRemark_end line member).parseEdgeLine_eq _]
  rw [parseDotAif, getlines_unlines printable.newline_notMem, first]
  exact second

end Reading

end GraphDissect.CallGraph
