import GraphDissect.Analysis.DriverGraph
import GraphDissect.Library.BreadthFirst

/-!
# Traversals of the call graph

Three worklists start at `main`.  `ComputeNodeDepths` marks a node when it is
pushed, and once more when it is taken from the list, and keeps the depth in the
node; `GetNodesWithinDepth` marks on the push and queues a node with its depth;
`getReachableGraph` keeps no depth.  `m_Entry` caches the node of `main`.  A
`while` loop takes a bound on its iterations and is `none` when it does not end
within it.
-/

namespace GraphDissect.Analysis

open CallGraph Library

def callees (graph : CGGraph) (ref : NodeRef) : List NodeRef :=
  (graph.nodes ref).outEdges.map fun edge => (graph.edges edge).dst

/-- More iterations than a traversal can make. -/
def iterations (graph : CGGraph) : Nat := graph.nodeRefs.length + 1

section Within

/-- The body of the inner loop of `GetNodesWithinDepth`: the worklist and the
visited nodes. -/
def pushCallee (depth : UInt32) (search : List (NodeRef × UInt32) × List NodeRef)
    (callee : NodeRef) : List (NodeRef × UInt32) × List NodeRef :=
  if callee ∈ search.2 then search
  else (search.1 ++ [(callee, depth + 1)], search.2 ++ [callee])

def withinDepthLoop (graph : CGGraph) (maxDepth : UInt32) :
    Nat → List (NodeRef × UInt32) → List NodeRef → List NodeRef → Option (List NodeRef)
  | _, [], _, result => some result
  | 0, _ :: _, _, _ => none
  | fuel + 1, (curr, depth) :: rest, visited, result =>
      if maxDepth < depth then withinDepthLoop graph maxDepth fuel rest visited result
      else
        let search := (callees graph curr).foldl (pushCallee depth) (rest, visited)
        withinDepthLoop graph maxDepth fuel search.1 search.2 (result ++ [curr])

def getNodesWithinDepth (graph : CGGraph) (maxDepth : UInt32) : Option (List NodeRef) :=
  match graph.getNode "main".toList with
  | none => some []
  | some entry => withinDepthLoop graph maxDepth (iterations graph) [(entry, 0)] [entry] []

end Within

section Depths

def setDepth (graph : CGGraph) (ref : NodeRef) (depth : UInt32) : CGGraph :=
  graph.setNode ref { graph.nodes ref with depth }

/-- The body of the inner loop of `ComputeNodeDepths`. -/
def visitCallee (node : NodeRef) (search : CGGraph × Worklist NodeRef) (callee : NodeRef) :
    CGGraph × Worklist NodeRef :=
  if callee ∈ search.2.found then search
  else (setDepth search.1 callee ((search.1.nodes node).depth + 1), search.2.discover callee)

def nodeDepthsLoop : Nat → CGGraph → Worklist NodeRef → UInt32 → Option (CGGraph × UInt32)
  | _, graph, ⟨[], _⟩, graphDepth => some (graph, graphDepth)
  | 0, _, ⟨_ :: _, _⟩, _ => none
  | fuel + 1, graph, ⟨node :: rest, visited⟩, graphDepth =>
      let depth := (graph.nodes node).depth
      let search := (callees graph node).foldl (visitCallee node)
        (graph, ⟨rest, visited.insert node⟩)
      nodeDepthsLoop fuel search.1 search.2 (if graphDepth < depth then depth else graphDepth)

/-- `ComputeNodeDepths`: the graph with its depths, and the depth of the graph. -/
def computeNodeDepths (graph : CGGraph) : Option (CGGraph × UInt32) :=
  match graph.getNode "main".toList with
  | none => some (graph, 0)
  | some entry => nodeDepthsLoop (iterations graph) (setDepth graph entry 0) ⟨[entry], []⟩ 0

end Depths

/-- `getReachableGraph` on a graph; `none` also when the assertion on `main` fails. -/
def reachableGraph (graph : CGGraph) : Option (List NodeRef) :=
  (graph.getNode "main".toList).bind fun entry =>
    Worklist.run (callees graph) (iterations graph) ⟨[entry], []⟩

theorem getReachableGraph_eq (marker : SubCgMarker) :
    marker.getReachableGraph = reachableGraph marker.wholeCg := rfl

/-- Node ids are `DWORD`s. -/
def Addressable (graph : CGGraph) : Prop :=
  ∀ ref ∈ graph.nodeRefs, (graph.nodes ref).id < 2 ^ 32

section Closed

variable {graph : CGGraph}

theorem callees_closed (wellFormed : graph.WellFormed) :
    ∀ ref ∈ graph.nodeRefs.toFinset, ∀ callee ∈ callees graph ref,
      callee ∈ graph.nodeRefs.toFinset := by
  intro ref member callee called
  rcases List.mem_map.mp called with ⟨edge, out, rfl⟩
  rw [List.mem_toFinset] at member ⊢
  exact (wellFormed.outgoing ref member edge out).2.1

theorem card_nodeRefs_le (wellFormed : graph.WellFormed) (addressable : Addressable graph) :
    graph.nodeRefs.toFinset.card ≤ 2 ^ 32 := by
  rw [← Finset.card_range (2 ^ 32)]
  apply Finset.card_le_card_of_injOn fun ref => (graph.nodes ref).id
  · intro ref member
    exact Finset.mem_coe.mpr (Finset.mem_range.mpr (addressable ref (List.mem_toFinset.mp member)))
  · intro first firstIn second secondIn same
    have foundFirst := (wellFormed.getGNode_id (List.mem_toFinset.mp firstIn)).1
    have foundSecond := (wellFormed.getGNode_id (List.mem_toFinset.mp secondIn)).1
    have equal : some first = some second := by
      rw [← foundFirst, ← foundSecond]
      exact congrArg graph.getGNode same
    exact Option.some.inj equal

/-- A distance fits into `unsigned`. -/
theorem distance_lt (wellFormed : graph.WellFormed) (addressable : Addressable graph)
    {entry : NodeRef} (entryIn : entry ∈ graph.nodeRefs) {distance : Nat} {ref : NodeRef}
    (isDistance : IsDistance (callees graph) entry distance ref) : distance < 2 ^ 32 :=
  lt_of_lt_of_le
    (isDistance.lt_card (callees_closed wellFormed) (List.mem_toFinset.mpr entryIn))
    (card_nodeRefs_le wellFormed addressable)

theorem card_nodeRefs_eq (wellFormed : graph.WellFormed) :
    graph.nodeRefs.toFinset.card = graph.nodeRefs.length :=
  List.toFinset_card_of_nodup wellFormed.nodup_nodeRefs

/-- `getReachableGraph` returns the nodes that `main` reaches. -/
theorem reachableGraph_eq_some (wellFormed : graph.WellFormed) {entry : NodeRef}
    (entryIn : entry ∈ graph.nodeRefs) (isMain : graph.getNode "main".toList = some entry) :
    ∃ reached, reachableGraph graph = some reached ∧ reached.Nodup ∧
      ∀ ref, ref ∈ reached ↔ Reaches (callees graph) entry ref := by
  have explored := Worklist.run_eq_some (callees_closed wellFormed) (List.mem_toFinset.mpr entryIn)
  rw [card_nodeRefs_eq wellFormed] at explored
  rw [reachableGraph, isMain]
  exact explored

end Closed

section Collection

variable {graph : CGGraph} {entry : NodeRef} {maxDepth : UInt32}

theorem foldl_pushCallee (depth : UInt32) (called : List NodeRef) (work : Worklist NodeRef)
    (worklist : List (NodeRef × UInt32)) :
    called.foldl (pushCallee depth)
        (worklist ++ work.pending.map fun node => (node, depth + 1), work.found) =
      (worklist ++ (called.foldl Worklist.discover work).pending.map fun node => (node, depth + 1),
        (called.foldl Worklist.discover work).found) := by
  induction called generalizing work with
  | nil => rfl
  | cons callee rest inductionHypothesis =>
      rw [List.foldl_cons, List.foldl_cons, ← inductionHypothesis]
      congr 1
      unfold pushCallee Worklist.discover
      split_ifs with old
      · rfl
      · simp

/-- The state of `GetNodesWithinDepth` between two iterations: what was taken
from the list is in the result. -/
structure Collects (graph : CGGraph) (entry : NodeRef) (maxDepth : UInt32) (label : NodeRef → Nat)
    (work : Worklist NodeRef) (result : List NodeRef) : Prop where
  layered : Worklist.Layered (callees graph) entry label work
  distinct : (result ++ work.pending).Nodup
  found : ∀ node, node ∈ work.found ↔ node ∈ result ∨ node ∈ work.pending
  near : ∀ node ∈ result, label node ≤ maxDepth.toNat

/-- The nodes at a distance of at most `maxDepth`, each once. -/
def IsWithin (graph : CGGraph) (entry : NodeRef) (maxDepth : UInt32) (within : List NodeRef) : Prop :=
  within.Nodup ∧
    ∀ node, node ∈ within ↔
      ∃ distance, IsDistance (callees graph) entry distance node ∧ distance ≤ maxDepth.toNat

def depthQueue (label : NodeRef → Nat) (pending : List NodeRef) : List (NodeRef × UInt32) :=
  pending.map fun node => (node, UInt32.ofNat (label node))

theorem withinDepthLoop_far {fuel : Nat} {worklist : List (NodeRef × UInt32)}
    (far : ∀ item ∈ worklist, maxDepth < item.2) (enough : worklist.length ≤ fuel)
    (visited result : List NodeRef) :
    withinDepthLoop graph maxDepth fuel worklist visited result = some result := by
  induction worklist generalizing fuel with
  | nil => rw [withinDepthLoop]
  | cons item rest inductionHypothesis =>
      rcases item with ⟨node, depth⟩
      cases fuel with
      | zero => exact absurd enough (Nat.not_succ_le_zero _)
      | succ fuel =>
          rw [withinDepthLoop, if_pos (far _ List.mem_cons_self)]
          exact inductionHypothesis (fun item member => far item (List.mem_cons_of_mem _ member))
            (Nat.le_of_succ_le_succ enough)

theorem collects_start : Collects graph entry maxDepth (fun _ => 0) ⟨[entry], [entry]⟩ [] where
  layered := Worklist.layered_start (fun _ => List.mem_singleton.mp) rfl
  distinct := List.nodup_singleton entry
  found node := by simp
  near node member := absurd member List.not_mem_nil

/-- With nothing pending the result is complete. -/
theorem Collects.isWithin {label : NodeRef → Nat} {found result : List NodeRef}
    (collects : Collects graph entry maxDepth label ⟨[], found⟩ result) :
    IsWithin graph entry maxDepth result := by
  refine ⟨by simpa using collects.distinct, ?_⟩
  intro node
  have inFound : node ∈ found ↔ node ∈ result := by simpa using collects.found node
  constructor
  · intro member
    exact ⟨_, collects.layered.exact node (.inr (inFound.mpr member)), collects.near node member⟩
  · rintro ⟨distance, isDistance, -⟩
    exact inFound.mp (collects.layered.mem_iff.mpr
      (reaches_iff_isDistance.mpr ⟨distance, isDistance⟩))

/-- When the first pending node is too deep, so are the others. -/
theorem Collects.isWithin_of_far {label : NodeRef → Nat} {node : NodeRef}
    {rest found result : List NodeRef}
    (collects : Collects graph entry maxDepth label ⟨node :: rest, found⟩ result)
    (far : maxDepth.toNat < label node) : IsWithin graph entry maxDepth result := by
  refine ⟨(List.nodup_append.mp collects.distinct).1, ?_⟩
  intro other
  constructor
  · intro member
    exact ⟨_, collects.layered.exact other (.inr ((collects.found other).mpr (.inl member))),
      collects.near other member⟩
  · rintro ⟨distance, isDistance, near⟩
    have seen := collects.layered.seen_of_stepsTo isDistance.path (by omega)
    have isLabel := (collects.layered.exact other seen).unique isDistance
    have absent : other ∉ node :: rest := by
      intro pending
      rcases List.mem_cons.mp pending with rfl | later
      · omega
      · have ordered := (List.pairwise_cons.mp collects.layered.sorted).1 other later
        omega
    exact ((collects.found other).mp (seen.resolve_left absent)).resolve_right absent

theorem Collects.expand {label : NodeRef → Nat} {node : NodeRef}
    {rest found result fresh : List NodeRef}
    (collects : Collects graph entry maxDepth label ⟨node :: rest, found⟩ result)
    (near : label node ≤ maxDepth.toNat) (nodup : fresh.Nodup)
    (mem : ∀ next, next ∈ fresh ↔ next ∈ callees graph node ∧ next ∉ found) :
    Collects graph entry maxDepth (Worklist.relabel label fresh (label node + 1))
      ⟨rest ++ fresh, found ++ fresh⟩ (result ++ [node]) := by
  have marked : found.insert node = found :=
    List.insert_of_mem ((collects.found node).mpr (.inr List.mem_cons_self))
  have layered : Worklist.Layered (callees graph) entry
      (Worklist.relabel label fresh (label node + 1)) ⟨rest ++ fresh, found.insert node ++ fresh⟩ :=
    collects.layered.expand (by rw [marked]; exact mem)
  rw [marked] at layered
  exact {
    layered := layered
    distinct := by
      have whole : result ++ [node] ++ (rest ++ fresh) = result ++ node :: rest ++ fresh := by simp
      rw [whole]
      refine List.nodup_append.mpr ⟨collects.distinct, nodup, ?_⟩
      rintro old oldIn new newIn rfl
      exact ((mem old).mp newIn).2 ((collects.found old).mpr (List.mem_append.mp oldIn))
    found := by
      intro other
      simp only [List.mem_append, collects.found other, List.mem_cons, List.not_mem_nil, or_false]
      tauto
    near := by
      intro other member
      rcases List.mem_append.mp member with old | last
      · have known := (collects.found other).mpr (.inl old)
        have kept : Worklist.relabel label fresh (label node + 1) other = label other :=
          if_neg fun isFresh => ((mem other).mp isFresh).2 known
        rw [kept]
        exact collects.near other old
      · rw [List.mem_singleton.mp last]
        have known := (collects.found node).mpr (.inr List.mem_cons_self)
        have kept : Worklist.relabel label fresh (label node + 1) node = label node :=
          if_neg fun isFresh => ((mem node).mp isFresh).2 known
        rw [kept]
        exact near }

theorem depthQueue_relabel {label : NodeRef → Nat} {rest fresh : List NodeRef} {depth : Nat}
    (old : ∀ node ∈ rest, node ∉ fresh) :
    depthQueue (Worklist.relabel label fresh (depth + 1)) (rest ++ fresh) =
      depthQueue label rest ++ fresh.map fun node => (node, UInt32.ofNat depth + 1) := by
  unfold depthQueue
  rw [List.map_append]
  congr 1
  · apply List.map_congr_left
    intro node member
    rw [Worklist.relabel, if_neg (old node member)]
  · apply List.map_congr_left
    intro node member
    rw [Worklist.relabel, if_pos member, UInt32.ofNat_add]
    rfl

/-- `GetNodesWithinDepth` ends with the nodes within the depth. -/
theorem Collects.run {nodes : Finset NodeRef}
    (closed : ∀ node ∈ nodes, ∀ next ∈ callees graph node, next ∈ nodes)
    (bounded : ∀ distance node, IsDistance (callees graph) entry distance node → distance < 2 ^ 32)
    {fuel : Nat} {label : NodeRef → Nat} {work : Worklist NodeRef} {result : List NodeRef}
    (collects : Collects graph entry maxDepth label work result)
    (inside : ∀ node ∈ work.pending, node ∈ nodes)
    (enough : work.pending.length + (nodes \ work.found.toFinset).card ≤ fuel) :
    ∃ within, withinDepthLoop graph maxDepth fuel (depthQueue label work.pending) work.found result =
      some within ∧ IsWithin graph entry maxDepth within := by
  induction fuel generalizing label work result with
  | zero =>
      rcases work with ⟨_ | ⟨node, rest⟩, found⟩
      · exact ⟨result, by rw [depthQueue, List.map_nil, withinDepthLoop], collects.isWithin⟩
      · exact absurd enough (by simp)
  | succ fuel inductionHypothesis =>
      rcases work with ⟨_ | ⟨node, rest⟩, found⟩
      · exact ⟨result, by rw [depthQueue, List.map_nil, withinDepthLoop], collects.isWithin⟩
      have small : ∀ other ∈ node :: rest, (UInt32.ofNat (label other)).toNat = label other := by
        intro other member
        exact UInt32.toNat_ofNat_of_lt' (bounded _ _ (collects.layered.exact other (.inl member)))
      by_cases far : maxDepth.toNat < label node
      · refine ⟨result, ?_, collects.isWithin_of_far far⟩
        apply withinDepthLoop_far
        · intro item member
          rcases List.mem_map.mp member with ⟨other, pending, rfl⟩
          have ordered : label node ≤ label other := by
            rcases List.mem_cons.mp pending with rfl | later
            · exact le_rfl
            · exact (List.pairwise_cons.mp collects.layered.sorted).1 other later
          rw [UInt32.lt_iff_toNat_lt, small other pending]
          omega
        · rw [depthQueue, List.length_map]
          exact le_trans (Nat.le_add_right _ _) enough
      · rw [depthQueue, List.map_cons, withinDepthLoop,
          if_neg (by rw [UInt32.lt_iff_toNat_lt, small node List.mem_cons_self]; exact far)]
        rcases Worklist.foldl_discover (callees graph node) ⟨[], found⟩ with
          ⟨fresh, nodup, mem, discovered⟩
        have queued := foldl_pushCallee (UInt32.ofNat (label node)) (callees graph node) ⟨[], found⟩
          (depthQueue label rest)
        rw [discovered, List.map_nil, List.append_nil, List.nil_append] at queued
        have old : ∀ other ∈ rest, other ∉ fresh := by
          intro other member isFresh
          exact ((mem other).mp isFresh).2
            ((collects.found other).mpr (.inr (List.mem_cons_of_mem node member)))
        have next := collects.expand (Nat.not_lt.mp far) nodup mem
        have nodeIn := inside node List.mem_cons_self
        have new : ∀ other ∈ fresh, other ∈ nodes ∧ other ∉ found := by
          intro other isFresh
          rcases (mem other).mp isFresh with ⟨isNext, unknown⟩
          exact ⟨closed node nodeIn other isNext, unknown⟩
        have fewer := Worklist.card_sdiff_append_le nodup new (List.Subset.refl found)
        have ends := inductionHypothesis next
          (by
            intro other member
            rcases List.mem_append.mp member with later | isFresh
            · exact inside other (List.mem_cons_of_mem node later)
            · exact (new other isFresh).1)
          (by
            dsimp only at enough ⊢
            rw [List.length_append]
            rw [List.length_cons] at enough
            omega)
        rw [depthQueue_relabel old] at ends
        rw [← depthQueue, queued]
        exact ends

theorem getNodesWithinDepth_eq_some (wellFormed : graph.WellFormed)
    (addressable : Addressable graph) (entryIn : entry ∈ graph.nodeRefs)
    (isMain : graph.getNode "main".toList = some entry) (maxDepth : UInt32) :
    ∃ within, getNodesWithinDepth graph maxDepth = some within ∧
      IsWithin graph entry maxDepth within := by
  have collects : Collects graph entry maxDepth (fun _ => 0) ⟨[entry], [entry]⟩ [] := collects_start
  rw [getNodesWithinDepth, isMain]
  refine collects.run (callees_closed wellFormed)
    (fun distance node => distance_lt wellFormed addressable entryIn) ?_ ?_
  · intro node member
    rw [List.mem_singleton.mp member]
    exact List.mem_toFinset.mpr entryIn
  · have fewer := Finset.card_le_card (Finset.sdiff_subset (s := graph.nodeRefs.toFinset)
      (t := [entry].toFinset))
    rw [card_nodeRefs_eq wellFormed] at fewer
    rw [iterations]
    dsimp only
    rw [List.length_singleton]
    omega

end Collection

section DepthComputation

variable {graph : CGGraph} {entry : NodeRef}

/-- Graphs that differ in the depths of their nodes only. -/
def SameButDepths (graph deepened : CGGraph) : Prop :=
  ∃ depth : NodeRef → UInt32, deepened = { graph with
    nodes := fun ref => { graph.nodes ref with depth := depth ref } }

theorem SameButDepths.refl (graph : CGGraph) : SameButDepths graph graph :=
  ⟨fun ref => (graph.nodes ref).depth, rfl⟩

theorem SameButDepths.trans {first second third : CGGraph} (one : SameButDepths first second)
    (two : SameButDepths second third) : SameButDepths first third := by
  rcases one with ⟨_, rfl⟩
  rcases two with ⟨depth, rfl⟩
  exact ⟨depth, rfl⟩

theorem SameButDepths.callees {deepened : CGGraph} (same : SameButDepths graph deepened) :
    callees deepened = callees graph := by
  rcases same with ⟨_, rfl⟩
  rfl

theorem sameButDepths_setDepth (graph : CGGraph) (ref : NodeRef) (depth : UInt32) :
    SameButDepths graph (setDepth graph ref depth) := by
  refine ⟨Function.update (fun ref => (graph.nodes ref).depth) ref depth, ?_⟩
  unfold setDepth CGGraph.setNode
  congr 1
  funext other
  by_cases same : other = ref
  · subst same
    simp
  · simp [same]

@[simp]
theorem setDepth_depth (graph : CGGraph) (ref other : NodeRef) (depth : UInt32) :
    ((setDepth graph ref depth).nodes other).depth =
      if other = ref then depth else (graph.nodes other).depth := by
  unfold setDepth CGGraph.setNode
  dsimp only
  by_cases same : other = ref
  · subst same
    simp
  · simp [same]

theorem foldl_visitCallee {node : NodeRef} (called : List NodeRef) (graph : CGGraph)
    {work : Worklist NodeRef} (marked : node ∈ work.found) :
    (called.foldl (visitCallee node) (graph, work)).2 = called.foldl Worklist.discover work ∧
      SameButDepths graph (called.foldl (visitCallee node) (graph, work)).1 ∧
      ∀ ref, ((called.foldl (visitCallee node) (graph, work)).1.nodes ref).depth =
        if ref ∈ called ∧ ref ∉ work.found then (graph.nodes node).depth + 1
        else (graph.nodes ref).depth := by
  induction called generalizing graph work with
  | nil => exact ⟨rfl, .refl graph, fun ref => by simp⟩
  | cons callee rest inductionHypothesis =>
      rw [List.foldl_cons, List.foldl_cons]
      by_cases old : callee ∈ work.found
      · rw [visitCallee, if_pos old, Worklist.discover, if_pos old]
        rcases inductionHypothesis graph marked with ⟨found, same, depths⟩
        refine ⟨found, same, fun ref => (depths ref).trans ?_⟩
        have known : ref ∈ callee :: rest ∧ ref ∉ work.found ↔ ref ∈ rest ∧ ref ∉ work.found := by
          rw [List.mem_cons]
          constructor
          · rintro ⟨rfl | later, unknown⟩
            · exact absurd old unknown
            · exact ⟨later, unknown⟩
          · rintro ⟨later, unknown⟩
            exact ⟨.inr later, unknown⟩
        simp only [known]
      · have apart : node ≠ callee := fun same => old (same ▸ marked)
        rw [visitCallee, if_neg old, Worklist.discover, if_neg old]
        have stillMarked : node ∈
            (Worklist.mk (work.pending ++ [callee]) (work.found ++ [callee])).found :=
          List.mem_append_left [callee] marked
        rcases inductionHypothesis (setDepth graph callee ((graph.nodes node).depth + 1))
          stillMarked with ⟨found, same, depths⟩
        refine ⟨found, (sameButDepths_setDepth graph callee _).trans same, ?_⟩
        intro ref
        rw [depths ref, setDepth_depth, setDepth_depth, if_neg apart]
        simp only [List.mem_append, List.mem_cons, List.not_mem_nil, or_false]
        by_cases isCallee : ref = callee
        · subst isCallee
          simp [old]
        · simp [isCallee]

def depthOf (graph : CGGraph) (ref : NodeRef) : Nat := (graph.nodes ref).depth.toNat

/-- The state of `ComputeNodeDepths` between two iterations: the depths are the
labels of the search, and `graphDepth` is the greatest of an expanded node. -/
structure Deepens (graph : CGGraph) (entry : NodeRef) (deepened : CGGraph)
    (work : Worklist NodeRef) (graphDepth : UInt32) : Prop where
  frame : SameButDepths graph deepened
  layered : Worklist.Layered (callees graph) entry (depthOf deepened) work
  untouched : ∀ ref, ¬ work.Seen ref → (deepened.nodes ref).depth = (graph.nodes ref).depth
  covers : ∀ ref ∈ work.found, ref ∉ work.pending → depthOf deepened ref ≤ graphDepth.toNat
  attained : ∃ ref, work.Seen ref ∧ depthOf deepened ref = graphDepth.toNat

theorem deepens_start (graph : CGGraph) (entry : NodeRef) :
    Deepens graph entry (setDepth graph entry 0) ⟨[entry], []⟩ 0 := by
  have zero : depthOf (setDepth graph entry 0) entry = 0 := by
    unfold depthOf
    rw [setDepth_depth, if_pos rfl]
    rfl
  exact {
    frame := sameButDepths_setDepth graph entry 0
    layered := Worklist.layered_start (fun node member => absurd member List.not_mem_nil) zero
    untouched := by
      intro ref unseen
      rw [setDepth_depth, if_neg]
      rintro rfl
      exact unseen (.inl List.mem_cons_self)
    covers := fun ref member => absurd member List.not_mem_nil
    attained := ⟨entry, .inl List.mem_cons_self, zero⟩ }

/-- One iteration of `ComputeNodeDepths`. -/
theorem Deepens.expand
    (bounded : ∀ distance node, IsDistance (callees graph) entry distance node → distance < 2 ^ 32)
    {deepened : CGGraph} {node : NodeRef} {rest found : List NodeRef} {graphDepth : UInt32}
    (deepens : Deepens graph entry deepened ⟨node :: rest, found⟩ graphDepth)
    {search : CGGraph × Worklist NodeRef}
    (searched : (callees graph node).foldl (visitCallee node)
      (deepened, ⟨rest, found.insert node⟩) = search) :
    search.2 = Worklist.expand (callees graph) node ⟨rest, found⟩ ∧
      Deepens graph entry search.1 search.2
        (if graphDepth < (deepened.nodes node).depth then (deepened.nodes node).depth
          else graphDepth) := by
  have marked : node ∈ (Worklist.mk rest (found.insert node)).found := List.mem_insert_self
  rcases foldl_visitCallee (callees graph node) deepened marked with ⟨expanded, same, depths⟩
  rcases Worklist.expand_eq (callees graph) node rest found with
    ⟨fresh, -, mem, result⟩
  rw [searched] at expanded same depths
  have work : search.2 = ⟨rest ++ fresh, found.insert node ++ fresh⟩ := expanded.trans result
  have layered := deepens.layered.expand mem
  -- a fresh node is at a distance, so that its depth does not wrap around
  have labels : depthOf search.1 =
      Worklist.relabel (depthOf deepened) fresh (depthOf deepened node + 1) := by
    funext ref
    unfold depthOf Worklist.relabel
    rw [depths ref]
    by_cases isFresh : ref ∈ fresh
    · have fits := bounded _ _ (deepens.layered.isDistance_fresh mem isFresh)
      rw [if_pos ((mem ref).mp isFresh), if_pos isFresh, UInt32.toNat_add]
      exact Nat.mod_eq_of_lt fits
    · rw [if_neg fun new => isFresh ((mem ref).mpr new), if_neg isFresh]
  rw [← labels] at layered
  have seenNew : ∀ ref, Worklist.Seen ⟨node :: rest, found⟩ ref →
      Worklist.Seen ⟨rest ++ fresh, found.insert node ++ fresh⟩ ref ∧ ref ∉ fresh :=
    fun ref seen =>
      ⟨Worklist.seen_expand_iff.mpr (.inl seen), deepens.layered.notMem_fresh mem seen⟩
  have kept : ∀ ref ∉ fresh, depthOf search.1 ref = depthOf deepened ref := by
    intro ref old
    rw [labels, Worklist.relabel, if_neg old]
  have grows : graphDepth.toNat ≤ (if graphDepth < (deepened.nodes node).depth then
      (deepened.nodes node).depth else graphDepth).toNat ∧
      depthOf deepened node ≤ (if graphDepth < (deepened.nodes node).depth then
        (deepened.nodes node).depth else graphDepth).toNat := by
    unfold depthOf
    split_ifs with deeper
    · exact ⟨le_of_lt (UInt32.lt_iff_toNat_lt.mp deeper), le_rfl⟩
    · exact ⟨le_rfl, Nat.not_lt.mp fun less => deeper (UInt32.lt_iff_toNat_lt.mpr less)⟩
  have seenNode : Worklist.Seen ⟨node :: rest, found⟩ node := .inl List.mem_cons_self
  refine ⟨expanded, ?_⟩
  rw [work]
  exact {
    frame := deepens.frame.trans same
    layered := layered
    untouched := by
      intro ref unseen
      have unseenOld : ¬ Worklist.Seen ⟨node :: rest, found⟩ ref :=
        fun seen => unseen (seenNew ref seen).1
      have old : ref ∉ fresh := fun isFresh => unseen (.inr (List.mem_append_right _ isFresh))
      rw [depths ref, if_neg fun new => old ((mem ref).mpr new)]
      exact deepens.untouched ref unseenOld
    covers := by
      intro ref member absent
      have old : ref ∉ fresh := fun isFresh => absent (List.mem_append_right rest isFresh)
      rw [kept ref old]
      rcases Worklist.expanded_cases member absent with isNode | ⟨before, notPending⟩
      · rw [isNode]
        exact grows.2
      · exact le_trans (deepens.covers ref before notPending) grows.1
    attained := by
      by_cases deeper : graphDepth < (deepened.nodes node).depth
      · refine ⟨node, (seenNew node seenNode).1, ?_⟩
        rw [if_pos deeper]
        exact kept node (seenNew node seenNode).2
      · rcases deepens.attained with ⟨ref, seen, equal⟩
        refine ⟨ref, (seenNew ref seen).1, ?_⟩
        rw [if_neg deeper, kept ref (seenNew ref seen).2]
        exact equal }

/-- What `ComputeNodeDepths` leaves in the graph and returns. -/
structure DepthsComputed (graph : CGGraph) (entry : NodeRef) (deepened : CGGraph)
    (graphDepth : UInt32) : Prop where
  frame : SameButDepths graph deepened
  reached : ∀ ref, Reaches (callees graph) entry ref →
    IsDistance (callees graph) entry (depthOf deepened ref) ref
  unreached : ∀ ref, ¬ Reaches (callees graph) entry ref →
    (deepened.nodes ref).depth = (graph.nodes ref).depth
  greatest : ∀ distance ref, IsDistance (callees graph) entry distance ref →
    distance ≤ graphDepth.toNat
  attained : ∃ ref, IsDistance (callees graph) entry graphDepth.toNat ref

/-- With nothing pending the depths are complete. -/
theorem Deepens.computed {deepened : CGGraph} {found : List NodeRef} {graphDepth : UInt32}
    (deepens : Deepens graph entry deepened ⟨[], found⟩ graphDepth) :
    DepthsComputed graph entry deepened graphDepth where
  frame := deepens.frame
  reached ref reaches := deepens.layered.exact ref (.inr (deepens.layered.mem_iff.mpr reaches))
  unreached ref unreached := by
    apply deepens.untouched
    rintro (pending | member)
    · exact List.not_mem_nil pending
    · exact unreached (deepens.layered.mem_iff.mp member)
  greatest distance ref isDistance := by
    have member := deepens.layered.mem_iff.mpr (reaches_iff_isDistance.mpr ⟨distance, isDistance⟩)
    rw [isDistance.unique (deepens.layered.exact ref (.inr member))]
    exact deepens.covers ref member List.not_mem_nil
  attained := by
    rcases deepens.attained with ⟨ref, seen, equal⟩
    refine ⟨ref, ?_⟩
    rw [← equal]
    exact deepens.layered.exact ref seen

theorem Deepens.run {nodes : Finset NodeRef}
    (closed : ∀ node ∈ nodes, ∀ next ∈ callees graph node, next ∈ nodes)
    (bounded : ∀ distance node, IsDistance (callees graph) entry distance node → distance < 2 ^ 32)
    {fuel : Nat} {deepened : CGGraph} {work : Worklist NodeRef} {graphDepth : UInt32}
    (deepens : Deepens graph entry deepened work graphDepth)
    (inside : ∀ node ∈ work.pending, node ∈ nodes)
    (enough : work.pending.length + (nodes \ work.found.toFinset).card ≤ fuel) :
    ∃ later maxDepth, nodeDepthsLoop fuel deepened work graphDepth = some (later, maxDepth) ∧
      DepthsComputed graph entry later maxDepth := by
  induction fuel generalizing deepened work graphDepth with
  | zero =>
      rcases work with ⟨_ | ⟨node, rest⟩, found⟩
      · exact ⟨deepened, graphDepth, by rw [nodeDepthsLoop], deepens.computed⟩
      · exact absurd enough (by simp)
  | succ fuel inductionHypothesis =>
      rcases work with ⟨_ | ⟨node, rest⟩, found⟩
      · exact ⟨deepened, graphDepth, by rw [nodeDepthsLoop], deepens.computed⟩
      · rw [nodeDepthsLoop, deepens.frame.callees]
        rcases deepens.expand bounded rfl with ⟨expanded, next⟩
        rcases Worklist.expand_decreases found closed inside with ⟨stays, fewer⟩
        rw [← expanded] at stays fewer
        refine inductionHypothesis next stays (le_trans fewer ?_)
        dsimp only at enough
        rw [List.length_cons] at enough
        omega

theorem computeNodeDepths_eq_some (wellFormed : graph.WellFormed) (addressable : Addressable graph)
    (entryIn : entry ∈ graph.nodeRefs) (isMain : graph.getNode "main".toList = some entry) :
    ∃ later maxDepth, computeNodeDepths graph = some (later, maxDepth) ∧
      DepthsComputed graph entry later maxDepth := by
  rw [computeNodeDepths, isMain]
  refine (deepens_start graph entry).run (callees_closed wellFormed)
    (fun distance node => distance_lt wellFormed addressable entryIn) ?_ ?_
  · intro node member
    rw [List.mem_singleton.mp member]
    exact List.mem_toFinset.mpr entryIn
  · dsimp only
    rw [iterations, List.toFinset_nil, Finset.sdiff_empty, card_nodeRefs_eq wellFormed,
      List.length_singleton, Nat.add_comm]

end DepthComputation

/-- The three traversals agree on reachability and depth. -/
theorem traversals_agree {graph : CGGraph} (wellFormed : graph.WellFormed) (named : graph.Named)
    (addressable : Addressable graph) {entry : NodeRef}
    (isMain : graph.getNode "main".toList = some entry) :
    ∃ later maxDepth reached,
      computeNodeDepths graph = some (later, maxDepth) ∧
      DepthsComputed graph entry later maxDepth ∧
      (∀ k, ∃ within, getNodesWithinDepth graph k = some within ∧ IsWithin graph entry k within) ∧
      reachableGraph graph = some reached ∧ reached.Nodup ∧
      (∀ ref, ref ∈ reached ↔ Reaches (callees graph) entry ref) ∧
      (∀ k within, maxDepth ≤ k → getNodesWithinDepth graph k = some within →
        ∀ ref, ref ∈ within ↔ ref ∈ reached) ∧
      ∀ marker : SubCgMarker, marker.wholeCg = graph → marker.getReachableGraph = some reached := by
  have entryIn := (named.of_getNode isMain).1
  rcases computeNodeDepths_eq_some wellFormed addressable entryIn isMain with
    ⟨later, maxDepth, computed, depths⟩
  rcases reachableGraph_eq_some wellFormed entryIn isMain with ⟨reached, traversed, nodup, mem⟩
  have collected := getNodesWithinDepth_eq_some wellFormed addressable entryIn isMain
  refine ⟨later, maxDepth, reached, computed, depths, collected, traversed, nodup, mem, ?_, ?_⟩
  · intro k within deep isWithin ref
    rcases collected k with ⟨found, result, -, near⟩
    cases isWithin.symm.trans result
    rw [near ref, mem ref, reaches_iff_isDistance]
    constructor
    · rintro ⟨distance, isDistance, -⟩
      exact ⟨distance, isDistance⟩
    · rintro ⟨distance, isDistance⟩
      exact ⟨distance, isDistance, le_trans (depths.greatest distance ref isDistance)
        (UInt32.le_iff_toNat_le.mp deep)⟩
  · rintro marker rfl
    rw [getReachableGraph_eq, traversed]

/-- `main` and a function call each other, and `main` itself; another function is
not called. -/
def recursiveGraph : CGGraph :=
  let (graph, main) := CGGraph.empty.addNode "main".toList
  let (graph, called) := graph.addNode "called".toList
  let (graph, _) := graph.addNode "dead".toList
  (((graph.addEdge main called).1.addEdge called main).1.addEdge main main).1

instance (graph : CGGraph) : Decidable (Addressable graph) :=
  inferInstanceAs (Decidable (∀ ref ∈ graph.nodeRefs, _))

theorem traversals_agree_recursiveGraph :
    recursiveGraph.WellFormed ∧ recursiveGraph.Named ∧ Addressable recursiveGraph ∧
      recursiveGraph.getNode "main".toList = some 0 ∧
      ∃ later maxDepth, computeNodeDepths recursiveGraph = some (later, maxDepth) ∧
        DepthsComputed recursiveGraph 0 later maxDepth := by
  have wellFormed : recursiveGraph.WellFormed := by decide +kernel
  have named : recursiveGraph.Named := by decide +kernel
  have addressable : Addressable recursiveGraph := by decide +kernel
  have isMain : recursiveGraph.getNode "main".toList = some 0 := by decide +kernel
  rcases traversals_agree wellFormed named addressable isMain with
    ⟨later, maxDepth, -, computed, depths, -⟩
  exact ⟨wellFormed, named, addressable, isMain, later, maxDepth, computed, depths⟩

end GraphDissect.Analysis
