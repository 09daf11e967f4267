import GraphDissect.CallGraph.Loaded
import GraphDissect.CallGraph.DotLines
import GraphDissect.Library.Worklist

/-!
# Driver subgraphs

The module `sgmarker`, from which the analyses take driver subgraphs, coverage
and the part of the call graph that `main` reaches.  A `set<CGNode*>` is walked
in the order of its addresses; its readers make sets of what they get, and the
lists here are in the order of the ids or of discovery.
-/

namespace GraphDissect.Analysis

open CallGraph Library

/-- `SubCgMarker` with the graph it has loaded. -/
structure SubCgMarker where
  wholeCg : CGGraph
  loaded : Loaded wholeCg

namespace SubCgMarker

/-- The constructor: the graph is read from the text of
`final_marked_callgraph.dot` and must have a node. -/
def init (isLibFunc : List Char → Bool) (text : List Char) : Option SubCgMarker :=
  match parsed : dot2Graph isLibFunc text with
  | none => none
  | some wholeCg =>
      if wholeCg.nodeNum = 0 then none else some ⟨wholeCg, dot2Graph_loaded parsed⟩

/-- `count` of a mask. -/
def maskCount (mask : DriverIdMask) : Nat := mask.count true

/-- `(src_id, dst_id)`. -/
def edgeTuple (marker : SubCgMarker) (edge : EdgeRef) : Nat × Nat :=
  ((marker.wholeCg.nodes (marker.wholeCg.edges edge).src).id,
    (marker.wholeCg.nodes (marker.wholeCg.edges edge).dst).id)

/-- The node ids and the edge tuples of a set of nodes. -/
def asLists (marker : SubCgMarker) (nodes : List NodeRef) : List Nat × List (Nat × Nat) :=
  (nodes.map fun ref => (marker.wholeCg.nodes ref).id,
    nodes.flatMap fun ref => (marker.wholeCg.nodes ref).outEdges.map marker.edgeTuple)

/-- `CgMarker::getDriverGraph`. -/
def driverNodes (marker : SubCgMarker) (driverId : Nat) : List NodeRef :=
  marker.wholeCg.nodeRefs.filter fun ref =>
    hasDriverId (marker.wholeCg.nodes ref).driverIdMask driverId

def getDriverGraph (marker : SubCgMarker) (driverId : Nat) : List Nat × List (Nat × Nat) :=
  marker.asLists (marker.driverNodes driverId)

/-- The body of the loop of `getGraphCov`.  The inner loop asks the mask of the
node again. -/
def covNode (marker : SubCgMarker) (cov : Nat × Nat) (ref : NodeRef) : Nat × Nat :=
  let node := marker.wholeCg.nodes ref
  let covNodes := if 0 < maskCount node.driverIdMask then cov.1 + 1 else cov.1
  let covEdges := node.outEdges.foldl
    (fun covEdges _ => if 0 < maskCount node.driverIdMask then covEdges + 1 else covEdges) cov.2
  (covNodes, covEdges)

/-- `getGraphCov`: `covNodes` and `covEdges`. -/
def getGraphCov (marker : SubCgMarker) : Nat × Nat :=
  marker.wholeCg.nodeRefs.foldl marker.covNode (0, 0)

def callees (marker : SubCgMarker) (ref : NodeRef) : List NodeRef :=
  (marker.wholeCg.nodes ref).outEdges.map fun edge => (marker.wholeCg.edges edge).dst

/-- `getReachableGraph`; `none` when the assertion on `main` fails. -/
def getReachableGraph (marker : SubCgMarker) : Option (List NodeRef) :=
  (marker.wholeCg.getNode "main".toList).bind fun entry =>
    Worklist.run marker.callees (marker.wholeCg.nodeRefs.length + 1) ⟨[entry], []⟩

def getWholeGraph (marker : SubCgMarker) : Option (List Nat × List (Nat × Nat)) :=
  marker.getReachableGraph.map marker.asLists

def edgeSet (marker : SubCgMarker) : Finset EdgeRef :=
  (marker.wholeCg.nodeRefs.flatMap fun ref => (marker.wholeCg.nodes ref).outEdges).toFinset

/-- The mask of the function from which an edge leaves. -/
def sourceMask (marker : SubCgMarker) (edge : EdgeRef) : DriverIdMask :=
  (marker.wholeCg.nodes (marker.wholeCg.edges edge).src).driverIdMask

def edgeMask (marker : SubCgMarker) (edge : EdgeRef) : DriverIdMask :=
  (marker.wholeCg.edges edge).driverIdMask

/-- The edge list of a driver is the set of the edges recorded for it. -/
def ListsRecorded (marker : SubCgMarker) (driverId : Nat) : Prop :=
  (marker.getDriverGraph driverId).2.Nodup ∧
    ∀ tuple, tuple ∈ (marker.getDriverGraph driverId).2 ↔
      ∃ edge ∈ marker.edgeSet, hasDriverId (marker.edgeMask edge) driverId ∧
        marker.edgeTuple edge = tuple

/-- The edge coverage is the number of the edges recorded for some driver. -/
def CountsRecorded (marker : SubCgMarker) : Prop :=
  marker.getGraphCov.2 = (marker.edgeSet.filter fun edge => 0 < maskCount (marker.edgeMask edge)).card

/-- An edge is recorded for a driver just when its source is. -/
def Agrees (marker : SubCgMarker) (driverId : Nat) : Prop :=
  ∀ edge ∈ marker.edgeSet,
    hasDriverId (marker.sourceMask edge) driverId = hasDriverId (marker.edgeMask edge) driverId

/-- As many unrecorded edges leave recorded functions as recorded edges leave
unrecorded functions. -/
def Balanced (marker : SubCgMarker) : Prop :=
  (marker.edgeSet.filter fun edge =>
      0 < maskCount (marker.sourceMask edge) ∧ maskCount (marker.edgeMask edge) = 0).card =
    (marker.edgeSet.filter fun edge =>
      maskCount (marker.sourceMask edge) = 0 ∧ 0 < maskCount (marker.edgeMask edge)).card

instance (marker : SubCgMarker) (driverId : Nat) : Decidable (marker.Agrees driverId) :=
  inferInstanceAs (Decidable (∀ edge ∈ marker.edgeSet,
    hasDriverId (marker.sourceMask edge) driverId = hasDriverId (marker.edgeMask edge) driverId))

instance (marker : SubCgMarker) : Decidable marker.CountsRecorded :=
  inferInstanceAs (Decidable (_ = _))

section Lists

variable (marker : SubCgMarker)

theorem mem_edgeSet {edge : EdgeRef} :
    edge ∈ marker.edgeSet ↔ (marker.wholeCg.edges edge).src < marker.wholeCg.nodeAllocs ∧
      edge ∈ (marker.wholeCg.nodes (marker.wholeCg.edges edge).src).outEdges := by
  rw [edgeSet, List.mem_toFinset, List.mem_flatMap]
  constructor
  · rintro ⟨ref, refIn, out⟩
    have inside := marker.loaded.mem_nodeRefs.mp refIn
    have src := (marker.loaded.outgoing ref inside edge out).1
    rw [src]
    exact ⟨inside, out⟩
  · rintro ⟨inside, out⟩
    exact ⟨_, marker.loaded.mem_nodeRefs.mpr inside, out⟩

theorem id_injective {first second : NodeRef} (firstIn : first < marker.wholeCg.nodeAllocs)
    (secondIn : second < marker.wholeCg.nodeAllocs)
    (same : (marker.wholeCg.nodes first).id = (marker.wholeCg.nodes second).id) : first = second := by
  rw [marker.loaded.id first firstIn, marker.loaded.id second secondIn] at same
  exact Nat.succ.inj same

theorem edgeTuple_injective {first second : EdgeRef} (firstIn : first ∈ marker.edgeSet)
    (secondIn : second ∈ marker.edgeSet) (same : marker.edgeTuple first = marker.edgeTuple second) :
    first = second := by
  rcases marker.mem_edgeSet.mp firstIn with ⟨firstSrc, firstOut⟩
  rcases marker.mem_edgeSet.mp secondIn with ⟨secondSrc, secondOut⟩
  have sameSrc := marker.id_injective firstSrc secondSrc (congrArg Prod.fst same)
  have firstDst := (marker.loaded.outgoing _ firstSrc first firstOut).2.1
  have secondDst := (marker.loaded.outgoing _ secondSrc second secondOut).2.1
  have sameDst := marker.id_injective firstDst secondDst (congrArg Prod.snd same)
  rw [← sameSrc] at secondOut
  exact marker.loaded.edge_unique firstSrc firstOut secondOut sameDst

theorem mem_asLists_edges {nodes : List NodeRef} (inside : ∀ ref ∈ nodes, ref < marker.wholeCg.nodeAllocs)
    {tuple : Nat × Nat} : tuple ∈ (marker.asLists nodes).2 ↔
      ∃ edge ∈ marker.edgeSet, (marker.wholeCg.edges edge).src ∈ nodes ∧
        marker.edgeTuple edge = tuple := by
  rw [asLists, List.mem_flatMap]
  constructor
  · rintro ⟨ref, refIn, listed⟩
    rcases List.mem_map.mp listed with ⟨edge, out, isTuple⟩
    have src := (marker.loaded.outgoing ref (inside ref refIn) edge out).1
    refine ⟨edge, marker.mem_edgeSet.mpr ?_, ?_, isTuple⟩
    · rw [src]
      exact ⟨inside ref refIn, out⟩
    · rwa [src]
  · rintro ⟨edge, edgeIn, srcIn, isTuple⟩
    exact ⟨_, srcIn, List.mem_map.mpr ⟨edge, (marker.mem_edgeSet.mp edgeIn).2, isTuple⟩⟩

theorem nodup_asLists_edges {nodes : List NodeRef} (nodup : nodes.Nodup)
    (inside : ∀ ref ∈ nodes, ref < marker.wholeCg.nodeAllocs) : (marker.asLists nodes).2.Nodup := by
  have edgeIn : ∀ ref ∈ nodes, ∀ edge ∈ (marker.wholeCg.nodes ref).outEdges,
      (marker.wholeCg.edges edge).src = ref ∧ edge ∈ marker.edgeSet := by
    intro ref refIn edge out
    have src := (marker.loaded.outgoing ref (inside ref refIn) edge out).1
    refine ⟨src, marker.mem_edgeSet.mpr ?_⟩
    rw [src]
    exact ⟨inside ref refIn, out⟩
  rw [asLists, List.nodup_flatMap]
  constructor
  · intro ref refIn
    apply (marker.loaded.nodup_outEdges (inside ref refIn)).map_on
    intro first firstOut second secondOut same
    exact marker.edgeTuple_injective (edgeIn ref refIn first firstOut).2
      (edgeIn ref refIn second secondOut).2 same
  · apply nodup.imp_of_mem
    intro first second firstIn secondIn different tuple firstHas secondHas
    rcases List.mem_map.mp firstHas with ⟨edge, edgeOut, isTuple⟩
    rcases List.mem_map.mp secondHas with ⟨other, otherOut, isOther⟩
    rcases edgeIn first firstIn edge edgeOut with ⟨src, member⟩
    rcases edgeIn second secondIn other otherOut with ⟨otherSrc, otherMember⟩
    have same := marker.edgeTuple_injective member otherMember (isTuple.trans isOther.symm)
    exact different (by rw [← src, ← otherSrc, same])

end Lists

section Reachable

variable (marker : SubCgMarker)

theorem callees_inside {ref callee : NodeRef} (inside : ref < marker.wholeCg.nodeAllocs)
    (called : callee ∈ marker.callees ref) : callee < marker.wholeCg.nodeAllocs := by
  rcases List.mem_map.mp called with ⟨edge, out, rfl⟩
  exact (marker.loaded.outgoing ref inside edge out).2.1

theorem lt_of_reaches {entry ref : NodeRef} (inside : entry < marker.wholeCg.nodeAllocs)
    (reaches : Reaches marker.callees entry ref) : ref < marker.wholeCg.nodeAllocs := by
  induction reaches with
  | refl => exact inside
  | tail _ called inductionHypothesis => exact marker.callees_inside inductionHypothesis called

/-- `getReachableGraph` returns the functions that `main` reaches. -/
theorem getReachableGraph_eq_some {entry : NodeRef}
    (isMain : marker.wholeCg.getNode "main".toList = some entry) :
    ∃ found, marker.getReachableGraph = some found ∧ found.Nodup ∧
      ∀ ref, ref ∈ found ↔ Reaches marker.callees entry ref := by
  have closed : ∀ ref ∈ Finset.range marker.wholeCg.nodeAllocs, ∀ callee ∈ marker.callees ref,
      callee ∈ Finset.range marker.wholeCg.nodeAllocs := by
    intro ref inside callee called
    rw [Finset.mem_range] at inside ⊢
    exact marker.callees_inside inside called
  have explored := Worklist.run_eq_some closed
    (Finset.mem_range.mpr (marker.loaded.lt_of_getNode isMain))
  have size : marker.wholeCg.nodeRefs.length = marker.wholeCg.nodeAllocs := by
    rw [marker.loaded.nodeRefs_eq, List.length_range]
  rw [Finset.card_range, ← size] at explored
  rw [getReachableGraph, isMain]
  exact explored

end Reachable

section Recorded

variable (marker : SubCgMarker)

theorem mem_driverNodes {driverId : Nat} {ref : NodeRef} :
    ref ∈ marker.driverNodes driverId ↔ ref < marker.wholeCg.nodeAllocs ∧
      hasDriverId (marker.wholeCg.nodes ref).driverIdMask driverId := by
  rw [driverNodes, List.mem_filter, marker.loaded.mem_nodeRefs]

theorem nodup_nodeRefs : marker.wholeCg.nodeRefs.Nodup := by
  rw [marker.loaded.nodeRefs_eq]
  exact List.nodup_range

theorem mem_getDriverGraph_edges {driverId : Nat} {tuple : Nat × Nat} :
    tuple ∈ (marker.getDriverGraph driverId).2 ↔
      ∃ edge ∈ marker.edgeSet, hasDriverId (marker.sourceMask edge) driverId ∧
        marker.edgeTuple edge = tuple := by
  rw [getDriverGraph, marker.mem_asLists_edges fun ref member => (marker.mem_driverNodes.mp member).1]
  apply exists_congr
  intro edge
  refine and_congr_right fun edgeIn => and_congr_left fun _ => ?_
  rw [marker.mem_driverNodes]
  exact and_iff_right (marker.mem_edgeSet.mp edgeIn).1

theorem listsRecorded_iff (driverId : Nat) :
    marker.ListsRecorded driverId ↔ marker.Agrees driverId := by
  constructor
  · rintro ⟨-, exact⟩ edge edgeIn
    have listed := (exact (marker.edgeTuple edge)).symm.trans marker.mem_getDriverGraph_edges
    rw [Bool.eq_iff_iff]
    constructor
    · intro source
      rcases listed.mpr ⟨edge, edgeIn, source, rfl⟩ with ⟨other, otherIn, recorded, same⟩
      rwa [← marker.edgeTuple_injective otherIn edgeIn same]
    · intro recorded
      rcases listed.mp ⟨edge, edgeIn, recorded, rfl⟩ with ⟨other, otherIn, source, same⟩
      rwa [← marker.edgeTuple_injective otherIn edgeIn same]
  · intro agrees
    constructor
    · exact marker.nodup_asLists_edges (marker.nodup_nodeRefs.filter _)
        fun ref member => (marker.mem_driverNodes.mp member).1
    · intro tuple
      rw [marker.mem_getDriverGraph_edges]
      apply exists_congr
      intro edge
      exact and_congr_right fun edgeIn => by rw [agrees edge edgeIn]

theorem covNode_edges (cov : Nat × Nat) (ref : NodeRef) :
    (marker.covNode cov ref).2 = cov.2 +
      if 0 < maskCount (marker.wholeCg.nodes ref).driverIdMask then
        (marker.wholeCg.nodes ref).outEdges.length else 0 := by
  unfold covNode
  dsimp only
  split
  · generalize (marker.wholeCg.nodes ref).outEdges = edges
    generalize cov.2 = count
    induction edges generalizing count with
    | nil => rfl
    | cons edge rest inductionHypothesis =>
        rw [List.foldl_cons, inductionHypothesis, List.length_cons]
        omega
  · exact List.foldl_fixed _

theorem foldl_covNode_edges (refs : List NodeRef) (cov : Nat × Nat) :
    (refs.foldl marker.covNode cov).2 =
      cov.2 + (refs.map fun ref => if 0 < maskCount (marker.wholeCg.nodes ref).driverIdMask then
        (marker.wholeCg.nodes ref).outEdges.length else 0).sum := by
  induction refs generalizing cov with
  | nil => rfl
  | cons ref rest inductionHypothesis =>
      rw [List.foldl_cons, inductionHypothesis, covNode_edges, List.map_cons, List.sum_cons,
        Nat.add_assoc]

theorem card_filter_edgeSet (holds : EdgeRef → Prop) [DecidablePred holds] :
    (marker.edgeSet.filter holds).card = (marker.wholeCg.nodeRefs.map fun ref =>
      (marker.wholeCg.nodes ref).outEdges.countP fun edge => holds edge).sum := by
  have inside : ∀ ref ∈ marker.wholeCg.nodeRefs, ref < marker.wholeCg.nodeAllocs :=
    fun ref => marker.loaded.mem_nodeRefs.mp
  have tuples := marker.nodup_asLists_edges marker.nodup_nodeRefs inside
  rw [asLists, ← List.map_flatMap] at tuples
  have listed : marker.edgeSet.filter holds = ((marker.wholeCg.nodeRefs.flatMap fun ref =>
      (marker.wholeCg.nodes ref).outEdges).filter fun edge => holds edge).toFinset := by
    rw [List.toFinset_filter, edgeSet]
    simp
  rw [listed, List.toFinset_card_of_nodup ((tuples.of_map _).filter _),
    ← List.countP_eq_length_filter, List.countP_flatMap]
  rfl

/-- `covEdges` counts the edges whose source is recorded. -/
theorem getGraphCov_edges : marker.getGraphCov.2 =
    (marker.edgeSet.filter fun edge => 0 < maskCount (marker.sourceMask edge)).card := by
  rw [getGraphCov, foldl_covNode_edges, card_filter_edgeSet, Nat.zero_add]
  apply congrArg
  apply List.map_congr_left
  intro ref refIn
  have inside := marker.loaded.mem_nodeRefs.mp refIn
  have same : ∀ edge ∈ (marker.wholeCg.nodes ref).outEdges,
      marker.sourceMask edge = (marker.wholeCg.nodes ref).driverIdMask := by
    intro edge out
    rw [sourceMask, (marker.loaded.outgoing ref inside edge out).1]
  split
  next covered =>
    symm
    rw [List.countP_eq_length]
    intro edge out
    rw [same edge out]
    simpa using covered
  next uncovered =>
    symm
    rw [List.countP_eq_zero]
    intro edge out
    rw [same edge out]
    simpa using uncovered

theorem countsRecorded_iff : marker.CountsRecorded ↔ marker.Balanced := by
  have onlySource : (marker.edgeSet.filter fun edge =>
      0 < maskCount (marker.sourceMask edge) ∧ maskCount (marker.edgeMask edge) = 0) =
        (marker.edgeSet.filter fun edge => 0 < maskCount (marker.sourceMask edge)) \
          marker.edgeSet.filter fun edge => 0 < maskCount (marker.edgeMask edge) := by
    ext edge
    simp only [Finset.mem_filter, Finset.mem_sdiff]
    grind
  have onlyEdge : (marker.edgeSet.filter fun edge =>
      maskCount (marker.sourceMask edge) = 0 ∧ 0 < maskCount (marker.edgeMask edge)) =
        (marker.edgeSet.filter fun edge => 0 < maskCount (marker.edgeMask edge)) \
          marker.edgeSet.filter fun edge => 0 < maskCount (marker.sourceMask edge) := by
    ext edge
    simp only [Finset.mem_filter, Finset.mem_sdiff]
    grind
  rw [CountsRecorded, Balanced, getGraphCov_edges, onlySource, onlyEdge,
    Finset.card_sdiff_eq_card_sdiff_iff]

theorem maskCount_pos_iff {mask : DriverIdMask} :
    0 < maskCount mask ↔ ∃ driverId, hasDriverId mask driverId = true := by
  rw [maskCount, List.count_pos_iff]
  constructor
  · intro member
    rcases List.mem_iff_getElem?.mp member with ⟨index, listed⟩
    refine ⟨index + 1, ?_⟩
    rw [hasDriverId_eq index.succ_ne_zero, Nat.succ_sub_one, listed]
    rfl
  · rintro ⟨driverId, isSet⟩
    have positive : driverId ≠ 0 := by
      rintro rfl
      rw [hasDriverId_zero] at isSet
      cases isSet
    rw [hasDriverId_eq positive] at isSet
    cases listed : mask[driverId - 1]? with
    | none => simp [listed] at isSet
    | some bit =>
        rw [listed] at isSet
        rw [← (isSet : bit = true)]
        exact List.mem_of_getElem? listed

theorem balanced_of_agrees (agrees : ∀ driverId, marker.Agrees driverId) : marker.Balanced := by
  have same : ∀ edge ∈ marker.edgeSet,
      (0 < maskCount (marker.sourceMask edge) ↔ 0 < maskCount (marker.edgeMask edge)) := by
    intro edge edgeIn
    rw [maskCount_pos_iff, maskCount_pos_iff]
    exact exists_congr fun driverId => by rw [agrees driverId edge edgeIn]
  unfold Balanced
  rw [Finset.filter_false_of_mem, Finset.filter_false_of_mem]
  · rintro edge edgeIn ⟨none, some⟩
    have covered := (same edge edgeIn).mpr some
    omega
  · rintro edge edgeIn ⟨some, none⟩
    have recorded := (same edge edgeIn).mp some
    omega

/-- The edge list of a driver and the edge coverage are right when edges and
their sources are recorded together. -/
theorem driverGraph_recorded_iff (marker : SubCgMarker) (driverId : Nat) :
    (marker.ListsRecorded driverId ∧ marker.CountsRecorded ↔
      marker.Agrees driverId ∧ marker.Balanced) ∧
    ((∀ other, marker.ListsRecorded other) ∧ marker.CountsRecorded ↔
      ∀ other, marker.Agrees other) := by
  constructor
  · rw [marker.listsRecorded_iff, marker.countsRecorded_iff]
  · rw [marker.countsRecorded_iff]
    constructor
    · rintro ⟨lists, -⟩ other
      exact (marker.listsRecorded_iff other).mp (lists other)
    · intro agrees
      exact ⟨fun other => (marker.listsRecorded_iff other).mpr (agrees other),
        marker.balanced_of_agrees agrees⟩

/-- Driver 1 ran `main`, and no run called `parse`. -/
def uncalledText : List Char :=
  let nodes := (CGGraph.empty.addRecord ⟨"main".toList, [true], 3, 0x401000, 5⟩).addRecord
    ⟨"parse".toList, [], 2, 0x402000, 0⟩
  markedViz.witeGraph (nodes.addMaskedEdge 0 1 [])

/-- The edge to `parse` is in the subgraph of driver 1 and in the coverage. -/
theorem uncalled_listed :
    ∃ marker, init (fun _ => false) uncalledText = some marker ∧
      marker.getDriverGraph 1 = ([1], [(1, 2)]) ∧ marker.getGraphCov = (1, 1) ∧
      ¬ marker.ListsRecorded 1 ∧ ¬ marker.CountsRecorded := by
  have loaded : (init (fun _ => false) uncalledText).any (fun marker =>
      marker.getDriverGraph 1 = ([1], [(1, 2)]) ∧ marker.getGraphCov = (1, 1) ∧
        ¬ marker.Agrees 1 ∧ ¬ marker.CountsRecorded) = true := by decide +kernel
  rcases (Option.any_eq_true _ _).mp loaded with ⟨marker, isMarker, facts⟩
  rcases of_decide_eq_true facts with ⟨graph, cov, disagrees, miscounts⟩
  refine ⟨marker, isMarker, graph, cov, ?_, miscounts⟩
  rwa [listsRecorded_iff]

end Recorded

end SubCgMarker

end GraphDissect.Analysis
