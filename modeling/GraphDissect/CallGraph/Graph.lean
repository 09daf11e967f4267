import GraphDissect.Library.OrderedMap
import Mathlib

/-!
# The call graph

`CGGraph` with its nodes, edges and driver-id masks (`CallGraph.h`,
`GenericGraph.h`).  Nodes and edges live on a heap and refer to each other by
reference, as the pointers of the source do: an edge is shared by the out-set
of its source and the in-set of its destination.
-/

namespace GraphDissect.CallGraph

open Library

/-- A `CGNode*`. -/
abbrev NodeRef := Nat

/-- A `CGEdge*`. -/
abbrev EdgeRef := Nat

/-- A `boost::dynamic_bitset<>`, least significant bit first; bit `d - 1`
stands for driver `d`. -/
abbrev DriverIdMask := List Bool

/-- `resize` of the bitset: new bits are clear. -/
def resizeMask (mask : DriverIdMask) (size : Nat) : DriverIdMask :=
  mask.take size ++ List.replicate (size - mask.length) false

/-- Grow the mask when the driver is out of range and set its bit. -/
def setDriverIdMask (mask : DriverIdMask) (driverId : Nat) : DriverIdMask :=
  if driverId = 0 then mask
  else (if mask.length < driverId then resizeMask mask driverId else mask).set (driverId - 1) true

def hasDriverId (mask : DriverIdMask) (driverId : Nat) : Bool :=
  if driverId = 0 ∨ mask.length < driverId then false else mask[driverId - 1]?.getD false

theorem hasDriverId_eq {mask : DriverIdMask} {driverId : Nat} (positive : driverId ≠ 0) :
    hasDriverId mask driverId = mask[driverId - 1]?.getD false := by
  unfold hasDriverId
  split
  next outside =>
    have beyond := outside.resolve_left positive
    rw [List.getElem?_eq_none (by omega)]
    rfl
  next => rfl

@[simp]
theorem hasDriverId_zero (mask : DriverIdMask) : hasDriverId mask 0 = false := by
  simp [hasDriverId]

theorem getElem?_resizeMask {mask : DriverIdMask} {size : Nat} (grows : mask.length < size)
    (index : Nat) : (resizeMask mask size)[index]?.getD false = mask[index]?.getD false := by
  unfold resizeMask
  rw [List.take_of_length_le (Nat.le_of_lt grows)]
  by_cases inside : index < mask.length
  · rw [List.getElem?_append_left inside]
  · rw [List.getElem?_append_right (by omega), List.getElem?_replicate,
      List.getElem?_eq_none (Nat.le_of_not_lt inside)]
    split <;> rfl

theorem length_resizeMask (mask : DriverIdMask) (size : Nat) :
    (resizeMask mask size).length = size := by
  simp only [resizeMask, List.length_append, List.length_take, List.length_replicate]
  omega

/-- Setting a driver's bit adds that driver and no other. -/
theorem hasDriverId_setDriverIdMask (mask : DriverIdMask) (driverId other : Nat) :
    hasDriverId (setDriverIdMask mask driverId) other =
      (hasDriverId mask other || decide (driverId ≠ 0 ∧ other = driverId)) := by
  unfold setDriverIdMask
  by_cases zero : driverId = 0
  · simp [zero]
  · by_cases otherZero : other = 0
    · subst otherZero
      simp [Ne.symm zero]
    · rw [if_neg zero, hasDriverId_eq otherZero, hasDriverId_eq otherZero, List.getElem?_set]
      by_cases same : other = driverId
      · subst same
        rw [if_pos rfl, if_pos]
        · simp [zero]
        · split
          · rw [length_resizeMask]
            omega
          · omega
      · have apart : driverId - 1 ≠ other - 1 := by omega
        simp only [if_neg apart, same, and_false, decide_false, Bool.or_false]
        split
        next grows => exact getElem?_resizeMask grows (other - 1)
        next => rfl

inductive EdgeAttr where
  | cfg
  | cfgDmy
  | dd
  | call
  | ret
  deriving DecidableEq

/-- The value of an `EdgeAttr`. -/
def EdgeAttr.value : EdgeAttr → Nat
  | .cfg => 1
  | .cfgDmy => 2
  | .dd => 4
  | .call => 8
  | .ret => 16

structure CGEdge where
  src : NodeRef
  dst : NodeRef
  attr : EdgeAttr
  hitNum : UInt32
  keys : List UInt64
  driverIdMask : DriverIdMask

/-- `CGNode`; the edge sets hold references in the order they are walked. -/
structure CGNode where
  id : Nat
  funcName : List Char
  hitNum : UInt32
  depth : UInt32
  blockNum : UInt32
  key : UInt32
  driverIdMask : DriverIdMask
  inEdges : List EdgeRef
  outEdges : List EdgeRef

/-- `CGGraph`; references from `nodeAllocs` and `edgeAllocs` on are free. -/
structure CGGraph where
  nodes : NodeRef → CGNode
  edges : EdgeRef → CGEdge
  idToNode : OrderedMap Nat NodeRef
  fnameToNode : OrderedMap (List Char) NodeRef
  nodeNum : Nat
  edgeNum : Nat
  nodeAllocs : Nat
  edgeAllocs : Nat

/-- The `CGNode` constructor. -/
def CGNode.new (id : Nat) (funcName : List Char) : CGNode where
  id
  funcName
  hitNum := 0
  depth := 0
  blockNum := 0
  key := 0
  driverIdMask := []
  inEdges := []
  outEdges := []

/-- The `CGEdge` constructor. -/
def CGEdge.new (src dst : NodeRef) : CGEdge where
  src
  dst
  attr := .cfg
  hitNum := 0
  keys := []
  driverIdMask := []

namespace CGGraph

/-- The `CGGraph` constructor. -/
def empty : CGGraph where
  nodes _ := CGNode.new 0 []
  edges _ := CGEdge.new 0 0
  idToNode := OrderedMap.empty
  fnameToNode := OrderedMap.empty
  nodeNum := 0
  edgeNum := 0
  nodeAllocs := 0
  edgeAllocs := 0

def setNode (graph : CGGraph) (ref : NodeRef) (node : CGNode) : CGGraph :=
  { graph with nodes := Function.update graph.nodes ref node }

def setEdge (graph : CGGraph) (ref : EdgeRef) (edge : CGEdge) : CGGraph :=
  { graph with edges := Function.update graph.edges ref edge }

/-- The node of an id, `GetGNode`. -/
def getGNode (graph : CGGraph) (id : Nat) : Option NodeRef := graph.idToNode.find id

def getNode (graph : CGGraph) (funcName : List Char) : Option NodeRef :=
  graph.fnameToNode.find funcName

/-- The nodes in the order of `begin()` to `end()`. -/
def nodeRefs (graph : CGGraph) : List NodeRef := graph.idToNode.values

/-- The node of a function name, made when there is none. -/
def addNode (graph : CGGraph) (funcName : List Char) : CGGraph × NodeRef :=
  match graph.getNode funcName with
  | some ref => (graph, ref)
  | none =>
      let id := graph.nodeNum + 1
      let ref := graph.nodeAllocs
      ({ graph with
          nodes := Function.update graph.nodes ref (CGNode.new id funcName)
          fnameToNode := graph.fnameToNode.insert funcName ref
          idToNode := graph.idToNode.insert id ref
          nodeNum := graph.nodeNum + 1
          nodeAllocs := graph.nodeAllocs + 1 }, ref)

/-- The comparator `EqualGEdge` of the edge sets. -/
def edgeBefore (graph : CGGraph) (left right : CGEdge) : Prop :=
  if left.attr ≠ right.attr then left.attr.value < right.attr.value
  else if (graph.nodes left.src).id ≠ (graph.nodes right.src).id then
    (graph.nodes left.src).id < (graph.nodes right.src).id
  else (graph.nodes left.dst).id < (graph.nodes right.dst).id

instance (graph : CGGraph) (left right : CGEdge) : Decidable (graph.edgeBefore left right) := by
  unfold edgeBefore
  infer_instance

/-- Insert into an edge set; `none` when the set has an equivalent edge. -/
def insertEdge (graph : CGGraph) (ref : EdgeRef) : List EdgeRef → Option (List EdgeRef)
  | [] => some [ref]
  | other :: rest =>
      if graph.edgeBefore (graph.edges ref) (graph.edges other) then some (ref :: other :: rest)
      else if graph.edgeBefore (graph.edges other) (graph.edges ref) then
        (insertEdge graph ref rest).map (other :: ·)
      else none

def linkEdge (graph : CGGraph) (ref : EdgeRef) : CGGraph × Bool :=
  let dst := (graph.edges ref).dst
  match graph.insertEdge ref (graph.nodes dst).inEdges with
  | none => (graph, false)
  | some inEdges =>
      let graph := graph.setNode dst { graph.nodes dst with inEdges }
      let src := (graph.edges ref).src
      match graph.insertEdge ref (graph.nodes src).outEdges with
      | none => ({ graph with edgeNum := graph.edgeNum + 1 }, true)
      | some outEdges =>
          let graph := graph.setNode src { graph.nodes src with outEdges }
          ({ graph with edgeNum := graph.edgeNum + 1 }, true)

/-- Make an edge and link it; an edge that is already there is left alone. -/
def addEdge (graph : CGGraph) (src dst : NodeRef) : CGGraph × Bool :=
  let ref := graph.edgeAllocs
  linkEdge
    { graph with
      edges := Function.update graph.edges ref (CGEdge.new src dst)
      edgeAllocs := graph.edgeAllocs + 1 } ref

/-- The two edge sets of an edge agree, and the id map knows its nodes. -/
structure WellFormed (graph : CGGraph) : Prop where
  ids : ∀ entry ∈ graph.idToNode.entries, (graph.nodes entry.2).id = entry.1 ∧ entry.1 ≠ 0
  outgoing : ∀ ref ∈ graph.nodeRefs, ∀ edge ∈ (graph.nodes ref).outEdges,
    (graph.edges edge).src = ref ∧ (graph.edges edge).dst ∈ graph.nodeRefs ∧
      edge ∈ (graph.nodes (graph.edges edge).dst).inEdges
  incoming : ∀ ref ∈ graph.nodeRefs, ∀ edge ∈ (graph.nodes ref).inEdges,
    (graph.edges edge).dst = ref ∧ (graph.edges edge).src ∈ graph.nodeRefs ∧
      edge ∈ (graph.nodes (graph.edges edge).src).outEdges

instance (graph : CGGraph) : Decidable graph.WellFormed :=
  decidable_of_iff
    ((∀ entry ∈ graph.idToNode.entries, (graph.nodes entry.2).id = entry.1 ∧ entry.1 ≠ 0) ∧
      (∀ ref ∈ graph.nodeRefs, ∀ edge ∈ (graph.nodes ref).outEdges,
        (graph.edges edge).src = ref ∧ (graph.edges edge).dst ∈ graph.nodeRefs ∧
          edge ∈ (graph.nodes (graph.edges edge).dst).inEdges) ∧
      ∀ ref ∈ graph.nodeRefs, ∀ edge ∈ (graph.nodes ref).inEdges,
        (graph.edges edge).dst = ref ∧ (graph.edges edge).src ∈ graph.nodeRefs ∧
          edge ∈ (graph.nodes (graph.edges edge).src).outEdges)
    ⟨fun ⟨ids, outgoing, incoming⟩ => ⟨ids, outgoing, incoming⟩,
      fun ⟨ids, outgoing, incoming⟩ => ⟨ids, outgoing, incoming⟩⟩

theorem mem_nodeRefs {graph : CGGraph} {ref : NodeRef} :
    ref ∈ graph.nodeRefs ↔ ∃ id, graph.getGNode id = some ref :=
  OrderedMap.mem_values

theorem WellFormed.getGNode_id {graph : CGGraph} (wellFormed : graph.WellFormed) {ref : NodeRef}
    (member : ref ∈ graph.nodeRefs) :
    graph.getGNode (graph.nodes ref).id = some ref ∧ (graph.nodes ref).id ≠ 0 := by
  rcases mem_nodeRefs.mp member with ⟨id, found⟩
  rcases wellFormed.ids (id, ref) (OrderedMap.find_eq_some_iff.mp found) with ⟨same, positive⟩
  rw [same]
  exact ⟨found, positive⟩

/-- Well-formedness is about ids and edge sets only. -/
theorem WellFormed.of_nodes {graph : CGGraph} (wellFormed : graph.WellFormed)
    {nodes : NodeRef → CGNode}
    (same : ∀ ref, (nodes ref).id = (graph.nodes ref).id ∧
      (nodes ref).inEdges = (graph.nodes ref).inEdges ∧
      (nodes ref).outEdges = (graph.nodes ref).outEdges) :
    { graph with nodes }.WellFormed where
  ids := by
    intro entry member
    rw [(same entry.2).1]
    exact wellFormed.ids entry member
  outgoing := by
    intro ref member edge out
    rw [(same ref).2.2] at out
    rw [(same _).2.1]
    exact wellFormed.outgoing ref member edge out
  incoming := by
    intro ref member edge into
    rw [(same ref).2.1] at into
    rw [(same _).2.2]
    exact wellFormed.incoming ref member edge into

/-- Of an edge, well-formedness reads the two ends only. -/
theorem WellFormed.of_edges {graph : CGGraph} (wellFormed : graph.WellFormed)
    {edges : EdgeRef → CGEdge}
    (same : ∀ ref, (edges ref).src = (graph.edges ref).src ∧
      (edges ref).dst = (graph.edges ref).dst) :
    { graph with edges }.WellFormed where
  ids := wellFormed.ids
  outgoing := by
    intro ref member edge out
    dsimp only
    rw [(same edge).1, (same edge).2]
    exact wellFormed.outgoing ref member edge out
  incoming := by
    intro ref member edge into
    dsimp only
    rw [(same edge).1, (same edge).2]
    exact wellFormed.incoming ref member edge into

theorem WellFormed.nodup_nodeRefs {graph : CGGraph} (wellFormed : graph.WellFormed) :
    graph.nodeRefs.Nodup := by
  apply List.Nodup.map_on
  · intro first firstIn second secondIn same
    have firstId := (wellFormed.ids first firstIn).1
    have secondId := (wellFormed.ids second secondIn).1
    rw [same] at firstId
    exact Prod.ext (firstId.symm.trans secondId) same
  · exact graph.idToNode.sorted.imp fun before same => absurd before (by simp [same])

/-- The name map and the id map hold the same nodes, each under its own name. -/
structure Named (graph : CGGraph) : Prop where
  entries : ∀ entry ∈ graph.fnameToNode.entries,
    entry.2 ∈ graph.nodeRefs ∧ (graph.nodes entry.2).funcName = entry.1
  listed : ∀ ref ∈ graph.nodeRefs, graph.getNode (graph.nodes ref).funcName = some ref

instance (graph : CGGraph) : Decidable graph.Named :=
  decidable_of_iff
    ((∀ entry ∈ graph.fnameToNode.entries,
      entry.2 ∈ graph.nodeRefs ∧ (graph.nodes entry.2).funcName = entry.1) ∧
      ∀ ref ∈ graph.nodeRefs, graph.getNode (graph.nodes ref).funcName = some ref)
    ⟨fun ⟨entries, listed⟩ => ⟨entries, listed⟩, fun ⟨entries, listed⟩ => ⟨entries, listed⟩⟩

theorem Named.of_getNode {graph : CGGraph} (named : graph.Named) {funcName : List Char}
    {ref : NodeRef} (found : graph.getNode funcName = some ref) :
    ref ∈ graph.nodeRefs ∧ (graph.nodes ref).funcName = funcName :=
  named.entries (funcName, ref) (OrderedMap.find_eq_some_iff.mp found)

end CGGraph

end GraphDissect.CallGraph
