import GraphDissect.CallGraph.Graph
import GraphDissect.Library.CString

/-!
# Writing a marked call graph

`GraphViz.h` with the labels of `CGViz` (`CallGraph.h`).  `fprintf` takes each
line as a C string.
-/

namespace GraphDissect.CallGraph

open Library

structure CGViz where
  graphName : List Char
  maxDepth : UInt32
  maskOnly : Bool

/-- The writer of `CgMarker::dump`: default `MaxDepth` and `MaskOnly`. -/
def markedViz : CGViz := ⟨"driver-marked-callgraph".toList, 0xffffffff, false⟩

/-- `dynamic_bitset::none`. -/
def maskNone (mask : DriverIdMask) : Bool := mask.all (!·)

def maskBits (mask : DriverIdMask) : List Char :=
  mask.reverse.map fun bit => if bit then '1' else '0'

/-- `(tag=value)`. -/
def dotField (tag : String) (value : List Char) : List Char :=
  '(' :: (tag.toList ++ '=' :: (value ++ [')']))

def decimal (n : UInt32) : List Char := Nat.toDigits 10 n.toNat

/-- `"0x" << std::hex`. -/
def hexadecimal (n : Nat) : List Char := '0' :: 'x' :: Nat.toDigits 16 n

/-- `CGViz::GetNodeLabel`: the name stands twice before a mask. -/
def getNodeLabel (node : CGNode) : List Char :=
  node.funcName ++
    (if maskNone node.driverIdMask then ' ' :: dotField "mask" ['0']
      else node.funcName ++ ' ' :: dotField "mask" (maskBits node.driverIdMask)) ++
    ' ' :: dotField "blocks" (decimal node.blockNum) ++
    ' ' :: dotField "Key" (hexadecimal node.key.toNat) ++
    ' ' :: dotField "HitNum" (decimal node.hitNum)

/-- `CGViz::GetEdgeLabel`. -/
def getEdgeLabel (edge : CGEdge) : List Char :=
  (if maskNone edge.driverIdMask then dotField "mask" ['0']
    else dotField "mask" (maskBits edge.driverIdMask)) ++
    ' ' :: dotField "Key" (List.intercalate [','] (edge.keys.map fun key => hexadecimal key.toNat)) ++
    ' ' :: dotField "HitNum" (decimal edge.hitNum)

/-- `GetNodeAttributes` and `GetEdgeAttributes`, with what stands around a label. -/
def attributed (label : List Char) : List Char :=
  "[color=black,label=\"".toList ++ label ++ "\"];".toList

/-- `WriteNodes`, without its newline. -/
def writeNode (node : CGNode) : List Char :=
  '\t' :: untilNul (node.funcName ++ ' ' :: attributed (getNodeLabel node))

/-- `WriteEdge`, without its newline. -/
def writeEdge (graph : CGGraph) (edge : CGEdge) : List Char :=
  untilNul ('\t' :: ((graph.nodes edge.src).funcName ++ " -> ".toList ++
    (graph.nodes edge.dst).funcName ++ attributed (getEdgeLabel edge)))

namespace CGViz

/-- `CGViz::IsVizNode`. -/
def isVizNode (viz : CGViz) (node : CGNode) : Bool :=
  if viz.maxDepth ≠ 0xffffffff ∧
      ((node.depth = 0 ∧ node.funcName ≠ "main".toList) ∨ viz.maxDepth < node.depth) then false
  else if viz.maskOnly then !maskNone node.driverIdMask
  else true

def vizNodes (viz : CGViz) (graph : CGGraph) : List CGNode :=
  (graph.nodeRefs.map graph.nodes).filter viz.isVizNode

def vizEdges (viz : CGViz) (graph : CGGraph) : List CGEdge :=
  (viz.vizNodes graph).flatMap fun node =>
    (node.outEdges.map graph.edges).filter fun edge => viz.isVizNode (graph.nodes edge.dst)

/-- `WriteHeader` and the comment over the nodes. -/
def header (viz : CGViz) : List (List Char) :=
  [untilNul ("digraph \"".toList ++ viz.graphName ++ "\"\x7b".toList),
    untilNul ("\tlabel=\"".toList ++ viz.graphName ++ "\";".toList),
    [], [], "\t// Define the nodes".toList]

/-- The lines of `WiteGraph` for all nodes. -/
def lines (viz : CGViz) (graph : CGGraph) : List (List Char) :=
  viz.header ++ (viz.vizNodes graph).map writeNode ++
    [[], [], "\t// Define the edges".toList] ++
    (viz.vizEdges graph).map (writeEdge graph) ++ ["\x7d".toList]

/-- `GraphViz::WiteGraph`. -/
def witeGraph (viz : CGViz) (graph : CGGraph) : List Char := unlines (viz.lines graph)

end CGViz

end GraphDissect.CallGraph
