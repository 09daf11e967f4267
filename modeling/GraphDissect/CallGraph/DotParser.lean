import GraphDissect.CallGraph.Graph
import GraphDissect.Library.Text
import GraphDissect.Library.Numerals

/-!
# Reading a call graph

`DotParser.h`: the choice between the two formats, the parser of SVF's graphs
and the parser of the graphs that `GraphViz.h` writes.  A failed assertion or an
exception is `none`.  The table of library functions is a parameter.
-/

namespace GraphDissect.CallGraph

open Library

inductive DotType where
  | svf
  | aif
  deriving DecidableEq

/-- `find` succeeds. -/
def contains (needle : String) (line : List Char) : Bool := (breakOn needle.toList line).isSome

/-- `DotParser::CalDotType`. -/
def calDotType (text : List Char) : DotType :=
  if ((getlines '\n' text).take 10).any (contains "Node0x") then .svf else .aif

section Fields

/-- The text behind a tag up to the closing parenthesis. -/
def getField (tag : String) (line : List Char) : Option (List Char) := do
  let (_, rest) ← breakOn ('(' :: (tag.toList ++ ['='])) line
  let (value, _) ← breakOn [')'] rest
  return value

def getBitMask (line : List Char) : Option DriverIdMask :=
  (getField "mask" line).map fun maskStr => maskStr.reverse.map (· = '1')

def getBlockNum (line : List Char) : Option UInt32 :=
  (getField "blocks" line).bind fun digits => (stoi digits).map UInt32.ofInt

/-- `GetKeys`: no field means no keys. -/
def getKeys (line : List Char) : Option (List UInt64) :=
  match getField "Key" line with
  | none => some []
  | some inside => ((getlines ',' inside).filter (· ≠ [])).mapM (stoull 16)

/-- `getHitNum`: no field, or an empty one, means 0. -/
def getHitNum (line : List Char) : Option UInt32 :=
  match getField "HitNum" line with
  | none => some 0
  | some digits => if digits = [] then some 0 else (stoull 10 digits).map (·.toUInt32)

end Fields

/-- `AddEdge` with a mask. -/
def CGGraph.addMaskedEdge (graph : CGGraph) (src dst : NodeRef) (mask : DriverIdMask) : CGGraph :=
  let ref := graph.edgeAllocs
  (CGGraph.linkEdge
    { graph with
      edges := Function.update graph.edges ref { CGEdge.new src dst with driverIdMask := mask }
      edgeAllocs := graph.edgeAllocs + 1 } ref).1

section Aif

/-- The first loop of `ParseDotAif`. -/
def parseNodeLine (graph : CGGraph) (line : List Char) : Option CGGraph :=
  let line := trim isCSpace line
  if contains "->" line then some graph
  else
    match breakOn " [".toList line with
    | none => some graph
    | some (nodeName, _) => do
      let mask ← getBitMask line
      let blockNum ← getBlockNum line
      let keys ← getKeys line
      let hitNum ← getHitNum line
      let added := graph.addNode (trim isCSpace nodeName)
      let node := added.1.nodes added.2
      return added.1.setNode added.2
        { node with
          driverIdMask := mask
          blockNum
          key := (keys.head?.map (·.toUInt32)).getD node.key
          hitNum }

/-- The keys and the hit count of an edge line, for the first edge to `dst`. -/
def setEdgeFields (graph : CGGraph) (src dst : NodeRef) (keys : List UInt64) (line : List Char) :
    Option CGGraph :=
  if keys = [] then some graph
  else
    match (graph.nodes src).outEdges.find? fun edge => (graph.edges edge).dst = dst with
    | none => some graph
    | some edge =>
      (getHitNum line).map fun hitNum => graph.setEdge edge { graph.edges edge with keys, hitNum }

/-- The second loop of `ParseDotAif`. -/
def parseEdgeLine (graph : CGGraph) (line : List Char) : Option CGGraph :=
  let line := trim isCSpace line
  match breakOn " -> ".toList line with
  | none => some graph
  | some (srcName, rest) =>
    let dstName := ((breakOn ['['] rest).map Prod.fst).getD rest
    match graph.getNode (trim isCSpace srcName), graph.getNode (trim isCSpace dstName) with
    | some src, some dst => do
      let mask ← getBitMask line
      let keys ← getKeys line
      setEdgeFields (graph.addMaskedEdge src dst mask) src dst keys line
    | _, _ => some graph

def parseDotAif (graph : CGGraph) (text : List Char) : Option CGGraph := do
  let graph ← (getlines '\n' text).foldlM parseNodeLine graph
  (getlines '\n' text).foldlM parseEdgeLine graph

section Lines

variable {graph next : CGGraph} {line : List Char}

theorem parseNodeLine_cases (taken : parseNodeLine graph line = some next) :
    next = graph ∨ ∃ nodeName rest,
      breakOn " [".toList (trim isCSpace line) = some (nodeName, rest) ∧
        ∃ mask blockNum key hitNum,
          next =
            (graph.addNode (trim isCSpace nodeName)).1.setNode
              (graph.addNode (trim isCSpace nodeName)).2
              { (graph.addNode (trim isCSpace nodeName)).1.nodes
                  (graph.addNode (trim isCSpace nodeName)).2 with
                driverIdMask := mask, blockNum, key, hitNum } := by
  unfold parseNodeLine at taken
  dsimp only at taken
  split at taken
  · cases taken
    exact .inl rfl
  · split at taken
    · cases taken
      exact .inl rfl
    · next nodeName rest found =>
      rcases Option.bind_eq_some_iff.mp taken with ⟨mask, -, taken⟩
      rcases Option.bind_eq_some_iff.mp taken with ⟨blockNum, -, taken⟩
      rcases Option.bind_eq_some_iff.mp taken with ⟨keys, -, taken⟩
      rcases Option.bind_eq_some_iff.mp taken with ⟨hitNum, -, taken⟩
      exact .inr ⟨nodeName, rest, found, mask, blockNum, _, hitNum, (Option.some.inj taken).symm⟩

theorem setEdgeFields_cases {src dst : NodeRef} {keys : List UInt64}
    (taken : setEdgeFields graph src dst keys line = some next) :
    next = graph ∨ ∃ edge hitNum,
      next = graph.setEdge edge { graph.edges edge with keys, hitNum } := by
  unfold setEdgeFields at taken
  split at taken
  · cases taken
    exact .inl rfl
  · split at taken
    · cases taken
      exact .inl rfl
    · next edge found =>
      rcases Option.map_eq_some_iff.mp taken with ⟨hitNum, -, rfl⟩
      exact .inr ⟨edge, hitNum, rfl⟩

/-- A line is not that of an edge between known nodes, or it adds the edge and
sets its fields. -/
theorem parseEdgeLine_cases (taken : parseEdgeLine graph line = some next) :
    next = graph ∨ ∃ srcName dstName src dst mask keys,
      graph.getNode srcName = some src ∧ graph.getNode dstName = some dst ∧
        setEdgeFields (graph.addMaskedEdge src dst mask) src dst keys (trim isCSpace line) =
          some next := by
  unfold parseEdgeLine at taken
  dsimp only at taken
  split at taken
  · cases taken
    exact .inl rfl
  · split at taken
    · next src dst isSrc isDst =>
      rcases Option.bind_eq_some_iff.mp taken with ⟨mask, -, taken⟩
      rcases Option.bind_eq_some_iff.mp taken with ⟨keys, -, taken⟩
      exact .inr ⟨_, _, src, dst, mask, keys, isSrc, isDst, taken⟩
    · cases taken
      exact .inl rfl

end Lines

end Aif

section Svf

/-- The function that a node line of SVF describes: the text from the marker up
to one of the two endings. -/
def svfFuncInfo (line : List Char) : Option (List Char) :=
  match breakOn " \\\x7bfun: ".toList (line.drop 18) with
  | none => none
  | some (_, rest) =>
    match breakOn "\\\x7d|\x7b<s".toList rest with
    | some (info, _) => some info
    | none => (breakOn "\\\x7d\x7d\"];".toList rest).map Prod.fst

/-- The index of a node: eighteen characters from `Node0x` on. -/
def svfIndex (line : List Char) : Option (List Char) :=
  (breakOn "Node0x".toList line).map fun (before, _) => (line.drop before.length).take 18

/-- A graph under construction and `NodeMap`. -/
structure SvfState where
  graph : CGGraph
  nodeMap : OrderedMap (List Char) NodeRef

/-- The first loop of `ParseDotSvf`. -/
def parseSvfNode (isLibFunc : List Char → Bool) (s : SvfState) (line : List Char) :
    Option SvfState :=
  match svfIndex line, svfFuncInfo line with
  | some index, some info =>
    match getlines ':' info with
    | name :: _ :: blocks :: _ =>
      (stoi blocks).map fun blockNum =>
        if UInt32.ofInt blockNum = 0 ∨ isLibFunc name then s
        else
          let added := s.graph.addNode name
          { graph := added.1.setNode added.2
              { added.1.nodes added.2 with blockNum := UInt32.ofInt blockNum }
            nodeMap := s.nodeMap.insert index added.2 }
    | _ => some s
  | _, _ => some s

/-- The second loop of `ParseDotSvf`. -/
def parseSvfEdge (s : SvfState) (line : List Char) : SvfState :=
  match svfIndex line, breakOn " -> Node0x".toList line with
  | some srcIndex, some (_, rest) =>
    match breakOn "[color=".toList rest with
    | none => s
    | some (target, _) =>
      match s.nodeMap.find srcIndex, s.nodeMap.find ("Node0x".toList ++ target) with
      | some src, some dst => { s with graph := (s.graph.addEdge src dst).1 }
      | _, _ => s
  | _, _ => s

def parseDotSvf (isLibFunc : List Char → Bool) (graph : CGGraph) (text : List Char) :
    Option CGGraph := do
  let s ← (getlines '\n' text).foldlM (parseSvfNode isLibFunc) ⟨graph, OrderedMap.empty⟩
  return ((getlines '\n' text).foldl parseSvfEdge s).graph

end Svf

/-- `Dot2Graph` into an empty graph. -/
def dot2Graph (isLibFunc : List Char → Bool) (text : List Char) : Option CGGraph :=
  match calDotType text with
  | .svf => parseDotSvf isLibFunc CGGraph.empty text
  | .aif => parseDotAif CGGraph.empty text

end GraphDissect.CallGraph
