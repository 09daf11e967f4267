import GraphDissect.CallGraph.Graph
import GraphDissect.Library.Runs

/-!
# Mapping call sites to edge keys

`cgx_map.py` with the native functions it calls (`cgx_marker.cpp`,
`cgmarker.cpp`): node keys come from the symbol table that `nm` prints, edge
keys from the return addresses of the call sites that the disassembler reports.
A loop that may raise is a partial run.
-/

namespace GraphDissect.Cgx

open CallGraph Library

abbrev FName := List Char

/-- A line of `nm`. -/
structure NmSymbol where
  addr : Nat
  symType : List Char
  name : FName

/-- A call site: the callee's name when the operand has one, and the return
address. -/
structure CallSite where
  callee : Option FName
  retsite : Nat

/-- What the binary utilities print.  `disasmFunction` is `none` when the
disassembler fails. -/
structure Binary where
  nm : List NmSymbol
  disasmFunction : FName → Option (List CallSite)

/-- `fn.rsplit(".", 1)[0]` when the name has a dot. -/
def stripSuffix (fn : FName) : FName :=
  if '.' ∈ fn then ((fn.reverse.dropWhile (· ≠ '.')).drop 1).reverse else fn

/-- The dictionary `name2addr`: of several symbols of one name the last one
counts. -/
def name2addr (symbols : List NmSymbol) (name : FName) : Option Nat :=
  (symbols.reverse.find? fun symbol =>
    symbol.name = name ∧ symbol.symType ∈ [['T'], ['t'], ['W'], ['w']]).map NmSymbol.addr

/-- `PyArg_ParseTuple` with format `i` raises on what does not fit an `int`. -/
def fitsInt (value : Nat) : Prop := value < 2 ^ 31

instance (value : Nat) : Decidable (fitsInt value) := inferInstanceAs (Decidable (_ < _))

/-- Set the key of a node; an unknown name is ignored. -/
def setNodeKey (graph : CGGraph) (fname : FName) (faddr : Nat) : Option CGGraph :=
  if fitsInt faddr then
    match graph.getNode fname with
    | none => some graph
    | some ref => some (graph.setNode ref { graph.nodes ref with key := UInt32.ofNat faddr })
  else none

def findEdge (graph : CGGraph) (src dst : NodeRef) : Option EdgeRef :=
  (graph.nodes src).outEdges.find? fun edge => (graph.edges edge).dst = dst

/-- The key `setEdgeKey` stores. -/
def retKey (retAddr : UInt32) (dstKey : UInt32) : UInt64 :=
  (retAddr.toUInt64 <<< 32) ||| dstKey.toUInt64

/-- Add the key of a call site to an edge.  An unknown source is a null
dereference; an unknown destination matches no edge. -/
def setEdgeKey (graph : CGGraph) (srcFName dstFName : FName) (retAddr : Nat) : Option CGGraph :=
  if fitsInt retAddr then
    match graph.getNode srcFName with
    | none => none
    | some src =>
        match graph.getNode dstFName with
        | none => some graph
        | some dst =>
            match findEdge graph src dst with
            | none => some graph
            | some ref =>
                let edge := graph.edges ref
                some (graph.setEdge ref
                  { edge with
                    keys := edge.keys ++ [retKey (UInt32.ofNat retAddr) (graph.nodes dst).key] })
  else none

def getAllFunctions (graph : CGGraph) : List FName :=
  graph.nodeRefs.map fun ref => (graph.nodes ref).funcName

/-- The names of a function's callees; an unknown function raises. -/
def getCallees (graph : CGGraph) (fname : FName) : Option (List FName) :=
  (graph.getNode fname).map fun ref =>
    (graph.nodes ref).outEdges.map fun edge => (graph.nodes (graph.edges edge).dst).funcName

/-- Set the keys of the functions that `nm` lists. -/
def parseFunctions (binary : Binary) (functions : List FName) (graph : CGGraph) :
    Option CGGraph :=
  runFrom (fun graph fn =>
    match name2addr binary.nm (stripSuffix fn) with
    | none => some graph
    | some addr => setNodeKey graph fn addr) graph functions

def directCallees (functions : List FName) (sites : List CallSite) : List FName :=
  (sites.filterMap CallSite.callee).filter (· ∈ functions)

/-- The return addresses of indirect calls, as a set. -/
def indirectRetsites (sites : List CallSite) : List Nat :=
  ((sites.filter fun site => site.callee = none).map CallSite.retsite).dedup

def setDirectKeys (functions : List FName) (fn : FName) (graph : CGGraph)
    (sites : List CallSite) : Option CGGraph :=
  runFrom (fun graph site =>
    match site.callee with
    | none => some graph
    | some callee =>
        if callee ∈ functions then setEdgeKey graph fn callee site.retsite else some graph)
    graph sites

/-- The conservative mapping: every callee without a direct call may be the
target of every indirect one. -/
def setIndirectKeys (fn : FName) (graph : CGGraph) (callees : List FName)
    (retsites : List Nat) : Option CGGraph :=
  runFrom (fun graph callee =>
    runFrom (fun graph retsite => setEdgeKey graph fn callee retsite) graph retsites)
    graph callees

/-- One turn of the loop of `parse_callsites`.  The order in which a set is
walked is not specified and only decides the order of keys. -/
def parseCallsitesOf (binary : Binary) (functions : List FName) (graph : CGGraph) (fn : FName) :
    Option CGGraph :=
  match binary.disasmFunction (stripSuffix fn) with
  | none => some graph
  | some sites =>
      (setDirectKeys functions fn graph sites).bind fun graph =>
        (getCallees graph fn).bind fun allCallees =>
          setIndirectKeys fn graph
            (allCallees.dedup.filter (· ∉ directCallees functions sites))
            (indirectRetsites sites)

def parseCallsites (binary : Binary) (functions : List FName) (graph : CGGraph) :
    Option CGGraph :=
  runFrom (parseCallsitesOf binary functions) graph functions

/-- `update_cgmap` up to the dump. -/
def updateCgmap (binary : Binary) (graph : CGGraph) : Option CGGraph :=
  (parseFunctions binary (getAllFunctions graph) graph).bind
    (parseCallsites binary (getAllFunctions graph))

/-- The return addresses that end up on the edge from `fn` to `callee`. -/
def retSites (binary : Binary) (functions : List FName) (fn callee : FName) : List Nat :=
  match binary.disasmFunction (stripSuffix fn) with
  | none => []
  | some sites =>
      if callee ∈ directCallees functions sites then
        (sites.filter fun site => site.callee = some callee).map CallSite.retsite
      else indirectRetsites sites

end GraphDissect.Cgx
