import GraphDissect.CallGraph.DotParser

/-!
# The lines of an SVF call graph

The node and edge lines that SVF prints, and what the searches of `ParseDotSvf`
find on them.
-/

namespace GraphDissect.CallGraph

open Library

/-- The digits behind `Node0x`. -/
structure HexNumber where
  digits : List Char
  nonempty : digits ≠ []
  hex : ∀ c ∈ digits, isHexDigit c = true

/-- A line that declares a function. -/
structure SvfNode where
  indent : List Char
  index : HexNumber
  id : Nat
  name : List Char
  attr : List Char
  blocks : Nat
  ports : List (List Char)
  blank : ∀ c ∈ indent, c = ' ' ∨ c = '\t'
  plain : ∀ c ∈ name ++ attr, c ≠ ' ' ∧ c ≠ ':' ∧ c ≠ '\\' ∧ c ≠ '\n'
  labels : ∀ label ∈ ports, ∀ c ∈ label, c ≠ ' ' ∧ c ≠ '\n'

/-- A line that declares a call. -/
structure SvfEdge where
  indent : List Char
  src : HexNumber
  port : Option Nat
  dst : HexNumber
  color : List Char
  blank : ∀ c ∈ indent, c = ' ' ∨ c = '\t'
  plain : ∀ c ∈ color, c ≠ '\\' ∧ c ≠ '\n'

/-- A line of the file; the head and the foot name no node. -/
inductive SvfLine where
  | node (node : SvfNode)
  | edge (edge : SvfEdge)
  | other (text : List Char) (nameless : ¬ "Node0x".toList <:+: text) (line : '\n' ∉ text)

section Printing

/-- The attributes in front of the id of a node. -/
def nodeHead : List Char := " [shape=record,shape=box,label=\"\x7bCallGraphNode ID: ".toList

def portText (k : Nat) (label : List Char) : List Char :=
  "<s".toList ++ (Nat.toDigits 10 k ++ '>' :: label)

def portList (labels : List (List Char)) : List Char :=
  List.intercalate ['|'] (labels.mapIdx portText)

namespace SvfNode

/-- `name:attr:blocks`. -/
def info (node : SvfNode) : List Char :=
  node.name ++ ':' :: (node.attr ++ ':' :: Nat.toDigits 10 node.blocks)

/-- The end of the line, with or without ports. -/
def ending (node : SvfNode) : List Char :=
  match node.ports with
  | [] => "\\\x7d\x7d\"];".toList
  | ports => "\\\x7d|\x7b".toList ++ (portList ports ++ "\x7d\x7d\"];".toList)

/-- The line behind the digits of the index. -/
def rest (node : SvfNode) : List Char :=
  nodeHead ++ (Nat.toDigits 10 node.id ++ (" \\\x7bfun: ".toList ++ (node.info ++ node.ending)))

def text (node : SvfNode) : List Char :=
  node.indent ++ ("Node0x".toList ++ (node.index.digits ++ node.rest))

end SvfNode

namespace SvfEdge

/-- The port of the source, if one is given. -/
def source (edge : SvfEdge) : List Char :=
  match edge.port with
  | none => []
  | some k => ":s".toList ++ Nat.toDigits 10 k

/-- The line behind the digits of the source. -/
def rest (edge : SvfEdge) : List Char :=
  edge.source ++ (" -> Node0x".toList ++
    (edge.dst.digits ++ ("[color=".toList ++ (edge.color ++ "];".toList))))

def text (edge : SvfEdge) : List Char :=
  edge.indent ++ ("Node0x".toList ++ (edge.src.digits ++ edge.rest))

end SvfEdge

namespace SvfLine

def text : SvfLine → List Char
  | .node declaration => declaration.text
  | .edge call => call.text
  | .other text _ _ => text

def nodes (lines : List SvfLine) : List SvfNode :=
  lines.filterMap fun line =>
    match line with
    | .node declaration => some declaration
    | _ => none

def edges (lines : List SvfLine) : List SvfEdge :=
  lines.filterMap fun line =>
    match line with
    | .edge call => some call
    | _ => none

end SvfLine

end Printing

section Characters

theorem mem_toDigits_ten {n : Nat} {c : Char} (member : c ∈ Nat.toDigits 10 n) :
    isHexDigit c = true := by
  rcases mem_toDigits (by decide) member with ⟨d, small, rfl⟩
  exact (digitChar_plain d (by omega)).2.2.2

theorem HexNumber.not_mem (number : HexNumber) {c : Char} (special : isHexDigit c = false) :
    c ∉ number.digits := by
  intro member
  rw [number.hex c member] at special
  cases special

theorem not_mem_toDigits_ten {n : Nat} {c : Char} (special : isHexDigit c = false) :
    c ∉ Nat.toDigits 10 n := by
  intro member
  rw [mem_toDigits_ten member] at special
  cases special

theorem not_mem_portList {c : Char} {labels : List (List Char)}
    (special : isHexDigit c = false) (fixed : c ∉ ['<', 's', '>', '|'])
    (absent : ∀ label ∈ labels, c ∉ label) : c ∉ portList labels := by
  intro member
  rcases mem_intercalate member with separator | ⟨piece, isPort, inside⟩
  · simp_all
  · rcases List.mem_mapIdx.mp isPort with ⟨k, inRange, rfl⟩
    have number := @not_mem_toDigits_ten k c special
    have label := absent _ (List.getElem_mem inRange)
    simp_all [portText]

theorem exists_portList {labels : List (List Char)} (some : labels ≠ []) :
    ∃ later, portList labels = "<s".toList ++ later := by
  cases labels with
  | nil => exact absurd rfl some
  | cons label rest =>
      rw [portList, List.mapIdx_cons, portText]
      generalize rest.mapIdx _ = others
      cases others with
      | nil => exact ⟨_, List.append_nil _⟩
      | cons next others =>
          rw [List.intercalate_cons_of_ne_nil (List.cons_ne_nil _ _), List.append_assoc,
            List.append_assoc]
          exact ⟨_, rfl⟩

theorem length_nodeHead : nodeHead.length = 51 := by decide

end Characters

section Node

variable (node : SvfNode)

/-- The separator of `splitString` and the characters of the markers are not in
the fields. -/
theorem SvfNode.not_mem_info {c : Char} (special : isHexDigit c = false) (notColon : c ≠ ':')
    (absent : c ∉ node.name ++ node.attr) : c ∉ node.info := by
  have number := @not_mem_toDigits_ten node.blocks c special
  simp_all [SvfNode.info]

/-- The first eighteen characters from `Node0x` on. -/
def SvfNode.key : List Char := "Node0x".toList ++ (node.index.digits ++ nodeHead).take 12

-- The generated equation compares the string literal character by character.
theorem SvfNode.key_def :
    node.key = "Node0x".toList ++ (node.index.digits ++ nodeHead).take 12 := rfl

theorem svfIndex_node : svfIndex node.text = some node.key := by
  have indent : 'N' ∉ node.indent := by
    intro member
    rcases node.blank 'N' member with same | same <;> cases same
  have found : breakOn "Node0x".toList node.text =
      some (node.indent, node.index.digits ++ node.rest) := breakOn_skip_append indent
  have long : (node.index.digits ++ node.rest).take 12 =
      (node.index.digits ++ nodeHead).take 12 := by
    rw [SvfNode.rest, ← List.append_assoc]
    refine List.take_append_of_le_length ?_
    rw [List.length_append, length_nodeHead]
    omega
  rw [svfIndex, found, SvfNode.text, SvfNode.key_def, ← long]
  simp

def SvfNode.before : List Char :=
  node.indent ++ ("Node0x".toList ++ (node.index.digits ++ (nodeHead ++ Nat.toDigits 10 node.id)))

theorem SvfNode.text_eq : node.text =
    node.before ++ (" \\\x7bfun: ".toList ++ (node.info ++ node.ending)) := by
  simp only [SvfNode.text, SvfNode.rest, SvfNode.before, List.append_assoc]

theorem SvfNode.not_mem_before {c : Char} (special : isHexDigit c = false)
    (visible : c ≠ ' ' ∧ c ≠ '\t') (fixed : c ∉ "Node0x".toList ++ nodeHead) : c ∉ node.before := by
  have index := @HexNumber.not_mem node.index c special
  have number := @not_mem_toDigits_ten node.id c special
  have indent : c ∉ node.indent := by
    intro member
    rcases node.blank c member with same | same
    · exact visible.1 same
    · exact visible.2 same
  rw [List.mem_append, not_or] at fixed
  simp only [SvfNode.before, List.mem_append, not_or]
  exact ⟨indent, fixed.1, index, fixed.2, number⟩

theorem svfFuncInfo_node : svfFuncInfo node.text = some node.info := by
  have backslash : '\\' ∉ node.before := node.not_mem_before (by decide) (by decide) (by decide)
  have long : 18 ≤ node.before.length := by
    simp only [SvfNode.before, List.length_append, length_nodeHead]
    omega
  have dropped : node.text.drop 18 =
      node.before.drop 18 ++ (" \\\x7bfun: ".toList ++ (node.info ++ node.ending)) := by
    rw [node.text_eq, List.drop_append_of_le_length long]
  have found : breakOn " \\\x7bfun: ".toList (node.text.drop 18) =
      some (node.before.drop 18, node.info ++ node.ending) := by
    rw [dropped]
    exact breakOn_skip_second (fun member => backslash (List.mem_of_mem_drop member)) (by decide)
  have info : '\\' ∉ node.info := by
    refine node.not_mem_info (by decide) (by decide) fun member => ?_
    exact (node.plain _ member).2.2.1 rfl
  rw [svfFuncInfo, found]
  dsimp only
  cases isPorts : node.ports with
  | nil =>
      have ending : node.ending = "\\\x7d\x7d\"];".toList := by rw [SvfNode.ending, isPorts]
      have unported : breakOn "\\\x7d|\x7b<s".toList (node.info ++ node.ending) = none := by
        rw [ending]
        exact (breakOn_skip info).trans rfl
      have closed : breakOn "\\\x7d\x7d\"];".toList (node.info ++ node.ending) =
          some (node.info, []) := by
        rw [ending, ← List.append_nil "\\\x7d\x7d\"];".toList]
        exact breakOn_skip_append info
      rw [unported, closed]
      rfl
  | cons label labels =>
      rcases @exists_portList node.ports (by simp [isPorts]) with ⟨later, ports⟩
      have ending : node.ending =
          '\\' :: ("\x7d|\x7b<s".toList ++ (later ++ "\x7d\x7d\"];".toList)) := by
        rw [SvfNode.ending, isPorts]
        dsimp only
        rw [← isPorts, ports]
        simp
      have found : breakOn "\\\x7d|\x7b<s".toList (node.info ++ node.ending) =
          some (node.info, later ++ "\x7d\x7d\"];".toList) := by
        rw [ending]
        exact breakOn_skip_append info
      rw [found]

theorem getlines_info : getlines ':' node.info =
    [node.name, node.attr, Nat.toDigits 10 node.blocks] := by
  have apart : ∀ field : List Char, ':' ∉ field → ∀ c ∈ field, decide (c = ':') = false := by
    intro field absent c member
    rw [decide_eq_false_iff_not]
    rintro rfl
    exact absent member
  have name : ':' ∉ node.name := fun member =>
    (node.plain _ (List.mem_append_left _ member)).2.1 rfl
  have attr : ':' ∉ node.attr := fun member =>
    (node.plain _ (List.mem_append_right _ member)).2.1 rfl
  have blocks : ':' ∉ Nat.toDigits 10 node.blocks := not_mem_toDigits_ten (by decide)
  have pieces : node.info.splitOnP (· = ':') =
      [node.name, node.attr, Nat.toDigits 10 node.blocks] := by
    rw [SvfNode.info, List.splitOnP_append_cons_of_forall_mem (apart _ name) _ (by simp),
      List.splitOnP_append_cons_of_forall_mem (apart _ attr) _ (by simp),
      List.splitOnP_eq_singleton (apart _ blocks)]
  have number : Nat.toDigits 10 node.blocks ≠ [] := Nat.toDigits_ne_nil
  simp [getlines, pieces, number]

theorem SvfNode.not_mem_ending {c : Char} (special : isHexDigit c = false)
    (fixed : c ∉ "\\\x7d|\x7b<s>\"];".toList) (absent : ∀ label ∈ node.ports, c ∉ label) :
    c ∉ node.ending := by
  have part {piece : List Char} (among : piece ⊆ "\\\x7d|\x7b<s>\"];".toList) : c ∉ piece :=
    fun member => fixed (among member)
  rw [SvfNode.ending]
  split
  · exact part (by decide)
  · simp only [List.mem_append, not_or]
    exact ⟨part (by decide), not_mem_portList special (part (by decide)) absent, part (by decide)⟩

theorem SvfNode.space_not_mem : ' ' ∉ node.info ++ node.ending := by
  rw [List.mem_append, not_or]
  refine ⟨node.not_mem_info (by decide) (by decide) fun member => (node.plain _ member).1 rfl,
    node.not_mem_ending (by decide) (by decide) fun label member inside =>
      (node.labels label member _ inside).1 rfl⟩

theorem SvfNode.newline_not_mem : '\n' ∉ node.text := by
  rw [node.text_eq, List.mem_append, List.mem_append, List.mem_append, not_or, not_or, not_or]
  refine ⟨node.not_mem_before (by decide) (by decide) (by decide), by decide,
    node.not_mem_info (by decide) (by decide) fun member => (node.plain _ member).2.2.2 rfl,
    node.not_mem_ending (by decide) (by decide) fun label member inside =>
      (node.labels label member _ inside).2 rfl⟩

/-- A declaration is no call: behind its last space there is no other one. -/
theorem SvfNode.arrow_not_infix : ¬ " -> Node0x".toList <:+: node.text := by
  rintro ⟨first, last, equal⟩
  have dash : '-' ∉ node.before ++ " \\\x7bfun: ".toList := by
    rw [List.mem_append, not_or]
    exact ⟨node.not_mem_before (by decide) (by decide) (by decide), by decide⟩
  have behind : '-' :: ("> Node0x".toList ++ last) <:+ node.info ++ node.ending := by
    refine suffix_of_append_eq dash (s := first ++ [' ']) ?_
    rw [List.append_assoc node.before, ← node.text_eq, ← equal]
    simp
  exact node.space_not_mem (behind.subset (by simp))

end Node

section Edge

variable (edge : SvfEdge)

theorem SvfEdge.not_mem_source {c : Char} (special : isHexDigit c = false)
    (fixed : c ∉ ":s".toList) : c ∉ edge.source := by
  rw [SvfEdge.source]
  split
  · exact List.not_mem_nil
  · rw [List.mem_append, not_or]
    exact ⟨fixed, not_mem_toDigits_ten special⟩

theorem SvfEdge.not_mem_before {c : Char} (special : isHexDigit c = false)
    (visible : c ≠ ' ' ∧ c ≠ '\t') (fixed : c ∉ "Node0x:s".toList) :
    c ∉ edge.indent ++ ("Node0x".toList ++ (edge.src.digits ++ edge.source)) := by
  have part {piece : List Char} (among : piece ⊆ "Node0x:s".toList) : c ∉ piece :=
    fun member => fixed (among member)
  have indent : c ∉ edge.indent := by
    intro member
    rcases edge.blank c member with same | same
    · exact visible.1 same
    · exact visible.2 same
  simp only [List.mem_append, not_or]
  exact ⟨indent, part (by decide), edge.src.not_mem special,
    edge.not_mem_source special (part (by decide))⟩

theorem SvfEdge.text_eq : edge.text =
    (edge.indent ++ ("Node0x".toList ++ (edge.src.digits ++ edge.source))) ++
      (" -> Node0x".toList ++ (edge.dst.digits ++ ("[color=".toList ++ (edge.color ++ "];".toList)))) := by
  simp only [SvfEdge.text, SvfEdge.rest, List.append_assoc]

theorem SvfEdge.not_mem_text {c : Char} (special : isHexDigit c = false)
    (visible : c ≠ ' ' ∧ c ≠ '\t') (fixed : c ∉ "Node0x:s -> [color=];".toList)
    (color : c ∉ edge.color) : c ∉ edge.text := by
  have part {piece : List Char} (among : piece ⊆ "Node0x:s -> [color=];".toList) : c ∉ piece :=
    fun member => fixed (among member)
  rw [edge.text_eq, List.mem_append, not_or]
  refine ⟨edge.not_mem_before special visible (part (by decide)), ?_⟩
  simp only [List.mem_append, not_or]
  exact ⟨part (by decide), edge.dst.not_mem special, part (by decide), color, part (by decide)⟩

/-- Eighteen characters from the first `Node0x` on. -/
def SvfEdge.srcKey : List Char := "Node0x".toList ++ (edge.src.digits ++ edge.rest).take 12

def SvfEdge.dstKey : List Char := "Node0x".toList ++ edge.dst.digits

theorem SvfEdge.srcKey_def :
    edge.srcKey = "Node0x".toList ++ (edge.src.digits ++ edge.rest).take 12 := rfl

theorem SvfEdge.dstKey_def : edge.dstKey = "Node0x".toList ++ edge.dst.digits := rfl

theorem svfIndex_edge : svfIndex edge.text = some edge.srcKey := by
  have indent : 'N' ∉ edge.indent := by
    intro member
    rcases edge.blank 'N' member with same | same <;> cases same
  have found : breakOn "Node0x".toList edge.text =
      some (edge.indent, edge.src.digits ++ edge.rest) := breakOn_skip_append indent
  rw [svfIndex, found, SvfEdge.text, SvfEdge.srcKey_def]
  simp

theorem svfFuncInfo_edge : svfFuncInfo edge.text = none := by
  have backslash : '\\' ∉ edge.text := edge.not_mem_text (by decide) (by decide) (by decide)
    fun member => (edge.plain _ member).1 rfl
  have absent : breakOn " \\\x7bfun: ".toList (edge.text.drop 18) = none := by
    rw [breakOn_eq_none_iff]
    intro found
    exact backslash (List.mem_of_mem_drop (found.subset (by decide : '\\' ∈ " \\\x7bfun: ".toList)))
  rw [svfFuncInfo, absent]

theorem breakOn_arrow_edge : breakOn " -> Node0x".toList edge.text =
    some (edge.indent ++ ("Node0x".toList ++ (edge.src.digits ++ edge.source)),
      edge.dst.digits ++ ("[color=".toList ++ (edge.color ++ "];".toList))) := by
  rw [edge.text_eq]
  exact breakOn_skip_second (edge.not_mem_before (by decide) (by decide) (by decide)) (by decide)

theorem breakOn_color_edge : breakOn "[color=".toList
    (edge.dst.digits ++ ("[color=".toList ++ (edge.color ++ "];".toList))) =
      some (edge.dst.digits, edge.color ++ "];".toList) :=
  breakOn_skip_append (edge.dst.not_mem (by decide))

theorem SvfEdge.newline_not_mem : '\n' ∉ edge.text :=
  edge.not_mem_text (by decide) (by decide) (by decide) fun member => (edge.plain _ member).2 rfl

end Edge

section Passes

variable {isLibFunc : List Char → Bool} {s : SvfState}

/-- The function has a body and is no library function. -/
def SvfNode.Kept (isLibFunc : List Char → Bool) (node : SvfNode) : Prop :=
  0 < node.blocks ∧ isLibFunc node.name = false

instance (node : SvfNode) : Decidable (node.Kept isLibFunc) :=
  inferInstanceAs (Decidable (_ ∧ _))

namespace SvfState

/-- The node of a declaration that is kept. -/
def declare (s : SvfState) (node : SvfNode) : SvfState :=
  let added := s.graph.addNode node.name
  { graph := added.1.setNode added.2
      { added.1.nodes added.2 with blockNum := UInt32.ofInt node.blocks }
    nodeMap := s.nodeMap.insert node.key added.2 }

/-- The edge of a call, when both ends are in the map. -/
def connect (s : SvfState) (edge : SvfEdge) : SvfState :=
  match s.nodeMap.find edge.srcKey, s.nodeMap.find edge.dstKey with
  | some src, some dst => { s with graph := (s.graph.addEdge src dst).1 }
  | _, _ => s

end SvfState

theorem uint32_ofInt_eq_zero_iff {n : Nat} (small : n < 2147483648) :
    UInt32.ofInt (n : Int) = 0 ↔ n = 0 := by
  have value : (UInt32.ofInt (n : Int)).toNat = n := by
    simp only [UInt32.ofInt, UInt32.toNat_ofNat']
    omega
  rw [← UInt32.toNat_inj, value]
  rfl

theorem stoi_large {n : Nat} (large : 2147483648 ≤ n) : stoi (Nat.toDigits 10 n) = none := by
  rw [stoi, strto_decimal, Option.bind_some]
  refine if_neg ?_
  simp only [Bool.false_eq_true, if_false]
  omega

theorem parseSvfNode_node (node : SvfNode) : parseSvfNode isLibFunc s node.text =
    if node.blocks < 2147483648 then
      some (if node.Kept isLibFunc then s.declare node else s)
    else none := by
  rw [parseSvfNode, svfIndex_node, svfFuncInfo_node]
  dsimp only
  rw [getlines_info]
  dsimp only
  by_cases small : node.blocks < 2147483648
  · have skipped : UInt32.ofInt (node.blocks : Int) = 0 ∨ isLibFunc node.name = true ↔
        ¬ node.Kept isLibFunc := by
      rw [uint32_ofInt_eq_zero_iff small, SvfNode.Kept, not_and_or, Nat.not_lt, Nat.le_zero,
        Bool.not_eq_false]
    rw [if_pos small, stoi_decimal small, Option.map_some]
    by_cases kept : node.Kept isLibFunc
    · rw [if_pos kept, if_neg fun skip => skipped.mp skip kept]
      rfl
    · rw [if_neg kept, if_pos (skipped.mpr kept)]
  · rw [if_neg small, stoi_large (by omega), Option.map_none]

theorem parseSvfNode_edge (edge : SvfEdge) : parseSvfNode isLibFunc s edge.text = some s := by
  rw [parseSvfNode, svfIndex_edge, svfFuncInfo_edge]

theorem parseSvfEdge_node (node : SvfNode) : parseSvfEdge s node.text = s := by
  rw [parseSvfEdge, svfIndex_node, breakOn_eq_none_iff.mpr node.arrow_not_infix]

theorem parseSvfEdge_edge (edge : SvfEdge) : parseSvfEdge s edge.text = s.connect edge := by
  rw [parseSvfEdge, svfIndex_edge, breakOn_arrow_edge]
  dsimp only
  rw [breakOn_color_edge]
  rfl

theorem svfIndex_other {text : List Char} (nameless : ¬ "Node0x".toList <:+: text) :
    svfIndex text = none := by
  rw [svfIndex, breakOn_eq_none_iff.mpr nameless, Option.map_none]

theorem SvfLine.newline_not_mem (line : SvfLine) : '\n' ∉ line.text := by
  cases line with
  | node declaration => exact declaration.newline_not_mem
  | edge call => exact call.newline_not_mem
  | other text nameless plain => exact plain

theorem foldlM_parseSvfNode (lines : List SvfLine) :
    (lines.map SvfLine.text).foldlM (parseSvfNode isLibFunc) s =
      if ∀ node ∈ SvfLine.nodes lines, node.blocks < 2147483648 then
        some (((SvfLine.nodes lines).filter fun node => node.Kept isLibFunc).foldl SvfState.declare s)
      else none := by
  induction lines generalizing s with
  | nil => rfl
  | cons line rest inductionHypothesis =>
      rw [List.map_cons, List.foldlM_cons]
      cases line with
      | node declaration =>
          have declared : SvfLine.nodes (.node declaration :: rest) =
              declaration :: SvfLine.nodes rest := rfl
          rw [SvfLine.text, parseSvfNode_node, declared]
          by_cases small : declaration.blocks < 2147483648
          · rw [if_pos small, Option.bind_eq_bind, Option.bind_some, inductionHypothesis]
            by_cases kept : declaration.Kept isLibFunc <;> simp [small, kept]
          · simp [small]
      | edge call =>
          rw [SvfLine.text, parseSvfNode_edge]
          exact inductionHypothesis
      | other text nameless plain =>
          rw [SvfLine.text, parseSvfNode, svfIndex_other nameless]
          exact inductionHypothesis

theorem foldl_parseSvfEdge (lines : List SvfLine) :
    (lines.map SvfLine.text).foldl parseSvfEdge s =
      (SvfLine.edges lines).foldl SvfState.connect s := by
  induction lines generalizing s with
  | nil => rfl
  | cons line rest inductionHypothesis =>
      rw [List.map_cons, List.foldl_cons, inductionHypothesis]
      cases line with
      | node declaration =>
          rw [SvfLine.text, parseSvfEdge_node]
          rfl
      | edge call =>
          rw [SvfLine.text, parseSvfEdge_edge]
          rfl
      | other text nameless plain =>
          rw [SvfLine.text, parseSvfEdge, svfIndex_other nameless]
          rfl

def SvfLine.file (lines : List SvfLine) : List Char := unlines (lines.map SvfLine.text)

def SvfLine.declared (isLibFunc : List Char → Bool) (lines : List SvfLine) : SvfState :=
  ((SvfLine.nodes lines).filter fun node => node.Kept isLibFunc).foldl SvfState.declare
    ⟨CGGraph.empty, OrderedMap.empty⟩

theorem parseDotSvf_file (lines : List SvfLine) :
    parseDotSvf isLibFunc CGGraph.empty (SvfLine.file lines) =
      if ∀ node ∈ SvfLine.nodes lines, node.blocks < 2147483648 then
        some ((SvfLine.edges lines).foldl SvfState.connect (SvfLine.declared isLibFunc lines)).graph
      else none := by
  have read : getlines '\n' (SvfLine.file lines) = lines.map SvfLine.text := by
    refine getlines_unlines fun text member => ?_
    rcases List.mem_map.mp member with ⟨line, -, rfl⟩
    exact line.newline_not_mem
  rw [parseDotSvf, read, foldlM_parseSvfNode]
  split
  · rw [Option.bind_eq_bind, Option.bind_some, foldl_parseSvfEdge]
    rfl
  · rfl

end Passes

end GraphDissect.CallGraph
