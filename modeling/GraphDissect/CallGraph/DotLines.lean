import GraphDissect.CallGraph.DotFields

/-!
# The lines of a written graph

What `ParseDotAif` does at a node line and at an edge line, and where the text
`Node0x` can stand in them.
-/

namespace GraphDissect.CallGraph

open Library

/-- What a node line carries. -/
structure NodeRec where
  name : List Char
  mask : DriverIdMask
  blockNum : UInt32
  key : UInt32
  hitNum : UInt32

/-- What an edge line carries; the ends are positions in the list of nodes. -/
structure EdgeRec where
  src : Nat
  dst : Nat
  mask : DriverIdMask
  keys : List UInt64
  hitNum : UInt32

def NodeRec.fields (r : NodeRec) : List (String × List Char) :=
  [("mask", maskText r.mask), ("blocks", decimal r.blockNum),
    ("Key", hexadecimal r.key.toNat), ("HitNum", decimal r.hitNum)]

def EdgeRec.fields (r : EdgeRec) : List (String × List Char) :=
  [("mask", maskText r.mask), ("Key", keysText r.keys), ("HitNum", decimal r.hitNum)]

/-- The name once, or twice before a mask. -/
def NodeRec.labelName (r : NodeRec) : List Char :=
  if maskNone r.mask then r.name else r.name ++ r.name

def opening : List Char := "[color=black,label=\"".toList

def closing : List Char := "\"];".toList

theorem attributed_eq (label : List Char) : attributed label = opening ++ (label ++ closing) :=
  List.append_assoc ..

def NodeRec.text (r : NodeRec) : List Char :=
  r.name ++ ' ' :: (opening ++ (r.labelName ++ (dotFields r.fields ++ closing)))

/-- An edge line behind its tab; its fields have no space before the first. -/
def EdgeRec.text (srcName dstName : List Char) (r : EdgeRec) : List Char :=
  srcName ++ " -> ".toList ++ (dstName ++ (opening ++ ((dotFields r.fields).tail ++ closing)))

section Characters

def frame : List String :=
  ["[color=black,label=\"", "\"];", "mask", "blocks", "Key", "HitNum", " (=)", "0123456789abcdefx,"]

variable {c : Char}

theorem notMem_dotFields {fields : List (String × List Char)} (outside : ∀ s ∈ frame, c ∉ s.toList)
    (tags : ∀ field ∈ fields, field.1 ∈ frame) (values : ∀ field ∈ fields, IsValue field.2) :
    c ∉ dotFields fields := by
  have marks : c ∉ [' ', '(', '=', ')'] := outside " (=)" (by decide)
  have value : c ∉ "0123456789abcdefx,".toList := outside _ (by decide)
  simp only [List.mem_cons, List.not_mem_nil, or_false, not_or] at marks
  intro member
  obtain ⟨field, listed, member⟩ := List.mem_flatMap.mp member
  simp only [dotField, List.mem_cons, List.mem_append, List.not_mem_nil, or_false] at member
  obtain space | opens | tag | equals | inside | closes := member
  · exact marks.1 space
  · exact marks.2.1 opens
  · exact outside field.1 (tags field listed) tag
  · exact marks.2.2.1 equals
  · exact value (values field listed c inside)
  · exact marks.2.2.2 closes

theorem NodeRec.isValue_fields (r : NodeRec) : ∀ field ∈ r.fields, IsValue field.2 := by
  simp only [NodeRec.fields, List.mem_cons, List.not_mem_nil, or_false, forall_eq_or_imp, forall_eq]
  exact ⟨isValue_maskText _, isValue_decimal _, isValue_hexadecimal _, isValue_decimal _⟩

theorem EdgeRec.isValue_fields (r : EdgeRec) : ∀ field ∈ r.fields, IsValue field.2 := by
  simp only [EdgeRec.fields, List.mem_cons, List.not_mem_nil, or_false, forall_eq_or_imp, forall_eq]
  exact ⟨isValue_maskText _, isValue_keysText _, isValue_decimal _⟩

theorem NodeRec.notMem_fields (r : NodeRec) (outside : ∀ s ∈ frame, c ∉ s.toList) :
    c ∉ dotFields r.fields := by
  refine notMem_dotFields outside ?_ r.isValue_fields
  simp [NodeRec.fields, frame]

theorem EdgeRec.notMem_fields (r : EdgeRec) (outside : ∀ s ∈ frame, c ∉ s.toList) :
    c ∉ dotFields r.fields := by
  refine notMem_dotFields outside ?_ r.isValue_fields
  simp [EdgeRec.fields, frame]

theorem NodeRec.notMem_labelName {r : NodeRec} (absent : c ∉ r.name) : c ∉ r.labelName := by
  unfold NodeRec.labelName
  split
  · exact absent
  · simpa using absent

theorem NodeRec.notMem_text {r : NodeRec} (absent : c ∉ r.name)
    (outside : ∀ s ∈ frame, c ∉ s.toList) : c ∉ r.text := by
  have space : c ≠ ' ' := by
    rintro rfl
    exact outside " (=)" (by decide) (by decide)
  simp only [NodeRec.text, List.mem_append, List.mem_cons, not_or]
  exact ⟨absent, space, outside _ (by decide), NodeRec.notMem_labelName absent,
    r.notMem_fields outside, outside _ (by decide)⟩

theorem EdgeRec.notMem_text {r : EdgeRec} {srcName dstName : List Char} (srcAbsent : c ∉ srcName)
    (dstAbsent : c ∉ dstName) (arrow : c ∉ " -> ".toList) (outside : ∀ s ∈ frame, c ∉ s.toList) :
    c ∉ r.text srcName dstName := by
  simp only [EdgeRec.text, List.mem_append, not_or]
  exact ⟨⟨srcAbsent, arrow⟩, dstAbsent, outside _ (by decide),
    fun member => r.notMem_fields outside (List.mem_of_mem_tail member), outside _ (by decide)⟩

end Characters

section Written

def CGNode.record (node : CGNode) : NodeRec :=
  ⟨node.funcName, node.driverIdMask, node.blockNum, node.key, node.hitNum⟩

theorem CGNode.text_record (node : CGNode) :
    node.record.text = node.funcName ++ ' ' :: attributed (getNodeLabel node) := by
  rw [attributed_eq]
  cases clear : maskNone node.driverIdMask <;>
    simp [getNodeLabel, NodeRec.text, NodeRec.labelName, NodeRec.fields, CGNode.record, dotFields,
      maskText, clear]

theorem writeNode_eq (node : CGNode) : writeNode node = '\t' :: untilNul node.record.text := by
  rw [writeNode, node.text_record]

def CGGraph.edgeRecord (graph : CGGraph) (edge : CGEdge) : EdgeRec :=
  ⟨(graph.nodes edge.src).id - 1, (graph.nodes edge.dst).id - 1, edge.driverIdMask, edge.keys,
    edge.hitNum⟩

theorem CGGraph.text_edgeRecord (graph : CGGraph) (edge : CGEdge) (srcName dstName : List Char) :
    (graph.edgeRecord edge).text srcName dstName =
      srcName ++ " -> ".toList ++ dstName ++ attributed (getEdgeLabel edge) := by
  rw [attributed_eq]
  cases clear : maskNone edge.driverIdMask <;>
    simp [getEdgeLabel, EdgeRec.text, EdgeRec.fields, CGGraph.edgeRecord, keysText, dotFields,
      maskText, clear]

theorem writeEdge_eq (graph : CGGraph) (edge : CGEdge) :
    writeEdge graph edge = '\t' :: untilNul ((graph.edgeRecord edge).text
      (graph.nodes edge.src).funcName (graph.nodes edge.dst).funcName) := by
  rw [writeEdge, graph.text_edgeRecord, untilNul, List.takeWhile_cons_of_pos (by decide), untilNul]

end Written

section Trimming

theorem PlainName.trim_eq {name : List Char} (plain : PlainName name) : trim isCSpace name = name :=
  trim_of_visible fun c member => (plain.plain c member).1

/-- A line that starts with a name loses its tab only. -/
theorem PlainName.trim_line {name s : List Char} (plain : PlainName name) :
    trim isCSpace ('\t' :: (name ++ (s ++ closing))) = name ++ (s ++ closing) := by
  rw [trim_cons_of_space (by decide)]
  apply trim_of_ends
  · intro c first
    rw [List.head?_append_of_ne_nil _ plain.ne_nil] at first
    exact (plain.plain c (List.mem_of_head? first)).1
  · intro c last
    have last : c = ';' := by simpa [closing, List.getLast?_append] using last.symm
    rw [last]
    decide

theorem NodeRec.trim_text {r : NodeRec} (plain : PlainName r.name) :
    trim isCSpace ('\t' :: r.text) = r.text := by
  have shape : r.text = r.name ++
      ((' ' :: (opening ++ (r.labelName ++ dotFields r.fields))) ++ closing) := by
    simp [NodeRec.text]
  rw [shape, plain.trim_line]

theorem EdgeRec.trim_text {r : EdgeRec} {srcName dstName : List Char} (plain : PlainName srcName) :
    trim isCSpace ('\t' :: r.text srcName dstName) = r.text srcName dstName := by
  have shape : r.text srcName dstName = srcName ++
      ((" -> ".toList ++ (dstName ++ (opening ++ (dotFields r.fields).tail))) ++ closing) := by
    simp [EdgeRec.text]
  rw [shape, plain.trim_line]

end Trimming

theorem contains_iff {needle : String} {line : List Char} :
    contains needle line = true ↔ needle.toList <:+: line := by
  rw [contains, Option.isSome_iff_ne_none, ne_eq, breakOn_eq_none_iff, not_not]

/-- The node of a record, added to a graph or found there. -/
def CGGraph.addRecord (graph : CGGraph) (r : NodeRec) : CGGraph :=
  let added := graph.addNode r.name
  added.1.setNode added.2
    { added.1.nodes added.2 with
      driverIdMask := readMask r.mask
      blockNum := r.blockNum
      key := r.key
      hitNum := r.hitNum }

section NodeLine

variable {r : NodeRec}

theorem NodeRec.notMem_before (plain : PlainName r.name) :
    '(' ∉ r.name ++ ' ' :: (opening ++ r.labelName) := by
  have name : '(' ∉ r.name := plain.notMem (by decide)
  have label : '(' ∉ r.labelName := NodeRec.notMem_labelName name
  simp only [List.mem_append, List.mem_cons, not_or]
  exact ⟨name, by decide, by decide, label⟩

theorem NodeRec.getField_text (plain : PlainName r.name) {tag : String} {value : List Char}
    (passed : List (String × List Char)) {rest : List (String × List Char)}
    (split : r.fields = passed ++ (tag, value) :: rest)
    (passes : ∀ field ∈ passed, Passes tag field) : getField tag r.text = some value := by
  have isValue : IsValue value := r.isValue_fields (tag, value) (by simp [split])
  have shape : r.text = r.name ++ ' ' :: (opening ++ r.labelName) ++ (dotFields passed ++
      ' ' :: (dotField tag value ++ (dotFields rest ++ closing))) := by
    simp [NodeRec.text, split, dotFields]
  rw [shape, getField_dotFields (NodeRec.notMem_before plain) passes isValue]

theorem NodeRec.not_contains_arrow (plain : PlainName r.name) {needle : String}
    (dash : '-' ∈ needle.toList) : contains needle r.text = false := by
  rw [Bool.eq_false_iff, ne_eq, contains_iff]
  intro found
  exact NodeRec.notMem_text (plain.notMem (by decide)) (by decide) (found.subset dash)

theorem NodeRec.getBitMask_text (plain : PlainName r.name) :
    getBitMask r.text = some (readMask r.mask) := by
  have found : getField "mask" r.text = some (maskText r.mask) :=
    NodeRec.getField_text plain [] rfl (by simp)
  rw [getBitMask, found, Option.map_some, maskText_reverse]

theorem NodeRec.getBlockNum_text (plain : PlainName r.name) (small : r.blockNum.toNat < 2147483648) :
    getBlockNum r.text = some r.blockNum := by
  apply getBlockNum_decimal _ small
  apply NodeRec.getField_text plain [("mask", maskText r.mask)] rfl
  simp only [List.mem_singleton, forall_eq]
  exact passes_of (by decide) (by decide) (by decide) (by decide) (isValue_maskText _)

theorem NodeRec.getKeys_text (plain : PlainName r.name) :
    getKeys r.text = some [r.key.toUInt64] := by
  apply getKeys_keysText
  have printed : keysText [r.key.toUInt64] = hexadecimal r.key.toNat := by
    rw [keysText, List.map_singleton, List.intercalate_singleton, UInt32.toNat_toUInt64]
  rw [printed]
  apply NodeRec.getField_text plain
    [("mask", maskText r.mask), ("blocks", decimal r.blockNum)] rfl
  simp only [List.mem_cons, List.not_mem_nil, or_false, forall_eq_or_imp, forall_eq]
  exact ⟨passes_of (by decide) (by decide) (by decide) (by decide) (isValue_maskText _),
    passes_of (by decide) (by decide) (by decide) (by decide) (isValue_decimal _)⟩

theorem NodeRec.getHitNum_text (plain : PlainName r.name) : getHitNum r.text = some r.hitNum := by
  apply getHitNum_decimal
  apply NodeRec.getField_text plain [("mask", maskText r.mask), ("blocks", decimal r.blockNum),
    ("Key", hexadecimal r.key.toNat)] rfl
  simp only [List.mem_cons, List.not_mem_nil, or_false, forall_eq_or_imp, forall_eq]
  exact ⟨passes_of (by decide) (by decide) (by decide) (by decide) (isValue_maskText _),
    passes_of (by decide) (by decide) (by decide) (by decide) (isValue_decimal _),
    passes_of (by decide) (by decide) (by decide) (by decide) (isValue_hexadecimal _)⟩

theorem NodeRec.breakOn_text (plain : PlainName r.name) :
    ∃ rest, breakOn " [".toList r.text = some (r.name, rest) := by
  obtain ⟨inside, opens⟩ : ∃ inside, opening = '[' :: inside := ⟨_, rfl⟩
  rw [NodeRec.text, opens]
  exact ⟨_, breakOn_skip_append (plain.notMem (by decide))⟩

theorem NodeRec.parseNodeLine_text (plain : PlainName r.name)
    (small : r.blockNum.toNat < 2147483648) (graph : CGGraph) :
    parseNodeLine graph ('\t' :: r.text) = some (graph.addRecord r) := by
  obtain ⟨rest, split⟩ := NodeRec.breakOn_text plain
  unfold parseNodeLine
  rw [NodeRec.trim_text plain]
  dsimp only
  rw [NodeRec.not_contains_arrow plain (by decide), if_neg Bool.false_ne_true, split]
  dsimp only
  rw [NodeRec.getBitMask_text plain, NodeRec.getBlockNum_text plain small,
    NodeRec.getKeys_text plain, NodeRec.getHitNum_text plain, plain.trim_eq]
  show some _ = some _
  congr 2
  simp

theorem NodeRec.parseEdgeLine_text (plain : PlainName r.name) (graph : CGGraph) :
    parseEdgeLine graph ('\t' :: r.text) = some graph := by
  have arrow : breakOn " -> ".toList r.text = none := by
    rw [← Option.not_isSome_iff_eq_none]
    exact Bool.eq_false_iff.mp (NodeRec.not_contains_arrow plain (by decide))
  unfold parseEdgeLine
  rw [NodeRec.trim_text plain]
  dsimp only
  rw [arrow]

end NodeLine

section EdgeLine

variable {r : EdgeRec} {srcName dstName : List Char}

theorem EdgeRec.notMem_before (srcPlain : PlainName srcName) (dstPlain : PlainName dstName) :
    '(' ∉ srcName ++ " -> ".toList ++ (dstName ++ opening) := by
  simp only [List.mem_append, not_or]
  exact ⟨⟨srcPlain.notMem (by decide), by decide⟩, dstPlain.notMem (by decide), by decide⟩

theorem EdgeRec.text_eq (r : EdgeRec) (srcName dstName : List Char) :
    r.text srcName dstName = srcName ++ " -> ".toList ++ (dstName ++ opening) ++
      (dotField "mask" (maskText r.mask) ++
        (dotFields [("Key", keysText r.keys), ("HitNum", decimal r.hitNum)] ++ closing)) := by
  simp [EdgeRec.text, EdgeRec.fields, dotFields]

theorem EdgeRec.getBitMask_text (srcPlain : PlainName srcName) (dstPlain : PlainName dstName) :
    getBitMask (r.text srcName dstName) = some (readMask r.mask) := by
  rw [getBitMask, r.text_eq, getField_skip (EdgeRec.notMem_before srcPlain dstPlain),
    getField_here (isValue_maskText _), Option.map_some, maskText_reverse]

theorem EdgeRec.getField_text (srcPlain : PlainName srcName) (dstPlain : PlainName dstName)
    {tag : String} {value : List Char} (passed : List (String × List Char))
    {rest : List (String × List Char)} {t : Char} {ts : List Char} (tagged : tag.toList = t :: ts)
    (apart : t ≠ 'm')
    (split : [("Key", keysText r.keys), ("HitNum", decimal r.hitNum)] =
      passed ++ (tag, value) :: rest)
    (passes : ∀ field ∈ passed, Passes tag field) :
    getField tag (r.text srcName dstName) = some value := by
  have isValue : IsValue value := r.isValue_fields (tag, value) (by
    rw [EdgeRec.fields, split]
    simp)
  have shape : dotFields (passed ++ (tag, value) :: rest) ++ closing = [] ++ (dotFields passed ++
      ' ' :: (dotField tag value ++ (dotFields rest ++ closing))) := by
    simp [dotFields]
  rw [r.text_eq, getField_skip (EdgeRec.notMem_before srcPlain dstPlain),
    getField_other tagged rfl apart (by decide) (isValue_maskText _), split, shape,
    getField_dotFields List.not_mem_nil passes isValue]

theorem EdgeRec.getKeys_text (srcPlain : PlainName srcName) (dstPlain : PlainName dstName) :
    getKeys (r.text srcName dstName) = some r.keys := by
  apply getKeys_keysText
  exact EdgeRec.getField_text srcPlain dstPlain [] rfl (by decide) rfl (by simp)

theorem EdgeRec.getHitNum_text (srcPlain : PlainName srcName) (dstPlain : PlainName dstName) :
    getHitNum (r.text srcName dstName) = some r.hitNum := by
  apply getHitNum_decimal
  apply EdgeRec.getField_text srcPlain dstPlain [("Key", keysText r.keys)] rfl (by decide) rfl
  simp only [List.mem_singleton, forall_eq]
  exact passes_of (by decide) (by decide) (by decide) (by decide) (isValue_keysText _)

theorem EdgeRec.parseNodeLine_text (srcPlain : PlainName srcName) (graph : CGGraph) :
    parseNodeLine graph ('\t' :: r.text srcName dstName) = some graph := by
  have arrow : contains "->" (r.text srcName dstName) = true := by
    rw [contains_iff]
    refine ⟨srcName ++ [' '], ' ' :: (dstName ++ (opening ++ ((dotFields r.fields).tail ++ closing))), ?_⟩
    simp [EdgeRec.text]
  unfold parseNodeLine
  rw [EdgeRec.trim_text srcPlain]
  dsimp only
  rw [arrow, if_pos rfl]

theorem EdgeRec.parseEdgeLine_text (srcPlain : PlainName srcName) (dstPlain : PlainName dstName)
    {graph : CGGraph} {src dst : NodeRef} (srcFound : graph.getNode srcName = some src)
    (dstFound : graph.getNode dstName = some dst) :
    parseEdgeLine graph ('\t' :: r.text srcName dstName) =
      setEdgeFields (graph.addMaskedEdge src dst (readMask r.mask)) src dst r.keys
        (r.text srcName dstName) := by
  have arrow : breakOn " -> ".toList (r.text srcName dstName) = some (srcName,
      dstName ++ (opening ++ ((dotFields r.fields).tail ++ closing))) := by
    rw [EdgeRec.text, List.append_assoc]
    exact breakOn_skip_append (srcPlain.notMem (by decide))
  obtain ⟨inside, opens⟩ : ∃ inside, opening = '[' :: inside := ⟨_, rfl⟩
  have bracket : breakOn ['['] (dstName ++ (opening ++ ((dotFields r.fields).tail ++ closing))) =
      some (dstName, inside ++ ((dotFields r.fields).tail ++ closing)) := by
    rw [opens]
    exact breakOn_skip_append (dstPlain.notMem (by decide))
  unfold parseEdgeLine
  rw [EdgeRec.trim_text srcPlain]
  dsimp only
  rw [arrow]
  dsimp only
  rw [bracket, Option.map_some, Option.getD_some, srcPlain.trim_eq, dstPlain.trim_eq, srcFound,
    dstFound]
  dsimp only
  rw [EdgeRec.getBitMask_text srcPlain dstPlain, EdgeRec.getKeys_text srcPlain dstPlain]
  rfl

end EdgeLine

section Mark

/-- What `CalDotType` looks for. -/
def svfMark : List Char := "Node0x".toList

theorem infix_dotField_iff {tag : String} {value s : List Char} (isValue : IsValue value) :
    svfMark <:+: dotField tag value ++ s ↔ svfMark <:+: tag.toList ∨ svfMark <:+: s := by
  have shape : dotField tag value ++ s = [] ++ '(' :: (tag.toList ++ '=' :: (value ++ ')' :: s)) := by
    simp [dotField]
  have inside : ¬ svfMark <:+: value := fun here =>
    isValue.notMem (by decide) (here.subset (by decide : 'N' ∈ svfMark))
  rw [shape, infix_append_cons_iff (by decide), infix_append_cons_iff (by decide),
    infix_append_cons_iff (by decide)]
  simp only [inside, false_or]
  exact or_iff_right (by decide)

theorem infix_dotFields_iff {fields : List (String × List Char)} {s : List Char}
    (tags : ∀ field ∈ fields, ¬ svfMark <:+: field.1.toList)
    (values : ∀ field ∈ fields, IsValue field.2) :
    svfMark <:+: dotFields fields ++ s ↔ svfMark <:+: s := by
  induction fields with
  | nil => exact Iff.rfl
  | cons field rest inductionHypothesis =>
    have shape : dotFields (field :: rest) ++ s =
        [] ++ ' ' :: (dotField field.1 field.2 ++ (dotFields rest ++ s)) := by
      simp [dotFields]
    rw [shape, infix_append_cons_iff (by decide), infix_dotField_iff (values field List.mem_cons_self),
      inductionHypothesis (fun other member => tags other (List.mem_cons_of_mem field member))
        fun other member => values other (List.mem_cons_of_mem field member)]
    simp only [tags field List.mem_cons_self, false_or]
    exact or_iff_right (by decide)

theorem NodeRec.infix_labelName_iff {r : NodeRec} (plain : PlainName r.name) :
    svfMark <:+: r.labelName ↔ maskNone r.mask = false ∧ svfMark <:+: r.name ++ r.name := by
  unfold NodeRec.labelName
  cases maskNone r.mask with
  | true =>
    rw [if_pos rfl]
    exact iff_of_false plain.unmarked (by simp)
  | false => simp

theorem NodeRec.infix_text_iff {r : NodeRec} (plain : PlainName r.name) :
    svfMark <:+: r.text ↔ maskNone r.mask = false ∧ svfMark <:+: r.name ++ r.name := by
  have fields : ¬ svfMark <:+: dotFields r.fields.tail ++ closing := by
    rw [infix_dotFields_iff _ fun field member => r.isValue_fields field (List.mem_of_mem_tail member)]
    · decide
    · simp only [NodeRec.fields, List.tail_cons, List.mem_cons, List.not_mem_nil, or_false,
        forall_eq_or_imp, forall_eq]
      decide
  have shape : r.text = r.name ++ ' ' :: ((opening ++ r.labelName) ++
      ' ' :: (dotField "mask" (maskText r.mask) ++ (dotFields r.fields.tail ++ closing))) := by
    simp [NodeRec.text, NodeRec.fields, dotFields]
  have skip : svfMark <:+: opening ++ r.labelName ↔ svfMark <:+: r.labelName :=
    infix_skip_iff (by decide)
  rw [shape, infix_append_cons_iff (by decide), infix_append_cons_iff (by decide), skip,
    NodeRec.infix_labelName_iff plain, infix_dotField_iff (isValue_maskText _)]
  have tag : ¬ svfMark <:+: "mask".toList := by decide
  have name : ¬ svfMark <:+: r.name := plain.unmarked
  simp only [fields, tag, name, or_false, false_or]

theorem EdgeRec.not_infix_text {r : EdgeRec} {srcName dstName : List Char}
    (srcPlain : PlainName srcName) (dstPlain : PlainName dstName) :
    ¬ svfMark <:+: r.text srcName dstName := by
  have fields : ¬ svfMark <:+: dotFields r.fields.tail ++ closing := by
    rw [infix_dotFields_iff _ fun field member => r.isValue_fields field (List.mem_of_mem_tail member)]
    · decide
    · simp only [EdgeRec.fields, List.tail_cons, List.mem_cons, List.not_mem_nil, or_false,
        forall_eq_or_imp, forall_eq]
      decide
  obtain ⟨inside, opens⟩ : ∃ inside, opening = '[' :: inside := ⟨_, rfl⟩
  have skipped : 'N' ∉ inside := fun member =>
    (by decide : 'N' ∉ opening) (opens ▸ List.mem_cons_of_mem _ member)
  have shape : r.text srcName dstName = srcName ++ ' ' :: (['-', '>'] ++ ' ' :: (dstName ++
      '[' :: (inside ++ (dotField "mask" (maskText r.mask) ++
        (dotFields r.fields.tail ++ closing))))) := by
    simp [EdgeRec.text, opens, EdgeRec.fields, dotFields]
  have mask : ¬ svfMark <:+: dotField "mask" (maskText r.mask) ++
      (dotFields r.fields.tail ++ closing) := by
    rw [infix_dotField_iff (isValue_maskText _)]
    simp only [fields, or_false]
    decide
  have skip : ¬ svfMark <:+: inside ++ (dotField "mask" (maskText r.mask) ++
      (dotFields r.fields.tail ++ closing)) :=
    fun found => mask ((infix_skip_iff skipped).mp found)
  have arrow : ¬ svfMark <:+: ['-', '>'] := by decide
  have src : ¬ svfMark <:+: srcName := srcPlain.unmarked
  have dst : ¬ svfMark <:+: dstName := dstPlain.unmarked
  rw [shape, infix_append_cons_iff (by decide), infix_append_cons_iff (by decide),
    infix_append_cons_iff (by decide)]
  simp only [src, arrow, dst, skip, or_false, not_false_eq_true]

end Mark

end GraphDissect.CallGraph
