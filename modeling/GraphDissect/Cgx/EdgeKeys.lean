import GraphDissect.Cgx.CgxMap
import GraphDissect.Scheduler.Attribution

/-!
# Static and recorded edge keys

The static mapper puts the return address of a call site into the high half of
an edge key.  The recorder first replaces the return address by the entry of
the function around it.  The two meet only where a return address happens to
be congruent to that entry.
-/

namespace GraphDissect.Cgx

open CallGraph Fcov Library Scheduler

theorem flatMap_ite {Item Output : Type} (keep : Item → Prop) [DecidablePred keep]
    (output : Item → Output) (items : List Item) :
    (items.flatMap fun item => if keep item then [output item] else []) =
      (items.filter fun item => keep item).map output := by
  induction items with
  | nil => rfl
  | cons item rest inductionHypothesis =>
      rw [List.flatMap_cons, inductionHypothesis, List.filter_cons]
      by_cases kept : keep item <;> simp [kept]

/-- A graph that differs from `base` in edge keys only. -/
structure Mapped (base graph : CGGraph) : Prop where
  nodes : graph.nodes = base.nodes
  names : graph.fnameToNode = base.fnameToNode
  ends : ∀ ref, (graph.edges ref).dst = (base.edges ref).dst

theorem Mapped.findEdge_eq {base graph : CGGraph} (mapped : Mapped base graph)
    (src dst : NodeRef) : findEdge graph src dst = findEdge base src dst := by
  unfold findEdge
  rw [mapped.nodes]
  congr 1
  funext edge
  rw [mapped.ends]

section OneEdge

variable {base : CGGraph} {f g : FName} {src dst : NodeRef} {edge : EdgeRef}

/-- The edge from `f` to `g` is the only one that `setEdgeKey` finds for the
two names. -/
structure IsEdge (base : CGGraph) (f g : FName) (src dst : NodeRef) (edge : EdgeRef) :
    Prop where
  wellFormed : base.WellFormed
  named : base.Named
  srcNode : base.getNode f = some src
  dstNode : base.getNode g = some dst
  found : findEdge base src dst = some edge

theorem IsEdge.mem_outEdges (isEdge : IsEdge base f g src dst edge) :
    edge ∈ (base.nodes src).outEdges ∧ (base.edges edge).dst = dst := by
  have found := isEdge.found
  exact ⟨List.mem_of_find?_eq_some found, by simpa using List.find?_some found⟩

theorem IsEdge.names_eq (isEdge : IsEdge base f g src dst edge) {s d : FName}
    {src' dst' : NodeRef} (srcNode : base.getNode s = some src')
    (dstNode : base.getNode d = some dst') (found : findEdge base src' dst' = some edge) :
    s = f ∧ d = g := by
  rcases isEdge.mem_outEdges with ⟨out, toDst⟩
  have out' := List.mem_of_find?_eq_some found
  have toDst' : (base.edges edge).dst = dst' := by simpa using List.find?_some found
  rcases isEdge.named.of_getNode isEdge.srcNode with ⟨srcIn, srcName⟩
  rcases isEdge.named.of_getNode srcNode with ⟨srcIn', srcName'⟩
  have sameSrc : src' = src :=
    (isEdge.wellFormed.outgoing src' srcIn' edge out').1.symm.trans
      (isEdge.wellFormed.outgoing src srcIn edge out).1
  have sameDst : dst' = dst := toDst'.symm.trans toDst
  subst sameSrc sameDst
  exact ⟨srcName'.symm.trans srcName,
    (isEdge.named.of_getNode dstNode).2.symm.trans (isEdge.named.of_getNode isEdge.dstNode).2⟩

/-- What `setEdgeKey` adds to the edge. -/
theorem IsEdge.setEdgeKey (isEdge : IsEdge base f g src dst edge) {graph next : CGGraph}
    {s d : FName} {retAddr : Nat} (mapped : Mapped base graph)
    (set : setEdgeKey graph s d retAddr = some next) :
    Mapped base next ∧ (next.edges edge).keys = (graph.edges edge).keys ++
      if s = f ∧ d = g then [retKey (UInt32.ofNat retAddr) (base.nodes dst).key] else [] := by
  unfold Cgx.setEdgeKey at set
  have names : ∀ name, graph.getNode name = base.getNode name := by
    intro name
    unfold CGGraph.getNode
    rw [mapped.names]
  split at set
  next =>
    split at set
    next => cases set
    next src' srcNode =>
      rw [names] at srcNode
      split at set
      next noDst =>
        cases set
        refine ⟨mapped, ?_⟩
        rw [if_neg, List.append_nil]
        rintro ⟨-, rfl⟩
        rw [names, isEdge.dstNode] at noDst
        cases noDst
      next dst' dstNode =>
        rw [names] at dstNode
        rw [mapped.findEdge_eq] at set
        split at set
        next missing =>
          cases set
          refine ⟨mapped, ?_⟩
          rw [if_neg, List.append_nil]
          rintro ⟨rfl, rfl⟩
          cases isEdge.srcNode.symm.trans srcNode
          cases isEdge.dstNode.symm.trans dstNode
          cases isEdge.found.symm.trans missing
        next ref found =>
          cases set
          refine ⟨⟨mapped.nodes, mapped.names, ?_⟩, ?_⟩
          · intro other
            rw [← mapped.ends other]
            by_cases same : other = ref
            · subst same
              simp [CGGraph.setEdge]
            · simp [CGGraph.setEdge, same]
          · by_cases same : edge = ref
            · subst same
              rcases isEdge.names_eq srcNode dstNode found with ⟨rfl, rfl⟩
              cases isEdge.dstNode.symm.trans dstNode
              simp [CGGraph.setEdge, mapped.nodes]
            · rw [if_neg, List.append_nil]
              · simp [CGGraph.setEdge, same]
              · rintro ⟨rfl, rfl⟩
                cases isEdge.srcNode.symm.trans srcNode
                cases isEdge.dstNode.symm.trans dstNode
                cases isEdge.found.symm.trans found
                exact same rfl
  next => cases set

/-- The keys for a list of return addresses. -/
def retKeys (base : CGGraph) (dst : NodeRef) (retsites : List Nat) : List UInt64 :=
  retsites.map fun retsite => retKey (UInt32.ofNat retsite) (base.nodes dst).key

/-- What the direct call sites of `fn` add to the edge. -/
theorem IsEdge.setDirectKeys (isEdge : IsEdge base f g src dst edge) {graph next : CGGraph}
    {functions : List FName} {fn : FName} {sites : List CallSite} (mapped : Mapped base graph)
    (known : g ∈ functions) (set : setDirectKeys functions fn graph sites = some next) :
    Mapped base next ∧ (next.edges edge).keys = (graph.edges edge).keys ++
      if fn = f then
        retKeys base dst
          ((sites.filter fun site => site.callee = some g).map CallSite.retsite)
      else [] := by
  have appended := runFrom_appends (fun graph => (graph.edges edge).keys)
    (fun site => if fn = f ∧ site.callee = some g then
      [retKey (UInt32.ofNat site.retsite) (base.nodes dst).key] else [])
    (fun graph site next mapped set => ?_) mapped set
  · refine ⟨appended.1, ?_⟩
    rw [appended.2]
    congr 1
    by_cases own : fn = f
    · simp only [own, true_and, if_true, retKeys, List.map_map]
      exact flatMap_ite (fun site => site.callee = some g) _ sites
    · simp [own]
  · split at set
    next indirect =>
      cases set
      exact ⟨mapped, by simp [indirect]⟩
    next callee direct =>
      split at set
      next =>
        rcases isEdge.setEdgeKey mapped set with ⟨kept, keys⟩
        refine ⟨kept, ?_⟩
        rw [keys, direct]
        simp
      next unknown =>
        cases set
        refine ⟨mapped, ?_⟩
        rw [if_neg, List.append_nil]
        rintro ⟨-, calls⟩
        rw [direct] at calls
        cases calls
        exact unknown known

/-- What the indirect call sites of `fn` add to the edge. -/
theorem IsEdge.setIndirectKeys (isEdge : IsEdge base f g src dst edge) {graph next : CGGraph}
    {fn : FName} {callees : List FName} {retsites : List Nat} (mapped : Mapped base graph)
    (distinct : callees.Nodup) (set : setIndirectKeys fn graph callees retsites = some next) :
    Mapped base next ∧ (next.edges edge).keys = (graph.edges edge).keys ++
      if fn = f ∧ g ∈ callees then retKeys base dst retsites else [] := by
  have appended := runFrom_appends (fun graph => (graph.edges edge).keys)
    (fun callee => if callee = g then
      (if fn = f then retKeys base dst retsites else []) else [])
    (fun graph callee next mapped set => ?_) mapped set
  · refine ⟨appended.1, ?_⟩
    rw [appended.2]
    congr 1
    by_cases member : g ∈ callees
    · rw [flatMap_single distinct member]
      simp [member]
    · have outside : ¬(fn = f ∧ g ∈ callees) := fun both => member both.2
      rw [if_neg outside]
      apply List.flatMap_eq_nil_iff.mpr
      intro callee calleeIn
      rw [if_neg]
      rintro rfl
      exact member calleeIn
  · have one : ∀ (graph : CGGraph) (retsite : Nat) (next : CGGraph), Mapped base graph →
        Cgx.setEdgeKey graph fn callee retsite = some next → Mapped base next ∧
          (next.edges edge).keys = (graph.edges edge).keys ++ if fn = f ∧ callee = g then
            [retKey (UInt32.ofNat retsite) (base.nodes dst).key] else [] :=
      fun _ _ _ before added => isEdge.setEdgeKey before added
    have inner := runFrom_appends (fun graph => (graph.edges edge).keys) _ one mapped set
    refine ⟨inner.1, ?_⟩
    rw [inner.2]
    congr 1
    by_cases own : fn = f <;> by_cases calls : callee = g <;>
      simp [own, calls, retKeys, List.map_eq_flatMap]

/-- The graph knows `g` as a callee of `f`. -/
theorem IsEdge.mem_getCallees (isEdge : IsEdge base f g src dst edge) {graph : CGGraph}
    (mapped : Mapped base graph) {callees : List FName}
    (listed : getCallees graph f = some callees) : g ∈ callees := by
  rcases isEdge.mem_outEdges with ⟨out, toDst⟩
  have node : graph.getNode f = some src := by
    unfold CGGraph.getNode
    rw [mapped.names]
    exact isEdge.srcNode
  rw [getCallees, node] at listed
  cases listed
  refine List.mem_map.mpr ⟨edge, by rwa [mapped.nodes], ?_⟩
  rw [mapped.ends, toDst, mapped.nodes]
  exact (isEdge.named.of_getNode isEdge.dstNode).2

theorem IsEdge.parseCallsitesOf (isEdge : IsEdge base f g src dst edge) {graph next : CGGraph}
    {binary : Binary} {functions : List FName} {fn : FName} (mapped : Mapped base graph)
    (known : g ∈ functions) (set : parseCallsitesOf binary functions graph fn = some next) :
    Mapped base next ∧ (next.edges edge).keys = (graph.edges edge).keys ++
      if fn = f then retKeys base dst (retSites binary functions f g) else [] := by
  unfold Cgx.parseCallsitesOf at set
  split at set
  next failed =>
    cases set
    refine ⟨mapped, ?_⟩
    by_cases own : fn = f
    · subst own
      simp [retSites, failed, retKeys]
    · simp [own]
  next sites disassembled =>
    rcases Option.bind_eq_some_iff.mp set with ⟨middle, directSet, rest⟩
    rcases Option.bind_eq_some_iff.mp rest with ⟨callees, listed, indirectSet⟩
    rcases isEdge.setDirectKeys mapped known directSet with ⟨middleMapped, direct⟩
    rcases isEdge.setIndirectKeys middleMapped
      (List.Nodup.filter _ (List.nodup_dedup callees)) indirectSet with ⟨kept, indirect⟩
    refine ⟨kept, ?_⟩
    rw [indirect, direct, List.append_assoc]
    congr 1
    by_cases own : fn = f
    · subst own
      have callee := isEdge.mem_getCallees middleMapped listed
      by_cases isDirect : g ∈ directCallees functions sites
      · simp [retSites, disassembled, isDirect]
      · have noSite : (sites.filter fun site => site.callee = some g) = [] := by
          apply List.filter_eq_nil_iff.mpr
          intro site siteIn
          simp only [decide_eq_true_eq]
          intro calls
          exact isDirect (List.mem_filter.mpr
            ⟨List.mem_filterMap.mpr ⟨site, siteIn, calls⟩, by simpa using known⟩)
        simp [retSites, disassembled, isDirect, noSite, callee, retKeys]
    · simp [own]

theorem IsEdge.parseCallsites (isEdge : IsEdge base f g src dst edge) {next : CGGraph}
    {binary : Binary} {functions : List FName} (distinct : functions.Nodup)
    (caller : f ∈ functions) (known : g ∈ functions)
    (set : parseCallsites binary functions base = some next) :
    (next.edges edge).keys =
      (base.edges edge).keys ++ retKeys base dst (retSites binary functions f g) := by
  have one : ∀ (graph : CGGraph) (fn : FName) (next : CGGraph), Mapped base graph →
      Cgx.parseCallsitesOf binary functions graph fn = some next → Mapped base next ∧
        (next.edges edge).keys = (graph.edges edge).keys ++
          if fn = f then retKeys base dst (retSites binary functions f g) else [] :=
    fun _ _ _ before added => isEdge.parseCallsitesOf before known added
  have appended := runFrom_appends (fun graph => (graph.edges edge).keys) _ one
    ⟨rfl, rfl, fun _ => rfl⟩ set
  rw [appended.2, flatMap_single distinct caller]

end OneEdge

section NodeKeys

/-- A graph that differs from `base` in node keys only. -/
structure Rekeyed (base graph : CGGraph) : Prop where
  edges : graph.edges = base.edges
  ids : graph.idToNode = base.idToNode
  names : graph.fnameToNode = base.fnameToNode
  nodes : ∀ ref, graph.nodes ref = { base.nodes ref with key := (graph.nodes ref).key }

theorem Rekeyed.isEdge {base graph : CGGraph} {f g : FName} {src dst : NodeRef} {edge : EdgeRef}
    (rekeyed : Rekeyed base graph) (isEdge : IsEdge base f g src dst edge) :
    IsEdge graph f g src dst edge := by
  have same : graph = { base with
      nodes := graph.nodes
      nodeNum := graph.nodeNum
      edgeNum := graph.edgeNum
      nodeAllocs := graph.nodeAllocs
      edgeAllocs := graph.edgeAllocs } := by
    rcases rekeyed with ⟨edges, ids, names, -⟩
    cases graph
    cases edges
    cases ids
    cases names
    rfl
  have refs : graph.nodeRefs = base.nodeRefs := by
    unfold CGGraph.nodeRefs
    rw [rekeyed.ids]
  have lookups : ∀ name, graph.getNode name = base.getNode name := by
    intro name
    unfold CGGraph.getNode
    rw [rekeyed.names]
  refine ⟨?_, ⟨?_, ?_⟩, ?_, ?_, ?_⟩
  · have shaped := @CGGraph.WellFormed.of_nodes _ isEdge.wellFormed graph.nodes fun ref => by
      rw [rekeyed.nodes ref]
      exact ⟨rfl, rfl, rfl⟩
    rw [same]
    exact ⟨shaped.ids, shaped.outgoing, shaped.incoming⟩
  · intro entry member
    rw [rekeyed.names] at member
    rw [refs, rekeyed.nodes]
    exact isEdge.named.entries entry member
  · intro ref member
    rw [refs] at member
    rw [lookups, rekeyed.nodes]
    exact isEdge.named.listed ref member
  · rw [lookups]
    exact isEdge.srcNode
  · rw [lookups]
    exact isEdge.dstNode
  · have found := isEdge.found
    unfold findEdge at found ⊢
    rw [rekeyed.edges, rekeyed.nodes]
    exact found

/-- What `setNodeKey` does to the node of `g`. -/
theorem Rekeyed.setNodeKey {base graph next : CGGraph} (rekeyed : Rekeyed base graph)
    (named : base.Named) {g fn : FName} {dst : NodeRef} {faddr : Nat}
    (dstNode : base.getNode g = some dst) (set : setNodeKey graph fn faddr = some next) :
    Rekeyed base next ∧ (next.nodes dst).key =
      if fn = g then UInt32.ofNat faddr else (graph.nodes dst).key := by
  have lookup : graph.getNode fn = base.getNode fn := by
    unfold CGGraph.getNode
    rw [rekeyed.names]
  unfold Cgx.setNodeKey at set
  split at set
  next =>
    rw [lookup] at set
    split at set
    next missing =>
      cases set
      refine ⟨rekeyed, ?_⟩
      rw [if_neg]
      rintro rfl
      cases dstNode.symm.trans missing
    next ref found =>
      cases set
      refine ⟨⟨rekeyed.edges, rekeyed.ids, rekeyed.names, ?_⟩, ?_⟩
      · intro other
        by_cases same : other = ref
        · subst same
          simp only [CGGraph.setNode, Function.update_self]
          rw [rekeyed.nodes other]
        · simp only [CGGraph.setNode, Function.update_of_ne same]
          exact rekeyed.nodes other
      · by_cases same : dst = ref
        · subst same
          have name := (named.of_getNode found).2.symm.trans (named.of_getNode dstNode).2
          rw [if_pos name]
          simp [CGGraph.setNode]
        · rw [if_neg]
          · simp [CGGraph.setNode, same]
          · rintro rfl
            cases dstNode.symm.trans found
            exact same rfl
  next => cases set

theorem Rekeyed.parseFunctions {base graph next : CGGraph} (rekeyed : Rekeyed base graph)
    (named : base.Named) {binary : Binary} {functions : List FName} {g : FName} {dst : NodeRef}
    {addr : Nat} (dstNode : base.getNode g = some dst)
    (address : name2addr binary.nm (stripSuffix g) = some addr)
    (set : parseFunctions binary functions graph = some next) :
    Rekeyed base next ∧ (next.nodes dst).key =
      if g ∈ functions then UInt32.ofNat addr else (graph.nodes dst).key := by
  induction functions generalizing graph with
  | nil =>
      cases set
      exact ⟨rekeyed, rfl⟩
  | cons fn rest inductionHypothesis =>
      rcases runFrom_cons_eq_some.mp set with ⟨middle, taken, remaining⟩
      have one : Rekeyed base middle ∧ (middle.nodes dst).key =
          if fn = g then UInt32.ofNat addr else (graph.nodes dst).key := by
        split at taken
        next missing =>
          cases taken
          refine ⟨rekeyed, ?_⟩
          rw [if_neg]
          rintro rfl
          cases address.symm.trans missing
        next faddr found =>
          rcases rekeyed.setNodeKey named dstNode taken with ⟨kept, key⟩
          refine ⟨kept, key.trans ?_⟩
          split
          next here =>
            subst here
            cases address.symm.trans found
            rfl
          next => rfl
      rcases inductionHypothesis one.1 remaining with ⟨kept, key⟩
      refine ⟨kept, ?_⟩
      rw [key, one.2]
      by_cases here : fn = g
      · simp [here]
      · simp [here, Ne.symm here]

end NodeKeys

section Agreement

theorem fcovMakeEdgeKey_eq_retKey {entry callee : UInt64} {retAddr dstKey : UInt32} :
    fcovMakeEdgeKey entry callee = retKey retAddr dstKey ↔
      entry.toUInt32 = retAddr ∧ callee.toUInt32 = dstKey := by
  have packed : retKey retAddr dstKey = fcovMakeEdgeKey retAddr.toUInt64 dstKey.toUInt64 := by
    simp [retKey, fcovMakeEdgeKey]
  rw [packed]
  constructor
  · intro same
    have high := congrArg callerKey same
    have low := congrArg calleeKey same
    simp only [callerKey_makeEdgeKey, calleeKey_makeEdgeKey] at high low
    simpa using And.intro high low
  · rintro ⟨rfl, rfl⟩
    simp only [fcovMakeEdgeKey, UInt32.toUInt32_toUInt64]

/-- A counted call adds to an edge once for each of the edge's keys that is the
recorded one. -/
theorem getEdgeHitNum_fcovRecord {dladdr : UInt64 → Option UInt64} {fcov : FuncCoverage}
    {caller callee : UInt64} (consistent : fcov.Consistent) (nonzero : callee ≠ 0)
    (counted : Counted fcov (.edge (fcovMakeEdgeKey (pcToFuncEntry dladdr caller) callee)))
    (edge : CGEdge) :
    getEdgeHitNum (Fcov.fcovRecord dladdr fcov caller callee) edge =
      getEdgeHitNum fcov edge + UInt32.ofNat
        (edge.keys.count (fcovMakeEdgeKey (pcToFuncEntry dladdr caller) callee)) := by
  rw [fcovRecord_eq counted.1 nonzero]
  generalize fcovMakeEdgeKey (pcToFuncEntry dladdr caller) callee = edgeKey at counted ⊢
  have visited := (recordAll_visited consistent [.edge edgeKey, .func callee]).2.1
  have one : ∀ key, edgeIncrements key fcov [.edge edgeKey, .func callee] =
      if edgeKey = key then 1 else 0 := by
    intro key
    by_cases same : edgeKey = key <;> simp [edgeIncrements, edgeIncrement, same]
    subst same
    exact counted
  have general : ∀ (keys : List UInt64) (start added : UInt32),
      keys.foldl (fun hitNum key => hitNum +
          fcovIsEdgeVisited (recordAll fcov [.edge edgeKey, .func callee]) key) (start + added) =
        keys.foldl (fun hitNum key => hitNum + fcovIsEdgeVisited fcov key) start +
          (added + UInt32.ofNat (keys.count edgeKey)) := by
    intro keys
    induction keys with
    | nil =>
        intro start added
        simp
    | cons key rest inductionHypothesis =>
        intro start added
        have moved : start + added +
            fcovIsEdgeVisited (recordAll fcov [.edge edgeKey, .func callee]) key =
              (start + fcovIsEdgeVisited fcov key) +
                (added + UInt32.ofNat (if edgeKey = key then 1 else 0)) := by
          rw [visited, one]
          ac_rfl
        rw [List.foldl_cons, List.foldl_cons, moved, inductionHypothesis, List.count_cons]
        by_cases same : edgeKey = key
        · subst same
          simp only [if_true, beq_self_eq_true, UInt32.ofNat_add]
          ac_rfl
        · simp [same, Ne.symm same]
  have total := general edge.keys 0 0
  simpa [getEdgeHitNum] using total

theorem toUInt32_ofNat (value : Nat) : (UInt64.ofNat value).toUInt32 = UInt32.ofNat value := by
  apply UInt32.toNat_inj.mp
  simp only [UInt64.toNat_toUInt32, UInt64.toNat_ofNat', UInt32.toNat_ofNat']
  omega

theorem nodup_getAllFunctions {graph : CGGraph} (wellFormed : graph.WellFormed)
    (named : graph.Named) : (getAllFunctions graph).Nodup := by
  apply List.Nodup.map_on
  · intro first firstIn second secondIn same
    have here := named.listed first firstIn
    rw [same, named.listed second secondIn] at here
    exact (Option.some.inj here).symm
  · exact wellFormed.nodup_nodeRefs

theorem mem_getAllFunctions {graph : CGGraph} (named : graph.Named) {fname : FName}
    {ref : NodeRef} (found : graph.getNode fname = some ref) : fname ∈ getAllFunctions graph := by
  rcases named.of_getNode found with ⟨member, name⟩
  exact List.mem_map.mpr ⟨ref, member, name⟩

theorem keys_updateCgmap {binary : Binary} {graph updated : CGGraph} {f g : FName}
    {src dst : NodeRef} {edge : EdgeRef} {addr : Nat} (isEdge : IsEdge graph f g src dst edge)
    (unkeyed : (graph.edges edge).keys = [])
    (address : name2addr binary.nm (stripSuffix g) = some addr)
    (ran : updateCgmap binary graph = some updated) :
    (updated.edges edge).keys = (retSites binary (getAllFunctions graph) f g).map
      fun retsite => retKey (UInt32.ofNat retsite) (UInt32.ofNat addr) := by
  rcases Option.bind_eq_some_iff.mp ran with ⟨middle, functions, callsites⟩
  have distinct := nodup_getAllFunctions isEdge.wellFormed isEdge.named
  have caller := mem_getAllFunctions isEdge.named isEdge.srcNode
  have known := mem_getAllFunctions isEdge.named isEdge.dstNode
  rcases Rekeyed.parseFunctions ⟨rfl, rfl, rfl, fun _ => rfl⟩ isEdge.named isEdge.dstNode address
    functions with ⟨rekeyed, key⟩
  have keys := (rekeyed.isEdge isEdge).parseCallsites distinct caller known callsites
  rw [if_pos known] at key
  rw [keys, rekeyed.edges, unkeyed, List.nil_append, retKeys, key]

theorem retKey_eq_iff {addr site : Nat} {entry : UInt64} :
    retKey (UInt32.ofNat site) (UInt32.ofNat addr) = fcovMakeEdgeKey entry (UInt64.ofNat addr) ↔
      site % 2 ^ 32 = entry.toNat % 2 ^ 32 := by
  rw [eq_comm, fcovMakeEdgeKey_eq_retKey, toUInt32_ofNat, ← UInt32.toNat_inj]
  simp only [UInt64.toNat_toUInt32, UInt32.toNat_ofNat', and_true]
  exact eq_comm

section Edge

variable {binary : Binary} {graph updated : CGGraph} {f g : FName} {src dst : NodeRef}
  {edge : EdgeRef} {addr : Nat}

theorem mem_keys_iff (isEdge : IsEdge graph f g src dst edge)
    (unkeyed : (graph.edges edge).keys = [])
    (address : name2addr binary.nm (stripSuffix g) = some addr)
    (ran : updateCgmap binary graph = some updated) (entry : UInt64) :
    fcovMakeEdgeKey entry (UInt64.ofNat addr) ∈ (updated.edges edge).keys ↔
      ∃ site ∈ retSites binary (getAllFunctions graph) f g,
        site % 2 ^ 32 = entry.toNat % 2 ^ 32 := by
  rw [keys_updateCgmap isEdge unkeyed address ran, List.mem_map]
  exact exists_congr fun site => and_congr_right fun _ => retKey_eq_iff

/-- When a call of `g` with return address `r` executes, the recorded key is a
key of the edge from `f` to `g` exactly if a return address reported for the
edge is congruent, modulo `2 ^ 32`, to the function entry found for `r`; the
call is counted on the edge once for each such address. -/
theorem recorded_edge_key_iff (isEdge : IsEdge graph f g src dst edge)
    (unkeyed : (graph.edges edge).keys = [])
    (address : name2addr binary.nm (stripSuffix g) = some addr)
    (ran : updateCgmap binary graph = some updated) (dladdr : UInt64 → Option UInt64)
    (r : UInt64) :
    (fcovMakeEdgeKey (pcToFuncEntry dladdr r) (UInt64.ofNat addr) ∈ (updated.edges edge).keys ↔
      ∃ site ∈ retSites binary (getAllFunctions graph) f g,
        site % 2 ^ 32 = (pcToFuncEntry dladdr r).toNat % 2 ^ 32) ∧
    ∀ fcov : FuncCoverage, fcov.Consistent → UInt64.ofNat addr ≠ 0 →
      Counted fcov (.edge (fcovMakeEdgeKey (pcToFuncEntry dladdr r) (UInt64.ofNat addr))) →
      getEdgeHitNum (Fcov.fcovRecord dladdr fcov r (UInt64.ofNat addr)) (updated.edges edge) =
        getEdgeHitNum fcov (updated.edges edge) + UInt32.ofNat
          ((retSites binary (getAllFunctions graph) f g).countP fun site =>
            site % 2 ^ 32 = (pcToFuncEntry dladdr r).toNat % 2 ^ 32) := by
  refine ⟨mem_keys_iff isEdge unkeyed address ran _, ?_⟩
  intro fcov consistent nonzero counted
  rw [getEdgeHitNum_fcovRecord consistent nonzero counted,
    keys_updateCgmap isEdge unkeyed address ran, List.count, List.countP_map]
  congr 2
  apply List.countP_congr
  intro site _
  simpa using retKey_eq_iff

end Edge

end Agreement

section Example

/-- `main` calls `parse`; no keys yet. -/
def bareGraph : CGGraph :=
  let graph := (CGGraph.empty.addNode "main".toList).1
  let graph := (graph.addNode "parse".toList).1
  (graph.addEdge 0 1).1

/-- `main` is at `0x401000` and its call of `parse` returns to `0x401005`. -/
def smallBinary : Binary where
  nm := [⟨0x401000, ['T'], "main".toList⟩, ⟨0x402000, ['T'], "parse".toList⟩]
  disasmFunction fn :=
    if fn = "main".toList then some [⟨some "parse".toList, 0x401005⟩]
    else if fn = "parse".toList then some []
    else none

/-- `dladdr` knows the two functions. -/
def smallDladdr (pc : UInt64) : Option UInt64 :=
  if pc < 0x401000 then none else if pc < 0x402000 then some 0x401000 else some 0x402000

theorem isEdge_bareGraph : IsEdge bareGraph "main".toList "parse".toList 0 1 0 :=
  ⟨by decide, by decide, by decide, by decide, by decide⟩

theorem recorded_edge_key_iff_small : ∃ updated, updateCgmap smallBinary bareGraph = some updated ∧
    (fcovMakeEdgeKey (pcToFuncEntry smallDladdr 0x401005) 0x402000 ∈ (updated.edges 0).keys ↔
      ∃ site ∈ retSites smallBinary (getAllFunctions bareGraph) "main".toList "parse".toList,
        site % 2 ^ 32 = (pcToFuncEntry smallDladdr 0x401005).toNat % 2 ^ 32) := by
  have ran : (updateCgmap smallBinary bareGraph).isSome = true := by decide
  exact ⟨_, (Option.some_get ran).symm,
    (recorded_edge_key_iff isEdge_bareGraph rfl (by decide) (Option.some_get ran).symm smallDladdr
      0x401005).1⟩

/-- The one reported call of `main` is recorded under a key that its edge does
not have, and the edge stays at zero. -/
theorem recorded_edge_key_lost : ∃ updated, updateCgmap smallBinary bareGraph = some updated ∧
    0x401005 ∈ retSites smallBinary (getAllFunctions bareGraph) "main".toList "parse".toList ∧
    smallDladdr 0x401005 = some 0x401000 ∧
    fcovMakeEdgeKey (pcToFuncEntry smallDladdr 0x401005) 0x402000 ∉ (updated.edges 0).keys ∧
    fcovIsEdgeVisited (Fcov.fcovRecord smallDladdr FuncCoverage.zeroed 0x401005 0x402000)
      (fcovMakeEdgeKey (pcToFuncEntry smallDladdr 0x401005) 0x402000) = 1 ∧
    getEdgeHitNum (Fcov.fcovRecord smallDladdr FuncCoverage.zeroed 0x401005 0x402000)
      (updated.edges 0) = 0 := by
  have ran : (updateCgmap smallBinary bareGraph).isSome = true := by decide
  exact ⟨_, (Option.some_get ran).symm, by decide, by decide, by decide +revert, by decide,
    by decide +revert⟩

end Example

end GraphDissect.Cgx
