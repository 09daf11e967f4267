import GraphDissect.Scheduler.Policy

/-!
# The progress policy starves no driver

A driver keeps its slot only while its windows find new edges.  `HitNum` of an
edge never returns to zero, so every edge is new at most once, and all drivers
together keep their slots at most as often as the graph has edges.
-/

namespace GraphDissect.Scheduler

open CallGraph Fcov Library

/-- The edges of a graph: those in the edge sets of its nodes. -/
def edgeRefs (graph : CGGraph) : Finset EdgeRef :=
  (graph.nodeRefs.flatMap fun ref => (graph.nodes ref).outEdges ++ (graph.nodes ref).inEdges).toFinset

/-- Two states of one graph: the same nodes with the same edge sets. -/
structure SameShape (graph other : CGGraph) : Prop where
  idToNode : other.idToNode = graph.idToNode
  outEdges : ∀ ref, (other.nodes ref).outEdges = (graph.nodes ref).outEdges
  inEdges : ∀ ref, (other.nodes ref).inEdges = (graph.nodes ref).inEdges

section Shapes

variable {graph other third : CGGraph}

theorem SameShape.refl (graph : CGGraph) : SameShape graph graph :=
  ⟨rfl, fun _ => rfl, fun _ => rfl⟩

theorem SameShape.trans (first : SameShape graph other) (second : SameShape other third) :
    SameShape graph third where
  idToNode := second.idToNode.trans first.idToNode
  outEdges ref := (second.outEdges ref).trans (first.outEdges ref)
  inEdges ref := (second.inEdges ref).trans (first.inEdges ref)

theorem SameShape.edgeRefs_eq (same : SameShape graph other) : edgeRefs other = edgeRefs graph := by
  simp only [edgeRefs, CGGraph.nodeRefs, same.idToNode, same.outEdges, same.inEdges]

theorem mem_edgeRefs_of_mem_edgesAt {nodeIds : List Nat} {ref : EdgeRef}
    (visited : ref ∈ edgesAt graph nodeIds) : ref ∈ edgeRefs graph := by
  rcases mem_edgesAt.mp visited with ⟨nodeId, -, node, found, here⟩
  rw [edgeRefs, List.mem_toFinset]
  exact List.mem_flatMap.mpr ⟨node, CGGraph.mem_nodeRefs.mpr ⟨nodeId, found⟩, here⟩

theorem synchronizeNodes_frame (graph : CGGraph) (fcov : FuncCoverage) (drvId : Nat) :
    (synchronizeNodes graph fcov drvId).graph.edges = graph.edges ∧
      SameShape graph (synchronizeNodes graph fcov drvId).graph := by
  unfold synchronizeNodes
  apply List.foldlRecOn (motive := fun sync : NodeSync =>
    sync.graph.edges = graph.edges ∧ SameShape graph sync.graph)
  · exact ⟨rfl, .refl graph⟩
  · rintro sync ⟨edges, shape⟩ ref -
    unfold syncNode
    dsimp only
    split
    next => exact ⟨edges, shape⟩
    next =>
      refine ⟨edges, shape.trans ⟨rfl, fun other => ?_, fun other => ?_⟩⟩ <;>
      · dsimp only [CGGraph.setNode]
        rw [Function.update_apply]
        split
        next same => rw [same]
        next => rfl

end Shapes

section Hits

variable {fcov : FuncCoverage} {drvId : Nat} {edge : CGEdge}

theorem hitNum_syncedEdge_ne_zero (hit : edge.hitNum ≠ 0 ∨ NewlyHit fcov edge) :
    (syncedEdge fcov drvId edge).hitNum ≠ 0 := by
  unfold syncedEdge
  split
  next skipped =>
    rcases hit with hit | ⟨zero, live⟩
    · exact hit
    · rcases skipped with dead | same
      · exact absurd dead live
      · rw [same]
        exact live
  next stale => exact fun dead => stale (.inl dead)

end Hits

namespace Campaign

theorem setActiveDriver_graph_eq (state : Campaign) (driverId : Nat) :
    (state.setActiveDriver driverId).graph =
      if state.activeDriver = 0 then state.graph else state.setCovBlock.edgeSync.graph := by
  unfold setActiveDriver synchronizeGraphs
  dsimp only
  split <;> rfl

theorem edgeSync_edges (state : Campaign) (ref : EdgeRef) :
    state.edgeSync.graph.edges ref =
      if ref ∈ edgesAt state.nodeSync.graph state.nodeSync.updatedNodes then
        syncedEdge state.fcov state.activeDriver (state.graph.edges ref)
      else state.graph.edges ref := by
  rw [edgeSync, synchronizeEdgesAt_eq, foldl_syncEdge_edges]
  dsimp only [nodeSync]
  rw [(synchronizeNodes_frame _ _ _).1]

theorem edgeSync_shape (state : Campaign) : SameShape state.graph state.edgeSync.graph := by
  have nodes := (synchronizeNodes_frame state.graph state.fcov state.activeDriver).2
  rw [edgeSync, synchronizeEdgesAt_eq, foldl_syncEdge]
  exact nodes.trans ⟨rfl, fun _ => rfl, fun _ => rfl⟩

theorem newEdges_eq_card (state : Campaign) : state.newEdges = state.newlyHitEdges.card := by
  unfold newEdges newlyHitEdges
  split
  next => rfl
  next =>
    rw [edgeSync, synchronizeEdgesAt_eq, foldl_syncEdge_newHitEdges]
    exact Nat.zero_add _

theorem mem_newlyHitEdges {state : Campaign} {ref : EdgeRef} (member : ref ∈ state.newlyHitEdges) :
    state.activeDriver ≠ 0 ∧
      ref ∈ edgesAt state.setCovBlock.nodeSync.graph state.setCovBlock.nodeSync.updatedNodes ∧
      NewlyHit state.setCovBlock.fcov (state.graph.edges ref) := by
  unfold newlyHitEdges at member
  split at member
  next => cases member
  next active =>
    rcases Finset.mem_filter.mp member with ⟨visited, newly⟩
    refine ⟨active, List.mem_toFinset.mp visited, ?_⟩
    rw [nodeSync, (synchronizeNodes_frame _ _ _).1] at newly
    exact newly

theorem newlyHitEdges_subset (state : Campaign) : state.newlyHitEdges ⊆ edgeRefs state.graph := by
  intro ref member
  have inside := mem_edgeRefs_of_mem_edgesAt (mem_newlyHitEdges member).2.1
  rw [nodeSync, (synchronizeNodes_frame _ _ _).2.edgeRefs_eq] at inside
  exact inside

theorem setActiveDriver_shape (state : Campaign) (driverId : Nat) :
    SameShape state.graph (state.setActiveDriver driverId).graph := by
  rw [setActiveDriver_graph_eq]
  split
  · exact .refl _
  · exact state.setCovBlock.edgeSync_shape

theorem setActiveDriver_hit (state : Campaign) (driverId : Nat) {ref : EdgeRef}
    (hit : (state.graph.edges ref).hitNum ≠ 0 ∨ ref ∈ state.newlyHitEdges) :
    ((state.setActiveDriver driverId).graph.edges ref).hitNum ≠ 0 := by
  rw [setActiveDriver_graph_eq]
  by_cases active : state.activeDriver = 0
  · rw [if_pos active]
    rcases hit with hit | newly
    · exact hit
    · exact absurd active (mem_newlyHitEdges newly).1
  · rw [if_neg active, edgeSync_edges]
    split
    next => exact hitNum_syncedEdge_ne_zero (hit.imp_right fun newly => (mem_newlyHitEdges newly).2.2)
    next unvisited =>
      rcases hit with hit | newly
      · exact hit
      · exact absurd (mem_newlyHitEdges newly).2.1 unvisited

end Campaign

/-- Every synchronisation reported edges that no other one reported. -/
structure ReportedOnce (graph : CGGraph) (state : PolicyState) : Prop where
  shape : SameShape graph state.scheduler.graph
  hit : ∀ report ∈ state.reports, ∀ ref ∈ report,
    (state.scheduler.graph.edges ref).hitNum ≠ 0
  disjoint : state.reports.Pairwise Disjoint
  inside : ∀ report ∈ state.reports, report ⊆ edgeRefs graph

section Reports

variable {graph : CGGraph} {state : PolicyState}

theorem reportedOnce_start (config : PolicyConfig) (graph : CGGraph) :
    ReportedOnce graph (.start config graph) where
  shape := .refl graph
  hit := by simp [PolicyState.start]
  disjoint := .nil
  inside := by simp [PolicyState.start]

theorem ReportedOnce.setActiveDriver (once : ReportedOnce graph state) (fcov : FuncCoverage)
    (driverId : Nat) : ReportedOnce graph (state.setActiveDriver fcov driverId) := by
  have hits := fun ref => @Campaign.setActiveDriver_hit (state.scheduler.observe fcov) driverId ref
  exact {
    shape := once.shape.trans
      ((state.scheduler.observe fcov).setActiveDriver_shape driverId)
    hit := fun report member ref reported => by
      rcases List.mem_append.mp member with earlier | last
      · exact hits ref (.inl (once.hit report earlier ref reported))
      · rw [List.mem_singleton.mp last] at reported
        exact hits ref (.inr reported)
    disjoint := by
      apply List.pairwise_append.mpr
      refine ⟨once.disjoint, List.pairwise_singleton _ _, ?_⟩
      intro report earlier last isLast
      rw [List.mem_singleton.mp isLast, Finset.disjoint_left]
      intro ref reported again
      exact once.hit report earlier ref reported (Campaign.mem_newlyHitEdges again).2.2.1
    inside := fun report member => by
      rcases List.mem_append.mp member with earlier | last
      · exact once.inside report earlier
      · rw [List.mem_singleton.mp last, ← once.shape.edgeRefs_eq]
        exact Campaign.newlyHitEdges_subset _ }

theorem ReportedOnce.getCoveredFuncs (once : ReportedOnce graph state) (events : WindowEvents) :
    ReportedOnce graph (state.getCoveredFuncs events) := by
  rcases state.scheduler.readNodes_frame events.atRead with ⟨-, edges, ids, sets⟩
  exact {
    shape := once.shape.trans ⟨ids, fun ref => (sets ref).1, fun ref => (sets ref).2⟩
    hit := fun report member ref reported => by
      rw [PolicyState.getCoveredFuncs, edges]
      exact once.hit report member ref reported
    disjoint := once.disjoint
    inside := once.inside }

theorem sum_card_le {reports : List (Finset EdgeRef)} (disjoint : reports.Pairwise Disjoint)
    {edges : Finset EdgeRef} (inside : ∀ report ∈ reports, report ⊆ edges) :
    (reports.map Finset.card).sum ≤ edges.card := by
  induction reports generalizing edges with
  | nil => exact Nat.zero_le _
  | cons report rest inductionHypothesis =>
      rw [List.pairwise_cons] at disjoint
      have here := inside report List.mem_cons_self
      have later : ∀ other ∈ rest, other ⊆ edges \ report := by
        intro other member
        exact Finset.subset_sdiff.mpr
          ⟨inside other (List.mem_cons_of_mem report member), (disjoint.1 other member).symm⟩
      have bound := inductionHypothesis disjoint.2 later
      rw [Finset.card_sdiff_of_subset here] at bound
      have fits := Finset.card_le_card here
      rw [List.map_cons, List.sum_cons]
      omega

end Reports

namespace PolicyState

/-- The next index under the progress policy. -/
def nextIndex (size : Nat) (window : Window) : Nat :=
  if window.newEdges = 0 then (window.index + 1) % size else window.index

/-- The windows whose driver gives up its slot. -/
def advancing (windows : List Window) : List Window := windows.filter (·.newEdges = 0)

/-- The invariant of the loop under the progress policy. -/
structure Rotating (config : PolicyConfig) (graph : CGGraph) (state : PolicyState) : Prop where
  drivers : state.drivers = config.drivers.ids
  index : state.index < config.drivers.ids.length
  active : state.drivers[state.index]? = some state.scheduler.activeDriver
  once : ReportedOnce graph state
  counted : (state.windows.map Window.newEdges).Sublist (state.reports.map Finset.card)
  held : ∀ window ∈ state.windows, config.drivers.ids[window.index]? = some window.driver
  chain : state.windows.IsChain fun window after =>
    after.index = nextIndex config.drivers.ids.length window
  last : ∀ window, state.windows.getLast? = some window →
    state.index = nextIndex config.drivers.ids.length window
  rounds : (advancing state.windows).map Window.index =
    (List.range (advancing state.windows).length).map (· % config.drivers.ids.length)
  turns : state.index = (advancing state.windows).length % config.drivers.ids.length

variable {config : PolicyConfig} {graph : CGGraph} {state next : PolicyState}
  {events : WindowEvents}

theorem rotating_start (config : PolicyConfig) (graph : CGGraph) :
    (start config graph).Rotating config graph where
  drivers := rfl
  index := List.length_pos_of_ne_nil config.drivers.nonempty
  active := start_active config graph
  once := reportedOnce_start config graph
  counted := .slnil
  held := by simp [start]
  chain := .nil
  last := by simp [start]
  rounds := rfl
  turns := (Nat.zero_mod _).symm

theorem progressTurn_eq_some {current : Nat} (isCurrent : state.drivers[state.index]? = some current)
    (once : ReportedOnce graph state) (taken : state.progressTurn events = some next) :
    next.drivers = state.drivers ∧ next.windows = state.windows ∧
      next.index = (if (state.scheduler.observe events.atSync).newEdges = 0 then
        (state.index + 1) % state.drivers.length else state.index) ∧
      next.drivers[next.index]? = some next.scheduler.activeDriver ∧
      ReportedOnce graph next ∧
      ((state.reports.map Finset.card) ++
        [(state.scheduler.observe events.atSync).newEdges]).Sublist (next.reports.map Finset.card) := by
  have synced := once.setActiveDriver events.atSync current
  have reported : (state.setActiveDriver events.atSync current).reports.map Finset.card =
      state.reports.map Finset.card ++ [(state.scheduler.observe events.atSync).newEdges] := by
    rw [Campaign.newEdges_eq_card]
    exact List.map_append
  unfold progressTurn at taken
  rw [isCurrent, Option.bind_eq_bind, Option.bind_some] at taken
  dsimp only at taken
  split at taken
  next idle =>
    rw [if_pos idle]
    rcases Option.bind_eq_some_iff.mp taken with ⟨driver, chosen, made⟩
    -- the synchronised state with the index on the next driver
    have moved : ReportedOnce graph { state.setActiveDriver events.atSync current with
        index := (state.index + 1) % state.drivers.length } :=
      ⟨synced.shape, synced.hit, synced.disjoint, synced.inside⟩
    cases made
    split
    next =>
      refine ⟨rfl, rfl, rfl, chosen, moved.setActiveDriver events.atSwitch driver, ?_⟩
      rw [← reported]
      exact (List.sublist_append_left _ _).map Finset.card
    next same =>
      rw [not_not] at same
      subst same
      exact ⟨rfl, rfl, rfl, chosen, moved, reported ▸ List.Sublist.refl _⟩
  next found =>
    rw [if_neg found]
    cases taken
    exact ⟨rfl, rfl, rfl, isCurrent, synced, reported ▸ List.Sublist.refl _⟩

theorem advancing_concat {windows : List Window} {window : Window} {size : Nat}
    (rounds : (advancing windows).map Window.index =
      (List.range (advancing windows).length).map (· % size))
    (index : window.index = (advancing windows).length % size) :
    (advancing (windows ++ [window])).map Window.index =
      (List.range (advancing (windows ++ [window])).length).map (· % size) := by
  unfold advancing at *
  rw [List.filter_append]
  by_cases idle : window.newEdges = 0
  · rw [List.filter_cons_of_pos (by simpa using idle), List.filter_nil, List.length_append,
      List.length_singleton, List.range_succ, List.map_append, List.map_append, rounds,
      List.map_singleton, List.map_singleton, index]
  · rw [List.filter_cons_of_neg (by simpa using idle), List.filter_nil, List.append_nil, rounds]

theorem nextIndex_eq {windows : List Window} {window : Window} {size : Nat}
    (index : window.index = (advancing windows).length % size) :
    nextIndex size window = (advancing (windows ++ [window])).length % size := by
  unfold nextIndex advancing at *
  rw [List.filter_append]
  by_cases idle : window.newEdges = 0
  · rw [if_pos idle, List.filter_cons_of_pos (by simpa using idle), List.filter_nil,
      List.length_append, List.length_singleton, index, Nat.mod_add_mod]
  · rw [if_neg idle, List.filter_cons_of_neg (by simpa using idle), List.filter_nil,
      List.append_nil, index]

theorem Rotating.step (isProgress : config.policy = .progress)
    (rotating : state.Rotating config graph) (taken : step config state events = some next) :
    next.Rotating config graph ∧ ∃ window, next.windows = state.windows ++ [window] := by
  unfold PolicyState.step at taken
  dsimp only at taken
  split at taken
  next =>
    rw [turn, if_pos isProgress] at taken
    rcases Option.map_eq_some_iff.mp taken with ⟨turned, moved, rfl⟩
    generalize min config.window (config.maxTimeBudget - state.elapsed) = slice at moved
    have slept : ReportedOnce graph (sleep config state events slice) :=
      ⟨rotating.once.shape, rotating.once.hit, rotating.once.disjoint, rotating.once.inside⟩
    have isCurrent : (sleep config state events slice).drivers[
        (sleep config state events slice).index]? = some state.scheduler.activeDriver :=
      rotating.active
    rcases progressTurn_eq_some isCurrent slept moved with
      ⟨drivers, windows, index, active, once, counted⟩
    obtain ⟨window, isWindow, isIndex, isDriver, isNew⟩ : ∃ window : Window,
        turned.windows = state.windows ++ [window] ∧ window.index = state.index ∧
          window.driver = state.scheduler.activeDriver ∧
          window.newEdges = (state.scheduler.observe events.atSync).newEdges :=
      ⟨_, windows, rfl, rfl, by rw [firstSeen, if_pos isProgress]⟩
    have size : state.drivers.length = config.drivers.ids.length :=
      congrArg List.length rotating.drivers
    have turnedIndex : turned.index = nextIndex config.drivers.ids.length window := by
      rw [nextIndex, isNew, isIndex, ← size]
      exact index
    have inside := rotating.index
    refine ⟨?_, window, isWindow⟩
    exact {
      drivers := drivers.trans rotating.drivers
      index := by
        refine turnedIndex.trans_lt ?_
        unfold nextIndex
        split
        · exact Nat.mod_lt _ (by omega)
        · omega
      active := by
        rw [getCoveredFuncs_activeDriver]
        exact active
      once := once.getCoveredFuncs events
      counted := by
        rw [getCoveredFuncs, isWindow, List.map_append, List.map_singleton, isNew]
        exact (rotating.counted.append_right _).trans counted
      held := fun other member => by
        rw [getCoveredFuncs, isWindow, List.mem_append, List.mem_singleton] at member
        rcases member with earlier | rfl
        · exact rotating.held other earlier
        · rw [isIndex, isDriver, ← rotating.drivers]
          exact rotating.active
      chain := by
        rw [getCoveredFuncs, isWindow, List.isChain_append]
        refine ⟨rotating.chain, .singleton _, ?_⟩
        rintro before isLast _ ⟨⟩
        rw [isIndex]
        exact rotating.last before isLast
      last := fun other isLast => by
        rw [getCoveredFuncs, isWindow, List.getLast?_concat] at isLast
        cases isLast
        exact turnedIndex
      rounds := by
        rw [getCoveredFuncs, isWindow]
        exact advancing_concat rotating.rounds (isIndex.trans rotating.turns)
      turns := by
        refine turnedIndex.trans ?_
        rw [getCoveredFuncs, isWindow]
        exact nextIndex_eq (isIndex.trans rotating.turns) }
  next => cases taken

theorem div_le_countP {size position : Nat} (inside : position < size) (turns : Nat) :
    turns / size ≤ (List.range turns).countP fun turn => turn % size = position := by
  have counted := Nat.count_modEq_card turns (Nat.zero_lt_of_lt inside) position
  have same : (List.range turns).countP (fun turn => turn % size = position) =
      Nat.count (· ≡ position [MOD size]) turns := by
    apply List.countP_congr
    intro turn _
    simp [Nat.ModEq, Nat.mod_eq_of_lt inside]
  omega

theorem Rotating.kept_le (rotating : state.Rotating config graph) :
    state.windows.length ≤ (advancing state.windows).length + (edgeRefs graph).card := by
  have reported : (state.windows.map Window.newEdges).sum ≤ (edgeRefs graph).card :=
    (rotating.counted.sum_le_sum (by simp)).trans
      (sum_card_le rotating.once.disjoint rotating.once.inside)
  have found : ∀ windows : List Window,
      windows.length ≤ (advancing windows).length + (windows.map Window.newEdges).sum := by
    intro windows
    induction windows with
    | nil => exact Nat.zero_le _
    | cons window rest inductionHypothesis =>
        unfold advancing at inductionHypothesis ⊢
        rw [List.map_cons, List.sum_cons, List.length_cons]
        by_cases idle : window.newEdges = 0
        · rw [List.filter_cons_of_pos (by simpa using idle), List.length_cons]
          omega
        · rw [List.filter_cons_of_neg (by simpa using idle)]
          omega
  have bound := found state.windows
  omega

theorem Rotating.turns_le (rotating : state.Rotating config graph) {driver : Nat}
    (member : driver ∈ config.drivers.ids) :
    (advancing state.windows).length / config.drivers.ids.length ≤
      (state.windows.filter (·.driver = driver)).length := by
  rcases List.getElem_of_mem member with ⟨position, inside, isDriver⟩
  calc (advancing state.windows).length / config.drivers.ids.length
      ≤ (List.range (advancing state.windows).length).countP
          fun turn => turn % config.drivers.ids.length = position := div_le_countP inside _
    _ = (advancing state.windows).countP fun window => window.index = position := by
        have rounds := congrArg (List.countP fun index => decide (index = position)) rotating.rounds
        rw [List.countP_map, List.countP_map] at rounds
        exact rounds.symm
    _ ≤ state.windows.countP fun window => window.index = position :=
        List.filter_sublist.countP_le
    _ ≤ state.windows.countP fun window => window.driver = driver := by
        apply List.countP_mono_left
        intro window windowIn isPosition
        rw [decide_eq_true_iff] at isPosition ⊢
        have held := rotating.held window windowIn
        rw [isPosition, List.getElem?_eq_getElem inside, isDriver] at held
        exact (Option.some.inj held).symm
    _ = (state.windows.filter (·.driver = driver)).length := List.countP_eq_length_filter

theorem Rotating.exists_step (isProgress : config.policy = .progress)
    (rotating : state.Rotating config graph) (running : state.elapsed < config.maxTimeBudget)
    (events : WindowEvents) : ∃ next, PolicyState.step config state events = some next := by
  have positive := config.one_le_window
  have inside := rotating.index
  have successor : (state.index + 1) % state.drivers.length < state.drivers.length := by
    rw [rotating.drivers]
    exact Nat.mod_lt _ (by omega)
  unfold PolicyState.step
  dsimp only
  rw [if_pos ⟨running, by omega⟩, turn, if_pos isProgress, progressTurn]
  dsimp only [sleep]
  rw [rotating.active, Option.bind_eq_bind, Option.bind_some]
  split
  · rw [List.getElem?_eq_getElem successor]
    exact ⟨_, rfl⟩
  · exact ⟨_, rfl⟩

theorem Rotating.windows_length (isProgress : config.policy = .progress)
    (rotating : state.Rotating config graph) {turns : List WindowEvents}
    (reached : runFrom (PolicyState.step config) state turns = some next) :
    next.windows.length = state.windows.length + turns.length := by
  have counted := runFrom_account (fun state => state.windows.length) (fun _ => 1)
    (fun before _ after holds (_ : True) taken => by
      rcases Rotating.step isProgress holds taken with ⟨kept, window, windows⟩
      exact ⟨kept, by rw [windows, List.length_append, List.length_singleton]⟩)
    rotating (fun _ _ => trivial) reached
  simpa using counted

end PolicyState

/-- Under the progress policy a window without a new edge passes the slot on to
the next driver in order, every edge is reported as new at most once, and every
driver gets its part of the windows that are left beyond the edges. -/
theorem progress_noStarvation (config : PolicyConfig) (isProgress : config.policy = .progress)
    (graph : CGGraph) (turns : List WindowEvents) (final : PolicyState)
    (reached : runFrom (PolicyState.step config) (.start config graph) turns = some final) :
    final.windows.length = turns.length ∧
      (∀ window ∈ final.windows, config.drivers.ids[window.index]? = some window.driver) ∧
      (final.windows.IsChain fun window after => after.index =
        if window.newEdges = 0 then (window.index + 1) % config.drivers.ids.length
        else window.index) ∧
      final.reports.Pairwise Disjoint ∧ (∀ report ∈ final.reports, report ⊆ edgeRefs graph) ∧
      (final.windows.map Window.newEdges).Sublist (final.reports.map Finset.card) ∧
      (∀ driver ∈ config.drivers.ids,
        (turns.length - (edgeRefs graph).card) / config.drivers.ids.length ≤
          (final.windows.filter (·.driver = driver)).length) ∧
      (final.elapsed < config.maxTimeBudget → ∀ events,
        ∃ next, PolicyState.step config final events = some next) := by
  have start := PolicyState.rotating_start config graph
  have rotating : final.Rotating config graph :=
    runFrom_invariant (fun _ _ _ before taken => (before.step isProgress taken).1) start reached
  have windows : final.windows.length = turns.length := by
    rw [start.windows_length isProgress reached]
    exact Nat.zero_add _
  refine ⟨windows, rotating.held, rotating.chain, rotating.once.disjoint, rotating.once.inside,
    rotating.counted, ?_, rotating.exists_step isProgress⟩
  intro driver member
  have kept := rotating.kept_le
  have left : turns.length - (edgeRefs graph).card ≤
      (PolicyState.advancing final.windows).length := by omega
  exact (Nat.div_le_div_right left).trans (rotating.turns_le member)

section Example

/-- Two drivers, for ten seconds in windows of two. -/
def progressConfig : PolicyConfig where
  drivers := ⟨[1, 2], by decide, by decide⟩
  policy := .progress
  windowSeconds := 2
  maxTimeBudget := 10

/-- A window at whose end the call of `twoFunctions` has been recorded. -/
def callWindow : WindowEvents where
  atSync := recordAll .zeroed oneCall
  atSwitch := recordAll .zeroed oneCall
  atRead _ := recordAll .zeroed oneCall
  shuffle := ⟨id, .refl⟩

theorem progress_noStarvation_twoFunctions :
    ∃ final, runFrom (PolicyState.step progressConfig) (.start progressConfig twoFunctions)
        (List.replicate 5 callWindow) = some final ∧
      final.windows.length = 5 ∧
      (∀ window ∈ final.windows, [1, 2][window.index]? = some window.driver) ∧
      (final.windows.IsChain fun window after => after.index =
        if window.newEdges = 0 then (window.index + 1) % 2 else window.index) ∧
      final.reports.Pairwise Disjoint ∧
      (∀ report ∈ final.reports, report ⊆ edgeRefs twoFunctions) ∧
      (final.windows.map Window.newEdges).Sublist (final.reports.map Finset.card) ∧
      (∀ driver ∈ [1, 2], (5 - (edgeRefs twoFunctions).card) / 2 ≤
        (final.windows.filter (·.driver = driver)).length) ∧
      (final.elapsed < 10 → ∀ events,
        ∃ next, PolicyState.step progressConfig final events = some next) := by
  rcases Option.isSome_iff_exists.mp (by decide +kernel : (runFrom (PolicyState.step progressConfig)
    (.start progressConfig twoFunctions) (List.replicate 5 callWindow)).isSome) with ⟨final, reached⟩
  exact ⟨final, reached,
    progress_noStarvation progressConfig rfl twoFunctions (List.replicate 5 callWindow) final reached⟩

end Example

end GraphDissect.Scheduler
