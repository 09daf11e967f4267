import GraphDissect.Scheduler.Campaign

/-!
# The schedule policies

The loop of `run_schedule_policy`: sleep for a window, synchronise, choose the
next driver, hand it over and read the covered functions.  A step is one turn
of the loop.  What the target recorded, the moments at which it is read and the
shuffles are left open.  Times are whole seconds, which a `double` holds
exactly up to `2 ^ 53`.
-/

namespace GraphDissect.Scheduler

open CallGraph Fcov Library

/-- `schedule_policy`; every other name is treated as `fixed`. -/
inductive SchedulePolicy where
  | fixed
  | random
  | progress
  deriving DecidableEq

/-- `getAllDrvIds`: the keys of a map, at least one. -/
structure DriverIds where
  ids : List Nat
  nonempty : ids ≠ []
  nodup : ids.Nodup

/-- What `std::shuffle` can do. -/
structure Shuffle where
  apply : List Nat → List Nat
  perm : ∀ drivers, (apply drivers).Perm drivers

structure PolicyConfig where
  drivers : DriverIds
  policy : SchedulePolicy
  windowSeconds : Nat
  maxTimeBudget : Nat

/-- What happens around one window: the coverage map at the two calls of
`setActiveDriver` and at every node that `getCoveredFuncs` reads, and the
shuffle. -/
structure WindowEvents where
  atSync : FuncCoverage
  atSwitch : FuncCoverage
  atRead : NodeRef → FuncCoverage
  shuffle : Shuffle

/-- The record of a window: the index and the active driver at its start, its
seconds, and the new edges that the first synchronisation after it reported. -/
structure Window where
  index : Nat
  driver : Nat
  slice : Nat
  newEdges : Nat

/-- `windows` records the windows and `reports` the edges that each
synchronisation counted as newly hit. -/
structure PolicyState where
  drivers : List Nat
  index : Nat
  elapsed : Nat
  scheduler : Campaign
  windows : List Window
  reports : List (Finset EdgeRef)

namespace PolicyConfig

/-- `window` before the loop. -/
def window (config : PolicyConfig) : Nat :=
  if config.windowSeconds = 0 then
    max 1 (config.maxTimeBudget / (12 * config.drivers.ids.length))
  else config.windowSeconds

theorem one_le_window (config : PolicyConfig) : 1 ≤ config.window := by
  unfold window
  split
  · exact le_max_left _ _
  · omega

end PolicyConfig

namespace Campaign

def observe (state : Campaign) (fcov : FuncCoverage) : Campaign := { state with fcov }

def setCovBlock (state : Campaign) : Campaign :=
  { state with fcov := { state.fcov with blockWrites := true } }

/-- `newEdges` of the stats that `setActiveDriver` returns. -/
def newEdges (state : Campaign) : Nat :=
  if state.activeDriver = 0 then 0 else state.setCovBlock.edgeSync.newHitEdges

/-- The edges that the synchronisation in `setActiveDriver` counts as newly hit. -/
def newlyHitEdges (state : Campaign) : Finset EdgeRef :=
  if state.activeDriver = 0 then ∅
  else
    let nodes := state.setCovBlock.nodeSync
    (edgesAt nodes.graph nodes.updatedNodes).toFinset.filter fun ref =>
      NewlyHit state.setCovBlock.fcov (nodes.graph.edges ref)

/-- `getCoveredFuncs` from begin to end. -/
def readNodes (state : Campaign) (atRead : NodeRef → FuncCoverage) : Campaign :=
  state.graph.nodeRefs.foldl
    (fun state ref => { state with graph := (state.observe (atRead ref)).readNode ref }) state

end Campaign

namespace PolicyState

/-- The state before the loop: `start_fuzzer` has set the first driver. -/
def start (config : PolicyConfig) (graph : CGGraph) : PolicyState where
  drivers := config.drivers.ids
  index := 0
  elapsed := 0
  scheduler :=
    { Campaign.start graph with
      activeDriver := config.drivers.ids.head config.drivers.nonempty
      pc := .sleeping }
  windows := []
  reports := []

/-- A call of `Scheduler::setActiveDriver`. -/
def setActiveDriver (state : PolicyState) (fcov : FuncCoverage) (driverId : Nat) : PolicyState :=
  let seen := state.scheduler.observe fcov
  { state with
    scheduler := seen.setActiveDriver driverId
    reports := state.reports ++ [seen.newlyHitEdges] }

/-- `getCoveredFuncs` at the end of a turn. -/
def getCoveredFuncs (state : PolicyState) (events : WindowEvents) : PolicyState :=
  { state with scheduler := state.scheduler.readNodes events.atRead }

def progressTurn (state : PolicyState) (events : WindowEvents) : Option PolicyState := do
  let current ← state.drivers[state.index]?
  let newEdges := (state.scheduler.observe events.atSync).newEdges
  let synced := state.setActiveDriver events.atSync current
  if newEdges = 0 then
    let index := (state.index + 1) % state.drivers.length
    let next ← state.drivers[index]?
    let moved := { synced with index }
    return if next ≠ current then moved.setActiveDriver events.atSwitch next else moved
  else return synced

def rotateTurn (policy : SchedulePolicy) (state : PolicyState) (events : WindowEvents) :
    Option PolicyState := do
  let index := (state.index + 1) % state.drivers.length
  let drivers :=
    if policy = .random ∧ index = 0 then events.shuffle.apply state.drivers else state.drivers
  let next ← drivers[index]?
  return { state with index, drivers }.setActiveDriver events.atSwitch next

/-- The coverage map at the first synchronisation after a window. -/
def firstSeen (config : PolicyConfig) (events : WindowEvents) : FuncCoverage :=
  if config.policy = .progress then events.atSync else events.atSwitch

def sleep (config : PolicyConfig) (state : PolicyState) (events : WindowEvents) (slice : Nat) :
    PolicyState :=
  let window : Window :=
    { index := state.index
      driver := state.scheduler.activeDriver
      slice
      newEdges := (state.scheduler.observe (firstSeen config events)).newEdges }
  { state with
    elapsed := state.elapsed + slice
    windows := state.windows ++ [window] }

def turn (config : PolicyConfig) (state : PolicyState) (events : WindowEvents) :
    Option PolicyState :=
  if config.policy = .progress then state.progressTurn events
  else state.rotateTurn config.policy events

/-- One turn of the loop of `run_schedule_policy`; `none` when the loop has
ended. -/
def step (config : PolicyConfig) (state : PolicyState) (events : WindowEvents) :
    Option PolicyState :=
  let slice := min config.window (config.maxTimeBudget - state.elapsed)
  if state.elapsed < config.maxTimeBudget ∧ slice ≠ 0 then
    ((sleep config state events slice).turn config events).map (·.getCoveredFuncs events)
  else none

end PolicyState

/-- `getCoveredFuncs` writes `HitNum` of nodes and nothing else. -/
theorem Campaign.readNodes_frame (state : Campaign) (atRead : NodeRef → FuncCoverage) :
    (state.readNodes atRead).activeDriver = state.activeDriver ∧
      (state.readNodes atRead).graph.edges = state.graph.edges ∧
      (state.readNodes atRead).graph.idToNode = state.graph.idToNode ∧
      ∀ ref, ((state.readNodes atRead).graph.nodes ref).outEdges = (state.graph.nodes ref).outEdges ∧
        ((state.readNodes atRead).graph.nodes ref).inEdges = (state.graph.nodes ref).inEdges := by
  unfold Campaign.readNodes
  apply List.foldlRecOn (motive := fun next : Campaign => next.activeDriver = state.activeDriver ∧
    next.graph.edges = state.graph.edges ∧ next.graph.idToNode = state.graph.idToNode ∧
    ∀ ref, (next.graph.nodes ref).outEdges = (state.graph.nodes ref).outEdges ∧
      (next.graph.nodes ref).inEdges = (state.graph.nodes ref).inEdges)
  · exact ⟨rfl, rfl, rfl, fun ref => ⟨rfl, rfl⟩⟩
  · rintro next ⟨active, edges, ids, sets⟩ read -
    refine ⟨active, edges, ids, fun ref => ?_⟩
    rw [← (sets ref).1, ← (sets ref).2]
    dsimp only [Campaign.readNode, Campaign.observe, CGGraph.setNode]
    rw [Function.update_apply]
    split
    next same =>
      subst same
      exact ⟨rfl, rfl⟩
    next => exact ⟨rfl, rfl⟩

namespace PolicyState

theorem start_active (config : PolicyConfig) (graph : CGGraph) :
    (start config graph).drivers[(start config graph).index]? =
      some (start config graph).scheduler.activeDriver := by
  have first := List.head?_eq_some_head config.drivers.nonempty
  rwa [List.head?_eq_getElem?] at first

section Turns

variable {config : PolicyConfig} {state next : PolicyState} {events : WindowEvents}

@[simp]
theorem getCoveredFuncs_activeDriver :
    (state.getCoveredFuncs events).scheduler.activeDriver = state.scheduler.activeDriver :=
  (state.scheduler.readNodes_frame events.atRead).1

/-- What a turn of the fixed or of the random policy does. -/
structure Rotates (state next : PolicyState) : Prop where
  elapsed : next.elapsed = state.elapsed
  windows : next.windows = state.windows
  index : next.index = (state.index + 1) % state.drivers.length
  drivers : next.drivers.Perm state.drivers
  kept : next.index ≠ 0 → next.drivers = state.drivers
  active : next.drivers[next.index]? = some next.scheduler.activeDriver

theorem rotates_of_rotateTurn {policy : SchedulePolicy}
    (taken : state.rotateTurn policy events = some next) : state.Rotates next := by
  rcases Option.bind_eq_some_iff.mp taken with ⟨driver, chosen, made⟩
  cases made
  refine ⟨rfl, rfl, rfl, ?_, ?_, chosen⟩
  · dsimp only [setActiveDriver]
    split
    · exact events.shuffle.perm state.drivers
    · exact .refl _
  · intro inner
    exact if_neg fun wrapped => inner wrapped.2

theorem exists_rotateTurn (policy : SchedulePolicy) (nonempty : state.drivers ≠ []) :
    ∃ next, state.rotateTurn policy events = some next := by
  have positive := List.length_pos_of_ne_nil nonempty
  have inside : (state.index + 1) % state.drivers.length <
      (if policy = .random ∧ (state.index + 1) % state.drivers.length = 0 then
        events.shuffle.apply state.drivers else state.drivers).length := by
    split
    · rw [(events.shuffle.perm state.drivers).length_eq]
      exact Nat.mod_lt _ positive
    · exact Nat.mod_lt _ positive
  unfold rotateTurn
  dsimp only
  rw [List.getElem?_eq_getElem inside]
  exact ⟨_, rfl⟩

theorem step_eq_some (rotating : config.policy ≠ .progress)
    (taken : step config state events = some next) :
    ∃ slice, state.elapsed < config.maxTimeBudget ∧
      slice = min config.window (config.maxTimeBudget - state.elapsed) ∧
      (sleep config state events slice).Rotates next := by
  unfold step at taken
  dsimp only at taken
  split at taken
  next running =>
    refine ⟨_, running.1, rfl, ?_⟩
    rw [turn, if_neg rotating] at taken
    rcases Option.map_eq_some_iff.mp taken with ⟨turned, rotated, rfl⟩
    have rotates := rotates_of_rotateTurn rotated
    refine ⟨rotates.elapsed, rotates.windows, rotates.index, rotates.drivers, rotates.kept, ?_⟩
    rw [getCoveredFuncs_activeDriver]
    exact rotates.active
  next => cases taken

theorem exists_step (rotating : config.policy ≠ .progress) (nonempty : state.drivers ≠ [])
    (running : state.elapsed < config.maxTimeBudget) :
    ∃ next, step config state events = some next := by
  have positive := config.one_le_window
  unfold step
  dsimp only
  rw [if_pos ⟨running, by omega⟩, turn, if_neg rotating]
  rcases @exists_rotateTurn (sleep config state events
    (min config.window (config.maxTimeBudget - state.elapsed))) events config.policy nonempty with
    ⟨turned, rotated⟩
  rw [rotated]
  exact ⟨_, rfl⟩

end Turns

end PolicyState

end GraphDissect.Scheduler
