import GraphDissect.Drivers.CommandLine
import GraphDissect.Drivers.DriverTable

/-!
# Driver switches

`drive_loadDriver` puts a driver at the head of the table and
`driver_switchDriver` makes the head the active driver: output directory,
command line, seeds and the start values of its statistics.  A run interleaves
loads, switches and the growth of the global counters.
-/

namespace GraphDissect.Drivers

open Library

/-- A call of a switch on the seed queue. -/
inductive QueueCall where
  | addDriverSeedDir (id : Int32) (seedDir : Bytes)
  | prioritizeSeeds (id : Int32)
  deriving DecidableEq

/-- The part of `honggfuzz_t` that a switch reads or writes; `time` is what
`time(NULL)` returns. -/
structure Honggfuzz where
  drvTable : DriverTable
  softCntEdge : UInt64
  uniqueCrashesCnt : UInt64
  time : UInt64
  outputDir : Option Bytes
  cmdline : List Bytes
  argc : Nat
  queueCalls : List QueueCall

/-- The directory that `drive_initOutput` prints for a driver. -/
def driveOutputPath (prof : DriverProf) : Bytes :=
  (utf8 "fuzz/out/".toList ++ prof.name).take (maxPath - 1)

/-- The entries that `drive_getArgv` returns before the null pointer, and what it
stores in `argc_num`. -/
def driveArgvNum (prof : DriverProf) : List Bytes × Nat :=
  (driveGetArgv prof, (driveGetArgv prof).length)

namespace Honggfuzz

def start : Honggfuzz where
  drvTable := .empty
  softCntEdge := 0
  uniqueCrashesCnt := 0
  time := 0
  outputDir := none
  cmdline := []
  argc := 0
  queueCalls := []

def modifyDriver (h : Honggfuzz) (addr : Nat) (change : FuzzDriver → FuzzDriver) : Honggfuzz :=
  { h with drvTable := { h.drvTable with heap := h.drvTable.heap.modify addr change } }

/-- `driver_initStat`. -/
def initStat (h : Honggfuzz) (driver : FuzzDriver) : FuzzDriver :=
  { driver with
    startEdges := h.softCntEdge.toUInt32
    startCrashes := h.uniqueCrashesCnt.toUInt32
    startTime := h.time.toUInt32 }

/-- The counters in `driver_updateDrvStat`; the differences are taken in 64 bits
and cut to `unsigned`. -/
def updateStat (h : Honggfuzz) (driver : FuzzDriver) : FuzzDriver :=
  let deltaEdges := (h.softCntEdge - driver.startEdges.toUInt64).toUInt32
  let deltaCrashes := (h.uniqueCrashesCnt - driver.startCrashes.toUInt64).toUInt32
  { driver with
    deltaEdges
    totalEdges := driver.totalEdges + deltaEdges
    deltaCrashes
    totalCrashes := driver.totalCrashes + deltaCrashes
    totalTime := driver.totalTime + (h.time - driver.startTime.toUInt64).toUInt32
    totalExes := driver.totalExes + 1 }

def driverUpdateDrvStat (h : Honggfuzz) : Honggfuzz :=
  match h.drvTable.activeDriver with
  | none => h
  | some addr => h.modifyDriver addr h.updateStat

/-- The branch of `driver_switchDriver` for a driver that is not active. -/
def focus (h : Honggfuzz) (addr : Nat) (driver : FuzzDriver) : Honggfuzz :=
  let call : QueueCall :=
    if driver.initialized then .prioritizeSeeds driver.id
    else .addDriverSeedDir driver.id driver.drvProf.seedDir
  { h with
    outputDir := some (driveOutputPath driver.drvProf)
    cmdline := (driveArgvNum driver.drvProf).1
    argc := (driveArgvNum driver.drvProf).2
    queueCalls := h.queueCalls ++ [call]
    drvTable := { h.drvTable with
      heap := h.drvTable.heap.modify addr fun driver => { driver with initialized := true }
      activeDriver := some addr } }

/-- The two branches of `driver_switchDriver`; `none` is an access through a null
pointer. -/
def focusHead (h : Honggfuzz) : Option Honggfuzz :=
  if h.drvTable.activeDriver = h.drvTable.links.head then some h
  else do
    let addr ← h.drvTable.links.head
    let driver ← h.drvTable.heap[addr]?
    return h.focus addr driver

/-- `driver_switchDriver`.  The message about the active driver reads it as well. -/
def driverSwitchDriver (h : Honggfuzz) : Option Honggfuzz := do
  let focused ← h.driverUpdateDrvStat.focusHead
  let active ← focused.drvTable.activeDriver
  return focused.modifyDriver active focused.initStat

end Honggfuzz

inductive DriverAction where
  | load (prof : DriverProf)
  | switchDriver
  | grow (edges crashes seconds : UInt64)

def DriverAction.loaded : DriverAction → List DriverProf
  | .load prof => [prof]
  | .switchDriver => []
  | .grow _ _ _ => []

namespace Honggfuzz

def step (h : Honggfuzz) : DriverAction → Option Honggfuzz
  | .load prof => do
      let drvTable ← h.drvTable.driveLoadProfile prof
      return { h with drvTable }
  | .switchDriver => h.driverSwitchDriver
  | .grow edges crashes seconds =>
      some { h with
        softCntEdge := h.softCntEdge + edges
        uniqueCrashesCnt := h.uniqueCrashesCnt + crashes
        time := h.time + seconds }

/-- The driver that `active_driver` points to. -/
def activeDriver (h : Honggfuzz) : Option FuzzDriver :=
  h.drvTable.activeDriver.bind fun addr => h.drvTable.heap[addr]?

/-- What a switch to the driver at `addr` makes of the one at `other`. -/
def switched (h : Honggfuzz) (addr other : Nat) (driver : FuzzDriver) : FuzzDriver :=
  let updated := if h.drvTable.activeDriver = some other then h.updateStat driver else driver
  if addr = other then
    h.initStat { updated with
      initialized := h.drvTable.activeDriver ≠ some addr || updated.initialized }
  else updated

section Spec

variable {h next : Honggfuzz}

theorem driverUpdateDrvStat_getElem? (other : Nat) :
    h.driverUpdateDrvStat.drvTable.heap[other]? = h.drvTable.heap[other]?.map fun driver =>
      if h.drvTable.activeDriver = some other then h.updateStat driver else driver := by
  unfold driverUpdateDrvStat
  cases h.drvTable.activeDriver with
  | none => simp
  | some addr => simp [modifyDriver, List.getElem?_modify, Option.map_eq_map]

/-- `driver_updateDrvStat` writes to the heap only. -/
theorem driverUpdateDrvStat_eq :
    h.driverUpdateDrvStat = { h with
      drvTable := { h.drvTable with heap := h.driverUpdateDrvStat.drvTable.heap } } := by
  unfold driverUpdateDrvStat
  cases h.drvTable.activeDriver with
  | none => rfl
  | some addr => rfl

/-- What a switch does. -/
structure SwitchesTo (h next : Honggfuzz) (addr : Nat) (driver : FuzzDriver) : Prop where
  head : h.drvTable.links.head = some addr
  stored : h.drvTable.heap[addr]? = some driver
  active : next.drvTable.activeDriver = some addr
  heap : ∀ other, next.drvTable.heap[other]? = h.drvTable.heap[other]?.map (h.switched addr other)
  table : next.drvTable = { h.drvTable with heap := next.drvTable.heap, activeDriver := some addr }
  counters : next.softCntEdge = h.softCntEdge ∧ next.uniqueCrashesCnt = h.uniqueCrashesCnt
  still : h.drvTable.activeDriver = some addr →
    next.outputDir = h.outputDir ∧ next.cmdline = h.cmdline ∧ next.argc = h.argc ∧
      next.queueCalls = h.queueCalls
  other : h.drvTable.activeDriver ≠ some addr →
    next.outputDir = some (driveOutputPath driver.drvProf) ∧
      (next.cmdline, next.argc) = driveArgvNum driver.drvProf ∧
      next.queueCalls = h.queueCalls ++
        [if driver.initialized then .prioritizeSeeds driver.id
          else .addDriverSeedDir driver.id driver.drvProf.seedDir]

theorem switchesTo_of_eq_some (taken : h.driverSwitchDriver = some next)
    (inside : ∀ addr, h.drvTable.links.head = some addr → addr < h.drvTable.heap.length) :
    ∃ addr driver, h.SwitchesTo next addr driver := by
  have cells := @driverUpdateDrvStat_getElem? h
  have frame := @driverUpdateDrvStat_eq h
  rcases Option.bind_eq_some_iff.mp taken with ⟨focused, selected, started⟩
  generalize h.driverUpdateDrvStat = updated at cells frame selected
  generalize updated.drvTable.heap = heap at cells frame
  subst frame
  rcases Option.bind_eq_some_iff.mp started with ⟨addr, active, made⟩
  cases made
  unfold focusHead at selected
  split at selected
  next same =>
    cases selected
    dsimp only at active same
    have head := same.symm.trans active
    have inHeap := inside addr head
    refine ⟨addr, h.drvTable.heap.get ⟨addr, inHeap⟩, ?_⟩
    exact {
      head
      stored := List.getElem?_eq_getElem inHeap
      active
      heap := fun other => by
        simp only [modifyDriver, List.getElem?_modify, cells]
        cases h.drvTable.heap[other]? with
        | none => rfl
        | some driver => simp [switched, active, initStat]
      table := by
        simp only [modifyDriver, ← active]
      counters := ⟨rfl, rfl⟩
      still := fun _ => ⟨rfl, rfl, rfl, rfl⟩
      other := fun different => absurd active different }
  next different =>
    rcases Option.bind_eq_some_iff.mp selected with ⟨front, head, rest⟩
    rcases Option.bind_eq_some_iff.mp rest with ⟨kept, storedKept, made⟩
    cases made
    cases active
    have inactive : h.drvTable.activeDriver ≠ some addr := fun same => different (same.trans head.symm)
    rw [cells] at storedKept
    exact ⟨addr, kept, {
      head
      stored := by simpa [inactive] using storedKept
      active := rfl
      heap := fun other => by
        simp only [modifyDriver, focus, List.getElem?_modify, cells]
        cases h.drvTable.heap[other]? with
        | none => rfl
        | some driver =>
            by_cases here : addr = other
            · subst here
              simp [switched, inactive, initStat]
            · simp [switched, here]
      table := rfl
      counters := ⟨rfl, rfl⟩
      still := fun same => absurd same inactive
      other := fun _ => ⟨rfl, rfl, rfl⟩ }⟩

@[simp]
theorem switched_drvProf (addr other : Nat) (driver : FuzzDriver) :
    (h.switched addr other driver).drvProf = driver.drvProf := by
  unfold switched
  dsimp only
  split_ifs <;> rfl

theorem switched_initialized (addr other : Nat) (driver : FuzzDriver) :
    (h.switched addr other driver).initialized =
      ((addr = other ∧ h.drvTable.activeDriver ≠ some addr) || driver.initialized) := by
  unfold switched
  dsimp only
  by_cases here : addr = other <;> by_cases active : h.drvTable.activeDriver = some other <;>
    simp [here, active, initStat, updateStat]

@[simp]
theorem switched_id (addr other : Nat) (driver : FuzzDriver) :
    (h.switched addr other driver).id = driver.id := by
  rw [FuzzDriver.id, switched_drvProf, FuzzDriver.id]

section Switches

variable {addr : Nat} {driver : FuzzDriver}

theorem SwitchesTo.represents {elems : List Nat} (switches : h.SwitchesTo next addr driver)
    (represents : h.drvTable.Represents elems) : next.drvTable.Represents elems := by
  apply represents.ofCells (h.switched addr) (switched_id addr) switches.heap
  rw [switches.active]
  exact switches.table

theorem SwitchesTo.stored_after (switches : h.SwitchesTo next addr driver) {other : Nat}
    {kept : FuzzDriver} (stored : h.drvTable.heap[other]? = some kept) :
    next.drvTable.heap[other]? = some (h.switched addr other kept) := by
  rw [switches.heap, stored]
  rfl

theorem SwitchesTo.stored_before (switches : h.SwitchesTo next addr driver) {other : Nat}
    {kept : FuzzDriver} (stored : next.drvTable.heap[other]? = some kept) :
    ∃ before, h.drvTable.heap[other]? = some before ∧ kept = h.switched addr other before := by
  rw [switches.heap] at stored
  rcases Option.map_eq_some_iff.mp stored with ⟨before, storedBefore, rfl⟩
  exact ⟨before, storedBefore, rfl⟩

theorem SwitchesTo.exists_prof (switches : h.SwitchesTo next addr driver) {kept : FuzzDriver}
    (member : kept ∈ h.drvTable.heap) :
    ∃ after ∈ next.drvTable.heap, after.drvProf = kept.drvProf := by
  rcases List.mem_iff_getElem?.mp member with ⟨other, stored⟩
  exact ⟨_, List.mem_of_getElem? (switches.stored_after stored), switched_drvProf addr other kept⟩

theorem SwitchesTo.exists_id (switches : h.SwitchesTo next addr driver) {kept : FuzzDriver}
    (member : kept ∈ h.drvTable.heap) : ∃ after ∈ next.drvTable.heap, after.id = kept.id := by
  rcases switches.exists_prof member with ⟨after, inHeap, same⟩
  exact ⟨after, inHeap, congrArg DriverProf.id same⟩

theorem SwitchesTo.injects (switches : h.SwitchesTo next addr driver) {id : Int32} {seedDir : Bytes}
    (called : .addDriverSeedDir id seedDir ∈ next.queueCalls) :
    .addDriverSeedDir id seedDir ∈ h.queueCalls ∨
      driver.id = id ∧ driver.drvProf.seedDir = seedDir := by
  by_cases still : h.drvTable.activeDriver = some addr
  · exact .inl ((switches.still still).2.2.2 ▸ called)
  · rw [(switches.other still).2.2, List.mem_append, List.mem_singleton] at called
    refine called.imp_right fun isCall => ?_
    split at isCall
    · cases isCall
    · cases isCall
      exact ⟨rfl, rfl⟩

end Switches

theorem exists_switchesTo {elems : List Nat} (represents : h.drvTable.Represents elems)
    (taken : h.driverSwitchDriver = some next) : ∃ addr driver, h.SwitchesTo next addr driver := by
  apply switchesTo_of_eq_some taken
  intro addr head
  rw [represents.links.head] at head
  exact (represents.cells addr).mp (List.mem_of_head? head)

end Spec

end Honggfuzz

/-- The driver that a switch made active, and the counters at that switch. -/
structure Switch where
  driver : Int32
  edges : UInt64
  crashes : UInt64

/-- A run with a record of its loads and its switches. -/
structure DriverRun where
  state : Honggfuzz
  loads : List DriverProf
  switches : List Switch

namespace DriverRun

def start : DriverRun := ⟨.start, [], []⟩

def note (run : DriverRun) (next : Honggfuzz) : DriverAction → DriverRun
  | .load prof => ⟨next, run.loads ++ [prof], run.switches⟩
  | .switchDriver =>
      ⟨next, run.loads, run.switches ++ next.activeDriver.toList.map fun driver =>
        ⟨driver.id, next.softCntEdge, next.uniqueCrashesCnt⟩⟩
  | .grow _ _ _ => ⟨next, run.loads, run.switches⟩

def step (run : DriverRun) (action : DriverAction) : Option DriverRun :=
  (run.state.step action).map fun next => run.note next action

/-- The state fits the profiles that were sent, one for each id. -/
structure Focused (sent : Int32 → DriverProf) (run : DriverRun) : Prop where
  represents : ∃ elems, run.state.drvTable.Represents elems
  profiles : ∀ (addr : Nat) (driver : FuzzDriver), run.state.drvTable.heap[addr]? = some driver →
    driver.drvProf = sent driver.id
  unloaded : run.loads = [] → run.state.drvTable.links.head = none
  head : ∀ prof, run.loads.getLast? = some prof →
    ∃ (addr : Nat) (driver : FuzzDriver), run.state.drvTable.links.head = some addr ∧
      run.state.drvTable.heap[addr]? = some driver ∧ driver.drvProf = prof ∧
      run.state.drvTable.inPlaceEdit = prof.inPlaceEdit
  allocated : ∀ addr, run.state.drvTable.activeDriver = some addr →
    addr < run.state.drvTable.heap.length
  active : ∀ (addr : Nat) (driver : FuzzDriver), run.state.drvTable.activeDriver = some addr →
    run.state.drvTable.heap[addr]? = some driver →
      run.state.outputDir = some (driveOutputPath driver.drvProf) ∧
        (run.state.cmdline, run.state.argc) = driveArgvNum driver.drvProf ∧
        driver.initialized = true
  injected : ∀ (addr : Nat) (driver : FuzzDriver), run.state.drvTable.heap[addr]? = some driver →
    run.state.queueCalls.count (.addDriverSeedDir driver.id driver.drvProf.seedDir) =
      if driver.initialized then 1 else 0
  known : ∀ id seedDir, .addDriverSeedDir id seedDir ∈ run.state.queueCalls →
    ∃ driver ∈ run.state.drvTable.heap, driver.id = id ∧ driver.drvProf.seedDir = seedDir

section Coherence

variable {sent : Int32 → DriverProf} {run next : DriverRun}

/-- The heap after a load: where the id is known, its profile is the one that is
stored already. -/
theorem Focused.load_heap (focused : run.Focused sent) {prof : DriverProf}
    (same : prof = sent prof.id) {table : DriverTable} {elems order : List Nat}
    (loads : run.state.drvTable.Loads table prof elems order) :
    ∃ (addr : Nat) (driver : FuzzDriver), table.links.head = some addr ∧
      table.heap[addr]? = some driver ∧ driver.drvProf = prof ∧
      (table.heap = run.state.drvTable.heap ∨
        (∀ known ∈ run.state.drvTable.heap, known.id ≠ prof.id) ∧
          table.heap = run.state.drvTable.heap ++ [.ofProf prof]) := by
  have isHead := loads.represents.links.head
  rcases loads.cases with ⟨new, rfl, heap⟩ | ⟨addr, old, stored, ids, rfl, heap⟩
  · exact ⟨_, .ofProf prof, isHead, by simp [heap], rfl, .inr ⟨new, heap⟩⟩
  · have profile : old.drvProf = prof := by
      rw [focused.profiles addr old stored, ids, ← same]
    have unchanged : table.heap = run.state.drvTable.heap := by
      rw [heap]
      apply List.ext_getElem?
      intro other
      rw [DriverTable.getElem?_modify_map]
      by_cases here : addr = other
      · subst here
        rw [stored, Option.map_some, if_pos rfl, FuzzDriver.setPriority, ← profile]
      · simp [here]
    exact ⟨addr, old, isHead, unchanged ▸ stored, profile, .inl unchanged⟩

theorem Focused.load (focused : run.Focused sent) {prof : DriverProf} (same : prof = sent prof.id)
    {table : DriverTable} (taken : run.state.drvTable.driveLoadProfile prof = some table) :
    (run.note { run.state with drvTable := table } (.load prof)).Focused sent := by
  rcases focused.represents with ⟨elems, represents⟩
  rcases represents.loads taken with ⟨order, loads⟩
  rcases focused.load_heap same loads with ⟨addr, driver, isHead, stored, profile, heap⟩
  have grown : ∀ (other : Nat) (kept : FuzzDriver), run.state.drvTable.heap[other]? = some kept →
      table.heap[other]? = some kept := by
    intro other kept before
    rcases heap with unchanged | ⟨-, added⟩
    · rw [unchanged, before]
    · rw [added, List.getElem?_append_left (List.getElem?_eq_some_iff.mp before).1, before]
  have cells : ∀ (other : Nat) (kept : FuzzDriver), table.heap[other]? = some kept →
      run.state.drvTable.heap[other]? = some kept ∨
        kept = .ofProf prof ∧ ∀ known ∈ run.state.drvTable.heap, known.id ≠ prof.id := by
    intro other kept after
    rcases heap with unchanged | ⟨new, added⟩
    · exact .inl (unchanged ▸ after)
    · rw [added, List.getElem?_append] at after
      split at after
      next => exact .inl after
      next =>
        have last := List.mem_of_getElem? after
        exact .inr ⟨List.mem_singleton.mp last, new⟩
  exact {
    represents := ⟨order, loads.represents⟩
    profiles := fun other kept after => by
      rcases cells other kept after with before | ⟨rfl, -⟩
      · exact focused.profiles other kept before
      · exact same
    unloaded := fun none => absurd none (by simp [note])
    head := fun last isLast => by
      rw [note, List.getLast?_concat] at isLast
      cases isLast
      exact ⟨addr, driver, isHead, stored, profile, loads.inPlaceEdit⟩
    allocated := fun other isActive => by
      have before := focused.allocated other (loads.activeDriver ▸ isActive)
      exact (List.getElem?_eq_some_iff.mp (grown other _ (List.getElem?_eq_getElem before))).1
    active := fun other kept isActive after => by
      have wasActive := loads.activeDriver ▸ isActive
      have before := List.getElem?_eq_getElem (focused.allocated other wasActive)
      cases (grown other _ before).symm.trans after
      exact focused.active other _ wasActive before
    injected := fun other kept after => by
      rcases cells other kept after with before | ⟨rfl, new⟩
      · exact focused.injected other kept before
      · apply List.count_eq_zero.mpr
        intro called
        rcases focused.known _ _ called with ⟨known, member, sameId, -⟩
        exact new known member sameId
    known := fun id seedDir called => by
      rcases focused.known id seedDir called with ⟨known, member, same⟩
      rcases List.mem_iff_getElem?.mp member with ⟨other, before⟩
      exact ⟨known, List.mem_of_getElem? (grown other known before), same⟩ }

theorem Focused.switch_injected (focused : run.Focused sent) {h : Honggfuzz} {addr other : Nat}
    {driver kept : FuzzDriver} (switches : run.state.SwitchesTo h addr driver)
    (stored : run.state.drvTable.heap[other]? = some kept) :
    h.queueCalls.count (.addDriverSeedDir kept.id kept.drvProf.seedDir) =
      if (run.state.switched addr other kept).initialized then 1 else 0 := by
  have before := focused.injected other kept stored
  rw [Honggfuzz.switched_initialized]
  by_cases still : run.state.drvTable.activeDriver = some addr
  · rw [(switches.still still).2.2.2, before]
    simp [still]
  · rw [(switches.other still).2.2, List.count_append, before]
    rcases eq_or_ne addr other with rfl | elsewhere
    · cases switches.stored.symm.trans stored
      cases driver.initialized <;> simp [still]
    · rcases focused.represents with ⟨elems, represents⟩
      have different : kept.id ≠ driver.id :=
        fun ids => elsewhere (represents.addr_eq stored switches.stored ids).symm
      have missing : QueueCall.addDriverSeedDir kept.id kept.drvProf.seedDir ∉
          [if driver.initialized then QueueCall.prioritizeSeeds driver.id
            else .addDriverSeedDir driver.id driver.drvProf.seedDir] := by
        split <;> simp [different]
      rw [List.count_eq_zero.mpr missing]
      simp [elsewhere]

theorem Focused.switchDriver (focused : run.Focused sent) {h : Honggfuzz}
    (taken : run.state.driverSwitchDriver = some h) : (run.note h .switchDriver).Focused sent := by
  rcases focused.represents with ⟨elems, represents⟩
  rcases Honggfuzz.exists_switchesTo represents taken with ⟨addr, driver, switches⟩
  have head : h.drvTable.links.head = run.state.drvTable.links.head := by rw [switches.table]
  have edits : h.drvTable.inPlaceEdit = run.state.drvTable.inPlaceEdit := by rw [switches.table]
  exact {
    represents := ⟨elems, switches.represents represents⟩
    profiles := fun other kept stored => by
      rcases switches.stored_before stored with ⟨before, storedBefore, rfl⟩
      rw [Honggfuzz.switched_id, Honggfuzz.switched_drvProf]
      exact focused.profiles other before storedBefore
    unloaded := fun none => head.trans (focused.unloaded none)
    head := fun last isLast => by
      rcases focused.head last isLast with ⟨front, kept, isHead, stored, profile, edit⟩
      refine ⟨front, _, head.trans isHead, switches.stored_after stored, ?_, ?_⟩
      · rw [Honggfuzz.switched_drvProf, profile]
      · exact edits.trans edit
    allocated := fun other isActive => by
      cases switches.active.symm.trans isActive
      exact (List.getElem?_eq_some_iff.mp (switches.stored_after switches.stored)).1
    active := fun other kept isActive stored => by
      cases switches.active.symm.trans isActive
      cases (switches.stored_after switches.stored).symm.trans stored
      rw [Honggfuzz.switched_drvProf, Honggfuzz.switched_initialized]
      by_cases still : run.state.drvTable.activeDriver = some addr
      · rcases switches.still still with ⟨output, cmdline, argc, -⟩
        rcases focused.active addr driver still switches.stored with ⟨outputWas, argvWas, flag⟩
        refine ⟨output.trans outputWas, ?_, by simp [flag]⟩
        rw [← argvWas, ← cmdline, ← argc]
        rfl
      · rcases switches.other still with ⟨output, argv, -⟩
        exact ⟨output, argv, by simp [still]⟩
    injected := fun other kept stored => by
      rcases switches.stored_before stored with ⟨before, storedBefore, rfl⟩
      rw [Honggfuzz.switched_id, Honggfuzz.switched_drvProf]
      exact focused.switch_injected switches storedBefore
    known := fun id seedDir called => by
      have kept : ∃ kept ∈ run.state.drvTable.heap, kept.id = id ∧ kept.drvProf.seedDir = seedDir := by
        rcases switches.injects called with before | here
        · exact focused.known id seedDir before
        · exact ⟨driver, List.mem_of_getElem? switches.stored, here⟩
      rcases kept with ⟨kept, member, rfl, rfl⟩
      rcases switches.exists_prof member with ⟨after, inHeap, same⟩
      exact ⟨after, inHeap, congrArg DriverProf.id same, congrArg DriverProf.seedDir same⟩ }

theorem Focused.step {action : DriverAction} (focused : run.Focused sent)
    (same : ∀ prof, action = .load prof → prof = sent prof.id)
    (taken : run.step action = some next) : next.Focused sent := by
  rcases Option.map_eq_some_iff.mp taken with ⟨h, moved, rfl⟩
  cases action with
  | load prof =>
      rcases Option.bind_eq_some_iff.mp moved with ⟨table, loaded, made⟩
      cases made
      exact focused.load (same prof rfl) loaded
  | switchDriver => exact focused.switchDriver moved
  | grow edges crashes seconds =>
      cases moved
      exact ⟨focused.represents, focused.profiles, focused.unloaded, focused.head,
        focused.allocated, focused.active, focused.injected, focused.known⟩

end Coherence

end DriverRun

/-- Two drivers, and a return to the first one. -/
def returningActions : List DriverAction :=
  [.load (DriverTable.xmllintProf 1 1), .switchDriver, .grow 7 1 60,
    .load (DriverTable.xmllintProf 2 1), .switchDriver, .grow 5 0 60,
    .load (DriverTable.xmllintProf 1 1)]

end GraphDissect.Drivers
