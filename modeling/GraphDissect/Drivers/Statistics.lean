import GraphDissect.Drivers.Switching
import GraphDissect.Library.Shares

/-!
# Statistics of the drivers

Every switch books the growth of the edge and of the crash counter since the
last switch on the driver that was active.  The totals are the shares of the
drivers in the growth, so they add up to all of it.
-/

namespace GraphDissect.Drivers

open Library

/-- The two counters that are booked in the same way. -/
inductive Counter where
  | edges
  | crashes

namespace Counter

def now : Counter → Honggfuzz → UInt64
  | .edges, h => h.softCntEdge
  | .crashes, h => h.uniqueCrashesCnt

def start : Counter → FuzzDriver → UInt32
  | .edges, driver => driver.startEdges
  | .crashes, driver => driver.startCrashes

def total : Counter → FuzzDriver → UInt32
  | .edges, driver => driver.totalEdges
  | .crashes, driver => driver.totalCrashes

def recorded : Counter → Switch → UInt64
  | .edges, switch => switch.edges
  | .crashes, switch => switch.crashes

/-- The switches as hand-overs of this counter, modulo `2 ^ 32`. -/
def handOvers (counter : Counter) (switches : List Switch) : List (Int32 × UInt32) :=
  switches.map fun switch => (switch.driver, (counter.recorded switch).toUInt32)

/-- The growth in the intervals from a switch to this driver to the next switch,
modulo `2 ^ 32`. -/
def growth (counter : Counter) (driver : Int32) (switches : List Switch) : UInt32 :=
  share driver (counter.handOvers switches)

end Counter

section Booking

variable {h next : Honggfuzz} {counter : Counter}

theorem switched_total (addr other : Nat) (driver : FuzzDriver) :
    counter.total (h.switched addr other driver) =
      if h.drvTable.activeDriver = some other then
        counter.total driver + ((counter.now h).toUInt32 - counter.start driver)
      else counter.total driver := by
  have updated : counter.total (h.updateStat driver) =
      counter.total driver + ((counter.now h).toUInt32 - counter.start driver) := by
    cases counter <;>
      simp only [Counter.total, Counter.now, Counter.start, Honggfuzz.updateStat,
        UInt64.toUInt32_sub, UInt32.toUInt32_toUInt64]
  have kept : ∀ driver flag,
      counter.total (h.initStat { driver with initialized := flag }) = counter.total driver := by
    intro driver flag
    cases counter <;> rfl
  rw [← updated, ← apply_ite counter.total]
  unfold Honggfuzz.switched
  dsimp only
  split
  · exact kept _ _
  · rfl

theorem switched_start (addr : Nat) (driver : FuzzDriver) :
    counter.start (h.switched addr addr driver) = (counter.now h).toUInt32 := by
  unfold Honggfuzz.switched
  dsimp only
  rw [if_pos rfl]
  cases counter <;> rfl

theorem growth_concat {switches : List Switch} {last : Switch}
    (isLast : switches.getLast? = some last) (driver : Int32) (switch : Switch) :
    counter.growth driver (switches ++ [switch]) = counter.growth driver switches +
      if driver = last.driver then
        (counter.recorded switch).toUInt32 - (counter.recorded last).toUInt32
      else 0 := by
  rcases List.getLast?_eq_some_iff.mp isLast with ⟨earlier, rfl⟩
  simp only [Counter.growth, Counter.handOvers, List.map_append, List.map_cons, List.map_nil,
    List.append_assoc, List.cons_append, List.nil_append]
  exact share_concat _ _ _ _

theorem Honggfuzz.SwitchesTo.now_eq {addr : Nat} {driver : FuzzDriver}
    (switches : h.SwitchesTo next addr driver) : counter.now next = counter.now h := by
  cases counter with
  | edges => exact switches.counters.1
  | crashes => exact switches.counters.2

end Booking

namespace DriverRun

/-- Everything up to the last switch is booked on the driver it belongs to. -/
structure Balanced (run : DriverRun) : Prop where
  represents : ∃ elems, run.state.drvTable.Represents elems
  owners : ∀ switch ∈ run.switches, ∃ driver ∈ run.state.drvTable.heap, driver.id = switch.driver
  idle : run.state.drvTable.activeDriver = none → run.switches = []
  active : ∀ addr, run.state.drvTable.activeDriver = some addr →
    ∃ (driver : FuzzDriver) (last : Switch), run.state.drvTable.heap[addr]? = some driver ∧
      run.switches.getLast? = some last ∧ last.driver = driver.id ∧
      ∀ counter : Counter, counter.start driver = (counter.recorded last).toUInt32
  totals : ∀ (counter : Counter), ∀ driver ∈ run.state.drvTable.heap,
    counter.total driver = counter.growth driver.id run.switches

variable {run next : DriverRun}

theorem balanced_start : start.Balanced where
  represents := ⟨[], DriverTable.represents_empty⟩
  owners := by simp [start]
  idle _ := rfl
  active := by simp [start, Honggfuzz.start, DriverTable.empty]
  totals := by simp [start, Honggfuzz.start, DriverTable.empty]

theorem note_switches {h : Honggfuzz} {addr : Nat} {driver : FuzzDriver}
    (switches : run.state.SwitchesTo h addr driver) :
    ∃ switch, (run.note h .switchDriver).switches = run.switches ++ [switch] ∧
      switch.driver = driver.id ∧ ∀ counter : Counter, counter.recorded switch = counter.now run.state := by
  have active : h.activeDriver = some (run.state.switched addr addr driver) := by
    rw [Honggfuzz.activeDriver, switches.active, Option.bind_some, switches.heap, switches.stored]
    rfl
  refine ⟨⟨driver.id, h.softCntEdge, h.uniqueCrashesCnt⟩, ?_, rfl, ?_⟩
  · simp [note, active, FuzzDriver.id]
  · intro counter
    rw [← switches.now_eq]
    cases counter <;> rfl

theorem Balanced.switchDriver (balanced : run.Balanced) {h : Honggfuzz}
    (taken : run.state.driverSwitchDriver = some h) : (run.note h .switchDriver).Balanced := by
  rcases balanced.represents with ⟨elems, represents⟩
  rcases Honggfuzz.exists_switchesTo represents taken with ⟨addr, driver, switches⟩
  rcases note_switches switches with ⟨switch, recorded, isDriver, values⟩
  exact {
    represents := ⟨elems, switches.represents represents⟩
    owners := fun entry member => by
      rw [recorded, List.mem_append, List.mem_singleton] at member
      rcases member with before | rfl
      · rcases balanced.owners entry before with ⟨kept, keptIn, sameId⟩
        rw [← sameId]
        exact switches.exists_id keptIn
      · rw [isDriver]
        exact switches.exists_id (List.mem_of_getElem? switches.stored)
    idle := fun none => by cases switches.active.symm.trans none
    active := fun other isActive => by
      cases switches.active.symm.trans isActive
      refine ⟨_, switch, switches.stored_after switches.stored, ?_, ?_, ?_⟩
      · rw [recorded, List.getLast?_concat]
      · rw [isDriver, Honggfuzz.switched_id]
      · intro counter
        rw [switched_start, values]
    totals := fun counter kept member => by
      rcases List.mem_iff_getElem?.mp member with ⟨other, stored⟩
      rcases switches.stored_before stored with ⟨before, storedBefore, rfl⟩
      rw [Honggfuzz.switched_id, recorded, switched_total, balanced.totals counter before (List.mem_of_getElem? storedBefore)]
      cases active : run.state.drvTable.activeDriver with
      | none => simp [balanced.idle active, Counter.growth, Counter.handOvers]
      | some busy =>
          rcases balanced.active busy active with ⟨old, last, storedOld, isLast, sameId, starts⟩
          rw [growth_concat isLast, values, sameId]
          by_cases here : busy = other
          · subst here
            cases storedOld.symm.trans storedBefore
            rw [if_pos rfl, if_pos rfl, starts]
          · have different : before.id ≠ old.id :=
              fun ids => here (represents.addr_eq storedBefore storedOld ids).symm
            rw [if_neg different, if_neg (by simpa using here), add_zero] }

theorem Balanced.load (balanced : run.Balanced) {prof : DriverProf} {table : DriverTable}
    (taken : run.state.drvTable.driveLoadProfile prof = some table) :
    (run.note { run.state with drvTable := table } (.load prof)).Balanced := by
  rcases balanced.represents with ⟨elems, represents⟩
  rcases represents.loads taken with ⟨order, loads⟩
  exact {
    represents := ⟨order, loads.represents⟩
    owners := fun switch member => by
      rcases balanced.owners switch member with ⟨driver, driverIn, sameId⟩
      rcases List.mem_iff_getElem?.mp driverIn with ⟨addr, stored⟩
      rcases loads.forward stored with ⟨priority, after⟩
      exact ⟨_, List.mem_of_getElem? after, sameId⟩
    idle := fun none => balanced.idle (loads.activeDriver ▸ none)
    active := fun addr isActive => by
      rcases balanced.active addr (loads.activeDriver ▸ isActive) with
        ⟨driver, last, stored, isLast, sameId, starts⟩
      rcases loads.forward stored with ⟨priority, after⟩
      refine ⟨_, last, after, isLast, sameId, ?_⟩
      intro counter
      rw [← starts counter]
      cases counter <;> rfl
    totals := fun counter driver member => by
      rcases loads.backward member with ⟨old, oldIn, priority, rfl⟩ | ⟨rfl, new⟩
      · refine Eq.trans ?_ (balanced.totals counter old oldIn)
        cases counter <;> rfl
      · have never : ∀ entry ∈ counter.handOvers run.switches, entry.1 ≠ prof.id := by
          intro entry entryIn
          rcases List.mem_map.mp entryIn with ⟨switch, switchIn, rfl⟩
          rcases balanced.owners switch switchIn with ⟨known, knownIn, sameId⟩
          exact fun same => new known knownIn (sameId.trans same)
        refine Eq.trans ?_ (share_eq_zero never).symm
        cases counter <;> rfl }

theorem Balanced.step {action : DriverAction} (balanced : run.Balanced)
    (taken : run.step action = some next) : next.Balanced := by
  rcases Option.map_eq_some_iff.mp taken with ⟨h, moved, rfl⟩
  cases action with
  | load prof =>
      rcases Option.bind_eq_some_iff.mp moved with ⟨table, loaded, made⟩
      cases made
      exact balanced.load loaded
  | switchDriver => exact balanced.switchDriver moved
  | grow edges crashes seconds =>
      cases moved
      exact ⟨balanced.represents, balanced.owners, balanced.idle, balanced.active, balanced.totals⟩

theorem balanced_of_runFrom {actions : List DriverAction}
    (reached : runFrom step start actions = some run) : run.Balanced :=
  runFrom_invariant (fun _ _ _ balanced taken => balanced.step taken) balanced_start reached

theorem Balanced.sum_totals (balanced : run.Balanced) (counter : Counter) {first last : Switch}
    (isFirst : run.switches.head? = some first) (isLast : run.switches.getLast? = some last) :
    (run.state.drvTable.heap.map counter.total).sum =
      (counter.recorded last - counter.recorded first).toUInt32 := by
  rcases balanced.represents with ⟨elems, represents⟩
  have known : ∀ entry ∈ counter.handOvers run.switches,
      entry.1 ∈ run.state.drvTable.heap.map FuzzDriver.id := by
    intro entry entryIn
    rcases List.mem_map.mp entryIn with ⟨switch, switchIn, rfl⟩
    rcases balanced.owners switch switchIn with ⟨driver, driverIn, sameId⟩
    exact List.mem_map.mpr ⟨driver, driverIn, sameId⟩
  have whole := sum_share represents.nodup_ids known
    (by rw [Counter.handOvers, List.head?_map, isFirst]; rfl)
    (by rw [Counter.handOvers, List.getLast?_map, isLast]; rfl)
  rw [UInt64.toUInt32_sub, ← whole, List.map_map]
  exact congrArg List.sum (List.map_congr_left (balanced.totals counter))

theorem recorded_of_switchDriver {actions : List DriverAction}
    (reached : runFrom step start (actions ++ [.switchDriver]) = some run) :
    ∃ first last, run.switches.head? = some first ∧ run.switches.getLast? = some last ∧
      ∀ counter : Counter, counter.recorded last = counter.now run.state := by
  rw [runFrom_append] at reached
  rcases Option.bind_eq_some_iff.mp reached with ⟨before, reachedBefore, ended⟩
  rcases runFrom_cons_eq_some.mp ended with ⟨final, taken, done⟩
  cases done
  rcases Option.map_eq_some_iff.mp taken with ⟨h, moved, rfl⟩
  rcases (balanced_of_runFrom reachedBefore).represents with ⟨elems, represents⟩
  rcases Honggfuzz.exists_switchesTo represents moved with ⟨addr, driver, switches⟩
  rcases note_switches switches with ⟨switch, recorded, -, values⟩
  have nonempty : before.switches ++ [switch] ≠ [] := by simp
  rw [recorded]
  refine ⟨_, switch, List.head?_eq_some_head nonempty, List.getLast?_concat, ?_⟩
  intro counter
  exact (values counter).trans switches.now_eq.symm

end DriverRun

/-- After every switch the totals of the loaded drivers are their shares in the
growth of the global counters, and add up to the growth since the first switch. -/
theorem driverTotals_telescope (actions : List DriverAction) (run : DriverRun)
    (reached : runFrom DriverRun.step .start (actions ++ [.switchDriver]) = some run) :
    ∃ elems first, run.state.drvTable.Coherent elems ∧ run.switches.head? = some first ∧
      ∀ counter : Counter,
        ((run.state.drvTable.drivers elems).map counter.total).sum =
            (counter.now run.state - counter.recorded first).toUInt32 ∧
          ∀ driver ∈ run.state.drvTable.drivers elems,
            counter.total driver = counter.growth driver.id run.switches := by
  have balanced := DriverRun.balanced_of_runFrom reached
  rcases balanced.represents with ⟨elems, represents⟩
  rcases DriverRun.recorded_of_switchDriver reached with ⟨first, last, isFirst, isLast, values⟩
  have listed := represents.drivers_perm
  refine ⟨elems, first, represents.coherent, isFirst, fun counter => ⟨?_, ?_⟩⟩
  · rw [(listed.map _).sum_eq, balanced.sum_totals counter isFirst isLast, values]
  · intro driver member
    exact balanced.totals counter driver (listed.mem_iff.mp member)

theorem driverTotals_telescope_returning :
    ∃ run, runFrom DriverRun.step .start (returningActions ++ [.switchDriver]) = some run ∧
      ∃ elems first, run.state.drvTable.Coherent elems ∧ run.switches.head? = some first ∧
        ∀ counter : Counter,
          ((run.state.drvTable.drivers elems).map counter.total).sum =
              (counter.now run.state - counter.recorded first).toUInt32 ∧
            ∀ driver ∈ run.state.drvTable.drivers elems,
              counter.total driver = counter.growth driver.id run.switches := by
  have ran : (runFrom DriverRun.step .start (returningActions ++ [.switchDriver])).isSome := by
    decide +kernel
  rcases Option.isSome_iff_exists.mp ran with ⟨run, reached⟩
  exact ⟨run, reached, driverTotals_telescope returningActions run reached⟩

end GraphDissect.Drivers
