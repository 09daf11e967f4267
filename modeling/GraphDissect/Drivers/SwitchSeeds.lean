import GraphDissect.Drivers.Seeds
import GraphDissect.Drivers.Switching

/-!
# The seeds of a switch

A switch calls `driver_addDriverSeedDir` or `driver_prioritizeSeeds`.  Here the
calls run on the queue, the table of the seed hashes and the seed directories,
so that the two views of `driver_switchDriver` become one system.
-/

namespace GraphDissect.Drivers

open Library

/-- The seeds among the entries of a directory. -/
def seedsOf (entries : List SeedEntry) : List Bytes :=
  (entries.filter (·.regular)).filterMap driverReadData

/-- The seeds that pass `driver_isSeedExist` one after another. -/
def freshSeeds : List UInt64 → List Bytes → List Bytes
  | _, [] => []
  | hashes, data :: rest =>
      match driverIsSeedExist hashes data with
      | (false, _) => freshSeeds hashes rest
      | (true, hashes) => data :: freshSeeds hashes rest

/-- `dynfile_t` keeps an id as `unsigned`. -/
def unsignedId (id : Int32) : Nat := id.toUInt32.toNat

/-- A call of `driver_addDriverSeedDir`: what the directory held, and the hashes
that were recorded before. -/
structure Reading where
  id : Int32
  seedDir : Bytes
  entries : List SeedEntry
  hashes : List UInt64

/-- honggfuzz with its seed queue.  `readings` remembers the readings of seed
directories and `injected` the inputs that they have put into the queue. -/
structure SeededFuzz where
  fuzz : Honggfuzz
  seeds : SeedState
  readings : List Reading
  injected : List Dynfile

/-- `openDir` is what `opendir` finds at a switch; `queue` is a step of a fuzzing
thread on the queue. -/
inductive SeededAction where
  | load (prof : DriverProf)
  | switchDriver (openDir : Bytes → Option (List SeedEntry))
  | grow (edges crashes seconds : UInt64)
  | queue (action : SeedAction)

def SeededAction.loaded : SeededAction → List DriverProf
  | .load prof => [prof]
  | _ => []

/-- A step on the queue that is not a switch. -/
def SeedAction.isSwitch : SeedAction → Bool
  | .switchDriver _ => true
  | _ => false

namespace SeededFuzz

def start : SeededFuzz := ⟨.start, .start, [], []⟩

/-- What is in front of the elements that were in the queue before. -/
def putInFront (before after : DynfileQueue) : List Dynfile :=
  after.all.take (after.all.length - before.all.length)

/-- A call of `driver_switchDriver` on the queue. -/
def perform (openDir : Bytes → Option (List SeedEntry)) (s : SeededFuzz) : QueueCall → SeededFuzz
  | .addDriverSeedDir id seedDir =>
      let entries := (openDir seedDir).getD []
      let seeds := s.seeds.addDriverSeedDir (unsignedId id) entries
      { s with
        seeds := { seeds with
          initialized := unsignedId id :: s.seeds.initialized
          active := some (unsignedId id) }
        readings := s.readings ++ [⟨id, seedDir, entries, s.seeds.seedHashes⟩]
        injected := s.injected ++ (putInFront s.seeds.queue seeds.queue).reverse }
  | .prioritizeSeeds id =>
      { s with
        seeds := { s.seeds with
          queue := s.seeds.queue.prioritize (unsignedId id)
          active := some (unsignedId id) } }

def step (s : SeededFuzz) : SeededAction → Option SeededFuzz
  | .load prof => (s.fuzz.step (.load prof)).map fun fuzz => { s with fuzz }
  | .switchDriver openDir =>
      s.fuzz.driverSwitchDriver.map fun fuzz =>
        (fuzz.queueCalls.drop s.fuzz.queueCalls.length).foldl (perform openDir) { s with fuzz }
  | .grow edges crashes seconds =>
      (s.fuzz.step (.grow edges crashes seconds)).map fun fuzz => { s with fuzz }
  | .queue action =>
      if action.isSwitch then none else (s.seeds.step action).map fun seeds => { s with seeds }

section Seeds

variable {hashes : List UInt64} {seeds : List Bytes} {data : Bytes}

theorem addDriverSeedDir_queue (s : SeedState) (driverId : Nat) (entries : List SeedEntry) :
    ∃ files, (s.addDriverSeedDir driverId entries).queue.all = files ++ s.queue.all ∧
      files.reverse.map (fun file => (file.driverId, file.data)) =
        (freshSeeds s.seedHashes (seedsOf entries)).map fun data => (driverId, data) := by
  induction entries generalizing s with
  | nil => exact ⟨[], rfl, rfl⟩
  | cons entry rest inductionHypothesis =>
    rw [SeedState.addDriverSeedDir_cons, SeedState.addSeedEntry]
    by_cases regular : entry.regular = true
    · cases read : driverReadData entry with
      | none => simpa [regular, read, seedsOf] using inductionHypothesis s
      | some data =>
        have seeds : seedsOf (entry :: rest) = data :: seedsOf rest := by
          simp [seedsOf, regular, read]
        rw [if_pos regular, seeds, freshSeeds]
        dsimp only
        unfold SeedState.addDriverSeed
        cases driverIsSeedExist s.seedHashes data with
        | mk isNew hashes =>
          cases isNew with
          | false => exact inductionHypothesis s
          | true =>
            obtain ⟨files, queue, contents⟩ := inductionHypothesis _
            refine ⟨_, queue.trans (List.append_cons _ _ _), ?_⟩
            rw [List.reverse_append, List.map_append, contents]
            rfl
    · simpa [regular, seedsOf] using inductionHypothesis s

end Seeds

section Readings

variable {s next : SeededFuzz} {calls : List QueueCall}

/-- The calls that read a seed directory. -/
def QueueCall.reads : QueueCall → Bool
  | .addDriverSeedDir _ _ => true
  | .prioritizeSeeds _ => false

/-- Every call that reads a directory is a reading, and what was injected are the
fresh seeds of the readings. -/
structure Accounted (calls : List QueueCall) (s : SeededFuzz) : Prop where
  readings : s.readings.map (fun reading => QueueCall.addDriverSeedDir reading.id reading.seedDir) =
    calls.filter QueueCall.reads
  injected : s.injected.map (fun file => (file.driverId, file.data)) =
    s.readings.flatMap fun reading =>
      (freshSeeds reading.hashes (seedsOf reading.entries)).map fun data => (unsignedId reading.id, data)

theorem Accounted.perform (accounted : Accounted calls s) (openDir : Bytes → Option (List SeedEntry))
    (call : QueueCall) : Accounted (calls ++ [call]) (s.perform openDir call) := by
  cases call with
  | prioritizeSeeds id =>
    refine ⟨?_, accounted.injected⟩
    rw [List.filter_append]
    exact accounted.readings.trans (List.append_nil _).symm
  | addDriverSeedDir id seedDir =>
    obtain ⟨files, queue, contents⟩ :=
      addDriverSeedDir_queue s.seeds (unsignedId id) ((openDir seedDir).getD [])
    have front : putInFront s.seeds.queue
        (s.seeds.addDriverSeedDir (unsignedId id) ((openDir seedDir).getD [])).queue = files := by
      rw [putInFront, queue, List.length_append, Nat.add_sub_cancel, List.take_left]
    constructor
    · rw [SeededFuzz.perform, List.map_append, accounted.readings, List.filter_append]
      rfl
    · rw [SeededFuzz.perform, front, List.map_append, accounted.injected, contents,
        List.flatMap_append, List.flatMap_singleton]

theorem Accounted.foldl_perform (accounted : Accounted calls s)
    (openDir : Bytes → Option (List SeedEntry)) (later : List QueueCall) :
    Accounted (calls ++ later) (later.foldl (SeededFuzz.perform openDir) s) := by
  induction later generalizing calls s with
  | nil => rwa [List.append_nil]
  | cons call rest inductionHypothesis =>
    rw [List.append_cons]
    exact inductionHypothesis (accounted.perform openDir call)

theorem queueCalls_switchDriver {h after : Honggfuzz} (taken : h.driverSwitchDriver = some after) :
    ∃ calls, after.queueCalls = h.queueCalls ++ calls := by
  obtain ⟨focused, selected, started⟩ := Option.bind_eq_some_iff.mp taken
  obtain ⟨addr, active, made⟩ := Option.bind_eq_some_iff.mp started
  cases made
  have updated : h.driverUpdateDrvStat.queueCalls = h.queueCalls := by
    rw [Honggfuzz.driverUpdateDrvStat_eq]
  unfold Honggfuzz.focusHead at selected
  split at selected
  · cases selected
    exact ⟨[], updated.trans (List.append_nil _).symm⟩
  · obtain ⟨front, head, rest⟩ := Option.bind_eq_some_iff.mp selected
    obtain ⟨driver, stored, made⟩ := Option.bind_eq_some_iff.mp rest
    cases made
    exact ⟨_, congrArg (· ++ _) updated⟩

@[simp]
theorem foldl_perform_fuzz (openDir : Bytes → Option (List SeedEntry)) (calls : List QueueCall)
    (s : SeededFuzz) : (calls.foldl (perform openDir) s).fuzz = s.fuzz := by
  induction calls generalizing s with
  | nil => rfl
  | cons call rest inductionHypothesis =>
    rw [List.foldl_cons, inductionHypothesis]
    cases call <;> rfl

theorem Accounted.step {action : SeededAction} (accounted : Accounted s.fuzz.queueCalls s)
    (taken : s.step action = some next) : Accounted next.fuzz.queueCalls next := by
  cases action with
  | load prof =>
    obtain ⟨fuzz, moved, rfl⟩ := Option.map_eq_some_iff.mp taken
    obtain ⟨table, loaded, made⟩ := Option.bind_eq_some_iff.mp moved
    cases made
    exact ⟨accounted.readings, accounted.injected⟩
  | switchDriver openDir =>
    obtain ⟨fuzz, moved, rfl⟩ := Option.map_eq_some_iff.mp taken
    obtain ⟨calls, appended⟩ := queueCalls_switchDriver moved
    have before : Accounted s.fuzz.queueCalls { s with fuzz } :=
      ⟨accounted.readings, accounted.injected⟩
    rw [foldl_perform_fuzz, appended, List.drop_left]
    exact before.foldl_perform openDir calls
  | grow edges crashes seconds =>
    cases taken
    exact ⟨accounted.readings, accounted.injected⟩
  | queue action =>
    simp only [SeededFuzz.step] at taken
    split at taken
    · cases taken
    · obtain ⟨seeds, moved, rfl⟩ := Option.map_eq_some_iff.mp taken
      exact ⟨accounted.readings, accounted.injected⟩

theorem unsignedId_injective : Function.Injective unsignedId := by
  intro first second same
  have equal := UInt32.toNat_inj.mp same
  exact congrArg UInt32.toInt32 equal

end Readings

section Drivers

variable {s next : SeededFuzz}

end Drivers

section Simulation

variable {s next : SeededFuzz}

/-- The seed model and the table of drivers agree on the active driver and on
the drivers whose seeds have been read. -/
structure Synced (s : SeededFuzz) : Prop where
  represents : ∃ elems, s.fuzz.drvTable.Represents elems
  idle : s.fuzz.drvTable.activeDriver = none → s.seeds.active = none
  active : ∀ addr, s.fuzz.drvTable.activeDriver = some addr →
    ∃ driver, s.fuzz.drvTable.heap[addr]? = some driver ∧ s.seeds.active = some (unsignedId driver.id)
  initialized : ∀ driver ∈ s.fuzz.drvTable.heap,
    (unsignedId driver.id ∈ s.seeds.initialized ↔ driver.initialized = true)
  known : ∀ id ∈ s.seeds.initialized, ∃ driver ∈ s.fuzz.drvTable.heap, unsignedId driver.id = id
  ids : ∀ driver ∈ s.fuzz.drvTable.heap, 1 ≤ unsignedId driver.id ∧ unsignedId driver.id ≤ 8192

theorem Synced.load (synced : s.Synced) {prof : DriverProf} {table : DriverTable}
    (valid : 1 ≤ unsignedId prof.id ∧ unsignedId prof.id ≤ 8192)
    (taken : s.fuzz.drvTable.driveLoadProfile prof = some table) :
    Synced { s with fuzz := { s.fuzz with drvTable := table } } := by
  obtain ⟨elems, represents⟩ := synced.represents
  obtain ⟨order, loads⟩ := represents.loads taken
  refine ⟨⟨order, loads.represents⟩, fun none => synced.idle (loads.activeDriver ▸ none), ?_, ?_, ?_, ?_⟩
  · intro addr isActive
    obtain ⟨driver, stored, active⟩ := synced.active addr (loads.activeDriver ▸ isActive)
    obtain ⟨priority, after⟩ := loads.forward stored
    exact ⟨_, after, active⟩
  · intro driver member
    obtain ⟨old, inHeap, priority, rfl⟩ | ⟨rfl, new⟩ := loads.backward member
    · exact synced.initialized old inHeap
    · refine iff_of_false (fun read => ?_) (by simp [FuzzDriver.ofProf])
      obtain ⟨known, inHeap, same⟩ := synced.known _ read
      exact new known inHeap (unsignedId_injective same)
  · intro id read
    obtain ⟨driver, inHeap, same⟩ := synced.known id read
    obtain ⟨addr, stored⟩ := List.mem_iff_getElem?.mp inHeap
    obtain ⟨priority, after⟩ := loads.forward stored
    exact ⟨_, List.mem_of_getElem? after, same⟩
  · intro driver member
    obtain ⟨old, inHeap, priority, rfl⟩ | ⟨rfl, new⟩ := loads.backward member
    · exact synced.ids old inHeap
    · exact valid

theorem Synced.active_iff (synced : s.Synced) {addr : Nat} {driver : FuzzDriver}
    (stored : s.fuzz.drvTable.heap[addr]? = some driver) :
    s.seeds.active = some (unsignedId driver.id) ↔ s.fuzz.drvTable.activeDriver = some addr := by
  constructor
  · intro active
    obtain ⟨elems, represents⟩ := synced.represents
    cases here : s.fuzz.drvTable.activeDriver with
    | none => cases (synced.idle here).symm.trans active
    | some other =>
      obtain ⟨old, storedOld, activeOld⟩ := synced.active other here
      have ids := unsignedId_injective (Option.some.inj (activeOld.symm.trans active))
      rw [represents.addr_eq storedOld stored ids]
  · intro isActive
    obtain ⟨same, storedSame, active⟩ := synced.active addr isActive
    cases stored.symm.trans storedSame
    exact active

/-- A switch is a switch of the seed model, to the driver in front with what its
directory holds. -/
theorem Synced.seeds_switchDriver (synced : s.Synced) {openDir : Bytes → Option (List SeedEntry)}
    (taken : s.step (.switchDriver openDir) = some next) :
    ∃ addr driver, s.fuzz.SwitchesTo next.fuzz addr driver ∧
      next.seeds = s.seeds.switchDriver ⟨unsignedId driver.id, openDir driver.drvProf.seedDir⟩ := by
  obtain ⟨fuzz, moved, rfl⟩ := Option.map_eq_some_iff.mp taken
  obtain ⟨elems, represents⟩ := synced.represents
  obtain ⟨addr, driver, switches⟩ := Honggfuzz.exists_switchesTo represents moved
  rw [foldl_perform_fuzz]
  refine ⟨addr, driver, switches, ?_⟩
  unfold SeedState.switchDriver
  by_cases still : s.fuzz.drvTable.activeDriver = some addr
  · rw [(switches.still still).2.2.2, List.drop_length,
      if_pos ((synced.active_iff switches.stored).mpr still)]
    rfl
  · rw [(switches.other still).2.2, List.drop_left,
      if_neg fun active => still ((synced.active_iff switches.stored).mp active)]
    have read := synced.initialized driver (List.mem_of_getElem? switches.stored)
    by_cases initialized : driver.initialized = true
    · rw [if_pos initialized, if_pos (read.mpr initialized)]
      rfl
    · rw [if_neg initialized, if_neg fun known => initialized (read.mp known)]
      rfl

theorem switchDriver_flags (seeds : SeedState) (driver : SeedDriver) :
    (seeds.switchDriver driver).active = some driver.id ∧
      ∀ id, id ∈ (seeds.switchDriver driver).initialized ↔
        id ∈ seeds.initialized ∨ id = driver.id ∧ seeds.active ≠ some driver.id := by
  unfold SeedState.switchDriver
  split
  · next active => exact ⟨active, fun id => by simp [active]⟩
  · next inactive =>
    split
    · next read =>
      refine ⟨rfl, fun id => ⟨.inl, ?_⟩⟩
      rintro (known | ⟨rfl, -⟩)
      · exact known
      · exact read
    · refine ⟨rfl, fun id => ?_⟩
      rw [List.mem_cons, or_comm]
      simp [inactive]

theorem Synced.switchDriver (synced : s.Synced) {openDir : Bytes → Option (List SeedEntry)}
    (taken : s.step (.switchDriver openDir) = some next) : next.Synced := by
  obtain ⟨elems, represents⟩ := synced.represents
  obtain ⟨addr, driver, switches, seeds⟩ := synced.seeds_switchDriver taken
  obtain ⟨active, flags⟩ := switchDriver_flags s.seeds
    ⟨unsignedId driver.id, openDir driver.drvProf.seedDir⟩
  rw [← seeds] at active flags
  have isActive := synced.active_iff switches.stored
  have before : ∀ kept ∈ next.fuzz.drvTable.heap, ∃ (other : Nat) (old : FuzzDriver),
      s.fuzz.drvTable.heap[other]? = some old ∧ kept = s.fuzz.switched addr other old := by
    intro kept member
    obtain ⟨other, stored⟩ := List.mem_iff_getElem?.mp member
    exact ⟨other, switches.stored_before stored⟩
  refine ⟨⟨elems, switches.represents represents⟩, ?_, ?_, ?_, ?_, ?_⟩
  · intro none
    cases switches.active.symm.trans none
  · intro other here
    cases switches.active.symm.trans here
    refine ⟨_, switches.stored_after switches.stored, ?_⟩
    rw [active, Honggfuzz.switched_id]
  · intro kept member
    obtain ⟨other, old, stored, rfl⟩ := before kept member
    rw [flags, Honggfuzz.switched_id, Honggfuzz.switched_initialized,
      synced.initialized old (List.mem_of_getElem? stored)]
    have same : unsignedId old.id = unsignedId driver.id ↔ addr = other := by
      constructor
      · exact fun ids => (represents.addr_eq stored switches.stored (unsignedId_injective ids)).symm
      · rintro rfl
        cases stored.symm.trans switches.stored
        rfl
    simp only [ne_eq, same, isActive, Bool.or_eq_true, decide_eq_true_eq]
    exact or_comm
  · intro id read
    obtain ⟨old, inHeap, rfl⟩ : ∃ old ∈ s.fuzz.drvTable.heap, unsignedId old.id = id := by
      rcases (flags id).mp read with known | ⟨rfl, -⟩
      · exact synced.known id known
      · exact ⟨driver, List.mem_of_getElem? switches.stored, rfl⟩
    obtain ⟨kept, member, ids⟩ := switches.exists_id inHeap
    exact ⟨kept, member, congrArg unsignedId ids⟩
  · intro kept member
    obtain ⟨other, old, stored, rfl⟩ := before kept member
    rw [Honggfuzz.switched_id]
    exact synced.ids old (List.mem_of_getElem? stored)

end Simulation

end SeededFuzz

end GraphDissect.Drivers
