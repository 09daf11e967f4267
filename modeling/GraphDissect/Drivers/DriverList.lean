import GraphDissect.Library.Numerals
import GraphDissect.Library.OrderedMap
import GraphDissect.Drivers.Profile

/-!
# The list of drivers

`DriverMng::loadDriverList` reads `driver_list.json` and the profile of every
listed driver.  `Driver::load` fills the fields one by one and reports a failure
that the list loop does not look at, so a driver that failed to load is kept as
far as it was filled.
-/

namespace GraphDissect.Drivers

open Library

/-- The files that MFuzz reads: the JSON value of a path, `none` when the file
cannot be opened or parsed. -/
abbrev JsonFiles := Bytes → Option Json

/-- What the members without an initialiser hold in a new `Driver`. -/
structure Uninitialized where
  id : Int32
  priority : Option Rat

/-- The constructor of `Driver`. -/
def Driver.new (memory : Uninitialized) : Driver where
  id := memory.id
  name := []
  driver := []
  seedDir := []
  output := []
  priority := memory.priority
  description := []
  argv := []
  phase := 0
  inPlaceEdit := 0

/-- The assignments of `Driver::load` in their order; `none` is an exception, or
the `false` of `parseArgs`. -/
def Driver.fieldLoaders (libs : JsonLibs) (root : Json) : List (Driver → Option Driver) :=
  [fun d => (root.index "id").getInt.map fun id => { d with id },
    fun d => (root.index "name").getString.map fun name => { d with name },
    fun d => (root.index "driver").getString.map fun driver => { d with driver },
    fun d => (root.index "seed_dir").getString.map fun seedDir => { d with seedDir },
    fun d => (root.index "output").getString.map fun output => { d with output },
    fun d => ((root.index "priority").getFloat libs).map fun priority => { d with priority },
    fun d => (root.index "description").getString.map fun description => { d with description },
    fun d => (parseArgs (root.index "args")).map fun argv => { d with argv := d.argv ++ argv },
    fun d =>
      match root.find "in_place_editing" with
      | some j => j.getInt.map fun inPlaceEdit => { d with inPlaceEdit }
      | none => some d]

/-- Assignments up to the first that fails: the driver as it was left, and
whether all of them were made. -/
def Driver.runLoaders : List (Driver → Option Driver) → Driver → Driver × Bool
  | [], d => (d, true)
  | load :: rest, d =>
      match load d with
      | none => (d, false)
      | some d => runLoaders rest d

/-- `Driver::load` into a driver, for the content of the profile. -/
def Driver.loadInto (libs : JsonLibs) (d : Driver) : Option Json → Driver × Bool
  | none => (d, false)
  | some root => runLoaders (fieldLoaders libs root) d

/-- `"drivers/" + name + "/" + name + ".json"`. -/
def drvPath (name : Bytes) : Bytes :=
  utf8 "drivers/".toList ++ name ++ utf8 "/".toList ++ name ++ utf8 ".json".toList

/-- What an element of the list is: passed over, the cause of an exception, or an
id and a name. -/
inductive ListEntry where
  | skipped
  | thrown
  | driver (id : Nat) (name : Bytes)

def Json.listEntry : Json → ListEntry
  | .obj [(key, value)] =>
      match stoull 10 key.toList, value.getString with
      | some id, some name => .driver (id.toNat % 2 ^ 32) name
      | _, _ => .thrown
  | _ => .skipped

section Load

variable (libs : JsonLibs) (files : JsonFiles) (memory : Nat → Uninitialized)

/-- The loop of `loadDriverList`; `memory` is what a new driver finds in each
round, and `none` an exception that nobody catches. -/
def loadEntries : Nat → OrderedMap Nat Driver → List Json → Option (OrderedMap Nat Driver)
  | _, allDrivers, [] => some allDrivers
  | round, allDrivers, entry :: rest =>
      match entry.listEntry with
      | .skipped => loadEntries (round + 1) allDrivers rest
      | .thrown => none
      | .driver driverId name =>
          let loaded := Driver.loadInto libs (Driver.new (memory round)) (files (drvPath name))
          loadEntries (round + 1) (allDrivers.insert driverId loaded.1) rest

/-- `DriverMng::loadDriverList` of a new manager: what it returns, and
`allDrivers`. -/
def loadDriverList (path : Bytes) : Option (Bool × OrderedMap Nat Driver) :=
  match files path with
  | none => some (false, .empty)
  | some root =>
      match root.find "drivers" with
      | some (.arr entries) =>
          (loadEntries libs files memory 0 .empty entries).map fun allDrivers => (true, allDrivers)
      | _ => some (false, .empty)

end Load

/-- `DriverMng::getAllDrvIds`. -/
def getAllDrvIds (allDrivers : OrderedMap Nat Driver) : List Nat := allDrivers.entries.map Prod.fst

def ListEntry.listed : ListEntry → Option (Nat × Bytes)
  | .driver id name => some (id, name)
  | _ => none

def listedDrivers (files : JsonFiles) (path : Bytes) : List (Nat × Bytes) :=
  match (files path).bind (Json.find "drivers") with
  | some (.arr entries) => entries.filterMap fun entry => entry.listEntry.listed
  | _ => []

def ProfileLoads (libs : JsonLibs) (files : JsonFiles) (name : Bytes) : Prop :=
  ((files (drvPath name)).bind (Driver.load libs)).isSome

def listedProfileId (files : JsonFiles) (name : Bytes) : Option Int32 :=
  (files (drvPath name)).bind fun root => (root.index "id").getInt

section Loading

variable {libs : JsonLibs} {files : JsonFiles}

theorem runLoaders_eq_true_iff {loaders : List (Driver → Option Driver)} {d loaded : Driver} :
    Driver.runLoaders loaders d = (loaded, true) ↔
      loaders.foldlM (fun d load => load d) d = some loaded := by
  induction loaders generalizing d with
  | nil => simp [Driver.runLoaders]
  | cons load rest inductionHypothesis =>
      rw [Driver.runLoaders, List.foldlM_cons]
      cases load d with
      | none => simp
      | some next => exact inductionHypothesis

/-- All assignments together are `Driver.load`. -/
theorem foldlM_fieldLoaders (memory : Uninitialized) (root : Json) :
    (Driver.fieldLoaders libs root).foldlM (fun d load => load d) (Driver.new memory) =
      Driver.load libs root := by
  simp only [Driver.fieldLoaders, Driver.load, List.foldlM_cons, List.foldlM_nil, Driver.new]
  cases (root.index "id").getInt <;> simp
  cases (root.index "name").getString <;> simp
  cases (root.index "driver").getString <;> simp
  cases (root.index "seed_dir").getString <;> simp
  cases (root.index "output").getString <;> simp
  cases (root.index "priority").getFloat libs <;> simp
  cases (root.index "description").getString <;> simp
  cases Driver.parseArgs (root.index "args") <;> simp
  cases root.find "in_place_editing" with
  | none => simp
  | some j => exact Option.map_eq_bind

theorem loadInto_eq_true_iff {memory : Uninitialized} {content : Option Json} {loaded : Driver} :
    Driver.loadInto libs (Driver.new memory) content = (loaded, true) ↔
      content.bind (Driver.load libs) = some loaded := by
  cases content with
  | none => simp [Driver.loadInto]
  | some root =>
      rw [Driver.loadInto, runLoaders_eq_true_iff, foldlM_fieldLoaders, Option.bind_some]

theorem runLoaders_id {loaders : List (Driver → Option Driver)}
    (keeps : ∀ load ∈ loaders, ∀ d next, load d = some next → next.id = d.id) (d : Driver) :
    (Driver.runLoaders loaders d).1.id = d.id := by
  induction loaders generalizing d with
  | nil => rfl
  | cons load rest inductionHypothesis =>
      rw [Driver.runLoaders]
      split
      · rfl
      · next next taken =>
        rw [inductionHypothesis (fun other member => keeps other (List.mem_cons_of_mem load member)),
          keeps load List.mem_cons_self d next taken]

theorem fieldLoaders_tail_id (root : Json) :
    ∀ load ∈ (Driver.fieldLoaders libs root).tail, ∀ d next, load d = some next →
      next.id = d.id := by
  simp only [Driver.fieldLoaders, List.tail_cons, List.forall_mem_cons, List.not_mem_nil,
    false_implies, implies_true, and_true]
  refine ⟨?_, ?_, ?_, ?_, ?_, ?_, ?_, ?_⟩
  all_goals
    intro d next taken
    first
    | obtain ⟨_, -, rfl⟩ := Option.map_eq_some_iff.mp taken
      rfl
    | split at taken
      · obtain ⟨_, -, rfl⟩ := Option.map_eq_some_iff.mp taken
        rfl
      · cases taken
        rfl

theorem id_loadInto (memory : Uninitialized) (name : Bytes) :
    (Driver.loadInto libs (Driver.new memory) (files (drvPath name))).1.id =
      (listedProfileId files name).getD memory.id := by
  unfold listedProfileId
  cases files (drvPath name) with
  | none => rfl
  | some root =>
      have later := @fieldLoaders_tail_id libs root
      rw [Option.bind_some, Driver.loadInto, Driver.fieldLoaders, Driver.runLoaders]
      cases (root.index "id").getInt with
      | none => rfl
      | some id => exact runLoaders_id later _

theorem find_loadEntries {memory : Nat → Uninitialized} {round : Nat}
    {allDrivers final : OrderedMap Nat Driver} {entries : List Json}
    (loaded : loadEntries libs files memory round allDrivers entries = some final) (id : Nat) :
    (∃ name found,
        (entries.filterMap fun entry => entry.listEntry.listed).reverse.lookup id = some name ∧
          final.find id =
            some (Driver.loadInto libs (Driver.new (memory found)) (files (drvPath name))).1) ∨
      (entries.filterMap fun entry => entry.listEntry.listed).reverse.lookup id = none ∧
        final.find id = allDrivers.find id := by
  induction entries generalizing round allDrivers with
  | nil =>
      cases loaded
      exact .inr ⟨rfl, rfl⟩
  | cons entry rest inductionHypothesis =>
      rw [loadEntries] at loaded
      cases kind : entry.listEntry with
      | skipped =>
          rw [kind] at loaded
          rw [List.filterMap_cons_none (by rw [kind]; rfl)]
          exact inductionHypothesis loaded
      | thrown =>
          rw [kind] at loaded
          cases loaded
      | driver other name =>
          rw [kind] at loaded
          rw [List.filterMap_cons_some (b := (other, name)) (by rw [kind]; rfl), List.reverse_cons,
            List.lookup_append]
          rcases inductionHypothesis loaded with ⟨last, found, here, kept⟩ | ⟨none, kept⟩
          · exact .inl ⟨last, found, by rw [here]; rfl, kept⟩
          · rw [none, Option.none_or, kept, OrderedMap.find_insert]
            by_cases same : id = other
            · exact .inl ⟨name, round, by simp [same], by rw [if_pos same]⟩
            · exact .inr ⟨List.lookup_eq_none_iff.mpr (by simpa using same), by rw [if_neg same]⟩

theorem find_loadDriverList {memory : Nat → Uninitialized} {path : Bytes} {returned : Bool}
    {allDrivers : OrderedMap Nat Driver}
    (loaded : loadDriverList libs files memory path = some (returned, allDrivers)) (id : Nat) :
    (∃ name found, (listedDrivers files path).reverse.lookup id = some name ∧
        allDrivers.find id =
          some (Driver.loadInto libs (Driver.new (memory found)) (files (drvPath name))).1) ∨
      (listedDrivers files path).reverse.lookup id = none ∧ allDrivers.find id = none := by
  unfold loadDriverList at loaded
  unfold listedDrivers
  cases content : files path with
  | none =>
      rw [content] at loaded
      cases loaded
      exact .inr ⟨rfl, rfl⟩
  | some root =>
      rw [content] at loaded
      dsimp only at loaded
      rw [Option.bind_some]
      split at loaded
      · obtain ⟨final, ran, equal⟩ := Option.map_eq_some_iff.mp loaded
        cases equal
        exact find_loadEntries ran id
      · cases loaded
        exact .inr ⟨rfl, rfl⟩

theorem mem_getAllDrvIds {allDrivers : OrderedMap Nat Driver} {id : Nat} :
    id ∈ getAllDrvIds allDrivers ↔ ∃ driver, allDrivers.find id = some driver := by
  simp only [getAllDrvIds, List.mem_map, Prod.exists, exists_and_right, exists_eq_right,
    OrderedMap.find_eq_some_iff]

end Loading

section Scheduled

variable {libs : JsonLibs} {files : JsonFiles} {path : Bytes}

/-- Whatever new drivers find in memory, the ids that can be scheduled are the
listed ones whose profile loads, and every driver carries its key. -/
def OnlyLoadedDrivers (libs : JsonLibs) (files : JsonFiles) (path : Bytes) : Prop :=
  ∀ memory returned allDrivers, loadDriverList libs files memory path = some (returned, allDrivers) →
    (∀ id, id ∈ getAllDrvIds allDrivers ↔
      ∃ name, (id, name) ∈ listedDrivers files path ∧ ProfileLoads libs files name) ∧
    ∀ id driver, allDrivers.find id = some driver → driver.id.toInt = id

/-- Every listed id has a profile that loads, and the last profile that is listed
under it carries it. -/
def EveryProfileLoads (libs : JsonLibs) (files : JsonFiles) (path : Bytes) : Prop :=
  ∀ id name, (listedDrivers files path).reverse.lookup id = some name →
    (∃ other, (id, other) ∈ listedDrivers files path ∧ ProfileLoads libs files other) ∧
      ∃ own, listedProfileId files name = some own ∧ own.toInt = id

/-- Only drivers that loaded can be scheduled exactly when every listed profile
does load and carries the id it is listed under. -/
theorem onlyLoadedDrivers_iff
    (returns : ∀ memory, (loadDriverList libs files memory path).isSome) :
    OnlyLoadedDrivers libs files path ↔ EveryProfileLoads libs files path := by
  constructor
  · intro only id name last
    -- an id of -1 in memory is the key of no driver
    rcases Option.isSome_iff_exists.mp (returns fun _ => ⟨-1, none⟩) with
      ⟨⟨returned, allDrivers⟩, loaded⟩
    rcases only _ _ _ loaded with ⟨ids, keys⟩
    rcases find_loadDriverList loaded id with ⟨same, found, here, kept⟩ | ⟨none, -⟩
    · rw [last] at here
      cases here
      refine ⟨(ids id).mp (mem_getAllDrvIds.mpr ⟨_, kept⟩), ?_⟩
      have key := keys id _ kept
      rw [id_loadInto] at key
      cases carried : listedProfileId files name with
      | some own =>
          rw [carried] at key
          exact ⟨own, rfl, key⟩
      | none =>
          rw [carried] at key
          have negative : (-1 : Int32).toInt = -1 := by decide
          simp only [Option.getD_none, negative] at key
          omega
    · rw [last] at none
      cases none
  · intro every memory returned allDrivers loaded
    refine ⟨fun id => ?_, fun id driver kept => ?_⟩
    · rw [mem_getAllDrvIds]
      constructor
      · rintro ⟨driver, kept⟩
        rcases find_loadDriverList loaded id with ⟨name, found, last, -⟩ | ⟨-, none⟩
        · exact (every id name last).1
        · rw [kept] at none
          cases none
      · rintro ⟨name, listed, -⟩
        rcases find_loadDriverList loaded id with ⟨last, found, -, kept⟩ | ⟨none, -⟩
        · exact ⟨_, kept⟩
        · have absent := List.lookup_eq_none_iff.mp none (id, name) (List.mem_reverse.mpr listed)
          simp at absent
    · rcases find_loadDriverList loaded id with ⟨name, found, last, here⟩ | ⟨-, none⟩
      · rw [kept] at here
        cases here
        rcases (every id name last).2 with ⟨own, carried, same⟩
        rw [id_loadInto, carried]
        exact same
      · rw [kept] at none
        cases none

/-- `drivers/driver_list.json`. -/
def driverListPath : Bytes := utf8 "drivers/driver_list.json".toList

/-- Drivers 1 and 2 are listed; the given values are their profiles. -/
def twoListed (first second : Option Json) : JsonFiles := fun path =>
  if path = driverListPath then
    some (.obj [("number", .int 2), ("drivers", .arr
      [.obj [("1", .str (utf8 "1_a".toList))], .obj [("2", .str (utf8 "2_b".toList))]])])
  else if path = drvPath (utf8 "1_a".toList) then first
  else if path = drvPath (utf8 "2_b".toList) then second
  else none

def fullProfile (id : Nat) (name : String) : Json :=
  .obj [("id", .int id), ("name", .str (utf8 name.toList)), ("driver", .str (utf8 "file".toList)),
    ("args", .arr []), ("seed_dir", .str (utf8 "seeds".toList)), ("output", .str []),
    ("priority", .real 1), ("description", .str [])]

def exactLibs : JsonLibs where
  dump _ := []
  tokenerParse _ := none
  toJsonString _ := []
  parseInt64 _ := none
  parseDouble _ := none
  getFloat x := some x

theorem listedDrivers_twoListed (first second : Option Json) :
    listedDrivers (twoListed first second) driverListPath =
      [(1, utf8 "1_a".toList), (2, utf8 "2_b".toList)] :=
  rfl

theorem onlyLoadedDrivers_complete :
    OnlyLoadedDrivers exactLibs
      (twoListed (some (fullProfile 1 "1_a")) (some (fullProfile 2 "2_b"))) driverListPath := by
  refine (onlyLoadedDrivers_iff fun memory => rfl).mpr ?_
  intro id name last
  rw [listedDrivers_twoListed] at last ⊢
  rcases List.lookup_eq_some_iff.mp last with ⟨_, _, split, -⟩
  have member : (id, name) ∈ [(2, utf8 "2_b".toList), (1, utf8 "1_a".toList)] := by
    rw [show [(2, utf8 "2_b".toList), (1, utf8 "1_a".toList)] = _ from split]
    simp
  rcases List.mem_cons.mp member with second | first
  · cases second
    exact ⟨⟨utf8 "2_b".toList, by simp, rfl⟩, 2, rfl, rfl⟩
  · cases List.mem_singleton.mp first
    exact ⟨⟨utf8 "1_a".toList, by simp, rfl⟩, 1, rfl, rfl⟩

/-- Driver 2 has no profile, and driver 2 can be scheduled. -/
theorem missingProfile_scheduled :
    (∀ memory, ∃ allDrivers,
      loadDriverList exactLibs (twoListed (some (fullProfile 1 "1_a")) none) memory driverListPath =
        some (true, allDrivers) ∧ getAllDrvIds allDrivers = [1, 2]) ∧
    ¬ ∀ (libs : JsonLibs) (files : JsonFiles) (path : Bytes),
      (∀ memory, (loadDriverList libs files memory path).isSome) →
        OnlyLoadedDrivers libs files path := by
  refine ⟨fun memory => ⟨_, rfl, rfl⟩, fun only => ?_⟩
  have holds := only exactLibs (twoListed (some (fullProfile 1 "1_a")) none) driverListPath
    fun memory => rfl
  rcases (holds (fun _ => ⟨0, none⟩) _ _ rfl).1 2 with ⟨loaded, -⟩
  rcases loaded (by decide) with ⟨name, listed, loads⟩
  rw [listedDrivers_twoListed] at listed
  obtain rfl : name = utf8 "2_b".toList := by simpa using listed
  cases loads

end Scheduled

end GraphDissect.Drivers
