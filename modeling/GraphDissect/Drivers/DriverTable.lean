import GraphDissect.Drivers.ActiveDriver
import GraphDissect.Library.LinkedList
import GraphDissect.Library.Runs

/-!
# The driver table

honggfuzz keeps every driver it has loaded in a doubly linked list, the latest
one first, and in an array that is indexed by driver id.  The list is tied to
an abstract one: the drivers in the order of their last load.
-/

namespace GraphDissect.Drivers

open Library

abbrev maxDriver : Nat := 8192

/-- `fuzz_driver_t` without its list pointers. -/
structure FuzzDriver where
  drvProf : DriverProf
  startTime : UInt32
  totalTime : UInt32
  startCrashes : UInt32
  totalCrashes : UInt32
  deltaCrashes : UInt32
  startEdges : UInt32
  deltaEdges : UInt32
  totalEdges : UInt32
  totalExes : UInt32
  initialized : Bool

namespace FuzzDriver

def id (driver : FuzzDriver) : Int32 := driver.drvProf.id

/-- The zeroed driver that `drive_loadDriver` reads a profile into. -/
def ofProf (drvProf : DriverProf) : FuzzDriver where
  drvProf
  startTime := 0
  totalTime := 0
  startCrashes := 0
  totalCrashes := 0
  deltaCrashes := 0
  startEdges := 0
  deltaEdges := 0
  totalEdges := 0
  totalExes := 0
  initialized := false

def setPriority (driver : FuzzDriver) (priority : Option Rat) : FuzzDriver :=
  { driver with drvProf := { driver.drvProf with priority } }

@[simp]
theorem setPriority_id (driver : FuzzDriver) (priority : Option Rat) :
    (driver.setPriority priority).id = driver.id := rfl

end FuzzDriver

/-- `fuzz_driver_table_t`.  The drivers lie on the heap in the order of their
allocation; an address is a position in it. -/
structure DriverTable where
  heap : List FuzzDriver
  links : Links Nat
  driverMap : Fin maxDriver → Option Nat
  driverCount : Nat
  activeDriver : Option Nat
  currentPhase : Int32
  inPlaceEdit : Int32

/-- The index into `driver_map`; `none` is an access outside of the array. -/
def driverIndex (id : Int32) : Option (Fin maxDriver) :=
  if inside : 0 ≤ id.toInt ∧ id.toInt < maxDriver then some ⟨id.toInt.toNat, by omega⟩ else none

/-- The check of the id in `drive_loadDriver`. -/
def idRefused (id : Int32) : Bool := id == 0 || id > 8192

namespace DriverTable

def empty : DriverTable where
  heap := []
  links := ⟨fun _ => none, fun _ => none, none⟩
  driverMap _ := none
  driverCount := 0
  activeDriver := none
  currentPhase := 0
  inPlaceEdit := 0

/-- `drive_addDriver`; `none` is an access outside of `driver_map` or through a
null pointer. -/
def driveAddDriver (table : DriverTable) (fdrv : FuzzDriver) : Option DriverTable := do
  let index ← driverIndex fdrv.id
  match table.driverMap index with
  | none =>
      let newDrv := table.heap.length
      return { table with
        heap := table.heap ++ [fdrv]
        driverMap := Function.update table.driverMap index (some newDrv)
        links := table.links.pushFront newDrv
        driverCount := table.driverCount + 1 }
  | some existDrv =>
      let heap := table.heap.modify existDrv (·.setPriority fdrv.drvProf.priority)
      if table.links.head = some existDrv then return { table with heap }
      else
        let links ← table.links.moveToFront existDrv
        return { table with heap, links }

/-- `drive_loadDriver` on the profile it has read; `LOG_F` for an id that the check
refuses ends the process. -/
def driveLoadProfile (table : DriverTable) (prof : DriverProf) : Option DriverTable :=
  if idRefused prof.id then none
  else do
    let added ← table.driveAddDriver (.ofProf prof)
    return { added with
      currentPhase := prof.currentPhase
      inPlaceEdit := prof.inPlaceEdit }

def driveLoadDriver (libs : JsonLibs) (table : DriverTable) (file : Bytes) : Option DriverTable :=
  (driveReadProfile libs file).bind table.driveLoadProfile

/-- The list, the map and the counter agree. -/
structure Represents (table : DriverTable) (elems : List Nat) : Prop where
  links : table.links.Holds elems
  cells : ∀ addr, addr ∈ elems ↔ addr < table.heap.length
  entries : ∀ addr, addr ∈ elems ↔ ∃ index, table.driverMap index = some addr
  ids : ∀ index addr, table.driverMap index = some addr →
    ∃ driver, table.heap[addr]? = some driver ∧ driverIndex driver.id = some index
  count : table.driverCount = elems.length

def drivers (table : DriverTable) (elems : List Nat) : List FuzzDriver :=
  elems.filterMap fun addr => table.heap[addr]?

end DriverTable

/-- What the table is for: the known drivers, the latest one first.  A driver
that is known keeps all of its fields but the priority. -/
def remember (known : List FuzzDriver) (fdrv : FuzzDriver) : List FuzzDriver :=
  match known.find? (·.id = fdrv.id) with
  | none => fdrv :: known
  | some old => old.setPriority fdrv.drvProf.priority :: known.eraseP (·.id = fdrv.id)

theorem driverIndex_eq_some_iff {id : Int32} {index : Fin maxDriver} :
    driverIndex id = some index ↔ id.toInt = index := by
  unfold driverIndex
  split
  next inside =>
    rw [Option.some.injEq, Fin.ext_iff]
    simp only
    omega
  next outside =>
    constructor
    · rintro ⟨⟩
    · intro same
      omega

theorem driverIndex_injective {id other : Int32} {index : Fin maxDriver}
    (first : driverIndex id = some index) (second : driverIndex other = some index) :
    id = other := by
  rw [driverIndex_eq_some_iff] at first second
  exact Int32.toInt_inj.mp (first.trans second.symm)

namespace DriverTable

section Add

variable {table : DriverTable} {elems : List Nat} {fdrv : FuzzDriver} {index : Fin maxDriver}

theorem represents_empty : empty.Represents [] where
  links := ⟨rfl, trivial, .nil⟩
  cells := by simp [empty]
  entries := by simp [empty]
  ids := by simp [empty]
  count := rfl

theorem Represents.entry (represents : table.Represents elems) {addr : Nat} {driver : FuzzDriver}
    (stored : table.heap[addr]? = some driver) (known : driverIndex driver.id = some index) :
    table.driverMap index = some addr := by
  have member := (represents.cells addr).mpr (List.getElem?_eq_some_iff.mp stored).1
  rcases (represents.entries addr).mp member with ⟨other, entry⟩
  rcases represents.ids other addr entry with ⟨same, storedSame, indexed⟩
  cases stored.symm.trans storedSame
  cases known.symm.trans indexed
  exact entry

theorem Represents.addNew (represents : table.Represents elems)
    (known : driverIndex fdrv.id = some index) (missing : table.driverMap index = none) :
    ∃ added, table.driveAddDriver fdrv = some added ∧
      added.Represents (table.heap.length :: elems) ∧ added.heap = table.heap ++ [fdrv] := by
  simp only [driveAddDriver, known, missing, Option.bind_eq_bind, Option.bind_some]
  have fresh : table.heap.length ∉ elems := by
    rw [represents.cells]
    exact lt_irrefl _
  have mapped : ∀ other addr,
      Function.update table.driverMap index (some table.heap.length) other = some addr ↔
        (other = index ∧ addr = table.heap.length) ∨ table.driverMap other = some addr := by
    intro other addr
    rcases eq_or_ne other index with rfl | different
    · simp [missing, eq_comm]
    · simp [different]
  refine ⟨_, rfl, ?_, rfl⟩
  constructor
  · exact represents.links.pushFront fresh
  · intro addr
    rw [List.mem_cons, represents.cells]
    simp only [List.length_append, List.length_singleton]
    omega
  · intro addr
    simp only [mapped]
    rw [List.mem_cons, represents.entries, exists_or]
    simp only [exists_eq_left]
  · intro other addr entry
    rcases (mapped other addr).mp entry with ⟨rfl, rfl⟩ | before
    · exact ⟨fdrv, by simp, known⟩
    · rcases represents.ids other addr before with ⟨driver, stored, indexed⟩
      refine ⟨driver, ?_, indexed⟩
      rw [List.getElem?_append_left (List.getElem?_eq_some_iff.mp stored).1, stored]
  · simp only [represents.count, List.length_cons]

theorem Represents.ofCells {next : DriverTable} (represents : table.Represents elems)
    (change : Nat → FuzzDriver → FuzzDriver) (keeps : ∀ addr driver, (change addr driver).id = driver.id)
    (heap : ∀ addr, next.heap[addr]? = table.heap[addr]?.map (change addr))
    (same : next = { table with heap := next.heap, activeDriver := next.activeDriver }) :
    next.Represents elems := by
  have size : next.heap.length = table.heap.length := by
    apply eq_of_forall_ge_iff
    intro addr
    rw [← List.getElem?_eq_none_iff, heap, Option.map_eq_none_iff, List.getElem?_eq_none_iff]
  rw [same]
  constructor
  · exact represents.links
  · intro addr
    rw [represents.cells, size]
  · exact represents.entries
  · intro index addr entry
    rcases represents.ids index addr entry with ⟨driver, stored, indexed⟩
    refine ⟨change addr driver, ?_, ?_⟩
    · rw [heap, stored]
      rfl
    · rw [keeps, indexed]
  · exact represents.count

theorem getElem?_modify_map {Item : Type*} (items : List Item) (position other : Nat)
    (change : Item → Item) :
    (items.modify position change)[other]? =
      items[other]?.map fun item => if position = other then change item else item := by
  rw [List.getElem?_modify]
  rfl

theorem Represents.modify (represents : table.Represents elems) (addr : Nat)
    {change : FuzzDriver → FuzzDriver} (keeps : ∀ driver, (change driver).id = driver.id) :
    ({ table with heap := table.heap.modify addr change } : DriverTable).Represents elems := by
  apply represents.ofCells (fun other driver => if addr = other then change driver else driver)
  · intro other driver
    split
    · exact keeps driver
    · rfl
  · intro other
    exact getElem?_modify_map _ _ _ _
  · rfl

theorem Represents.reAdd (represents : table.Represents elems)
    (known : driverIndex fdrv.id = some index) {addr : Nat}
    (present : table.driverMap index = some addr) :
    ∃ added, table.driveAddDriver fdrv = some added ∧
      added.Represents (addr :: elems.erase addr) ∧
      added.heap = table.heap.modify addr (·.setPriority fdrv.drvProf.priority) := by
  simp only [driveAddDriver, known, present, Option.bind_eq_bind, Option.bind_some]
  have changed := represents.modify addr
    (fun driver => FuzzDriver.setPriority_id driver fdrv.drvProf.priority)
  have member := (represents.entries addr).mpr ⟨index, present⟩
  rcases List.append_of_mem member with ⟨before, after, rfl⟩
  have split := (List.nodup_append.mp represents.links.nodup).2.2
  have notBefore : addr ∉ before := fun inBefore => split addr inBefore addr List.mem_cons_self rfl
  rw [List.erase_append_right _ notBefore, List.erase_cons_head]
  rcases before.eq_nil_or_concat with rfl | ⟨front, last, shape⟩
  · have isHead : table.links.head = some addr := represents.links.head
    rw [if_pos isHead]
    exact ⟨_, rfl, changed, rfl⟩
  · have nonempty : before ≠ [] := by simp [shape]
    have notHead : table.links.head ≠ some addr := by
      rw [represents.links.head, List.head?_append_of_ne_nil _ nonempty]
      intro isHead
      exact notBefore (List.mem_of_head? isHead)
    rcases represents.links.moveToFront nonempty with ⟨links, moved, holds⟩
    rw [if_neg notHead, moved]
    refine ⟨_, rfl, ?_, rfl⟩
    have rotated : ∀ other, other ∈ addr :: (before ++ after) ↔ other ∈ before ++ addr :: after :=
      fun other => List.perm_middle.symm.mem_iff
    exact {
      links := holds
      cells := fun other => (rotated other).trans (changed.cells other)
      entries := fun other => (rotated other).trans (changed.entries other)
      ids := changed.ids
      count := changed.count.trans List.perm_middle.length_eq }

/-- What an addition can do: a driver of a new id is put before the list, and one
of a known id is moved there with the new priority. -/
theorem Represents.add_cases (represents : table.Represents elems)
    (known : driverIndex fdrv.id = some index) :
    ∃ added, table.driveAddDriver fdrv = some added ∧
      (((∀ driver ∈ table.heap, driver.id ≠ fdrv.id) ∧
          added.Represents (table.heap.length :: elems) ∧ added.heap = table.heap ++ [fdrv]) ∨
        ∃ addr old, table.heap[addr]? = some old ∧ old.id = fdrv.id ∧
          added.Represents (addr :: elems.erase addr) ∧
          added.heap = table.heap.modify addr (·.setPriority fdrv.drvProf.priority)) := by
  cases entry : table.driverMap index with
  | none =>
      rcases represents.addNew known entry with ⟨added, taken, after, heap⟩
      refine ⟨added, taken, .inl ⟨?_, after, heap⟩⟩
      intro driver member same
      rcases List.mem_iff_getElem?.mp member with ⟨addr, stored⟩
      cases entry.symm.trans (represents.entry stored (same ▸ known))
  | some addr =>
      rcases represents.reAdd known entry with ⟨added, taken, after, heap⟩
      rcases represents.ids index addr entry with ⟨old, stored, indexed⟩
      exact ⟨added, taken, .inr ⟨addr, old, stored, driverIndex_injective indexed known, after, heap⟩⟩

end Add

section Contents

variable {table : DriverTable} {elems : List Nat}

theorem mem_drivers {driver : FuzzDriver} :
    driver ∈ table.drivers elems ↔ ∃ addr ∈ elems, table.heap[addr]? = some driver := by
  simp [drivers]

theorem filterMap_range_getElem? {Item : Type*} (items : List Item) :
    ((List.range items.length).filterMap fun position => items[position]?) = items := by
  induction items using List.reverseRecOn with
  | nil => rfl
  | append_singleton front last inductionHypothesis =>
      rw [List.length_append, List.length_singleton, List.range_succ, List.filterMap_append]
      congr 1
      · refine (List.filterMap_congr fun position member => ?_).trans inductionHypothesis
        rw [List.getElem?_append_left (List.mem_range.mp member)]
      · simp

theorem Represents.drivers_perm (represents : table.Represents elems) :
    (table.drivers elems).Perm table.heap := by
  have order : elems.Perm (List.range table.heap.length) :=
    (List.perm_ext_iff_of_nodup represents.links.nodup List.nodup_range).mpr fun addr => by
      rw [represents.cells, List.mem_range]
  exact (order.filterMap _).trans (.of_eq (filterMap_range_getElem? _))

theorem Represents.addr_eq (represents : table.Represents elems) {addr other : Nat}
    {driver same : FuzzDriver} (stored : table.heap[addr]? = some driver)
    (storedSame : table.heap[other]? = some same) (ids : driver.id = same.id) : addr = other := by
  have member := (represents.cells addr).mpr (List.getElem?_eq_some_iff.mp stored).1
  rcases (represents.entries addr).mp member with ⟨index, entry⟩
  rcases represents.ids index addr entry with ⟨_, storedAgain, indexed⟩
  cases stored.symm.trans storedAgain
  exact Option.some.inj (entry.symm.trans (represents.entry storedSame (ids ▸ indexed)))

theorem Represents.nodup_ids (represents : table.Represents elems) :
    (table.heap.map FuzzDriver.id).Nodup := by
  rw [List.nodup_iff_getElem?_ne_getElem?]
  intro addr other before inside same
  rw [List.length_map] at inside
  rw [List.getElem?_map, List.getElem?_map, List.getElem?_eq_getElem (by omega),
    List.getElem?_eq_getElem inside] at same
  have equal := represents.addr_eq (List.getElem?_eq_getElem (by omega))
    (List.getElem?_eq_getElem inside) (Option.some.inj same)
  omega

theorem Represents.drivers_moved (represents : table.Represents elems) {addr : Nat}
    {old : FuzzDriver} (stored : table.heap[addr]? = some old) (priority : Option Rat) :
    (({ table with heap := table.heap.modify addr (·.setPriority priority) } : DriverTable).drivers
        (addr :: elems.erase addr)) =
        old.setPriority priority :: (table.drivers elems).eraseP (·.id = old.id) ∧
      (table.drivers elems).find? (·.id = old.id) = some old := by
  have member := (represents.cells addr).mpr (List.getElem?_eq_some_iff.mp stored).1
  rcases List.append_of_mem member with ⟨before, after, rfl⟩
  have nodup := represents.links.nodup
  have others : addr ∉ before ++ after :=
    (List.nodup_cons.mp (List.perm_middle.nodup_iff.mp nodup)).1
  have notBefore : addr ∉ before := fun inBefore => others (List.mem_append_left after inBefore)
  have split : table.drivers (before ++ addr :: after) =
      table.drivers before ++ old :: table.drivers after := by
    rw [drivers, List.filterMap_append, List.filterMap_cons_some stored]
    rfl
  have earlier : ∀ driver ∈ table.drivers before, ¬ decide (driver.id = old.id) = true := by
    intro driver inBefore
    rcases mem_drivers.mp inBefore with ⟨other, otherIn, storedOther⟩
    rw [decide_eq_true_iff]
    intro same
    exact notBefore (represents.addr_eq storedOther stored same ▸ otherIn)
  rw [List.erase_append_right _ notBefore, List.erase_cons_head, split]
  constructor
  · rw [List.eraseP_append_right _ earlier, List.eraseP_cons_of_pos (by simp), drivers,
      List.filterMap_cons_some (by rw [List.getElem?_modify_eq, stored]; rfl)]
    congr 1
    rw [drivers, drivers, ← List.filterMap_append]
    apply List.filterMap_congr
    intro other otherIn
    have different : addr ≠ other := by
      rintro rfl
      exact others otherIn
    exact List.getElem?_modify_ne _ _ different
  · rw [List.find?_append, List.find?_eq_none.mpr earlier, Option.none_or,
      List.find?_cons_of_pos (by simp)]

theorem Represents.remembers (represents : table.Represents elems) {fdrv : FuzzDriver}
    {index : Fin maxDriver} (known : driverIndex fdrv.id = some index) :
    ∃ added order, table.driveAddDriver fdrv = some added ∧ added.Represents order ∧
      added.drivers order = remember (table.drivers elems) fdrv := by
  rcases represents.add_cases known with
    ⟨added, taken, ⟨new, after, heap⟩ | ⟨addr, old, stored, same, after, heap⟩⟩
  · refine ⟨added, _, taken, after, ?_⟩
    have missing : (table.drivers elems).find? (·.id = fdrv.id) = none := by
      rw [List.find?_eq_none]
      intro driver member
      simpa using new driver (represents.drivers_perm.mem_iff.mp member)
    have last : (table.heap ++ [fdrv])[table.heap.length]? = some fdrv := by simp
    rw [remember, missing, drivers, heap, List.filterMap_cons_some last]
    congr 1
    apply List.filterMap_congr
    intro addr member
    rw [List.getElem?_append_left ((represents.cells addr).mp member)]
  · refine ⟨added, _, taken, after, ?_⟩
    rcases represents.drivers_moved stored fdrv.drvProf.priority with ⟨moved, found⟩
    rw [remember, ← same, found]
    dsimp only
    rw [← moved, drivers, heap]
    rfl

end Contents

section Load

variable {table next : DriverTable} {elems : List Nat}

theorem driveAddDriver_activeDriver {fdrv : FuzzDriver}
    (taken : table.driveAddDriver fdrv = some next) : next.activeDriver = table.activeDriver := by
  rcases Option.bind_eq_some_iff.mp taken with ⟨index, -, added⟩
  split at added
  next =>
    cases added
    rfl
  next =>
    dsimp only at added
    split at added
    next =>
      cases added
      rfl
    next =>
      rcases Option.bind_eq_some_iff.mp added with ⟨links, -, made⟩
      cases made
      rfl

/-- What a load leaves: a table in order with the loaded driver at its head. -/
structure Loads (table next : DriverTable) (prof : DriverProf) (elems order : List Nat) : Prop where
  represents : next.Represents order
  activeDriver : next.activeDriver = table.activeDriver
  inPlaceEdit : next.inPlaceEdit = prof.inPlaceEdit
  cases :
    ((∀ driver ∈ table.heap, driver.id ≠ prof.id) ∧ order = table.heap.length :: elems ∧
        next.heap = table.heap ++ [.ofProf prof]) ∨
      ∃ addr old, table.heap[addr]? = some old ∧ old.id = prof.id ∧
        order = addr :: elems.erase addr ∧
        next.heap = table.heap.modify addr (·.setPriority prof.priority)

theorem Represents.loads (represents : table.Represents elems) {prof : DriverProf}
    (taken : table.driveLoadProfile prof = some next) : ∃ order, table.Loads next prof elems order := by
  unfold driveLoadProfile at taken
  split at taken
  next => cases taken
  next =>
    rcases Option.bind_eq_some_iff.mp taken with ⟨added, wasAdded, made⟩
    rcases Option.bind_eq_some_iff.mp wasAdded with ⟨index, known, -⟩
    cases made
    have active := driveAddDriver_activeDriver wasAdded
    rcases represents.add_cases known with
      ⟨same, wasSame, ⟨new, after, heap⟩ | ⟨addr, old, stored, ids, after, heap⟩⟩
    · cases wasAdded.symm.trans wasSame
      exact ⟨_, ⟨after.links, after.cells, after.entries, after.ids, after.count⟩, active, rfl,
        .inl ⟨new, rfl, heap⟩⟩
    · cases wasAdded.symm.trans wasSame
      exact ⟨_, ⟨after.links, after.cells, after.entries, after.ids, after.count⟩, active, rfl,
        .inr ⟨addr, old, stored, ids, rfl, heap⟩⟩

/-- A load changes nothing but a priority of the drivers that are there. -/
theorem Loads.forward {prof : DriverProf} {order : List Nat}
    (loads : table.Loads next prof elems order) {addr : Nat} {driver : FuzzDriver}
    (stored : table.heap[addr]? = some driver) :
    ∃ priority, next.heap[addr]? = some (driver.setPriority priority) := by
  rcases loads.cases with ⟨-, -, heap⟩ | ⟨known, old, storedOld, -, -, heap⟩
  · refine ⟨driver.drvProf.priority, ?_⟩
    rw [heap, List.getElem?_append_left (List.getElem?_eq_some_iff.mp stored).1, stored]
    rfl
  · rw [heap, getElem?_modify_map, stored, Option.map_some]
    by_cases here : known = addr
    · exact ⟨prof.priority, by rw [if_pos here]⟩
    · exact ⟨driver.drvProf.priority, by rw [if_neg here]; rfl⟩

theorem Loads.backward {prof : DriverProf} {order : List Nat}
    (loads : table.Loads next prof elems order) {driver : FuzzDriver} (member : driver ∈ next.heap) :
    (∃ old ∈ table.heap, ∃ priority, driver = old.setPriority priority) ∨
      driver = .ofProf prof ∧ ∀ known ∈ table.heap, known.id ≠ prof.id := by
  rcases loads.cases with ⟨new, -, heap⟩ | ⟨addr, old, stored, -, -, heap⟩
  · rw [heap, List.mem_append, List.mem_singleton] at member
    rcases member with before | added
    · exact .inl ⟨driver, before, driver.drvProf.priority, rfl⟩
    · exact .inr ⟨added, new⟩
  · rcases List.mem_iff_getElem?.mp member with ⟨other, storedDriver⟩
    rw [heap, getElem?_modify_map] at storedDriver
    rcases Option.map_eq_some_iff.mp storedDriver with ⟨before, storedBefore, rfl⟩
    refine .inl ⟨before, List.mem_of_getElem? storedBefore, ?_⟩
    split
    · exact ⟨_, rfl⟩
    · exact ⟨before.drvProf.priority, rfl⟩

end Load

/-- What a reader of the table may rely on; `elems` is the list from
`driver_list_head` on. -/
structure Coherent (table : DriverTable) (elems : List Nat) : Prop where
  finite : ∀ steps, table.links.follow steps = elems[steps]?
  acyclic : elems.Nodup
  inverse : ∀ addr ∈ elems, ∀ other ∈ elems,
    table.links.next addr = some other ↔ table.links.pre other = some addr
  first : ∀ addr, table.links.head = some addr → table.links.pre addr = none
  entries : ∀ addr, addr ∈ elems ↔ ∃ index, table.driverMap index = some addr
  ids : ∀ index addr, table.driverMap index = some addr →
    ∃ driver, table.heap[addr]? = some driver ∧ driver.id.toInt = index
  count : table.driverCount = elems.length

theorem Represents.coherent {table : DriverTable} {elems : List Nat}
    (represents : table.Represents elems) : table.Coherent elems where
  finite := represents.links.follow_eq
  acyclic := represents.links.nodup
  inverse _ left _ right :=
    ⟨fun following => (represents.links.pre_of_next left following).2,
      fun preceding => (represents.links.next_of_pre right preceding).2⟩
  first _ := represents.links.pre_head_eq
  entries := represents.entries
  ids index addr entry := by
    rcases represents.ids index addr entry with ⟨driver, stored, indexed⟩
    exact ⟨driver, stored, driverIndex_eq_some_iff.mp indexed⟩
  count := represents.count

theorem Represents.runFrom_remembers {table : DriverTable} {elems : List Nat}
    (represents : table.Represents elems) {adds : List FuzzDriver}
    (valid : ∀ fdrv ∈ adds, (driverIndex fdrv.id).isSome) :
    ∃ final order, runFrom driveAddDriver table adds = some final ∧ final.Represents order ∧
      final.drivers order = adds.foldl remember (table.drivers elems) := by
  induction adds generalizing table elems with
  | nil => exact ⟨table, elems, rfl, represents, rfl⟩
  | cons fdrv rest inductionHypothesis =>
      rcases Option.isSome_iff_exists.mp (valid fdrv List.mem_cons_self) with ⟨index, known⟩
      rcases represents.remembers known with ⟨added, order, taken, after, remembered⟩
      rcases inductionHypothesis after
        (fun other member => valid other (List.mem_cons_of_mem fdrv member)) with
        ⟨final, last, reached, holds, contents⟩
      refine ⟨final, last, runFrom_cons_eq_some.mpr ⟨added, taken, reached⟩, holds, ?_⟩
      rw [contents, remembered, List.foldl_cons]

/-- After any additions the table is coherent and lists the drivers by their
last addition, each as it was added first but for its priority. -/
theorem driveAddDriver_coherent (adds : List FuzzDriver)
    (valid : ∀ fdrv ∈ adds, 1 ≤ fdrv.id.toInt ∧ fdrv.id.toInt ≤ maxDriver - 1) :
    ∃ table elems, runFrom driveAddDriver empty adds = some table ∧ table.Coherent elems ∧
      table.drivers elems = adds.foldl remember [] := by
  have indexed : ∀ fdrv ∈ adds, (driverIndex fdrv.id).isSome := by
    intro fdrv member
    have range := valid fdrv member
    unfold driverIndex
    rw [dif_pos (by omega)]
    rfl
  rcases represents_empty.runFrom_remembers indexed with
    ⟨table, elems, reached, represents, contents⟩
  exact ⟨table, elems, reached, represents.coherent, contents⟩

/-- A driver of `xmllint` under some id and priority. -/
def xmllintProf (id : Int32) (priority : Rat) : DriverProf where
  id
  name := utf8 "html".toList
  driver := utf8 "drivers/html/xmllint".toList
  seedDir := utf8 "drivers/html/seeds".toList
  priority := some priority
  argv := [utf8 "--html".toList]
  output := []
  currentPhase := 0
  inPlaceEdit := 0

theorem driveAddDriver_coherent_again :
    ∃ table elems, runFrom driveAddDriver empty
        [.ofProf (xmllintProf 1 1), .ofProf (xmllintProf 2 1), .ofProf (xmllintProf 1 3)] =
          some table ∧
      table.Coherent elems ∧
      table.drivers elems =
        [.ofProf (xmllintProf 1 1), .ofProf (xmllintProf 2 1), .ofProf (xmllintProf 1 3)].foldl
          remember [] :=
  driveAddDriver_coherent _ (by decide +kernel)

example :
    ([(1, 1), (2, 1), (1, 3)].map fun (id, priority) => FuzzDriver.ofProf (xmllintProf id priority)).foldl
      remember [] = [.ofProf (xmllintProf 1 3), .ofProf (xmllintProf 2 1)] := rfl

end DriverTable

section Ids

/-- The id in a profile text, as `json_object_get_int` reads it. -/
def profileId (libs : JsonLibs) (file : Bytes) : Option Int32 := do
  let text ← driveReadFile file
  let root ← libs.tokenerParse (cstr text)
  let id ← root.find "id"
  return id.cInt libs

theorem profileId_of_driveReadProfile {libs : JsonLibs} {file : Bytes} {prof : DriverProf}
    (decoded : driveReadProfile libs file = some prof) : profileId libs file = some prof.id := by
  rcases Option.bind_eq_some_iff.mp decoded with ⟨text, read, parsed⟩
  rcases Option.bind_eq_some_iff.mp parsed with ⟨root, hroot, parsed⟩
  rcases Option.bind_eq_some_iff.mp parsed with ⟨id, hid, parsed⟩
  -- the other twelve fields do not touch the id
  iterate 12 obtain ⟨_, _, parsed⟩ := Option.bind_eq_some_iff.mp parsed
  cases parsed
  simp only [profileId, read, hroot, hid, Option.bind_eq_bind, Option.bind_some]
  rfl

/-- The ids that pass the check and are no index of `driver_map`. -/
theorem accepted_index_iff (id : Int32) :
    (idRefused id = false → 0 ≤ id.toInt ∧ id.toInt ≤ maxDriver - 1) ↔
      0 ≤ id.toInt ∧ id.toInt ≠ maxDriver := by
  have zero : id = 0 ↔ id.toInt = 0 := Int32.toInt_inj.symm
  have large : id > 8192 ↔ (8192 : Int) < id.toInt := Int32.lt_iff_toInt_lt
  simp only [idRefused, Bool.or_eq_false_iff, beq_eq_false_iff_ne, decide_eq_false_iff_not, ne_eq,
    zero, large, maxDriver]
  omega

/-- `drive_addDriver` is called with an index of `driver_map` exactly when the
profile's id is not negative and not `MAX_DRIVER` itself. -/
theorem driverMap_index_iff (libs : JsonLibs) (file : Bytes) :
    (∀ prof, driveReadProfile libs file = some prof → idRefused prof.id = false →
        0 ≤ prof.id.toInt ∧ prof.id.toInt ≤ maxDriver - 1) ↔
      ((driveReadProfile libs file).isSome → ∀ id, profileId libs file = some id →
        0 ≤ id.toInt ∧ id.toInt ≠ maxDriver) := by
  constructor
  · intro inside decoded id sent
    rcases Option.isSome_iff_exists.mp decoded with ⟨prof, read⟩
    cases sent.symm.trans (profileId_of_driveReadProfile read)
    exact (accepted_index_iff prof.id).mp (inside prof read)
  · intro sent prof read
    apply (accepted_index_iff prof.id).mpr
    exact sent (Option.isSome_of_eq_some read) prof.id (profileId_of_driveReadProfile read)

/-- A profile with the largest id that the check accepts. -/
def lastText : Bytes :=
  utf8 ("\x7b\"id\": 8192, \"name\": \"html\", \"driver\": \"xmllint\", \"args\": [], ".toList ++
    "\"seed_dir\": \"seeds\", \"priority\": 1, \"output\": \"\", \"phase\": 0\x7d".toList)

def lastProfile : Json :=
  .obj [("id", .int 8192), ("name", .str (utf8 "html".toList)),
    ("driver", .str (utf8 "xmllint".toList)), ("args", .arr []),
    ("seed_dir", .str (utf8 "seeds".toList)), ("priority", .int 1), ("output", .str []),
    ("phase", .int 0)]

theorem lastText_outside :
    ¬ ∀ (libs : JsonLibs) (file : Bytes) (prof : DriverProf),
      driveReadProfile libs file = some prof → idRefused prof.id = false →
        0 ≤ prof.id.toInt ∧ prof.id.toInt ≤ maxDriver - 1 := by
  intro inside
  have read : ((driveReadProfile (.ofText lastProfile lastText) lastText).map (·.id)) = some 8192 := by
    decide +kernel
  rcases Option.map_eq_some_iff.mp read with ⟨prof, decoded, id⟩
  have bound := (inside _ _ prof decoded (by rw [id]; decide)).2
  rw [id] at bound
  exact absurd bound (by decide)

end Ids

end GraphDissect.Drivers
