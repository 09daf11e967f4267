import GraphDissect.Library.CString
import GraphDissect.Library.Runs

/-!
# Seeds and the independent queue

The first switch to a driver puts the seeds of its directory into the dynamic
queue.  Seeds are deduplicated by hash in one table for all drivers; with the
independent queue a driver is only fed inputs that carry its id.
-/

namespace GraphDissect.Drivers

open Library

/-- An entry of a seed directory; `data` is `none` when the file cannot be
opened or read. -/
structure SeedEntry where
  name : Bytes
  regular : Bool
  data : Option Bytes

/-- A driver and what `opendir` finds for its seed directory. -/
structure SeedDriver where
  id : Nat
  seedDir : Option (List SeedEntry)

/-- `dynfile_t`, with the fields that the drivers touch. -/
structure Dynfile where
  data : Bytes
  imported : Bool
  driverId : Nat
  idx : Nat
  path : Bytes

/-- `dynfileq` before `dynfileqCurrent`, and from it on. -/
structure DynfileQueue where
  before : List Dynfile
  rest : List Dynfile

def DynfileQueue.all (queue : DynfileQueue) : List Dynfile := queue.before ++ queue.rest

/-- What `run->dynfile` of a thread hands on to the inputs made from it. -/
structure Carried where
  driverId : Nat
  imported : Bool

/-- The state of honggfuzz; `initialized` lists the drivers whose flag is set. -/
structure SeedState where
  seedHashes : List UInt64
  queue : DynfileQueue
  dynfileqCnt : Nat
  initialized : List Nat
  active : Option Nat
  carried : Nat → Carried

inductive SeedAction where
  | switchDriver (driver : SeedDriver)
  | addInput (thread position : Nat) (data : Bytes)
  | addEmptyInput
  | prepareInput (thread position : Nat)

def hfInputMaxSize : Nat := 1024 * 1024 * 10

def maxSeedHashes : Nat := 4096

/-- The driver id of the input that stands in for an empty corpus. -/
def noDriverId : Nat := 959527

def driverReadData (entry : SeedEntry) : Option Bytes :=
  entry.data.filter fun data => 0 < data.length ∧ data.length ≤ hfInputMaxSize

def fnv1aHash (data : Bytes) : UInt64 :=
  data.foldl (fun hash b => (hash ^^^ b.toUInt64) * 1099511628211) 14695981039346656037

/-- `driver_isSeedExist`, which answers whether the seed is new. -/
def driverIsSeedExist (hashes : List UInt64) (data : Bytes) : Bool × List UInt64 :=
  let hash := fnv1aHash data
  if hash ∈ hashes then (false, hashes)
  else if hashes.length < maxSeedHashes then (true, hashes ++ [hash])
  else (true, hashes)

/-- The seeds that `driver_addDriverSeedDir` can read. -/
def SeedDriver.seeds (driver : SeedDriver) : List Bytes :=
  ((driver.seedDir.getD []).filter (·.regular)).filterMap driverReadData

namespace DynfileQueue

/-- `TAILQ_INSERT_HEAD`, and the cursor on the new element. -/
def insertHead (queue : DynfileQueue) (file : Dynfile) : DynfileQueue :=
  ⟨[], file :: queue.all⟩

/-- An insertion at a position, which leaves the cursor on its element. -/
def insertAt (queue : DynfileQueue) (position : Nat) (file : Dynfile) : DynfileQueue :=
  if position ≤ queue.before.length then { queue with before := queue.before.insertIdx position file }
  else { queue with rest := queue.rest.insertIdx (position - queue.before.length) file }

/-- `driver_prioritizeSeeds`: each match moves to the head in turn. -/
def prioritize (queue : DynfileQueue) (driverId : Nat) : DynfileQueue :=
  ⟨[], (queue.all.filter (·.driverId = driverId)).reverse ++
    queue.all.filter (·.driverId ≠ driverId)⟩

/-- The cursor behind the element at a position; an imported one is removed. -/
def take (queue : DynfileQueue) (position : Nat) (file : Dynfile) : DynfileQueue :=
  if file.imported then ⟨queue.all.take position, queue.all.drop (position + 1)⟩
  else ⟨queue.all.take (position + 1), queue.all.drop (position + 1)⟩

/-- The scan of `input_prepareDynamicInput` for the active driver, with so many
scans left before `LOG_F`; the cursor wraps around. -/
def scan (queue : DynfileQueue) (driverId : Nat) : Nat → List Dynfile → Option Dynfile
  | 0, _ => none
  | scans + 1, rest =>
      match if rest = [] then queue.all else rest with
      | [] => none
      | file :: rest => if file.driverId = driverId then some file else queue.scan driverId scans rest

end DynfileQueue

namespace SeedState

/-- `driver_addDriverSeed` behind `driver_readData`. -/
def addDriverSeed (s : SeedState) (driverId : Nat) (name data : Bytes) : SeedState :=
  match driverIsSeedExist s.seedHashes data with
  | (false, _) => s
  | (true, hashes) =>
      { s with
        seedHashes := hashes
        queue := s.queue.insertHead
          { data
            imported := true
            driverId
            idx := s.dynfileqCnt + 1
            path := name }
        dynfileqCnt := s.dynfileqCnt + 1 }

/-- The body of the loop of `driver_addDriverSeedDir`. -/
def addSeedEntry (driverId : Nat) (s : SeedState) (entry : SeedEntry) : SeedState :=
  if entry.regular then
    match driverReadData entry with
    | some data => s.addDriverSeed driverId entry.name data
    | none => s
  else s

/-- `driver_addDriverSeedDir` on the entries of the directory. -/
def addDriverSeedDir (s : SeedState) (driverId : Nat) (entries : List SeedEntry) : SeedState :=
  entries.foldl (addSeedEntry driverId) s

/-- `driver_switchDriver`. -/
def switchDriver (s : SeedState) (driver : SeedDriver) : SeedState :=
  if s.active = some driver.id then s
  else if driver.id ∈ s.initialized then
    { s with
      queue := s.queue.prioritize driver.id
      active := some driver.id }
  else
    { s.addDriverSeedDir driver.id (driver.seedDir.getD []) with
      initialized := driver.id :: s.initialized
      active := some driver.id }

/-- honggfuzz before its first input; `run->dynfile` is zeroed. -/
def start : SeedState where
  seedHashes := []
  queue := ⟨[], []⟩
  dynfileqCnt := 0
  initialized := []
  active := none
  carried _ := ⟨0, false⟩

/-- A switch, `input_addDynamicInput`, the input for an empty corpus, and the end
of `input_prepareDynamicInput`.  The position depends on coverage and on the
lottery of the scan and is left open; the independent queue only lets inputs of
the active driver pass. -/
def step (s : SeedState) : SeedAction → Option SeedState
  | .switchDriver driver =>
      if driver.id = 0 ∨ 8192 < driver.id then none else some (s.switchDriver driver)
  | .addInput thread position data =>
      some { s with
        queue := s.queue.insertAt position
          { data
            imported := (s.carried thread).imported
            driverId := (s.carried thread).driverId
            idx := s.dynfileqCnt + 1
            path := [] }
        dynfileqCnt := s.dynfileqCnt + 1 }
  | .addEmptyInput =>
      if s.dynfileqCnt = 0 then
        some { s with
          queue := s.queue.insertAt 0
            { data := []
              imported := false
              driverId := noDriverId
              idx := 1
              path := [] }
          dynfileqCnt := 1 }
      else none
  | .prepareInput thread position =>
      match s.queue.all[position]? with
      | none => none
      | some file =>
          if ∃ driverId ∈ s.active, file.driverId ≠ driverId then none
          else
            some { s with
              queue := s.queue.take position file
              carried := Function.update s.carried thread ⟨file.driverId, file.imported⟩ }

/-- The queue has an input for the driver, and the scan hands one out. -/
def Available (s : SeedState) (driverId : Nat) : Prop :=
  (∃ file ∈ s.queue.all, file.driverId = driverId) ∧
    ∃ file, s.queue.scan driverId s.dynfileqCnt s.queue.rest = some file ∧
      file.driverId = driverId

section Switch

variable {s : SeedState} {driverId : Nat}

theorem addDriverSeed_of_mem {data : Bytes} (known : fnv1aHash data ∈ s.seedHashes) (name : Bytes) :
    s.addDriverSeed driverId name data = s := by
  rw [addDriverSeed, driverIsSeedExist, if_pos known]

theorem queue_addDriverSeed_of_notMem {data : Bytes} (fresh : fnv1aHash data ∉ s.seedHashes)
    (name : Bytes) : ∃ file,
      (s.addDriverSeed driverId name data).queue = s.queue.insertHead file ∧
        file.driverId = driverId ∧
        (s.addDriverSeed driverId name data).dynfileqCnt = s.dynfileqCnt + 1 := by
  rw [addDriverSeed, driverIsSeedExist, if_neg fresh]
  split
  · next equal => split at equal <;> cases equal
  · exact ⟨_, rfl, rfl, rfl⟩

/-- The cursor is on an input of the driver. -/
def AtSeed (s : SeedState) (driverId : Nat) : Prop :=
  0 < s.dynfileqCnt ∧ ∃ file rest, s.queue = ⟨[], file :: rest⟩ ∧ file.driverId = driverId

theorem addDriverSeed_atSeed (atSeed : s.AtSeed driverId) (name data : Bytes) :
    (s.addDriverSeed driverId name data).AtSeed driverId := by
  by_cases known : fnv1aHash data ∈ s.seedHashes
  · rw [addDriverSeed_of_mem known]
    exact atSeed
  · obtain ⟨file, queue, id, count⟩ := queue_addDriverSeed_of_notMem known name
    exact ⟨by omega, file, _, queue, id⟩

theorem addDriverSeedDir_cons (s : SeedState) (entry : SeedEntry) (rest : List SeedEntry) :
    s.addDriverSeedDir driverId (entry :: rest) =
      (addSeedEntry driverId s entry).addDriverSeedDir driverId rest :=
  rfl

theorem addDriverSeedDir_atSeed (entries : List SeedEntry) (atSeed : s.AtSeed driverId) :
    (s.addDriverSeedDir driverId entries).AtSeed driverId := by
  induction entries generalizing s with
  | nil => exact atSeed
  | cons entry rest inductionHypothesis =>
      rw [addDriverSeedDir_cons]
      apply inductionHypothesis
      unfold addSeedEntry
      split
      · split
        · exact addDriverSeed_atSeed atSeed _ _
        · exact atSeed
      · exact atSeed

/-- Reading a directory changes nothing when every seed is known, and otherwise
leaves the cursor on a seed of the driver. -/
theorem addDriverSeedDir_cases (s : SeedState) (driver : SeedDriver) :
    ((∀ data ∈ driver.seeds, fnv1aHash data ∈ s.seedHashes) ∧
        s.addDriverSeedDir driver.id (driver.seedDir.getD []) = s) ∨
      ((∃ data ∈ driver.seeds, fnv1aHash data ∉ s.seedHashes) ∧
        (s.addDriverSeedDir driver.id (driver.seedDir.getD [])).AtSeed driver.id) := by
  unfold SeedDriver.seeds
  generalize driver.seedDir.getD [] = entries
  induction entries with
  | nil => exact .inl ⟨by simp, rfl⟩
  | cons entry rest inductionHypothesis =>
      rw [addDriverSeedDir_cons, addSeedEntry]
      -- the first entry is no seed, a known seed or a new one
      by_cases regular : entry.regular = true
      · cases read : driverReadData entry with
        | none => simpa [regular, read] using inductionHypothesis
        | some data =>
            by_cases known : fnv1aHash data ∈ s.seedHashes
            · simpa [regular, read, known, addDriverSeed_of_mem known] using inductionHypothesis
            · right
              obtain ⟨file, queue, id, count⟩ := queue_addDriverSeed_of_notMem known entry.name
              have atSeed : (s.addDriverSeed driver.id entry.name data).AtSeed driver.id :=
                ⟨by omega, file, _, queue, id⟩
              refine ⟨⟨data, by simp [regular, read], known⟩, ?_⟩
              rw [if_pos regular]
              exact addDriverSeedDir_atSeed rest atSeed
      · simpa [regular] using inductionHypothesis

theorem AtSeed.available (atSeed : s.AtSeed driverId) : s.Available driverId := by
  obtain ⟨count, file, rest, queue, id⟩ := atSeed
  refine ⟨⟨file, by simp [queue, DynfileQueue.all], id⟩, file, ?_, id⟩
  obtain ⟨scans, counted⟩ := Nat.exists_eq_succ_of_ne_zero count.ne'
  rw [counted, queue]
  simp [DynfileQueue.scan, id]

end Switch

section Provenance

/-- Where a driver id in the queue comes from: no driver, or one whose seeds
have been read. -/
def Known (s : SeedState) (driverId : Nat) : Prop :=
  driverId = 0 ∨ driverId = noDriverId ∨ driverId ∈ s.initialized

structure Traced (s : SeedState) : Prop where
  queued : ∀ file ∈ s.queue.all, s.Known file.driverId
  carried : ∀ thread, s.Known (s.carried thread).driverId
  active : ∀ driverId ∈ s.active, driverId ∈ s.initialized

theorem traced_start : start.Traced where
  queued := by simp [start, DynfileQueue.all]
  carried := fun _ => .inl rfl
  active := by rintro _ ⟨⟩

theorem Known.mono {s next : SeedState} {driverId : Nat} (known : s.Known driverId)
    (kept : s.initialized ⊆ next.initialized) : next.Known driverId :=
  known.imp_right (Or.imp_right fun member => kept member)

theorem mem_insertAt {queue : DynfileQueue} {position : Nat} {file other : Dynfile}
    (member : other ∈ (queue.insertAt position file).all) :
    other = file ∨ other ∈ queue.all := by
  unfold DynfileQueue.insertAt at member
  split at member
  · obtain before | rest := List.mem_append.mp member
    · exact (List.eq_or_mem_of_mem_insertIdx before).imp_right (List.mem_append_left _)
    · exact .inr (List.mem_append_right _ rest)
  · obtain before | rest := List.mem_append.mp member
    · exact .inr (List.mem_append_left _ before)
    · exact (List.eq_or_mem_of_mem_insertIdx rest).imp_right (List.mem_append_right _)

theorem mem_take {queue : DynfileQueue} {position : Nat} {file other : Dynfile}
    (member : other ∈ (queue.take position file).all) : other ∈ queue.all := by
  unfold DynfileQueue.take at member
  split at member
  all_goals
    obtain before | rest := List.mem_append.mp member
    · exact List.mem_of_mem_take before
    · exact List.mem_of_mem_drop rest

theorem mem_prioritize {queue : DynfileQueue} {driverId : Nat} {other : Dynfile}
    (member : other ∈ (queue.prioritize driverId).all) : other ∈ queue.all := by
  simp only [DynfileQueue.prioritize, DynfileQueue.all, List.nil_append, List.mem_append,
    List.mem_reverse, List.mem_filter] at member ⊢
  tauto

/-- Reading a directory only adds inputs of its driver. -/
theorem mem_addDriverSeedDir {s : SeedState} {driverId : Nat} (entries : List SeedEntry)
    {file : Dynfile} (member : file ∈ (s.addDriverSeedDir driverId entries).queue.all) :
    file.driverId = driverId ∨ file ∈ s.queue.all := by
  induction entries generalizing s with
  | nil => exact .inr member
  | cons entry rest inductionHypothesis =>
      rw [addDriverSeedDir_cons] at member
      obtain id | member := inductionHypothesis member
      · exact .inl id
      · unfold addSeedEntry at member
        split at member
        · split at member
          · next data _ =>
            by_cases known : fnv1aHash data ∈ s.seedHashes
            · rw [addDriverSeed_of_mem known] at member
              exact .inr member
            · obtain ⟨added, queue, id, -⟩ := queue_addDriverSeed_of_notMem known entry.name
              rw [queue] at member
              obtain rfl | member := List.mem_cons.mp member
              · exact .inl id
              · exact .inr member
          · exact .inr member
        · exact .inr member

theorem carried_addDriverSeedDir (s : SeedState) (driverId : Nat) (entries : List SeedEntry) :
    (s.addDriverSeedDir driverId entries).carried = s.carried := by
  induction entries generalizing s with
  | nil => rfl
  | cons entry rest inductionHypothesis =>
      rw [addDriverSeedDir_cons, inductionHypothesis, addSeedEntry]
      split
      · split
        · unfold addDriverSeed
          split <;> rfl
        · rfl
      · rfl

theorem Traced.switchDriver {s : SeedState} (traced : s.Traced) (driver : SeedDriver) :
    (s.switchDriver driver).Traced := by
  unfold SeedState.switchDriver
  split
  · exact traced
  · split
    · next read =>
      refine ⟨fun file member => traced.queued file (mem_prioritize member), traced.carried, ?_⟩
      rintro _ ⟨⟩
      exact read
    · have kept : s.initialized ⊆ driver.id :: s.initialized := List.subset_cons_self _ _
      refine ⟨?_, ?_, ?_⟩
      · intro file member
        obtain id | member := mem_addDriverSeedDir _ member
        · exact .inr (.inr (id ▸ List.mem_cons_self))
        · exact (traced.queued file member).mono kept
      · intro thread
        dsimp only
        rw [carried_addDriverSeedDir]
        exact (traced.carried thread).mono kept
      · rintro _ ⟨⟩
        exact List.mem_cons_self

theorem Traced.step {s next : SeedState} {action : SeedAction} (traced : s.Traced)
    (taken : s.step action = some next) : next.Traced := by
  cases action with
  | switchDriver driver =>
      simp only [SeedState.step] at taken
      split at taken
      · cases taken
      · cases taken
        exact traced.switchDriver driver
  | addInput thread position data =>
      cases taken
      refine ⟨?_, traced.carried, traced.active⟩
      intro file member
      obtain rfl | member := mem_insertAt member
      · exact traced.carried thread
      · exact traced.queued file member
  | addEmptyInput =>
      simp only [SeedState.step] at taken
      split at taken
      · cases taken
        refine ⟨?_, traced.carried, traced.active⟩
        intro file member
        obtain rfl | member := mem_insertAt member
        · exact .inr (.inl rfl)
        · exact traced.queued file member
      · cases taken
  | prepareInput thread position =>
      simp only [SeedState.step] at taken
      split at taken
      · cases taken
      · next file named =>
        split at taken
        · cases taken
        · cases taken
          refine ⟨fun other member => traced.queued other (mem_take member), ?_, traced.active⟩
          intro other
          dsimp only
          by_cases same : other = thread
          · subst same
            rw [Function.update_self]
            exact traced.queued file (List.mem_of_getElem? named)
          · rw [Function.update_of_ne same]
            exact traced.carried other

theorem traced_of_runFrom {actions : List SeedAction} {s : SeedState}
    (reached : runFrom step start actions = some s) : s.Traced :=
  runFrom_invariant (fun _ _ _ kept taken => kept.step taken) traced_start reached

/-- A first switch makes an input available exactly when a seed has a hash that
is not recorded. -/
theorem Traced.first_available_iff {s next : SeedState} {driver : SeedDriver} (traced : s.Traced)
    (first : driver.id ∉ s.initialized) (taken : s.step (.switchDriver driver) = some next) :
    next.Available driver.id ↔ ∃ data ∈ driver.seeds, fnv1aHash data ∉ s.seedHashes := by
  have inactive : s.active ≠ some driver.id := fun active => first (traced.active _ active)
  simp only [SeedState.step] at taken
  split at taken
  · cases taken
  · next range =>
    cases taken
    rw [SeedState.switchDriver, if_neg inactive, if_neg first]
    obtain ⟨known, same⟩ | ⟨fresh, atSeed⟩ := addDriverSeedDir_cases s driver
    · rw [same]
      constructor
      · rintro ⟨⟨file, member, id⟩, -⟩
        -- an input of the driver before its first switch
        obtain zero | none | read := traced.queued file member
        · exact absurd (.inl (id.symm.trans zero)) range
        · refine absurd (.inr ?_) range
          rw [← id, none]
          decide
        · exact absurd (id ▸ read) first
      · rintro ⟨data, member, fresh⟩
        exact absurd (known data member) fresh
    · exact ⟨fun _ => fresh, fun _ => atSeed.available⟩

end Provenance

/-- After any run, the first switch to a driver makes an input available exactly
when a seed of the driver has a hash that no earlier switch has recorded. -/
theorem first_switch_available_iff {actions : List SeedAction} {s next : SeedState}
    {driver : SeedDriver} (reached : runFrom step start actions = some s)
    (first : driver.id ∉ s.initialized) (taken : s.step (.switchDriver driver) = some next) :
    next.Available driver.id ↔ ∃ data ∈ driver.seeds, fnv1aHash data ∉ s.seedHashes :=
  (traced_of_runFrom reached).first_available_iff first taken

/-- A driver whose directory has one seed. -/
def oneSeed (id : Nat) (data : Bytes) : SeedDriver where
  id
  seedDir := some [⟨utf8 "seed0".toList, true, some data⟩]

theorem first_switch_available_distinct : ∃ next,
    (start.switchDriver (oneSeed 1 [65])).step (.switchDriver (oneSeed 2 [66])) = some next ∧
      next.Available 2 := by
  have reached : runFrom step start [.switchDriver (oneSeed 1 [65])] =
      some (start.switchDriver (oneSeed 1 [65])) := rfl
  have first : (oneSeed 2 [66]).id ∉ (start.switchDriver (oneSeed 1 [65])).initialized := by
    decide
  have fresh : ∃ data ∈ (oneSeed 2 [66]).seeds,
      fnv1aHash data ∉ (start.switchDriver (oneSeed 1 [65])).seedHashes := by decide
  exact ⟨_, rfl, (first_switch_available_iff reached first rfl).mpr fresh⟩

/-- Two drivers that share their only seed: the second one gets no input. -/
theorem shared_seed_unavailable :
    ¬ ∀ (actions : List SeedAction) (s next : SeedState) (driver : SeedDriver),
      runFrom step start actions = some s → driver.id ∉ s.initialized →
      s.step (.switchDriver driver) = some next → driver.seeds ≠ [] →
      next.Available driver.id := by
  intro available
  have empty : ¬ ∃ file ∈ ((start.switchDriver (oneSeed 1 [65])).switchDriver
      (oneSeed 2 [65])).queue.all, file.driverId = 2 := by decide
  exact empty (available [.switchDriver (oneSeed 1 [65])] _ _ (oneSeed 2 [65]) rfl (by decide) rfl
    (by decide)).1

end SeedState

end GraphDissect.Drivers
