import GraphDissect.Drivers.InputQueue

/-!
# Moving the inputs of a driver to the head

The loop of `driver_prioritizeSeeds` walks the queue with a saved successor and
moves every input of the driver to the head of the queue it is walking.  The
others keep their order, and the inputs of the driver end up in the opposite
one.
-/

namespace GraphDissect.Drivers

open Library

namespace DynfileQueue

/-- No element is linked twice; elements are told apart by their index. -/
def Indexed (queue : DynfileQueue) : Prop := (queue.all.map Dynfile.idx).Nodup

instance (queue : DynfileQueue) : Decidable queue.Indexed :=
  inferInstanceAs (Decidable (List.Nodup _))

def tailqNext (file : Dynfile) : List Dynfile → Option Dynfile
  | [] => none
  | other :: rest => if other.idx = file.idx then rest.head? else tailqNext file rest

/-- `TAILQ_REMOVE` and `TAILQ_INSERT_HEAD` of one element. -/
def moveToHead (files : List Dynfile) (file : Dynfile) : List Dynfile :=
  file :: files.eraseP (·.idx = file.idx)

/-- `TAILQ_FOREACH_SAFE` with the body of `driver_prioritizeSeeds`: the successor
is read before the element is moved.  `none` means that the rounds are used up. -/
def prioritizeFrom (driverId : Nat) : Nat → List Dynfile → Option Dynfile → Option (List Dynfile)
  | _, files, none => some files
  | 0, _, some _ => none
  | rounds + 1, files, some curr =>
      let tmp := tailqNext curr files
      let files := if curr.driverId = driverId then moveToHead files curr else files
      prioritizeFrom driverId rounds files tmp

/-- `driver_prioritizeSeeds`: the loop, and the cursor on the first element. -/
def prioritizeSeeds (queue : DynfileQueue) (driverId : Nat) : Option DynfileQueue :=
  (prioritizeFrom driverId queue.all.length queue.all queue.all.head?).map fun files => ⟨[], files⟩

/-- The inputs of a driver, in the order of the queue. -/
def own (queue : DynfileQueue) (driverId : Nat) : List Dynfile :=
  queue.all.filter (·.driverId = driverId)

def others (queue : DynfileQueue) (driverId : Nat) : List Dynfile :=
  queue.all.filter (·.driverId ≠ driverId)

section Loop

variable {driverId : Nat} {curr : Dynfile} {before behind : List Dynfile}

theorem tailqNext_append (fresh : ∀ file ∈ before, file.idx ≠ curr.idx) :
    tailqNext curr (before ++ curr :: behind) = behind.head? := by
  induction before with
  | nil => simp [tailqNext]
  | cons file rest inductionHypothesis =>
      rw [List.cons_append, tailqNext, if_neg (fresh file List.mem_cons_self)]
      exact inductionHypothesis fun other member => fresh other (List.mem_cons_of_mem file member)

theorem moveToHead_append (fresh : ∀ file ∈ before, file.idx ≠ curr.idx) :
    moveToHead (before ++ curr :: behind) curr = curr :: (before ++ behind) := by
  rw [moveToHead, List.eraseP_append_right]
  · simp
  · intro file member
    simpa using fresh file member

/-- The queue once the loop is past `walked` and has `behind` ahead of it. -/
def walkedQueue (driverId : Nat) (walked behind : List Dynfile) : List Dynfile :=
  (walked.filter (·.driverId = driverId)).reverse ++
    (walked.filter (·.driverId ≠ driverId) ++ behind)

theorem mem_walked {walked : List Dynfile} {file : Dynfile}
    (member : file ∈ (walked.filter (·.driverId = driverId)).reverse ++
      walked.filter (·.driverId ≠ driverId)) : file ∈ walked := by
  rcases List.mem_append.mp member with own | other
  · exact List.mem_of_mem_filter (List.mem_reverse.mp own)
  · exact List.mem_of_mem_filter other

/-- The successor is saved before the move, so the loop walks the queue as it
was: one round for every element. -/
theorem prioritizeFrom_walked (walked : List Dynfile)
    (nodup : ((walked ++ behind).map Dynfile.idx).Nodup) :
    prioritizeFrom driverId behind.length (walkedQueue driverId walked behind) behind.head? =
      some (walkedQueue driverId (walked ++ behind) []) := by
  induction behind generalizing walked with
  | nil => simp [prioritizeFrom]
  | cons curr rest inductionHypothesis =>
      have fresh : ∀ file ∈ (walked.filter (·.driverId = driverId)).reverse ++
          walked.filter (·.driverId ≠ driverId), file.idx ≠ curr.idx := by
        intro file member same
        rw [List.map_append, List.nodup_append] at nodup
        exact nodup.2.2 file.idx (List.mem_map_of_mem (mem_walked member)) curr.idx
          (by simp) same
      have later := inductionHypothesis (walked ++ [curr]) (by simpa using nodup)
      rw [List.append_assoc, List.singleton_append] at later
      rw [List.length_cons, List.head?_cons, prioritizeFrom, ← later]
      simp only [walkedQueue]
      rw [← List.append_assoc, tailqNext_append fresh]
      congr 1
      split
      · next isOwn =>
        rw [moveToHead_append fresh]
        simp [isOwn]
      · next isOther => simp [isOther]

end Loop

section Result

variable {queue : DynfileQueue} {driverId : Nat}

/-- The loop ends, with the inputs of the driver in front in the opposite order. -/
theorem prioritizeSeeds_eq (indexed : queue.Indexed) (driverId : Nat) :
    queue.prioritizeSeeds driverId =
      some ⟨[], (queue.own driverId).reverse ++ queue.others driverId⟩ := by
  have walk := @prioritizeFrom_walked driverId queue.all [] indexed
  simp only [walkedQueue, List.filter_nil, List.reverse_nil, List.nil_append,
    List.append_nil] at walk
  rw [prioritizeSeeds, walk]
  rfl

theorem prioritizeSeeds_eq_prioritize (indexed : queue.Indexed) (driverId : Nat) :
    queue.prioritizeSeeds driverId = some (queue.prioritize driverId) :=
  prioritizeSeeds_eq indexed driverId

theorem prioritized_perm (queue : DynfileQueue) (driverId : Nat) :
    ((queue.own driverId).reverse ++ queue.others driverId).Perm queue.all := by
  have parts := List.filter_append_perm (fun file : Dynfile => file.driverId = driverId) queue.all
  simp only [← decide_not] at parts
  exact ((List.reverse_perm _).append_right _).trans parts

end Result

section Stability

variable {queue : DynfileQueue} {driverId : Nat}

/-- A stable partition of the queue by the driver, with the cursor on the first
element. -/
structure StablyPartitioned (queue result : DynfileQueue) (driverId : Nat) : Prop where
  perm : result.all.Perm queue.all
  ownFirst : result.all = result.own driverId ++ result.others driverId
  ownOrder : result.own driverId = queue.own driverId
  othersOrder : result.others driverId = queue.others driverId
  cursor : result.before = []

/-- Prioritising ends in a stable partition that prioritising again leaves alone. -/
def StablyPrioritizes (queue : DynfileQueue) (driverId : Nat) : Prop :=
  ∃ result, queue.prioritizeSeeds driverId = some result ∧
    StablyPartitioned queue result driverId ∧ result.prioritizeSeeds driverId = some result

theorem own_prioritized (queue : DynfileQueue) (driverId : Nat) :
    own ⟨[], (queue.own driverId).reverse ++ queue.others driverId⟩ driverId =
      (queue.own driverId).reverse := by
  simp only [own, others, all, List.nil_append, List.filter_append, List.filter_reverse,
    List.filter_filter]
  simp

theorem others_prioritized (queue : DynfileQueue) (driverId : Nat) :
    others ⟨[], (queue.own driverId).reverse ++ queue.others driverId⟩ driverId =
      queue.others driverId := by
  simp only [own, others, all, List.nil_append, List.filter_append, List.filter_reverse,
    List.filter_filter]
  simp

theorem length_le_one_of_reverse_eq {files : List Dynfile} (nodup : files.Nodup)
    (same : files.reverse = files) : files.length ≤ 1 := by
  cases files with
  | nil => simp
  | cons first rest =>
      cases rest with
      | nil => simp
      | cons second rest =>
          have last : (second :: rest).getLast? = some first := by
            have heads := congrArg List.head? same
            rwa [List.head?_reverse, List.getLast?_cons_cons, List.head?_cons] at heads
          exact absurd (List.mem_of_getLast? last) (List.nodup_cons.mp nodup).1

theorem Indexed.stable_iff (indexed : queue.Indexed) (driverId : Nat) :
    queue.StablyPrioritizes driverId ↔ (queue.own driverId).length ≤ 1 := by
  constructor
  · rintro ⟨result, reached, stable, -⟩
    rw [prioritizeSeeds_eq indexed, Option.some.injEq] at reached
    have order := stable.ownOrder
    rw [← reached, own_prioritized] at order
    exact length_le_one_of_reverse_eq ((List.Nodup.of_map _ indexed).filter _) order
  · intro short
    have unchanged : (queue.own driverId).reverse = queue.own driverId := by
      rcases Nat.le_one_iff_eq_zero_or_eq_one.mp short with none | one
      · rw [List.length_eq_zero_iff.mp none, List.reverse_nil]
      · rcases List.length_eq_one_iff.mp one with ⟨file, only⟩
        rw [only, List.reverse_singleton]
    have perm := prioritized_perm queue driverId
    have ownOrder := own_prioritized queue driverId
    have othersOrder := others_prioritized queue driverId
    refine ⟨_, prioritizeSeeds_eq indexed driverId, ⟨perm, ?_, ?_, othersOrder, rfl⟩, ?_⟩
    · rw [ownOrder, othersOrder]
      rfl
    · rw [ownOrder, unchanged]
    · have again : Indexed ⟨[], (queue.own driverId).reverse ++ queue.others driverId⟩ :=
        (perm.map Dynfile.idx).nodup_iff.mpr indexed
      rw [prioritizeSeeds_eq again, ownOrder, othersOrder, unchanged, unchanged]

/-- Prioritising is a stable partition exactly when the driver has at most one
input in the queue. -/
theorem stablyPrioritizes_iff (indexed : queue.Indexed) (driverId : Nat) :
    queue.StablyPrioritizes driverId ↔ (queue.own driverId).length ≤ 1 :=
  indexed.stable_iff driverId

def measured (driverId idx : Nat) : Dynfile where
  data := [65]
  imported := false
  driverId
  idx
  path := []

theorem stablyPrioritizes_one :
    StablyPrioritizes ⟨[measured 2 1], [measured 1 2, measured 2 3]⟩ 1 :=
  (stablyPrioritizes_iff (by decide) 1).mpr (by decide)

/-- Two inputs of driver 1, the better one first, change places. -/
theorem not_stablyPrioritizes_two :
    prioritizeSeeds ⟨[], [measured 1 1, measured 1 2]⟩ 1 =
        some ⟨[], [measured 1 2, measured 1 1]⟩ ∧
      ¬ ∀ (queue : DynfileQueue) (driverId : Nat), queue.Indexed →
        queue.StablyPrioritizes driverId := by
  refine ⟨rfl, fun stable => ?_⟩
  rcases stable ⟨[], [measured 1 1, measured 1 2]⟩ 1 (by decide) with ⟨result, reached, kept, -⟩
  cases reached
  have order := congrArg (List.map Dynfile.idx) kept.ownOrder
  revert order
  decide

end Stability

end DynfileQueue

namespace QueueState

variable {s next : QueueState}

/-- Indices are given out once, from the counter. -/
structure Numbered (seeds : SeedState) : Prop where
  indexed : seeds.queue.Indexed
  bounded : ∀ file ∈ seeds.queue.all, file.idx ≤ seeds.dynfileqCnt

section Numbering

variable {seeds : SeedState}

theorem Numbered.of_sublist (numbered : Numbered seeds) {queue : DynfileQueue}
    {files : List Dynfile} (perm : queue.all.Perm files) (sublist : files.Sublist seeds.queue.all) :
    Numbered { seeds with queue } where
  indexed := (perm.map Dynfile.idx).nodup_iff.mpr (numbered.indexed.sublist (sublist.map _))
  bounded file member := numbered.bounded file (sublist.subset (perm.mem_iff.mp member))

theorem Numbered.add (numbered : Numbered seeds) {queue : DynfileQueue} {file : Dynfile}
    (perm : queue.all.Perm (file :: seeds.queue.all)) (fresh : file.idx = seeds.dynfileqCnt + 1) :
    Numbered { seeds with queue, dynfileqCnt := seeds.dynfileqCnt + 1 } where
  indexed := by
    refine (perm.map Dynfile.idx).nodup_iff.mpr (List.nodup_cons.mpr ⟨?_, numbered.indexed⟩)
    intro member
    rcases List.mem_map.mp member with ⟨other, inside, same⟩
    have := numbered.bounded other inside
    omega
  bounded other member := by
    dsimp only
    rcases List.mem_cons.mp (perm.mem_iff.mp member) with rfl | inside
    · omega
    · have := numbered.bounded other inside
      omega

theorem insertAt_perm (queue : DynfileQueue) (position : Nat) (file : Dynfile) :
    (queue.insertAt (min position queue.all.length) file).all.Perm (file :: queue.all) := by
  have inside : min position queue.all.length ≤ queue.all.length := Nat.min_le_right _ _
  generalize min position queue.all.length = position at inside
  rw [DynfileQueue.all, List.length_append] at inside
  unfold DynfileQueue.insertAt
  split
  · next before => exact (List.perm_insertIdx file queue.before before).append_right _
  · next behind =>
    have within : position - queue.before.length ≤ queue.rest.length := by omega
    exact ((List.perm_insertIdx file queue.rest within).append_left _).trans List.perm_middle

theorem remove_sublist (queue : DynfileQueue) (file : Dynfile) :
    (queue.remove file).all.Sublist queue.all := by
  unfold DynfileQueue.remove
  split
  · exact List.eraseP_sublist.append_right _
  · exact List.eraseP_sublist.append_left _

theorem Numbered.insertHead (numbered : Numbered seeds) (hashes : List UInt64) {file : Dynfile}
    (fresh : file.idx = seeds.dynfileqCnt + 1) :
    Numbered { seeds with
      seedHashes := hashes
      queue := seeds.queue.insertHead file
      dynfileqCnt := seeds.dynfileqCnt + 1 } := by
  have perm : (seeds.queue.insertHead file).all.Perm (file :: seeds.queue.all) := List.Perm.refl _
  have added := numbered.add perm fresh
  exact ⟨added.indexed, added.bounded⟩

theorem Numbered.addSeedEntry (numbered : Numbered seeds) (driverId : Nat) (entry : SeedEntry) :
    Numbered (SeedState.addSeedEntry driverId seeds entry) := by
  unfold SeedState.addSeedEntry
  split
  · split
    · unfold SeedState.addDriverSeed
      split
      · exact numbered
      · exact numbered.insertHead _ rfl
    · exact numbered
  · exact numbered

theorem Numbered.addDriverSeedDir (numbered : Numbered seeds) (driverId : Nat)
    (entries : List SeedEntry) : Numbered (seeds.addDriverSeedDir driverId entries) := by
  induction entries generalizing seeds with
  | nil => exact numbered
  | cons entry rest inductionHypothesis =>
      rw [SeedState.addDriverSeedDir_cons]
      exact inductionHypothesis (numbered.addSeedEntry driverId entry)

theorem Numbered.switchDriver (numbered : Numbered seeds) (driver : SeedDriver) :
    Numbered (seeds.switchDriver driver) := by
  unfold SeedState.switchDriver
  split
  · exact numbered
  · split
    · have perm : (seeds.queue.prioritize driver.id).all.Perm seeds.queue.all :=
        DynfileQueue.prioritized_perm seeds.queue driver.id
      have sorted := numbered.of_sublist perm (List.Sublist.refl _)
      exact ⟨sorted.indexed, sorted.bounded⟩
    · have read := numbered.addDriverSeedDir driver.id (driver.seedDir.getD [])
      exact ⟨read.indexed, read.bounded⟩

theorem Numbered.addDynamicInput (numbered : Numbered s.seeds) (carried : Carried)
    (position : Nat) (data : Bytes) :
    Numbered (s.addDynamicInput carried position data).seeds :=
  numbered.add (insertAt_perm s.seeds.queue position _) rfl

theorem Numbered.handOut (numbered : Numbered s.seeds) {file : Dynfile} {tries : Nat}
    {queue : DynfileQueue} (same : queue.all = s.seeds.queue.all) :
    Numbered (s.handOut file tries queue).seeds := by
  have smaller : (if file.imported then queue.remove file else queue).all.Sublist
      s.seeds.queue.all := by
    rw [← same]
    split
    · exact remove_sublist queue file
    · exact List.Sublist.refl _
  have taken := numbered.of_sublist (.refl _) smaller
  exact ⟨taken.indexed, taken.bounded⟩

theorem Numbered.step {action : QueueAction} (numbered : Numbered s.seeds)
    (accounted : s.Accounted) (taken : s.step action = some next) : Numbered next.seeds := by
  cases action with
  | switchDriver driver =>
      rw [switchDriver_eq taken]
      exact numbered.switchDriver driver
  | injectSeed driverId entry =>
      cases taken
      exact numbered.addSeedEntry driverId entry
  | addInput position data =>
      cases taken
      exact numbered.addDynamicInput _ position data
  | setDynamicMainState =>
      rcases setDynamicMainState_cases taken with rfl | rfl
      · exact numbered.addDynamicInput _ 0 []
      · exact numbered
  | prepareInput lots =>
      obtain ⟨-, -, file, tries, queue, selected, rfl⟩ := prepareInput_eq taken
      exact numbered.handOut (accounted.selectInput selected).1
  | perfFeedback newCoverage position data =>
      rcases perfFeedback_cases taken with rfl | rfl
      · exact Numbered.addDynamicInput (s := { s with seeds := { s.seeds with
          carried := Function.update s.seeds.carried 0
            { s.seeds.carried 0 with imported := false } } })
          ⟨numbered.indexed, numbered.bounded⟩ _ position data
      · exact numbered

/-- In every reachable state no element is linked twice. -/
theorem indexed_of_reached {independentQueue socketFuzzer : Bool} {actions : List QueueAction}
    (reached : runFrom step (start independentQueue socketFuzzer) actions = some s) :
    s.seeds.queue.Indexed := by
  have begins : Numbered (start independentQueue socketFuzzer).seeds :=
    ⟨List.nodup_nil, by simp [start, SeedState.start, DynfileQueue.all]⟩
  have kept := @runFrom_invariant _ _ step (fun state => state.Accounted ∧ Numbered state.seeds)
    (fun _ _ _ holds taken => ⟨holds.1.step taken, holds.2.step holds.1 taken⟩) _ _ _
    ⟨accounted_start _ _, begins⟩ reached
  exact kept.2.indexed

/-- In every reachable state it is stable exactly for a driver with at most one input. -/
theorem stable_iff_of_reached {independentQueue socketFuzzer : Bool} {actions : List QueueAction}
    (reached : runFrom step (start independentQueue socketFuzzer) actions = some s)
    (driverId : Nat) :
    s.seeds.queue.StablyPrioritizes driverId ↔ (s.seeds.queue.own driverId).length ≤ 1 :=
  (indexed_of_reached reached).stable_iff driverId

end Numbering

end QueueState

end GraphDissect.Drivers
