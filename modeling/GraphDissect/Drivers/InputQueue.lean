import GraphDissect.Drivers.Seeds

/-!
# Handing out inputs

`input_prepareDynamicInput` with its tries and its lottery, and the inputs that
`fuzz_perfFeedback` adds, for one thread.  A favourable input is handed out
several times without another look at the queue, and an imported one leaves the
queue while the counter of the guard stays.
-/

namespace GraphDissect.Drivers

open Library

/-- What one round of the selection loop draws: `input_skipFactor` and
`util_rnd64`. -/
structure Lot where
  skipFactor : Int
  rnd : UInt64

namespace DynfileQueue

/-- The element under the cursor, and the cursor behind it; the cursor of a
finished round starts at the head again.  `none` is the null pointer. -/
def next (queue : DynfileQueue) : Option (Dynfile × DynfileQueue) :=
  match queue.rest, queue.before with
  | file :: rest, before => some (file, ⟨before ++ [file], rest⟩)
  | [], file :: rest => some (file, ⟨[file], rest⟩)
  | [], [] => none

/-- `TAILQ_REMOVE`; elements are told apart by their index. -/
def remove (queue : DynfileQueue) (file : Dynfile) : DynfileQueue :=
  if queue.before.any (·.idx = file.idx) then
    { queue with before := queue.before.eraseP (·.idx = file.idx) }
  else { queue with rest := queue.rest.eraseP (·.idx = file.idx) }

/-- The loop of `input_prepareDynamicInput` once no tries are left: the input,
its tries and the queue.  Each round uses one lot. -/
def select (independent : Bool) (active : Option Nat) (count : Nat) :
    Nat → DynfileQueue → List Lot → Option (Dynfile × Nat × DynfileQueue)
  | _, _, [] => none
  | scans, queue, lot :: lots =>
      match queue.next with
      | none => none
      | some (file, queue) =>
          if independent ∧ ∃ driverId ∈ active, file.driverId ≠ driverId then
            if count ≤ scans + 1 then none
            else select independent active count (scans + 1) queue lots
          else if file.imported then some (file, 0, queue)
          else if lot.skipFactor ≤ 0 then some (file, (-lot.skipFactor).toNat, queue)
          else if lot.rnd.toNat % lot.skipFactor.toNat = 0 then some (file, 0, queue)
          else select independent active count scans queue lots

end DynfileQueue

/-- The queue and one `run_t`; what `run->dynfile` hands on is what thread 0
carries.  `taken` counts the imported inputs that were handed out, `added` the
inputs that were added in the main state, and `served` is the driver that was
active when the current input was handed out. -/
structure QueueState where
  seeds : SeedState
  independentQueue : Bool
  socketFuzzer : Bool
  mainState : Bool
  triesLeft : Nat
  current : Option Dynfile
  newUnitsAdded : Int
  taken : Nat
  added : Nat
  served : Option Nat

inductive QueueAction where
  | switchDriver (driver : SeedDriver)
  | injectSeed (driverId : Nat) (entry : SeedEntry)
  | addInput (position : Nat) (data : Bytes)
  | setDynamicMainState
  | prepareInput (lots : List Lot)
  | perfFeedback (newCoverage : Bool) (position : Nat) (data : Bytes)

namespace QueueState

def start (independentQueue socketFuzzer : Bool) : QueueState where
  seeds := SeedState.start
  independentQueue
  socketFuzzer
  mainState := false
  triesLeft := 0
  current := none
  newUnitsAdded := 0
  taken := 0
  added := 0
  served := none

/-- The input that `input_addDynamicInput` makes. -/
def newInput (s : QueueState) (carried : Carried) (data : Bytes) : Dynfile where
  data
  imported := carried.imported
  driverId := carried.driverId
  idx := s.seeds.dynfileqCnt + 1
  path := []

/-- `input_addDynamicInput`: the position depends on the coverage and is the tail
at the latest; new units are counted in the main state. -/
def addDynamicInput (s : QueueState) (carried : Carried) (position : Nat) (data : Bytes) :
    QueueState :=
  let counted := s.mainState && !s.socketFuzzer
  { s with
    seeds := { s.seeds with
      queue := s.seeds.queue.insertAt (min position s.seeds.queue.all.length)
        (s.newInput carried data)
      dynfileqCnt := s.seeds.dynfileqCnt + 1 }
    newUnitsAdded := if counted then s.newUnitsAdded + 1 else s.newUnitsAdded
    added := if counted then s.added + 1 else s.added }

/-- The input that is handed out, its tries and the queue; the remaining tries
of the previous input come first. -/
def selectInput (s : QueueState) (lots : List Lot) : Option (Dynfile × Nat × DynfileQueue) :=
  if s.triesLeft ≠ 0 then s.current.map fun file => (file, s.triesLeft - 1, s.seeds.queue)
  else s.seeds.queue.select s.independentQueue s.seeds.active s.seeds.dynfileqCnt 0 lots

/-- The end of `input_prepareDynamicInput`: an imported input leaves the queue. -/
def handOut (s : QueueState) (file : Dynfile) (triesLeft : Nat) (queue : DynfileQueue) :
    QueueState :=
  { s with
    seeds := { s.seeds with
      queue := if file.imported then queue.remove file else queue
      carried := Function.update s.seeds.carried 0 ⟨file.driverId, file.imported⟩ }
    triesLeft := if file.imported then 0 else triesLeft
    current := some file
    newUnitsAdded := if file.imported then s.newUnitsAdded - 1 else s.newUnitsAdded
    taken := if file.imported then s.taken + 1 else s.taken
    served := s.seeds.active }

/-- `input_prepareDynamicInput` behind its guard; `none` is the end of the
process by `LOG_F` or by a null pointer. -/
def prepareDynamicInput (s : QueueState) (lots : List Lot) : Option QueueState :=
  if s.seeds.dynfileqCnt = 0 then none
  else (s.selectInput lots).map fun (file, triesLeft, queue) => s.handOut file triesLeft queue

/-- The imported input of a profitable run is no longer an imported one. -/
def perfFeedback (s : QueueState) (position : Nat) (data : Bytes) : QueueState :=
  let carried := { s.seeds.carried 0 with imported := false }
  { s with seeds := { s.seeds with carried := Function.update s.seeds.carried 0 carried } }.addDynamicInput
    carried position data

/-- The queue is changed by `driver_switchDriver`, `driver_addDriverSeed`,
`input_addDynamicInput`, `fuzz_setDynamicMainState`, `input_prepareDynamicInput`
and `fuzz_perfFeedback`. -/
def step (s : QueueState) : QueueAction → Option QueueState
  | .switchDriver driver =>
      (s.seeds.step (.switchDriver driver)).map fun seeds => { s with seeds }
  | .injectSeed driverId entry =>
      some { s with seeds := SeedState.addSeedEntry driverId s.seeds entry }
  | .addInput position data => some (s.addDynamicInput (s.seeds.carried 0) position data)
  | .setDynamicMainState =>
      if s.mainState then none
      else if s.seeds.dynfileqCnt = 0 then
        some { s.addDynamicInput ⟨noDriverId, false⟩ 0 [] with mainState := true }
      else some { s with mainState := true }
  | .prepareInput lots => if s.mainState then s.prepareDynamicInput lots else none
  | .perfFeedback newCoverage position data =>
      if newCoverage then some (s.perfFeedback position data) else some s

end QueueState

section Selection

variable {queue rest : DynfileQueue} {file : Dynfile}

theorem next_eq_none_iff : queue.next = none ↔ queue.all = [] := by
  obtain ⟨before, rest⟩ := queue
  cases rest with
  | cons file rest => simp [DynfileQueue.next, DynfileQueue.all]
  | nil => cases before <;> simp [DynfileQueue.next, DynfileQueue.all]

theorem next_spec (found : queue.next = some (file, rest)) :
    rest.all = queue.all ∧ file ∈ rest.before := by
  obtain ⟨before, behind⟩ := queue
  cases behind with
  | cons other behind =>
      obtain ⟨rfl, rfl⟩ := Prod.mk.inj (Option.some.inj found)
      simp [DynfileQueue.all]
  | nil =>
      cases before with
      | cons other before =>
          obtain ⟨rfl, rfl⟩ := Prod.mk.inj (Option.some.inj found)
          simp [DynfileQueue.all]
      | nil => cases found

theorem length_remove (member : file ∈ queue.before) :
    (queue.remove file).all.length + 1 = queue.all.length := by
  have found : queue.before.any (fun other => other.idx = file.idx) = true :=
    List.any_eq_true.mpr ⟨file, member, by simp⟩
  have short : (queue.before.eraseP fun other => other.idx = file.idx).length =
      queue.before.length - 1 := List.length_eraseP_of_mem member (by simp)
  have positive := List.length_pos_of_mem member
  rw [DynfileQueue.remove, if_pos found]
  simp only [DynfileQueue.all, List.length_append, short]
  omega

/-- What the loop selects is in the queue, and with the independent queue it is
an input of the active driver. -/
theorem select_spec {independent : Bool} {active : Option Nat} {count scans tries : Nat}
    {lots : List Lot}
    (selected : queue.select independent active count scans lots = some (file, tries, rest)) :
    rest.all = queue.all ∧ file ∈ rest.before ∧
      (independent = true → ∀ driverId ∈ active, file.driverId = driverId) := by
  induction lots generalizing queue scans with
  | nil => cases selected
  | cons lot lots inductionHypothesis =>
      rw [DynfileQueue.select] at selected
      split at selected
      · cases selected
      · next other moved found =>
        obtain ⟨same, member⟩ := next_spec found
        split at selected
        · split at selected
          · cases selected
          · obtain ⟨sameRest, inside, own⟩ := inductionHypothesis selected
            exact ⟨sameRest.trans same, inside, own⟩
        · next passes =>
          have own : independent = true → ∀ driverId ∈ active, other.driverId = driverId := by
            intro isIndependent driverId isActive
            by_contra different
            exact passes ⟨isIndependent, driverId, isActive, different⟩
          -- an imported input, a favourable one, a drawn one, or another round
          split at selected
          · cases selected
            exact ⟨same, member, own⟩
          · split at selected
            · cases selected
              exact ⟨same, member, own⟩
            · split at selected
              · cases selected
                exact ⟨same, member, own⟩
              · obtain ⟨sameRest, inside, other⟩ := inductionHypothesis selected
                exact ⟨sameRest.trans same, inside, other⟩

end Selection

section Lengths

variable {s : SeedState} {gone : Nat}

theorem length_insertAt (queue : DynfileQueue) (position : Nat) (file : Dynfile) :
    (queue.insertAt (min position queue.all.length) file).all.length = queue.all.length + 1 := by
  have inside : min position queue.all.length ≤ queue.all.length := Nat.min_le_right _ _
  generalize min position queue.all.length = position at inside
  rw [DynfileQueue.all, List.length_append] at inside
  unfold DynfileQueue.insertAt
  split
  · next before =>
    simp only [DynfileQueue.all, List.length_append, List.length_insertIdx, if_pos before]
    omega
  · next behind =>
    have within : position - queue.before.length ≤ queue.rest.length := by omega
    simp only [DynfileQueue.all, List.length_append, List.length_insertIdx, if_pos within]
    omega

theorem length_prioritize (queue : DynfileQueue) (driverId : Nat) :
    (queue.prioritize driverId).all.length = queue.all.length := by
  have split := List.length_eq_length_filter_add (l := queue.all) fun file => file.driverId = driverId
  simp only [DynfileQueue.prioritize, DynfileQueue.all, List.nil_append, List.length_append,
    List.length_reverse] at split ⊢
  simp only [split, ne_eq, decide_not]

theorem length_addSeedEntry (driverId : Nat) (entry : SeedEntry)
    (length : s.queue.all.length + gone = s.dynfileqCnt) :
    (SeedState.addSeedEntry driverId s entry).queue.all.length + gone =
      (SeedState.addSeedEntry driverId s entry).dynfileqCnt := by
  unfold SeedState.addSeedEntry
  split
  · split
    · next data _ =>
      by_cases known : fnv1aHash data ∈ s.seedHashes
      · rw [SeedState.addDriverSeed_of_mem known]
        exact length
      · obtain ⟨file, queue, -, count⟩ :=
          @SeedState.queue_addDriverSeed_of_notMem s driverId data known entry.name
        rw [queue, count, ← length]
        simp only [DynfileQueue.insertHead, DynfileQueue.all, List.nil_append, List.length_cons]
        omega
    · exact length
  · exact length

theorem length_addDriverSeedDir (driverId : Nat) (entries : List SeedEntry)
    (length : s.queue.all.length + gone = s.dynfileqCnt) :
    (s.addDriverSeedDir driverId entries).queue.all.length + gone =
      (s.addDriverSeedDir driverId entries).dynfileqCnt := by
  induction entries generalizing s with
  | nil => exact length
  | cons entry rest inductionHypothesis =>
      rw [SeedState.addDriverSeedDir_cons]
      exact inductionHypothesis (length_addSeedEntry driverId entry length)

theorem length_switchDriver (driver : SeedDriver)
    (length : s.queue.all.length + gone = s.dynfileqCnt) :
    (s.switchDriver driver).queue.all.length + gone = (s.switchDriver driver).dynfileqCnt := by
  unfold SeedState.switchDriver
  split
  · exact length
  · split
    · dsimp only
      rw [length_prioritize]
      exact length
    · exact length_addDriverSeedDir driver.id _ length

end Lengths

namespace QueueState

variable {s next : QueueState}

theorem switchDriver_eq {driver : SeedDriver} (taken : s.step (.switchDriver driver) = some next) :
    next = { s with seeds := s.seeds.switchDriver driver } := by
  obtain ⟨seeds, switched, rfl⟩ := Option.map_eq_some_iff.mp taken
  simp only [SeedState.step] at switched
  split at switched
  · cases switched
  · cases switched
    rfl

theorem prepareInput_eq {lots : List Lot} (taken : s.step (.prepareInput lots) = some next) :
    s.mainState = true ∧ s.seeds.dynfileqCnt ≠ 0 ∧ ∃ file tries queue,
      s.selectInput lots = some (file, tries, queue) ∧ next = s.handOut file tries queue := by
  simp only [step, prepareDynamicInput] at taken
  split at taken
  · next main =>
    split at taken
    · cases taken
    · next counted =>
      obtain ⟨⟨file, tries, queue⟩, selected, rfl⟩ := Option.map_eq_some_iff.mp taken
      exact ⟨main, counted, file, tries, queue, selected, rfl⟩
  · cases taken

theorem setDynamicMainState_cases (taken : s.step .setDynamicMainState = some next) :
    next = { s.addDynamicInput ⟨noDriverId, false⟩ 0 [] with mainState := true } ∨
      next = { s with mainState := true } := by
  simp only [step] at taken
  split at taken
  · cases taken
  · split at taken
    · cases taken
      exact .inl rfl
    · cases taken
      exact .inr rfl

theorem perfFeedback_cases {newCoverage : Bool} {position : Nat} {data : Bytes}
    (taken : s.step (.perfFeedback newCoverage position data) = some next) :
    next = s.perfFeedback position data ∨ next = s := by
  simp only [step] at taken
  split at taken
  · cases taken
    exact .inl rfl
  · cases taken
    exact .inr rfl

section Guard

/-- Every queued input is in the queue or was taken, and new units are those
added without the ones taken. -/
structure Accounted (s : QueueState) : Prop where
  length : s.seeds.queue.all.length + s.taken = s.seeds.dynfileqCnt
  units : s.newUnitsAdded = s.added - s.taken
  current : s.triesLeft ≠ 0 → ∃ file, s.current = some file ∧ file.imported = false

theorem accounted_start (independentQueue socketFuzzer : Bool) :
    (start independentQueue socketFuzzer).Accounted :=
  ⟨rfl, rfl, fun tries => absurd rfl tries⟩

theorem Accounted.addDynamicInput (accounted : s.Accounted) (carried : Carried) (position : Nat)
    (data : Bytes) : (s.addDynamicInput carried position data).Accounted where
  length := by
    have length := accounted.length
    simp only [QueueState.addDynamicInput, length_insertAt]
    omega
  units := by
    have units := accounted.units
    simp only [QueueState.addDynamicInput]
    split
    · push_cast
      omega
    · exact units
  current := accounted.current

theorem Accounted.selectInput (accounted : s.Accounted) {lots : List Lot} {file : Dynfile}
    {tries : Nat} {queue : DynfileQueue} (selected : s.selectInput lots = some (file, tries, queue)) :
    queue.all = s.seeds.queue.all ∧ (file.imported = true → file ∈ queue.before) := by
  unfold QueueState.selectInput at selected
  split at selected
  · next left =>
    obtain ⟨current, found, equal⟩ := Option.map_eq_some_iff.mp selected
    obtain ⟨rfl, rfl, rfl⟩ : current = file ∧ s.triesLeft - 1 = tries ∧ s.seeds.queue = queue := by
      simpa using equal
    obtain ⟨other, isCurrent, measured⟩ := accounted.current left
    rw [found] at isCurrent
    cases isCurrent
    refine ⟨rfl, fun imported => ?_⟩
    rw [measured] at imported
    cases imported
  · obtain ⟨same, member, -⟩ := select_spec selected
    exact ⟨same, fun _ => member⟩

theorem Accounted.handOut (accounted : s.Accounted) {lots : List Lot} {file : Dynfile}
    {tries : Nat} {queue : DynfileQueue} (selected : s.selectInput lots = some (file, tries, queue)) :
    (s.handOut file tries queue).Accounted := by
  obtain ⟨same, member⟩ := accounted.selectInput selected
  have length := accounted.length
  have units := accounted.units
  cases imported : file.imported with
  | true =>
      have removed := length_remove (member imported)
      rw [same] at removed
      constructor <;> simp only [QueueState.handOut, imported, if_true]
      · omega
      · push_cast
        omega
      · exact fun tries => absurd rfl tries
  | false =>
      constructor <;> simp only [QueueState.handOut, imported, Bool.false_eq_true, if_false]
      · rw [same]
        exact length
      · exact units
      · exact fun _ => ⟨file, rfl, imported⟩

theorem Accounted.step {action : QueueAction} (accounted : s.Accounted)
    (taken : s.step action = some next) : next.Accounted := by
  cases action with
  | switchDriver driver =>
      rw [switchDriver_eq taken]
      exact ⟨length_switchDriver driver accounted.length, accounted.units, accounted.current⟩
  | injectSeed driverId entry =>
      cases taken
      exact ⟨length_addSeedEntry driverId entry accounted.length, accounted.units,
        accounted.current⟩
  | addInput position data =>
      cases taken
      exact accounted.addDynamicInput _ position data
  | setDynamicMainState =>
      rcases setDynamicMainState_cases taken with rfl | rfl
      · have added := accounted.addDynamicInput ⟨noDriverId, false⟩ 0 []
        exact ⟨added.length, added.units, added.current⟩
      · exact ⟨accounted.length, accounted.units, accounted.current⟩
  | prepareInput lots =>
      obtain ⟨-, -, file, tries, queue, selected, rfl⟩ := prepareInput_eq taken
      exact accounted.handOut selected
  | perfFeedback newCoverage position data =>
      rcases perfFeedback_cases taken with rfl | rfl
      · have same : QueueState.Accounted { s with seeds := { s.seeds with
            carried := Function.update s.seeds.carried 0
              { s.seeds.carried 0 with imported := false } } } :=
          ⟨accounted.length, accounted.units, accounted.current⟩
        exact same.addDynamicInput _ position data
      · exact accounted

/-- Behind the guard the queue is not empty and no selected input is null, and
`newUnitsAdded` does not fall below zero. -/
def GuardSound (s : QueueState) (action : QueueAction) : Prop :=
  (∀ lots, action = .prepareInput lots → s.mainState = true → s.seeds.dynfileqCnt ≠ 0 →
    s.seeds.queue.all ≠ [] ∧ s.seeds.queue.next ≠ none ∧ (s.triesLeft ≠ 0 → s.current ≠ none)) ∧
  ∀ next, s.step action = some next → 0 ≤ next.newUnitsAdded

/-- Fewer imported inputs were handed out than inputs were ever queued, and an
imported input is only handed out when fewer were handed out than inputs were
added in the main state. -/
def Balanced (s : QueueState) : QueueAction → Prop
  | .prepareInput lots => s.mainState = true → s.seeds.dynfileqCnt ≠ 0 →
      s.taken < s.seeds.dynfileqCnt ∧ ∀ file tries queue,
        s.selectInput lots = some (file, tries, queue) → file.imported = true → s.taken < s.added
  | _ => True

theorem taken_mono {action : QueueAction} (taken : s.step action = some next)
    (other : ∀ lots, action ≠ .prepareInput lots) :
    next.taken = s.taken ∧ s.added ≤ next.added := by
  have adds : ∀ (s : QueueState) carried position data,
      (s.addDynamicInput carried position data).taken = s.taken ∧
        s.added ≤ (s.addDynamicInput carried position data).added := by
    intro s carried position data
    refine ⟨rfl, ?_⟩
    simp only [addDynamicInput]
    split <;> omega
  cases action with
  | switchDriver driver =>
      rw [switchDriver_eq taken]
      exact ⟨rfl, le_rfl⟩
  | injectSeed driverId entry =>
      cases taken
      exact ⟨rfl, le_rfl⟩
  | addInput position data =>
      cases taken
      exact adds s _ position data
  | setDynamicMainState =>
      rcases setDynamicMainState_cases taken with rfl | rfl
      · exact adds s ⟨noDriverId, false⟩ 0 []
      · exact ⟨rfl, le_rfl⟩
  | prepareInput lots => exact absurd rfl (other lots)
  | perfFeedback newCoverage position data =>
      rcases perfFeedback_cases taken with rfl | rfl
      · exact adds _ _ position data
      · exact ⟨rfl, le_rfl⟩

theorem Accounted.guardSound_iff (accounted : s.Accounted) (covered : s.taken ≤ s.added)
    (action : QueueAction) : s.GuardSound action ↔ s.Balanced action := by
  have length := accounted.length
  have units := accounted.units
  by_cases other : ∀ lots, action ≠ .prepareInput lots
  · have sound : s.GuardSound action := by
      refine ⟨fun lots same => absurd same (other lots), fun next taken => ?_⟩
      obtain ⟨sameTaken, more⟩ := taken_mono taken other
      rw [(accounted.step taken).units]
      omega
    have balanced : s.Balanced action := by
      cases action with
      | prepareInput lots => exact absurd rfl (other lots)
      | _ => trivial
    exact iff_of_true sound balanced
  · push Not at other
    obtain ⟨lots, rfl⟩ := other
    constructor
    · rintro ⟨behind, kept⟩ main counted
      obtain ⟨nonempty, -, -⟩ := behind lots rfl main counted
      refine ⟨?_, fun file tries queue selected imported => ?_⟩
      · have := List.length_pos_iff.mpr nonempty
        omega
      · have step : s.step (.prepareInput lots) = some (s.handOut file tries queue) := by
          simp only [QueueState.step, main, if_true, prepareDynamicInput, if_neg counted, selected,
            Option.map_some]
        have positive := kept _ step
        simp only [QueueState.handOut, imported, if_true] at positive
        omega
    · intro balanced
      refine ⟨fun _ _ main counted => ?_, fun next taken => ?_⟩
      · have fewer := (balanced main counted).1
        have nonempty : s.seeds.queue.all ≠ [] := by
          rw [← List.length_pos_iff]
          omega
        refine ⟨nonempty, fun null => nonempty (next_eq_none_iff.mp null), fun left => ?_⟩
        obtain ⟨file, current, -⟩ := accounted.current left
        simp [current]
      · obtain ⟨main, counted, file, tries, queue, selected, rfl⟩ := prepareInput_eq taken
        have enough := (balanced main counted).2 file tries queue selected
        simp only [QueueState.handOut]
        split
        · next imported =>
          have := enough imported
          omega
        · omega

/-- In every run the guard is sound at every step exactly when every step is
balanced. -/
theorem guardSound_iff_balanced (independentQueue socketFuzzer : Bool)
    (actions : List QueueAction) :
    Along step GuardSound (start independentQueue socketFuzzer) actions ↔
      Along step Balanced (start independentQueue socketFuzzer) actions := by
  have same : ∀ (s : QueueState) action, s.Accounted ∧ s.taken ≤ s.added →
      (s.GuardSound action ↔ s.Balanced action) :=
    fun s action holds => holds.1.guardSound_iff holds.2 action
  refine along_iff_along same ?_ ⟨accounted_start _ _, le_rfl⟩ actions
  rintro s action next ⟨accounted, -⟩ sound taken
  have kept := accounted.step taken
  have positive := sound.2 next taken
  rw [kept.units] at positive
  exact ⟨kept, by omega⟩

/-- The only seed of the first driver is handed out and gains nothing. -/
def discardedSeed : List QueueAction :=
  [.switchDriver (SeedState.oneSeed 1 [65]), .setDynamicMainState, .prepareInput [⟨0, 0⟩],
    .perfFeedback false 0 []]

/-- The queue is then empty, the guard passes, and `newUnitsAdded` was decremented at zero. -/
theorem discardedSeed_unguarded :
    (∃ s, runFrom step (start true false) discardedSeed = some s ∧ s.mainState = true ∧
      s.seeds.dynfileqCnt ≠ 0 ∧ s.seeds.queue.all = [] ∧ s.newUnitsAdded < 0) ∧
    ¬ ∀ actions, Along step GuardSound (start true false) actions := by
  refine ⟨⟨_, rfl, rfl, by decide, rfl, by decide⟩, fun sound => ?_⟩
  have reached : runFrom step (start true false) discardedSeed = some _ := rfl
  have along := (sound (discardedSeed ++ [.prepareInput [⟨0, 0⟩]])).suffix reached
  exact (along.1.1 _ rfl rfl (by decide)).1 rfl

end Guard

section Isolation

/-- While a driver is active its own inputs are handed out, and an added input
carries the id of the driver that its input was handed out for. -/
def Isolated (s : QueueState) : QueueAction → Prop
  | .prepareInput lots => ∀ next, s.step (.prepareInput lots) = some next →
      ∀ driverId ∈ s.seeds.active, (next.seeds.carried 0).driverId = driverId
  | .addInput _ data | .perfFeedback _ _ data =>
      ∀ driverId ∈ s.served, (s.newInput (s.seeds.carried 0) data).driverId = driverId
  | _ => True

/-- The remaining tries are not spent on an input of another driver. -/
def Undisturbed (s : QueueState) : QueueAction → Prop
  | .prepareInput _ => s.mainState = true → s.seeds.dynfileqCnt ≠ 0 → s.triesLeft ≠ 0 →
      ∀ file ∈ s.current, ∀ driverId ∈ s.seeds.active, file.driverId = driverId
  | _ => True

/-- The input at hand belongs to the driver it was handed out for. -/
structure Served (s : QueueState) : Prop where
  independent : s.independentQueue = true
  own : ∀ driverId ∈ s.served, (s.seeds.carried 0).driverId = driverId

theorem carried_switchDriver (s : SeedState) (driver : SeedDriver) :
    (s.switchDriver driver).carried = s.carried := by
  unfold SeedState.switchDriver
  split
  · rfl
  · split
    · rfl
    · exact SeedState.carried_addDriverSeedDir s driver.id _

theorem Served.step {action : QueueAction} (served : s.Served) (isolated : s.Isolated action)
    (taken : s.step action = some next) : next.Served := by
  cases action with
  | switchDriver driver =>
      rw [switchDriver_eq taken]
      refine ⟨served.independent, ?_⟩
      dsimp only
      rw [carried_switchDriver]
      exact served.own
  | injectSeed driverId entry =>
      cases taken
      refine ⟨served.independent, ?_⟩
      have same : (SeedState.addSeedEntry driverId s.seeds entry).carried = s.seeds.carried :=
        SeedState.carried_addDriverSeedDir s.seeds driverId [entry]
      dsimp only
      rw [same]
      exact served.own
  | addInput position data =>
      cases taken
      exact ⟨served.independent, served.own⟩
  | setDynamicMainState =>
      rcases setDynamicMainState_cases taken with rfl | rfl
      · exact ⟨served.independent, served.own⟩
      · exact ⟨served.independent, served.own⟩
  | prepareInput lots =>
      have own := isolated next taken
      obtain ⟨-, -, file, tries, queue, -, rfl⟩ := prepareInput_eq taken
      exact ⟨served.independent, own⟩
  | perfFeedback newCoverage position data =>
      rcases perfFeedback_cases taken with rfl | rfl
      · refine ⟨served.independent, fun driverId isServed => ?_⟩
        simp only [perfFeedback, addDynamicInput, Function.update_self]
        exact served.own driverId isServed
      · exact served

theorem Served.isolated_iff (served : s.Served) (action : QueueAction) :
    s.Isolated action ↔ s.Undisturbed action := by
  cases action with
  | switchDriver | injectSeed | setDynamicMainState => exact Iff.rfl
  | addInput position data => exact iff_of_true served.own trivial
  | perfFeedback newCoverage position data => exact iff_of_true served.own trivial
  | prepareInput lots =>
      constructor
      · intro isolated main counted left file current driverId isActive
        have selected : s.selectInput lots = some (file, s.triesLeft - 1, s.seeds.queue) := by
          rw [selectInput, if_pos left, show s.current = some file from current, Option.map_some]
        have taken : s.step (.prepareInput lots) =
            some (s.handOut file (s.triesLeft - 1) s.seeds.queue) := by
          simp only [QueueState.step, main, if_true, prepareDynamicInput, if_neg counted, selected,
            Option.map_some]
        have own := isolated _ taken driverId isActive
        simpa only [handOut, Function.update_self] using own
      · intro undisturbed next taken driverId isActive
        obtain ⟨main, counted, file, tries, queue, selected, rfl⟩ := prepareInput_eq taken
        simp only [handOut, Function.update_self]
        unfold selectInput at selected
        split at selected
        · next left =>
          obtain ⟨current, found, equal⟩ := Option.map_eq_some_iff.mp selected
          obtain ⟨rfl, -⟩ := Prod.mk.inj equal
          exact undisturbed main counted left current found driverId isActive
        · exact (select_spec selected).2.2 served.independent driverId isActive

/-- With the independent queue, every step of a run is isolated exactly when no
remaining try meets a switch. -/
theorem isolated_iff_undisturbed (socketFuzzer : Bool) (actions : List QueueAction) :
    Along step Isolated (start true socketFuzzer) actions ↔
      Along step Undisturbed (start true socketFuzzer) actions := by
  refine along_iff_along (fun s action served => Served.isolated_iff served action) ?_ ⟨rfl, ?_⟩ actions
  · intro s action next served isolated taken
    exact Served.step served isolated taken
  · rintro _ ⟨⟩

/-- A favourable input of driver 1, and the next call after the switch to driver 2. -/
def switchedTries : List QueueAction :=
  [.switchDriver (SeedState.oneSeed 1 [65]), .setDynamicMainState, .prepareInput [⟨0, 0⟩],
    .perfFeedback true 0 [65], .prepareInput [⟨-10, 0⟩],
    .switchDriver (SeedState.oneSeed 2 [66])]

theorem switchedTries_disturbed :
    (∃ s next, runFrom step (start true false) switchedTries = some s ∧
      s.step (.prepareInput []) = some next ∧ s.seeds.active = some 2 ∧
      (next.seeds.carried 0).driverId = 1) ∧
    ¬ ∀ actions, Along step Isolated (start true false) actions := by
  refine ⟨⟨_, _, rfl, rfl, rfl, rfl⟩, fun isolated => ?_⟩
  have reached : runFrom step (start true false) switchedTries = some _ := rfl
  have along := (isolated (switchedTries ++ [.prepareInput []])).suffix reached
  exact absurd (along.1 _ rfl 2 rfl) (by decide)

end Isolation

end QueueState

end GraphDissect.Drivers
