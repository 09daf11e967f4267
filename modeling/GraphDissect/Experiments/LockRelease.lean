import GraphDissect.Experiments.Runner
import GraphDissect.Library.Attempt
import Mathlib

/-!
# The release of the campaign lock

`run_one` of `run_campaigns.py` with every operation that can raise.  The lock
is taken before the progress is read; the `finally` clause that unlinks it
starts after the status was set to running.  Between the two, one branch
unlinks the lock by hand, and everything else that raises leaves it behind.

Which operations raise is a function of their place in the source, and of the
segment for those in the loop.  An operation that raises leaves the run
directory as it was.
-/

namespace GraphDissect.Experiments

open Library

inductive Raised where
  | runtimeError
  | keyboardInterrupt
  | processLookupError
  | permissionError
  | other
deriving DecidableEq, Repr

/-- The operations of `run_one` that can raise. -/
inductive RunPoint where
  | readStatus
  | makeDirectory
  | resolveDirectory
  | acquireLock
  | readProgress
  | readCheckpoint
  | recoverProgress
  | cleanRuntime
  | commandFor
  | sharedInputManifest
  | writeProvenance
  | writeRunning
  | segmentCommand (segment : Nat)
  | writeCurrentSegment (segment : Nat)
  | launch (segment : Nat)
  | startThreads (segment : Nat)
  | wait (segment : Nat)
  | kill (segment : Nat)
  | reap (segment : Nat)
  | joinThreads (segment : Nat)
  | writeFailedSegment (segment : Nat)
  | writeFailed (segment : Nat)
  | readCoverageLog (segment : Nat)
  | openCoverage (segment : Nat)
  | writeCoverage (segment : Nat)
  | commitProgress (segment : Nat)
  | removeCurrentSegment (segment : Nat)
  | writeComplete
deriving DecidableEq, Repr

abbrev Faults := RunPoint → Option Raised

/-- The lock file that this invocation creates. -/
inductive OwnLock where
  | notCreated
  | held
  | released
deriving DecidableEq, Repr

/-- `active` says that the process of the segment is in `_ACTIVE_PIDS`. -/
structure RunWorld where
  dir : RunDir
  lock : OwnLock
  active : Bool
deriving DecidableEq, Repr

abbrev RunProgram := Attempt RunWorld Raised

namespace RunWorld

def initial (dir : RunDir) : RunWorld := ⟨dir, .notCreated, false⟩

def acquire (world : RunWorld) : RunWorld := { world with lock := .held }

/-- `lock_path.unlink(missing_ok=True)`. -/
def unlinkLock (world : RunWorld) : RunWorld :=
  { world with lock := if world.lock = .held then .released else world.lock }

def track (active : Bool) (world : RunWorld) : RunWorld := { world with active := active }

def applyOp (op : FileOp) (world : RunWorld) : RunWorld :=
  { world with dir := op.apply world.dir }

end RunWorld

section Program

variable (faults : Faults)

/-- An operation: it raises, or it does its work. -/
def perform (point : RunPoint) (change : RunWorld → RunWorld) : RunProgram Unit :=
  match faults point with
  | some error => Attempt.raise error
  | none => Attempt.modify change

/-- An operation that this run only carries out in some states. -/
def performIf (condition : Bool) (point : RunPoint) (change : RunWorld → RunWorld) :
    RunProgram Unit :=
  if condition then perform faults point change else pure ()

/-- `reconcile_checkpoint`. -/
def reconcile (campaign : Campaign) (progress : Progress) : RunProgram Progress := do
  let world ← Attempt.read
  performIf faults world.dir.checkpoint.isSome .readCheckpoint id
  match reconcileCheckpoint campaign world.dir.checkpoint progress with
  | none => Attempt.raise .runtimeError
  | some (reconciled, []) => pure reconciled
  | some (reconciled, op :: _) => do
      perform faults .recoverProgress (RunWorld.applyOp op)
      pure reconciled

/-- The part of `run_one` between `reconcile_checkpoint` and the `try`. -/
def prepareRun (campaign : Campaign) (progress : Progress) : RunProgram Progress :=
  if progress.completedSeconds < 0 ∨ campaign.durationSeconds < progress.completedSeconds then do
    Attempt.modify RunWorld.unlinkLock
    Attempt.raise .runtimeError
  else do
    performIf faults progress.cleans .cleanRuntime (RunWorld.applyOp .cleanRuntime)
    perform faults .commandFor id
    perform faults .sharedInputManifest id
    perform faults .writeProvenance id
    perform faults .writeRunning (RunWorld.applyOp (.writeStatus .running))
    pure progress

/-- `run_one` from the acquisition of the lock to the `try`. -/
def startRun (campaign : Campaign) (force : Bool) : RunProgram Progress := do
  let world ← Attempt.read
  performIf faults (world.dir.progress.isSome && !force) .readProgress id
  let progress ← reconcile faults campaign (loadProgress campaign world.dir force)
  prepareRun faults campaign progress

/-- The `except KeyboardInterrupt` clause: the process is killed and waited for. -/
def interruptProcess (segment : Nat) : RunProgram Int := do
  Attempt.rescuing (perform faults (.kill segment) id) fun error =>
    if error = .processLookupError ∨ error = .permissionError then pure ()
    else Attempt.raise error
  perform faults (.reap segment) id
  Attempt.raise .keyboardInterrupt

/-- The launch of a segment's process and its return code.  Without an outcome
the process is still running. -/
def runProcess (record : SegmentRecord) (outcome : Option Outcome) : RunProgram Int := do
  let segment := record.segment
  perform faults (.launch segment) (RunWorld.applyOp (.startSegment record))
  perform faults (.startThreads segment) id
  Attempt.ensuring
    (do
      Attempt.modify (RunWorld.track true)
      Attempt.ensuring
        (Attempt.rescuing
          (match outcome with
            | none => Attempt.wait
            | some outcome => do
                perform faults (.wait segment) fun world =>
                  (outcome.checkpoint.map FileOp.commitCheckpoint).elim world world.applyOp
                pure outcome.returncode)
          fun error =>
            if error = .keyboardInterrupt then interruptProcess faults segment
            else Attempt.raise error)
        (Attempt.modify (RunWorld.track false)))
    (perform faults (.joinThreads segment) id)

/-- The opening of `coverage.csv` and what is written on its close. -/
def writeRows (segment : Nat) : List FileOp → RunProgram Unit
  | [openOp, writeOp] => do
      perform faults (.openCoverage segment) (RunWorld.applyOp openOp)
      perform faults (.writeCoverage segment) (RunWorld.applyOp writeOp)
  | _ => pure ()

/-- `append_coverage`. -/
def recordCoverage (segment : Nat) (elapsedSeconds : Int) (outcome : Outcome) :
    RunProgram Unit := do
  perform faults (.readCoverageLog segment) id
  let world ← Attempt.read
  writeRows faults segment (appendCoverage world.dir.coverage.isNone elapsedSeconds outcome)

/-- A segment up to the return code of its process. -/
def attemptSegment (campaign : Campaign) (progress : Progress) (outcome : Option Outcome) :
    RunProgram Int := do
  let record := segmentRecord campaign progress
  perform faults (.segmentCommand record.segment) id
  perform faults (.writeCurrentSegment record.segment)
    (RunWorld.applyOp (.writeCurrentSegment record))
  runProcess faults record outcome

def failSegment (campaign : Campaign) (progress : Progress) (returncode : Int) :
    RunProgram RunResult := do
  let record := segmentRecord campaign progress
  perform faults (.writeFailedSegment record.segment)
    (RunWorld.applyOp (.writeFailedSegment { record with returncode := some returncode }))
  perform faults (.writeFailed record.segment)
    (RunWorld.applyOp (.writeStatus (.failed returncode progress.completedSeconds)))
  pure .failed

def commitSegment (campaign : Campaign) (progress : Progress) (outcome : Outcome) :
    RunProgram Unit := do
  let record := segmentRecord campaign progress
  recordCoverage faults record.segment record.finish outcome
  perform faults (.commitProgress record.segment)
    (RunWorld.applyOp (.commitProgress (completeSegment campaign progress)))
  perform faults (.removeCurrentSegment record.segment) (RunWorld.applyOp .removeCurrentSegment)

def finishRun (progress : Progress) : RunProgram RunResult := do
  perform faults .writeComplete
    (RunWorld.applyOp (.writeStatus (.complete progress.completedSeconds)))
  pure .complete

/-- The body of the `try`. -/
def runSegments (campaign : Campaign) : Progress → List Outcome → RunProgram RunResult
  | progress, [] =>
      if progress.completedSeconds < campaign.durationSeconds then do
        let _ ← attemptSegment faults campaign progress none
        Attempt.wait
      else finishRun faults progress
  | progress, outcome :: rest =>
      if progress.completedSeconds < campaign.durationSeconds then do
        let returncode ← attemptSegment faults campaign progress (some outcome)
        if returncode ≠ 0 then failSegment faults campaign progress returncode
        else do
          commitSegment faults campaign progress outcome
          runSegments campaign (completeSegment campaign progress) rest
      else finishRun faults progress

/-- `run_one` from the acquisition of the lock. -/
def runLocked (campaign : Campaign) (force : Bool) (outcomes : List Outcome) :
    RunProgram RunResult := do
  let progress ← startRun faults campaign force
  Attempt.ensuring (runSegments faults campaign progress outcomes)
    (Attempt.modify RunWorld.unlinkLock)

/-- `run_one`. -/
def runOneGuarded (campaign : Campaign) (force : Bool) (outcomes : List Outcome) :
    RunProgram RunResult := do
  let world ← Attempt.read
  performIf faults (world.dir.status.isSome && !force) .readStatus id
  if world.dir.skips force then pure .skipped
  else do
    perform faults .makeDirectory id
    perform faults .resolveDirectory id
    perform faults .acquireLock RunWorld.acquire
    runLocked faults campaign force outcomes

end Program

section Release

/-- Whether the lock file of the invocation is gone once `run_one` returned or raised. -/
def LockReleased (run : Ending Raised RunResult × RunWorld) : Prop :=
  run.1 ≠ .waiting → run.2.lock ≠ .held

def Quiet (faults : Faults) (points : List RunPoint) : Prop :=
  ∀ point ∈ points, faults point = none

@[simp]
theorem quiet_nil (faults : Faults) : Quiet faults [] := by
  intro point member
  cases member

@[simp]
theorem quiet_cons {faults : Faults} {point : RunPoint} {points : List RunPoint} :
    Quiet faults (point :: points) ↔ faults point = none ∧ Quiet faults points :=
  List.forall_mem_cons

@[simp]
theorem quiet_append {faults : Faults} {first second : List RunPoint} :
    Quiet faults (first ++ second) ↔ Quiet faults first ∧ Quiet faults second :=
  List.forall_mem_append

/-- The operations up to the acquisition of the lock. -/
def acquisitionPoints (dir : RunDir) (force : Bool) : List RunPoint :=
  (if dir.status.isSome && !force then [.readStatus] else []) ++
    [.makeDirectory, .resolveDirectory, .acquireLock]

/-- Whether `acquire_lock` is reached and succeeds. -/
def Acquires (faults : Faults) (dir : RunDir) (force : Bool) : Prop :=
  dir.skips force = false ∧ Quiet faults (acquisitionPoints dir force)

/-- The files that are read under the lock before the checkpoint is judged. -/
def readPoints (dir : RunDir) (force : Bool) : List RunPoint :=
  (if dir.progress.isSome && !force then [.readProgress] else []) ++
    (if dir.checkpoint.isSome then [.readCheckpoint] else [])

/-- The operations between the test of the bounds and the `try`. -/
def Progress.preparePoints (progress : Progress) : List RunPoint :=
  (if progress.cleans then [.cleanRuntime] else []) ++
    [.commandFor, .sharedInputManifest, .writeProvenance, .writeRunning]

def Progress.OutOfBounds (campaign : Campaign) (progress : Progress) : Prop :=
  progress.completedSeconds < 0 ∨ campaign.durationSeconds < progress.completedSeconds

/-- No operation raises between the acquisition of the lock and the `try`, up to
the branch that unlinks the lock by hand. -/
def QuietStart (faults : Faults) (campaign : Campaign) (dir : RunDir) (force : Bool) : Prop :=
  Quiet faults (readPoints dir force) ∧
    ∃ progress recovery,
      reconcileCheckpoint campaign dir.checkpoint (loadProgress campaign dir force) =
        some (progress, recovery) ∧
      (recovery ≠ [] → faults .recoverProgress = none) ∧
      (progress.OutOfBounds campaign ∨ Quiet faults progress.preparePoints)

variable {faults : Faults} {world : RunWorld} {Value Result : Type}

/-- The program may raise or return only without the lock file; what it returns
is left open. -/
def lockFree (returned : Value → RunWorld → Prop) : Attempt.Postcondition RunWorld Raised Value where
  returned := returned
  raised := fun _ world => world.lock ≠ .held
  waiting := fun _ => True

@[simp]
theorem lockFree_returned {returned : Value → RunWorld → Prop} :
    (lockFree returned).returned = returned := rfl

@[simp]
theorem lockFree_raised {returned : Value → RunWorld → Prop} {error : Raised} :
    (lockFree returned).raised error world ↔ world.lock ≠ .held :=
  Iff.rfl

@[simp]
theorem lockFree_waiting {returned : Value → RunWorld → Prop} :
    (lockFree returned).waiting world :=
  trivial

theorem lockReleased_iff_meets {program : RunProgram RunResult} :
    LockReleased (program world) ↔
      Attempt.Meets program (lockFree fun _ world => world.lock ≠ .held) world := by
  unfold LockReleased Attempt.Meets
  rcases program world with ⟨ending, later⟩
  cases ending <;> simp [Attempt.Postcondition.Holds, lockFree]

@[simp]
theorem meets_bind_lockFree {program : RunProgram Value} {next : Value → RunProgram Result}
    {returned : Result → RunWorld → Prop} :
    Attempt.Meets (program >>= next) (lockFree returned) world ↔
      Attempt.Meets program
        (lockFree fun value later => Attempt.Meets (next value) (lockFree returned) later) world :=
  Attempt.meets_bind

theorem meets_perform (held : world.lock = .held) {point : RunPoint}
    {change : RunWorld → RunWorld} {returned : Unit → RunWorld → Prop} :
    Attempt.Meets (perform faults point change) (lockFree returned) world ↔
      faults point = none ∧ returned () (change world) := by
  unfold perform
  cases faults point with
  | none => simp
  | some error => simp [held]

theorem meets_performIf (held : world.lock = .held) {condition : Bool} {point : RunPoint}
    {change : RunWorld → RunWorld} {returned : Unit → RunWorld → Prop} :
    Attempt.Meets (performIf faults condition point change) (lockFree returned) world ↔
      Quiet faults (if condition then [point] else []) ∧
        returned () (if condition then change world else world) := by
  unfold performIf
  cases condition with
  | false => simp
  | true => simp [meets_perform held]

theorem unlinkLock_lock : world.unlinkLock.lock ≠ .held := by
  unfold RunWorld.unlinkLock
  cases world.lock <;> simp

/-- The `finally` clause releases the lock whatever the body does. -/
theorem meets_protected {body : RunProgram RunResult} :
    Attempt.Meets (Attempt.ensuring body (Attempt.modify RunWorld.unlinkLock))
      (lockFree fun _ world => world.lock ≠ .held) world := by
  rw [Attempt.meets_ensuring]
  apply Attempt.meets_of_holds
  · intro value later
    exact unlinkLock_lock
  · intro error later
    exact unlinkLock_lock
  · intro later
    trivial

theorem reconcileCheckpoint_recovery {campaign : Campaign} {checkpoint : Option Checkpoint}
    {progress next : Progress} {recovery : List FileOp}
    (reconciled : reconcileCheckpoint campaign checkpoint progress = some (next, recovery)) :
    recovery = [] ∨ recovery = [.recoverProgress next] := by
  rcases reconcileCheckpoint_cases reconciled with ⟨-, none⟩ | ⟨-, -, -, -, -, one⟩
  · exact Or.inl none
  · exact Or.inr one

theorem meets_reconcile (held : world.lock = .held) {campaign : Campaign} {progress : Progress}
    {returned : Progress → RunWorld → Prop} :
    Attempt.Meets (reconcile faults campaign progress) (lockFree returned) world ↔
      Quiet faults (if world.dir.checkpoint.isSome then [.readCheckpoint] else []) ∧
        ∃ next recovery,
          reconcileCheckpoint campaign world.dir.checkpoint progress = some (next, recovery) ∧
          (recovery ≠ [] → faults .recoverProgress = none) ∧
          returned next { world with dir := applyAll FileOp.apply recovery world.dir } := by
  unfold reconcile
  rw [meets_bind_lockFree, Attempt.meets_read, lockFree_returned, meets_bind_lockFree,
    meets_performIf held]
  apply and_congr_right'
  cases reconciled : reconcileCheckpoint campaign world.dir.checkpoint progress with
  | none => simp [held]
  | some pair =>
      rcases pair with ⟨next, recovery⟩
      rcases reconcileCheckpoint_recovery reconciled with rfl | rfl
      · simp [applyAll]
      · simp [meets_perform held, applyAll, RunWorld.applyOp]

theorem meets_prepareRun (held : world.lock = .held) {campaign : Campaign} {progress : Progress}
    {returned : Progress → RunWorld → Prop} (protects : ∀ progress later, returned progress later) :
    Attempt.Meets (prepareRun faults campaign progress) (lockFree returned) world ↔
      progress.OutOfBounds campaign ∨ Quiet faults progress.preparePoints := by
  unfold prepareRun Progress.OutOfBounds Progress.preparePoints
  by_cases outside : progress.completedSeconds < 0 ∨
      campaign.durationSeconds < progress.completedSeconds
  · simp [outside, unlinkLock_lock]
  · have cleaned : ∀ cleans : Bool,
        (if cleans then world.applyOp .cleanRuntime else world).lock = .held := by
      intro cleans
      cases cleans <;> exact held
    simp [outside, meets_performIf held, meets_perform, cleaned, protects]

theorem meets_startRun (held : world.lock = .held) {campaign : Campaign} {force : Bool}
    {returned : Progress → RunWorld → Prop} (protects : ∀ progress later, returned progress later) :
    Attempt.Meets (startRun faults campaign force) (lockFree returned) world ↔
      QuietStart faults campaign world.dir force := by
  unfold startRun QuietStart readPoints
  rw [meets_bind_lockFree, Attempt.meets_read, lockFree_returned, meets_bind_lockFree,
    meets_performIf held, id_eq, ite_self, meets_bind_lockFree, meets_reconcile held, quiet_append,
    and_assoc]
  apply and_congr_right'
  apply and_congr_right'
  apply exists_congr
  intro progress
  apply exists_congr
  intro recovery
  apply and_congr_right'
  apply and_congr_right'
  apply meets_prepareRun
  · exact held
  · exact protects

/-- Where the lock was acquired, it is released on every exit exactly when nothing
raises before the `try`. -/
theorem meets_runLocked (held : world.lock = .held) {campaign : Campaign} {force : Bool}
    {outcomes : List Outcome} :
    Attempt.Meets (runLocked faults campaign force outcomes)
        (lockFree fun _ world => world.lock ≠ .held) world ↔
      QuietStart faults campaign world.dir force := by
  unfold runLocked
  rw [meets_bind_lockFree]
  apply meets_startRun held
  intro progress later
  exact meets_protected

theorem perform_of_quiet {point : RunPoint} (quiet : faults point = none)
    (change : RunWorld → RunWorld) : perform faults point change = Attempt.modify change := by
  unfold perform
  rw [quiet]

theorem performIf_id_of_quiet {condition : Bool} {point : RunPoint}
    (quiet : Quiet faults (if condition then [point] else [])) :
    performIf faults condition point id = pure () := by
  unfold performIf
  cases condition with
  | false => rfl
  | true =>
      rw [if_pos rfl, perform_of_quiet (quiet point List.mem_cons_self)]
      rfl

theorem runOneGuarded_of_acquires {dir : RunDir} {force : Bool}
    (acquires : Acquires faults dir force) (campaign : Campaign) (outcomes : List Outcome) :
    runOneGuarded faults campaign force outcomes (RunWorld.initial dir) =
      runLocked faults campaign force outcomes (RunWorld.initial dir).acquire := by
  rcases acquires with ⟨runs, quiet⟩
  simp only [acquisitionPoints, quiet_append, quiet_cons] at quiet
  rcases quiet with ⟨status, directory, resolved, acquired, -⟩
  have readsStatus := performIf_id_of_quiet status
  unfold runOneGuarded
  change (performIf faults (dir.status.isSome && !force) .readStatus id >>= _) _ = _
  rw [readsStatus]
  change (if dir.skips force then _ else _ : RunProgram RunResult) _ = _
  rw [if_neg (by simp [runs]), perform_of_quiet directory, perform_of_quiet resolved,
    perform_of_quiet acquired]
  rfl

theorem perform_bind_lock {lock : OwnLock} (created : world.lock = lock) {point : RunPoint}
    {change : RunWorld → RunWorld} {next : Unit → RunProgram Result}
    (goesOn : faults point = none → (next () (change world)).2.lock = lock) :
    ((perform faults point change >>= next) world).2.lock = lock := by
  cases fault : faults point with
  | none =>
      rw [perform_of_quiet fault]
      exact goesOn fault
  | some error =>
      unfold perform
      rw [fault]
      exact created

theorem runOneGuarded_lock_of_not_acquires {dir : RunDir} {force : Bool}
    (fails : ¬ Acquires faults dir force) (campaign : Campaign) (outcomes : List Outcome) :
    (runOneGuarded faults campaign force outcomes (RunWorld.initial dir)).2.lock = .notCreated := by
  have afterStatus : Quiet faults (if dir.status.isSome && !force then [.readStatus] else []) →
      ((if dir.skips force then pure .skipped
        else do
          perform faults .makeDirectory id
          perform faults .resolveDirectory id
          perform faults .acquireLock RunWorld.acquire
          runLocked faults campaign force outcomes : RunProgram RunResult)
        (RunWorld.initial dir)).2.lock = .notCreated := by
    intro status
    cases skips : dir.skips force with
    | true => rfl
    | false =>
        rw [if_neg Bool.false_ne_true]
        apply perform_bind_lock rfl
        intro directory
        apply perform_bind_lock rfl
        intro resolved
        apply perform_bind_lock rfl
        intro acquired
        refine absurd ⟨skips, ?_⟩ fails
        simpa [acquisitionPoints, directory, resolved, acquired] using status
  unfold runOneGuarded
  change ((performIf faults (dir.status.isSome && !force) .readStatus id >>= _) _).2.lock = _
  by_cases reads : (dir.status.isSome && !force) = true
  · rw [performIf, if_pos reads]
    apply perform_bind_lock rfl
    intro status
    apply afterStatus
    simpa [reads] using status
  · rw [performIf, if_neg reads]
    apply afterStatus
    simp [reads]

/-- The lock is released on every exit exactly when no operation raises between
its acquisition and the `try`, other than the test of the bounds. -/
theorem lock_released_iff {faults : Faults} {dir : RunDir} {force : Bool}
    (acquires : Acquires faults dir force) (campaign : Campaign) (outcomes : List Outcome) :
    LockReleased (runOneGuarded faults campaign force outcomes (RunWorld.initial dir)) ↔
      QuietStart faults campaign dir force := by
  rw [runOneGuarded_of_acquires acquires, lockReleased_iff_meets]
  exact meets_runLocked rfl

instance (run : Ending Raised RunResult × RunWorld) : Decidable (LockReleased run) :=
  inferInstanceAs (Decidable (_ → _))

instance (faults : Faults) (dir : RunDir) (force : Bool) : Decidable (Acquires faults dir force) :=
  inferInstanceAs (Decidable (_ ∧ ∀ _ ∈ _, _))

/-- A first run whose runtime artifacts cannot be removed. -/
def deniedCleaning : Faults :=
  fun point => if point = .cleanRuntime then some .permissionError else none

/-- The lock survives an error of `clean_runtime`. -/
theorem lock_kept_by_clean_runtime :
    Acquires deniedCleaning .empty false ∧
      ¬ LockReleased (runOneGuarded deniedCleaning ⟨60, 60⟩ false [loggingOutcome none 0]
        (RunWorld.initial .empty)) := by
  decide

/-- An error of the first launch comes after the start of the `try`. -/
theorem lock_released_iff_launch :
    Acquires (fun point => if point = .launch 1 then some .other else none) .empty false ∧
      (LockReleased (runOneGuarded (fun point => if point = .launch 1 then some .other else none)
          ⟨60, 60⟩ false [] (RunWorld.initial .empty)) ↔
        QuietStart (fun point => if point = .launch 1 then some .other else none) ⟨60, 60⟩ .empty
          false) :=
  ⟨by decide, lock_released_iff (by decide) ⟨60, 60⟩ []⟩

end Release

section Faultless

def noFaults : Faults := fun _ => none

/-- How `run_one` ends in the result of an invocation. -/
def RunResult.ending : RunResult → Ending Raised RunResult
  | .raised => .raised .runtimeError
  | .waiting => .waiting
  | result => .returned result

/-- The program ends as the invocation does, after the same file operations. -/
def Performs (run : Ending Raised RunResult × RunWorld) (invocation : Invocation) (dir : RunDir) :
    Prop :=
  run.1 = invocation.result.ending ∧
    run.2.dir = applyAll FileOp.apply invocation.operations dir

theorem attemptSegment_noFaults (campaign : Campaign) (progress : Progress) (outcome : Outcome)
    (world : RunWorld) :
    attemptSegment noFaults campaign progress (some outcome) world =
      (.returned outcome.returncode,
        { world with
          dir := applyAll FileOp.apply
            (runSegment (segmentRecord campaign progress) outcome.checkpoint) world.dir
          active := false }) := by
  cases outcome with
  | mk checkpoint log edges returncode => cases checkpoint <;> rfl

theorem recordCoverage_noFaults (segment : Nat) (elapsedSeconds : Int) (outcome : Outcome)
    (world : RunWorld) :
    recordCoverage noFaults segment elapsedSeconds outcome world =
      (.returned (), { world with
        dir := applyAll FileOp.apply
          (appendCoverage world.dir.coverage.isNone elapsedSeconds outcome) world.dir }) := by
  change writeRows noFaults segment _ world = _
  unfold appendCoverage
  cases outcome.lastLine <;> rfl

theorem commitSegment_noFaults (campaign : Campaign) (progress : Progress) (outcome : Outcome)
    (world : RunWorld) :
    commitSegment noFaults campaign progress outcome world =
      (.returned (), { world with
        dir := applyAll FileOp.apply
          (appendCoverage world.dir.coverage.isNone (segmentRecord campaign progress).finish outcome ++
            [.commitProgress (completeSegment campaign progress), .removeCurrentSegment])
          world.dir }) := by
  rw [applyAll_append]
  exact Attempt.bind_of_returned
    (recordCoverage_noFaults _ (segmentRecord campaign progress).finish outcome world) _

theorem applyAll_runSegment_coverage (record : SegmentRecord) (checkpoint : Option Checkpoint)
    (dir : RunDir) :
    (applyAll FileOp.apply (runSegment record checkpoint) dir).coverage = dir.coverage := by
  cases checkpoint <;> rfl

theorem applyAll_segment_coverage (record : SegmentRecord) (progress : Progress)
    (outcome : Outcome) (dir : RunDir) :
    (applyAll FileOp.apply (appendCoverage dir.coverage.isNone record.finish outcome ++
        [.commitProgress progress, .removeCurrentSegment]) dir).coverage.isNone =
      (dir.coverage.isNone && outcome.lastLine.isNone) := by
  unfold appendCoverage
  cases outcome.lastLine <;> simp [applyAll, FileOp.apply]

theorem runSegments_noFaults (campaign : Campaign) (outcomes : List Outcome) (progress : Progress)
    (world : RunWorld) :
    Performs (runSegments noFaults campaign progress outcomes world)
      (segmentLoop campaign world.dir.coverage.isNone progress outcomes) world.dir := by
  induction outcomes generalizing progress world with
  | nil =>
      unfold runSegments segmentLoop
      split_ifs with unfinished
      · exact ⟨rfl, rfl⟩
      · exact ⟨rfl, rfl⟩
  | cons outcome rest inductionHypothesis =>
      have attempted := attemptSegment_noFaults campaign progress outcome world
      unfold runSegments segmentLoop
      split_ifs with unfinished failed
      · rw [Attempt.bind_of_returned attempted, if_pos failed]
        refine ⟨rfl, ?_⟩
        dsimp only
        rw [applyAll_append]
        rfl
      · rw [Attempt.bind_of_returned attempted, if_neg failed,
          Attempt.bind_of_returned (commitSegment_noFaults campaign progress outcome _)]
        have opened := applyAll_segment_coverage (segmentRecord campaign progress)
          (completeSegment campaign progress) outcome
          (applyAll FileOp.apply
            (runSegment (segmentRecord campaign progress) outcome.checkpoint) world.dir)
        have runs := inductionHypothesis (completeSegment campaign progress)
          { world with
            dir := applyAll FileOp.apply
              (appendCoverage world.dir.coverage.isNone (segmentRecord campaign progress).finish
                  outcome ++
                [.commitProgress (completeSegment campaign progress), .removeCurrentSegment])
              (applyAll FileOp.apply
                (runSegment (segmentRecord campaign progress) outcome.checkpoint) world.dir)
            active := false }
        rw [applyAll_runSegment_coverage] at opened ⊢
        dsimp only at runs
        rw [opened] at runs
        refine ⟨runs.1, runs.2.trans ?_⟩
        simp only [Invocation.after_operations, applyAll_append]
      · exact ⟨rfl, rfl⟩

theorem reconcile_noFaults {campaign : Campaign} {progress next : Progress}
    {recovery : List FileOp} {world : RunWorld}
    (reconciled : reconcileCheckpoint campaign world.dir.checkpoint progress =
      some (next, recovery)) :
    reconcile noFaults campaign progress world =
      (.returned next, { world with dir := applyAll FileOp.apply recovery world.dir }) := by
  have reads : performIf noFaults world.dir.checkpoint.isSome .readCheckpoint id = pure () := by
    cases world.dir.checkpoint <;> rfl
  unfold reconcile
  rw [Attempt.bind_of_returned (rfl : Attempt.read world = _)]
  rw [reads, Attempt.bind_of_returned (rfl : (pure () : RunProgram Unit) world = _), reconciled]
  rcases reconcileCheckpoint_recovery reconciled with rfl | rfl <;> rfl

theorem reconcile_noFaults_of_none {campaign : Campaign} {progress : Progress} {world : RunWorld}
    (invalid : reconcileCheckpoint campaign world.dir.checkpoint progress = none) :
    reconcile noFaults campaign progress world = (.raised .runtimeError, world) := by
  have reads : performIf noFaults world.dir.checkpoint.isSome .readCheckpoint id = pure () := by
    cases world.dir.checkpoint <;> rfl
  unfold reconcile
  rw [Attempt.bind_of_returned (rfl : Attempt.read world = _)]
  rw [reads, Attempt.bind_of_returned (rfl : (pure () : RunProgram Unit) world = _), invalid]
  rfl

theorem performs_protected {body : RunProgram RunResult} {world : RunWorld}
    {invocation : Invocation} {dir : RunDir} (performs : Performs (body world) invocation dir) :
    Performs (Attempt.ensuring body (Attempt.modify RunWorld.unlinkLock) world) invocation dir := by
  unfold Attempt.ensuring
  revert performs
  rcases body world with ⟨ending, later⟩
  intro performs
  cases ending <;> exact performs

theorem startRun_noFaults {campaign : Campaign} {force : Bool} {world : RunWorld} :
    startRun noFaults campaign force world =
      (reconcile noFaults campaign (loadProgress campaign world.dir force) >>=
        prepareRun noFaults campaign) world := by
  unfold startRun
  rw [Attempt.bind_of_returned (rfl : Attempt.read world = _)]
  cases reads : world.dir.progress.isSome && !force <;> rfl

theorem prepareRun_noFaults {campaign : Campaign} {progress : Progress} {world : RunWorld}
    (inside : ¬ (progress.completedSeconds < 0 ∨
      campaign.durationSeconds < progress.completedSeconds)) :
    prepareRun noFaults campaign progress world =
      (.returned progress,
        { world with dir := applyAll FileOp.apply progress.startUp world.dir }) := by
  unfold prepareRun Progress.startUp
  rw [if_neg inside]
  cases progress.cleans <;> rfl

theorem applyAll_start_coverage {recovery : List FileOp} {progress next : Progress}
    (recovers : recovery = [] ∨ recovery = [.recoverProgress next]) (dir : RunDir) :
    (applyAll FileOp.apply progress.startUp
      (applyAll FileOp.apply recovery dir)).coverage = dir.coverage := by
  unfold Progress.startUp
  rcases recovers with rfl | rfl <;> cases progress.cleans <;> rfl

theorem runLocked_noFaults {campaign : Campaign} {world : RunWorld} {force : Bool}
    (runs : world.dir.skips force = false) (outcomes : List Outcome) :
    Performs (runLocked noFaults campaign force outcomes world)
      (runOne campaign world.dir force outcomes) world.dir := by
  rcases runOne_cases campaign world.dir force outcomes with
    ⟨skips, -⟩ | ⟨-, ⟨invalid, ops⟩ | ⟨progress, recovery, reconciled, continues⟩⟩
  · rw [runs] at skips
    cases skips
  · have raises := startRun_noFaults.trans
      (Attempt.bind_of_raised (reconcile_noFaults_of_none invalid) (prepareRun noFaults campaign))
    rw [ops, runLocked, Attempt.bind_of_raised raises]
    exact ⟨rfl, rfl⟩
  · have starts := startRun_noFaults.trans
      (Attempt.bind_of_returned (reconcile_noFaults reconciled) (prepareRun noFaults campaign))
    rcases continues with ⟨outside, ops⟩ | ⟨inside, ops⟩
    · rw [prepareRun, if_pos outside] at starts
      rw [ops, runLocked, Attempt.bind_of_raised starts]
      exact ⟨rfl, rfl⟩
    · rw [prepareRun_noFaults (by omega)] at starts
      rw [ops, runLocked, Attempt.bind_of_returned starts]
      have loops := performs_protected (runSegments_noFaults campaign outcomes progress
        { world with
          dir := applyAll FileOp.apply progress.startUp
            (applyAll FileOp.apply recovery world.dir) })
      dsimp only at loops ⊢
      rw [applyAll_start_coverage (reconcileCheckpoint_recovery reconciled)] at loops
      refine ⟨loops.1, loops.2.trans ?_⟩
      simp only [Invocation.after_operations, applyAll_append]

theorem acquires_noFaults {dir : RunDir} {force : Bool} (runs : dir.skips force = false) :
    Acquires noFaults dir force := by
  refine ⟨runs, ?_⟩
  intro point member
  rfl

/-- Without faults the program ends as the invocation of the runner, after the
same file operations. -/
theorem runOneGuarded_noFaults (campaign : Campaign) (dir : RunDir) (force : Bool)
    (outcomes : List Outcome) :
    Performs (runOneGuarded noFaults campaign force outcomes (RunWorld.initial dir))
      (runOne campaign dir force outcomes) dir := by
  cases skips : dir.skips force with
  | true =>
      have reads : performIf noFaults (dir.status.isSome && !force) .readStatus id = pure () := by
        cases dir.status.isSome && !force <;> rfl
      unfold runOneGuarded runOne
      rw [Attempt.bind_of_returned (rfl : Attempt.read (RunWorld.initial dir) = _)]
      change Performs ((performIf noFaults (dir.status.isSome && !force) .readStatus id >>= _) _) _ _
      rw [reads, skips]
      change Performs ((if dir.skips force then _ else _ : RunProgram RunResult) _) _ _
      rw [skips]
      exact ⟨rfl, rfl⟩
  | false =>
      rw [runOneGuarded_of_acquires (acquires_noFaults skips)]
      exact runLocked_noFaults skips outcomes

end Faultless

end GraphDissect.Experiments
