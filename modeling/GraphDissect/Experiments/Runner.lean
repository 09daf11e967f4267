import GraphDissect.Library.Crash
import Mathlib

/-!
# The campaign runner

`run_one` of `run_campaigns.py` executes one campaign as a sequence of MFuzz
processes, one for each segment, and records it in the files of a run
directory.  An invocation is embedded as the list of its file operations, in
the order of the source, so that it can be stopped between any two of them.
A JSON file is replaced by one atomic rename and is one operation;
`coverage.csv` is opened for appending and written on close, which is two.

What MFuzz does in a segment is an `Outcome`: the checkpoint it commits, the
coverage log and the edge count it leaves, and its return code.  An invocation
that is given fewer outcomes than it has segments is still waiting for the next
process.
-/

namespace GraphDissect.Experiments

open Library

structure Campaign where
  durationSeconds : Int
  segmentSeconds : Int
deriving DecidableEq, Repr

structure SegmentRecord where
  segment : Nat
  elapsedOffset : Int
  durationSeconds : Int
  returncode : Option Int
deriving DecidableEq, Repr

/-- The elapsed time at which a segment ends. -/
def SegmentRecord.finish (record : SegmentRecord) : Int :=
  record.elapsedOffset + record.durationSeconds

/-- The content of `progress.json`. -/
structure Progress where
  completedSeconds : Int
  completedSegments : List SegmentRecord
  recoveredCheckpoints : List Int
  totalSeconds : Int
deriving DecidableEq, Repr

/-- The content of `checkpoint.json`; `int(checkpoint.get("elapsed_seconds", -1))`
reads it. -/
structure Checkpoint where
  elapsedSeconds : Option Int
deriving DecidableEq, Repr

def Checkpoint.committed (checkpoint : Checkpoint) : Int :=
  checkpoint.elapsedSeconds.getD (-1)

/-- The content of `status.json`. -/
inductive Status where
  | running
  | failed (returncode completedSeconds : Int)
  | complete (completedSeconds : Int)
deriving DecidableEq, Repr

structure CoverageRow where
  elapsedSeconds : Int
  cgNodes : Int
  cfgEdges : Int
deriving DecidableEq, Repr

inductive CsvLine where
  | header
  | row (row : CoverageRow)
deriving DecidableEq, Repr

structure RunDir where
  status : Option Status
  progress : Option Progress
  coverage : Option (List CsvLine)
  checkpoint : Option Checkpoint
  currentSegment : Option SegmentRecord
  lastFailedSegment : Option SegmentRecord
deriving DecidableEq, Repr

def RunDir.empty : RunDir where
  status := none
  progress := none
  coverage := none
  checkpoint := none
  currentSegment := none
  lastFailedSegment := none

/-- A line of `mfuzz_f_coverage.log`. -/
structure LogLine where
  elapsed : Int
  covered : Int
deriving DecidableEq, Repr

/-- What one MFuzz process does.  `edges` is the field of that name in
`driver_runtimes/overview.stat`, if there is one. -/
structure Outcome where
  checkpoint : Option Checkpoint
  log : Option (List LogLine)
  edges : Option Int
  returncode : Int
deriving DecidableEq, Repr

inductive FileOp where
  | recoverProgress (progress : Progress)
  | cleanRuntime
  | writeStatus (status : Status)
  | writeCurrentSegment (record : SegmentRecord)
  | startSegment (record : SegmentRecord)
  | commitCheckpoint (checkpoint : Checkpoint)
  | writeFailedSegment (record : SegmentRecord)
  | openCoverage
  | writeCoverage (lines : List CsvLine)
  | commitProgress (progress : Progress)
  | removeCurrentSegment
deriving DecidableEq, Repr

/-- The effect of an operation on the run directory.  `clean_runtime` and the
start of MFuzz touch the benchmark directory only. -/
def FileOp.apply : FileOp → RunDir → RunDir
  | .recoverProgress progress, dir => { dir with progress := some progress }
  | .cleanRuntime, dir => dir
  | .writeStatus status, dir => { dir with status := some status }
  | .writeCurrentSegment record, dir => { dir with currentSegment := some record }
  | .startSegment _, dir => dir
  | .commitCheckpoint checkpoint, dir => { dir with checkpoint := some checkpoint }
  | .writeFailedSegment record, dir => { dir with lastFailedSegment := some record }
  | .openCoverage, dir => { dir with coverage := some (dir.coverage.getD []) }
  | .writeCoverage lines, dir => { dir with coverage := some (dir.coverage.getD [] ++ lines) }
  | .commitProgress progress, dir => { dir with progress := some progress }
  | .removeCurrentSegment, dir => { dir with currentSegment := none }

inductive RunResult where
  | skipped
  | raised
  | waiting
  | failed
  | complete
deriving DecidableEq, Repr

structure Invocation where
  operations : List FileOp
  result : RunResult
deriving DecidableEq, Repr

def Invocation.after (operations : List FileOp) (later : Invocation) : Invocation :=
  ⟨operations ++ later.operations, later.result⟩

/-- `values[-1]` of the coverage log, if the log exists and has a line. -/
def Outcome.lastLine (outcome : Outcome) : Option LogLine :=
  outcome.log.bind List.getLast?

/-- `newFile` is `not coverage.exists()`. -/
def appendCoverage (newFile : Bool) (elapsedSeconds : Int) (outcome : Outcome) : List FileOp :=
  match outcome.lastLine with
  | none => []
  | some line =>
      let row := CsvLine.row ⟨elapsedSeconds, line.covered, outcome.edges.getD 0⟩
      [.openCoverage, .writeCoverage (if newFile then [.header, row] else [row])]

def freshProgress (campaign : Campaign) : Progress where
  completedSeconds := 0
  completedSegments := []
  recoveredCheckpoints := []
  totalSeconds := campaign.durationSeconds

/-- The progress an invocation starts from, before the checkpoint is read. -/
def loadProgress (campaign : Campaign) (dir : RunDir) (force : Bool) : Progress :=
  if force then freshProgress campaign else dir.progress.getD (freshProgress campaign)

/-- The progress to go on with and the operations of `reconcile_checkpoint`, or
`none` where it raises.  The value it returns is the `completedSeconds` of that
progress. -/
def reconcileCheckpoint (campaign : Campaign) (checkpoint : Option Checkpoint)
    (progress : Progress) : Option (Progress × List FileOp) :=
  match checkpoint with
  | none => some (progress, [])
  | some checkpoint =>
      let committed := checkpoint.committed
      if committed < progress.completedSeconds ∨ campaign.durationSeconds < committed then none
      else if progress.completedSeconds < committed then
        let recovered := { progress with
          completedSeconds := committed
          recoveredCheckpoints := progress.recoveredCheckpoints ++ [committed] }
        some (recovered, [.recoverProgress recovered])
      else some (progress, [])

/-- The record of the segment that starts at the progress so far. -/
def segmentRecord (campaign : Campaign) (progress : Progress) : SegmentRecord where
  segment := progress.completedSegments.length + 1
  elapsedOffset := progress.completedSeconds
  durationSeconds := min campaign.segmentSeconds (campaign.durationSeconds - progress.completedSeconds)
  returncode := none

/-- The progress after a segment that returned 0. -/
def completeSegment (campaign : Campaign) (progress : Progress) : Progress :=
  let record := segmentRecord campaign progress
  { progress with
    completedSeconds := record.finish
    completedSegments := progress.completedSegments ++ [{ record with returncode := some 0 }] }

/-- What precedes the return of a segment's process, with the checkpoint the
process commits meanwhile. -/
def runSegment (record : SegmentRecord) (checkpoint : Option Checkpoint) : List FileOp :=
  [.writeCurrentSegment record, .startSegment record] ++
    (checkpoint.map FileOp.commitCheckpoint).toList

/-- The `while` loop of `run_one`.  `newFile` says that `coverage.csv` does not exist
yet.  `completed_seconds` and `progress["completed_seconds"]` agree whenever
the loop condition is tested, so the loop carries the latter only. -/
def segmentLoop (campaign : Campaign) : Bool → Progress → List Outcome → Invocation
  | _, progress, [] =>
      if progress.completedSeconds < campaign.durationSeconds then
        ⟨runSegment (segmentRecord campaign progress) none, .waiting⟩
      else ⟨[.writeStatus (.complete progress.completedSeconds)], .complete⟩
  | newFile, progress, outcome :: rest =>
      if progress.completedSeconds < campaign.durationSeconds then
        let record := segmentRecord campaign progress
        if outcome.returncode ≠ 0 then
          ⟨runSegment record outcome.checkpoint ++
            [.writeFailedSegment { record with returncode := some outcome.returncode },
              .writeStatus (.failed outcome.returncode progress.completedSeconds)], .failed⟩
        else
          let completed := completeSegment campaign progress
          .after (runSegment record outcome.checkpoint ++ appendCoverage newFile record.finish outcome ++
              [.commitProgress completed, .removeCurrentSegment])
            (segmentLoop campaign (newFile && outcome.lastLine.isNone) completed rest)
      else ⟨[.writeStatus (.complete progress.completedSeconds)], .complete⟩

def Status.isComplete : Status → Bool
  | .complete _ => true
  | _ => false

/-- Whether `run_one` returns "skipped". -/
def RunDir.skips (dir : RunDir) (force : Bool) : Bool :=
  dir.status.any Status.isComplete && !force

/-- Whether the start-up removes the runtime artifacts of the benchmark directory. -/
def Progress.cleans (progress : Progress) : Bool :=
  progress.completedSeconds == 0 && progress.completedSegments.isEmpty

/-- The file operations between `reconcile_checkpoint` and the loop. -/
def Progress.startUp (progress : Progress) : List FileOp :=
  (if progress.cleans then [.cleanRuntime] else []) ++ [.writeStatus .running]

/-- `run_one` from the moment its lock is acquired; the skip comes before that. -/
def runOne (campaign : Campaign) (dir : RunDir) (force : Bool) (outcomes : List Outcome) :
    Invocation :=
  if dir.skips force then ⟨[], .skipped⟩
  else
    match reconcileCheckpoint campaign dir.checkpoint (loadProgress campaign dir force) with
    | none => ⟨[], .raised⟩
    | some (progress, recovery) =>
        if progress.completedSeconds < 0 ∨ campaign.durationSeconds < progress.completedSeconds then
          ⟨recovery, .raised⟩
        else
          .after (recovery ++ progress.startUp)
            (segmentLoop campaign dir.coverage.isNone progress outcomes)

/-- An invocation of `run_one` and what its segments will do. -/
structure RunCall where
  force : Bool
  outcomes : List Outcome
deriving DecidableEq, Repr

/-- MFuzz can commit a checkpoint at any time: its processes survive the runner. -/
def commitCheckpoint (checkpoint : Checkpoint) (dir : RunDir) : RunDir :=
  { dir with checkpoint := some checkpoint }

abbrev RunnerState := Execution RunDir FileOp

abbrev RunnerAction := ExecutionAction RunCall Checkpoint

/-- Invocations of one campaign, which may be killed between any two file
operations. -/
def runnerStep (campaign : Campaign) : RunnerState → RunnerAction → Option RunnerState :=
  executionStep FileOp.apply
    (fun dir call => (runOne campaign dir call.force call.outcomes).operations)
    commitCheckpoint

def RunnerState.initial : RunnerState := ⟨RunDir.empty, []⟩

/-- A process that logs one line and commits a checkpoint if it is given one. -/
def loggingOutcome (checkpoint : Option Int) (returncode : Int) : Outcome where
  checkpoint := checkpoint.map fun elapsed => ⟨some elapsed⟩
  log := some [⟨1, 7⟩]
  edges := some 3
  returncode := returncode

@[simp]
theorem Invocation.after_operations (operations : List FileOp) (later : Invocation) :
    (Invocation.after operations later).operations = operations ++ later.operations := rfl

@[simp]
theorem Invocation.after_result (operations : List FileOp) (later : Invocation) :
    (Invocation.after operations later).result = later.result := rfl

theorem mem_runSegment {record : SegmentRecord} {checkpoint : Option Checkpoint} {op : FileOp}
    (member : op ∈ runSegment record checkpoint) :
    op = .writeCurrentSegment record ∨ op = .startSegment record ∨
      ∃ committed, op = .commitCheckpoint committed := by
  rcases List.mem_append.mp member with first | second
  · simp only [List.mem_cons, List.not_mem_nil, or_false] at first
    exact first.imp_right Or.inl
  · simp only [Option.mem_toList, Option.map_eq_some_iff] at second
    rcases second with ⟨committed, -, rfl⟩
    exact Or.inr (Or.inr ⟨committed, rfl⟩)

theorem mem_appendCoverage {newFile : Bool} {elapsed : Int} {outcome : Outcome} {op : FileOp}
    (member : op ∈ appendCoverage newFile elapsed outcome) :
    op = .openCoverage ∨ ∃ lines, op = .writeCoverage lines := by
  unfold appendCoverage at member
  split at member
  · cases member
  · simp only [List.mem_cons, List.not_mem_nil, or_false] at member
    exact member.imp_right fun written => ⟨_, written⟩

/-- What `reconcile_checkpoint` can do when it does not raise. -/
theorem reconcileCheckpoint_cases {campaign : Campaign} {checkpoint : Option Checkpoint}
    {progress next : Progress} {recovery : List FileOp}
    (reconciled : reconcileCheckpoint campaign checkpoint progress = some (next, recovery)) :
    next = progress ∧ recovery = [] ∨
      ∃ found, checkpoint = some found ∧ progress.completedSeconds < found.committed ∧
        found.committed ≤ campaign.durationSeconds ∧
        next = { progress with
          completedSeconds := found.committed
          recoveredCheckpoints := progress.recoveredCheckpoints ++ [found.committed] } ∧
        recovery = [.recoverProgress next] := by
  unfold reconcileCheckpoint at reconciled
  split at reconciled
  · cases reconciled
    exact Or.inl ⟨rfl, rfl⟩
  · next checkpoint =>
    dsimp only at reconciled
    split_ifs at reconciled with invalid ahead
    · cases reconciled
      refine Or.inr ⟨checkpoint, rfl, ahead, ?_, rfl, rfl⟩
      exact le_of_not_gt fun beyond => invalid (Or.inr beyond)
    · cases reconciled
      exact Or.inl ⟨rfl, rfl⟩

theorem reconcileCheckpoint_again {campaign : Campaign} {checkpoint : Option Checkpoint}
    {progress next : Progress} {recovery : List FileOp}
    (reconciled : reconcileCheckpoint campaign checkpoint progress = some (next, recovery)) :
    reconcileCheckpoint campaign checkpoint next = some (next, []) := by
  rcases reconcileCheckpoint_cases reconciled with
    ⟨rfl, rfl⟩ | ⟨found, rfl, ahead, inside, rfl, rfl⟩
  · exact reconciled
  · unfold reconcileCheckpoint
    dsimp only
    rw [if_neg (by omega), if_neg (lt_irrefl _)]

/-- Directories that differ in the checkpoint at most. -/
def SameRecords (dir other : RunDir) : Prop :=
  ∃ checkpoint, other = { dir with checkpoint := checkpoint }

theorem SameRecords.apply {dir other : RunDir} (same : SameRecords dir other) (op : FileOp) :
    SameRecords (op.apply dir) (op.apply other) := by
  rcases same with ⟨checkpoint, rfl⟩
  cases op with
  | commitCheckpoint committed => exact ⟨some committed, rfl⟩
  | _ => exact ⟨checkpoint, rfl⟩

/-- A property that does not read the checkpoint survives a commit at any moment. -/
theorem throughout_commitCheckpoint {Holds : RunDir → List FileOp → Prop}
    (respects : ∀ dir other ops, SameRecords dir other → Holds dir ops → Holds other ops)
    {dir : RunDir} {ops : List FileOp} (checkpoint : Checkpoint)
    (throughout : Throughout FileOp.apply Holds dir ops) :
    Throughout FileOp.apply Holds (commitCheckpoint checkpoint dir) ops :=
  throughout.transfer (fun op _ _ same => same.apply op) respects ⟨some checkpoint, rfl⟩

theorem runOne_cases (campaign : Campaign) (dir : RunDir) (force : Bool) (outcomes : List Outcome) :
    dir.skips force = true ∧ runOne campaign dir force outcomes = ⟨[], .skipped⟩ ∨
    dir.skips force = false ∧
      (reconcileCheckpoint campaign dir.checkpoint (loadProgress campaign dir force) = none ∧
          runOne campaign dir force outcomes = ⟨[], .raised⟩ ∨
        ∃ progress recovery,
          reconcileCheckpoint campaign dir.checkpoint (loadProgress campaign dir force) =
            some (progress, recovery) ∧
          ((progress.completedSeconds < 0 ∨
              campaign.durationSeconds < progress.completedSeconds) ∧
            runOne campaign dir force outcomes = ⟨recovery, .raised⟩ ∨
          (0 ≤ progress.completedSeconds ∧
              progress.completedSeconds ≤ campaign.durationSeconds) ∧
            runOne campaign dir force outcomes =
              .after (recovery ++ progress.startUp)
                (segmentLoop campaign dir.coverage.isNone progress outcomes))) := by
  unfold runOne
  cases skips : dir.skips force with
  | true => exact Or.inl ⟨rfl, rfl⟩
  | false =>
      refine Or.inr ⟨rfl, ?_⟩
      cases reconciled :
          reconcileCheckpoint campaign dir.checkpoint (loadProgress campaign dir force) with
      | none => exact Or.inl ⟨rfl, rfl⟩
      | some pair =>
          rcases pair with ⟨progress, recovery⟩
          refine Or.inr ⟨progress, recovery, rfl, ?_⟩
          by_cases invalid : progress.completedSeconds < 0 ∨
              campaign.durationSeconds < progress.completedSeconds
          · exact Or.inl ⟨invalid, if_pos invalid⟩
          · refine Or.inr ⟨?_, if_neg invalid⟩
            omega

section Loop

variable {Disk : Type}

/-- A property of every point of the loop.  `Kept` holds where the loop condition
is tested and `Ran` once the process of the segment runs; what each phase of a
segment owes is stated with what follows it left open. -/
structure LoopRule (campaign : Campaign) (apply : FileOp → Disk → Disk)
    (Holds : Disk → List FileOp → Prop) (Kept Ran : Progress → Bool → Disk → Prop)
    (usable : Outcome → Prop) : Prop where
  completes : ∀ {progress newFile disk}, Kept progress newFile disk →
    ¬ progress.completedSeconds < campaign.durationSeconds →
    Throughout apply Holds disk [.writeStatus (.complete progress.completedSeconds)]
  segment : ∀ {progress newFile disk checkpoint later}, Kept progress newFile disk →
    (∀ disk, Ran progress newFile disk → Throughout apply Holds disk later) →
    Throughout apply Holds disk
      (runSegment (segmentRecord campaign progress) checkpoint ++ later)
  waits : ∀ {progress newFile disk}, Ran progress newFile disk → Holds disk []
  fails : ∀ {progress newFile disk} record returncode, Ran progress newFile disk →
    Throughout apply Holds disk
      [.writeFailedSegment record, .writeStatus (.failed returncode progress.completedSeconds)]
  commits : ∀ {progress newFile disk outcome later}, Ran progress newFile disk →
    progress.completedSeconds < campaign.durationSeconds → usable outcome →
    (∀ disk, Kept (completeSegment campaign progress) (newFile && outcome.lastLine.isNone) disk →
      Throughout apply Holds disk later) →
    Throughout apply Holds disk
      (appendCoverage newFile (segmentRecord campaign progress).finish outcome ++
        (.commitProgress (completeSegment campaign progress) :: .removeCurrentSegment :: later))

theorem LoopRule.segmentLoop {campaign : Campaign} {apply : FileOp → Disk → Disk}
    {Holds : Disk → List FileOp → Prop} {Kept Ran : Progress → Bool → Disk → Prop}
    {usable : Outcome → Prop} (rule : LoopRule campaign apply Holds Kept Ran usable)
    {outcomes : List Outcome}
    (allUsable : ∀ outcome ∈ outcomes, outcome.returncode = 0 → usable outcome)
    {progress : Progress} {newFile : Bool} {disk : Disk} (kept : Kept progress newFile disk) :
    Throughout apply Holds disk (segmentLoop campaign newFile progress outcomes).operations := by
  induction outcomes generalizing newFile progress disk with
  | nil =>
      unfold Experiments.segmentLoop
      split_ifs with unfinished
      · rw [← List.append_nil (Invocation.operations _)]
        exact rule.segment kept fun disk ran => rule.waits ran
      · exact rule.completes kept unfinished
  | cons outcome rest inductionHypothesis =>
      unfold Experiments.segmentLoop
      split_ifs with unfinished failed
      · exact rule.segment kept fun disk ran => rule.fails _ _ ran
      · have here := allUsable outcome List.mem_cons_self (not_not.mp failed)
        rw [Invocation.after_operations, List.append_assoc, List.append_assoc]
        apply rule.segment kept
        intro disk ran
        apply rule.commits ran unfinished here
        intro disk kept
        exact inductionHypothesis
          (fun other member => allUsable other (List.mem_cons_of_mem outcome member)) kept
      · exact rule.completes kept unfinished

/-- What holds throughout an invocation: it may stop at once, start from what it
loaded, or recover a checkpoint first. -/
theorem runOne_throughout {campaign : Campaign} {apply : FileOp → Disk → Disk}
    {Holds : Disk → List FileOp → Prop} {disk : Disk} {dir : RunDir} {force : Bool}
    {outcomes : List Outcome} (stops : Holds disk [])
    (starts : ∀ progress, progress = loadProgress campaign dir force → dir.skips force = false →
      reconcileCheckpoint campaign dir.checkpoint progress = some (progress, []) →
      0 ≤ progress.completedSeconds → progress.completedSeconds ≤ campaign.durationSeconds →
      Throughout apply Holds disk (progress.startUp ++
        (segmentLoop campaign dir.coverage.isNone progress outcomes).operations))
    (recovers : ∀ found progress, dir.checkpoint = some found → dir.skips force = false →
      (loadProgress campaign dir force).completedSeconds < found.committed →
      found.committed ≤ campaign.durationSeconds →
      progress = { loadProgress campaign dir force with
        completedSeconds := found.committed
        recoveredCheckpoints :=
          (loadProgress campaign dir force).recoveredCheckpoints ++ [found.committed] } →
      reconcileCheckpoint campaign dir.checkpoint (loadProgress campaign dir force) =
        some (progress, [.recoverProgress progress]) →
      (∀ later, Holds disk (.recoverProgress progress :: later)) ∧
        Holds (apply (.recoverProgress progress) disk) [] ∧
        (0 ≤ progress.completedSeconds →
          Throughout apply Holds (apply (.recoverProgress progress) disk) (progress.startUp ++
            (segmentLoop campaign dir.coverage.isNone progress outcomes).operations))) :
    Throughout apply Holds disk (runOne campaign dir force outcomes).operations := by
  rcases runOne_cases campaign dir force outcomes with
    ⟨-, ops⟩ | ⟨skips, ⟨-, ops⟩ | ⟨progress, recovery, reconciled, runs⟩⟩
  · rw [ops]
    exact stops
  · rw [ops]
    exact stops
  rcases reconcileCheckpoint_cases reconciled with
    ⟨rfl, rfl⟩ | ⟨found, present, ahead, inside, next, rfl⟩
  · rcases runs with ⟨-, ops⟩ | ⟨range, ops⟩
    · rw [ops]
      exact stops
    · rw [ops]
      exact starts _ rfl skips reconciled range.1 range.2
  · rcases recovers found progress present skips ahead inside next reconciled with
      ⟨before, after, loop⟩
    rcases runs with ⟨-, ops⟩ | ⟨range, ops⟩
    · rw [ops]
      exact ⟨before [], after⟩
    · rw [ops]
      exact ⟨before _, loop range.1⟩

end Loop

end GraphDissect.Experiments
