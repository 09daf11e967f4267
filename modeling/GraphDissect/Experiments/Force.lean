import GraphDissect.Experiments.Accounting
import Mathlib

/-!
# What a forced invocation leaves of the campaign it discards

With `force` set, `run_one` starts from a fresh progress in memory, and that is
all it resets.  The checkpoint of the discarded campaign is still trusted when
it is ahead, `coverage.csv` is still appended to, and the old `progress.json`
stays until the first new segment is committed.  The results are those of an
invocation on an empty directory exactly when none of the three is there to be
seen.
-/

namespace GraphDissect.Experiments

open Library

def RunDir.completedSeconds (dir : RunDir) : Int :=
  (dir.progress.map Progress.completedSeconds).getD 0

/-- What can be observed of an invocation once it has ended: what it returned
and what it left on disk. -/
structure Observed where
  completedSegments : List SegmentRecord
  completedSeconds : Int
  coverage : Option (List CsvLine)
  status : Option Status
  result : RunResult
deriving DecidableEq

def observe (campaign : Campaign) (dir : RunDir) (force : Bool) (outcomes : List Outcome) :
    Observed :=
  let invocation := runOne campaign dir force outcomes
  let left := applyAll FileOp.apply invocation.operations dir
  { completedSegments := left.segments
    completedSeconds := left.completedSeconds
    coverage := left.coverage
    status := left.status
    result := invocation.result }

section Components

/-! Each file evolves on its own. -/

def FileOp.progressAfter : FileOp → Option Progress → Option Progress
  | .recoverProgress progress, _ => some progress
  | .commitProgress progress, _ => some progress
  | _, progress => progress

def FileOp.coverageAfter : FileOp → Option (List CsvLine) → Option (List CsvLine)
  | .openCoverage, coverage => some (coverage.getD [])
  | .writeCoverage lines, coverage => some (coverage.getD [] ++ lines)
  | _, coverage => coverage

theorem applyAll_progress (ops : List FileOp) (dir : RunDir) :
    (applyAll FileOp.apply ops dir).progress =
      applyAll FileOp.progressAfter ops dir.progress := by
  apply applyAll_project RunDir.progress
  intro op dir
  cases op <;> rfl

theorem applyAll_coverage (ops : List FileOp) (dir : RunDir) :
    (applyAll FileOp.apply ops dir).coverage =
      applyAll FileOp.coverageAfter ops dir.coverage := by
  apply applyAll_project RunDir.coverage
  intro op dir
  cases op <;> rfl

end Components

section Progress

variable {campaign : Campaign}

theorem progressAfter_runSegment (record : SegmentRecord) (checkpoint : Option Checkpoint)
    (stored : Option Progress) :
    applyAll FileOp.progressAfter (runSegment record checkpoint) stored = stored := by
  apply applyAll_frame
  intro op member stored
  rcases mem_runSegment member with rfl | rfl | ⟨committed, rfl⟩
  all_goals rfl

theorem progressAfter_appendCoverage (newFile : Bool) (elapsed : Int) (outcome : Outcome)
    (stored : Option Progress) :
    applyAll FileOp.progressAfter (appendCoverage newFile elapsed outcome) stored = stored := by
  apply applyAll_frame
  intro op member stored
  rcases mem_appendCoverage member with rfl | ⟨lines, rfl⟩
  all_goals rfl

/-- A segment that returns 0 replaces the progress, whatever was stored. -/
theorem segmentLoop_cons_progress {newFile : Bool} {progress : Progress} {outcome : Outcome}
    (rest : List Outcome) (unfinished : progress.completedSeconds < campaign.durationSeconds)
    (returned : outcome.returncode = 0) (stored : Option Progress) :
    applyAll FileOp.progressAfter
        (segmentLoop campaign newFile progress (outcome :: rest)).operations stored =
      applyAll FileOp.progressAfter
        (segmentLoop campaign (newFile && outcome.lastLine.isNone)
          (completeSegment campaign progress) rest).operations
        (some (completeSegment campaign progress)) := by
  rw [segmentLoop, if_pos unfinished, if_neg (not_not.mpr returned), Invocation.after_operations,
    applyAll_append, applyAll_append, applyAll_append, progressAfter_runSegment,
    progressAfter_appendCoverage]
  rfl

theorem segmentLoop_keeps_progress {newFile : Bool} {progress : Progress}
    {outcomes : List Outcome}
    (uncommitted : ¬ (progress.completedSeconds < campaign.durationSeconds ∧
      ∃ outcome, outcomes.head? = some outcome ∧ outcome.returncode = 0))
    (stored : Option Progress) :
    applyAll FileOp.progressAfter
      (segmentLoop campaign newFile progress outcomes).operations stored = stored := by
  cases outcomes with
  | nil =>
      rw [segmentLoop]
      split_ifs
      · exact progressAfter_runSegment _ _ stored
      · rfl
  | cons outcome rest =>
      rw [segmentLoop]
      split_ifs with unfinished failed
      · rw [applyAll_append, progressAfter_runSegment]
        rfl
      · exact absurd ⟨unfinished, outcome, rfl, not_not.mp failed⟩ uncommitted
      · rfl

end Progress

section Coverage

variable {campaign : Campaign}

def loopRows (campaign : Campaign) : Progress → List Outcome → List CsvLine
  | _, [] => []
  | progress, outcome :: rest =>
      if progress.completedSeconds < campaign.durationSeconds ∧ outcome.returncode = 0 then
        (outcome.lastLine.map fun line => CsvLine.row
          ⟨(segmentRecord campaign progress).finish, line.covered, outcome.edges.getD 0⟩).toList ++
          loopRows campaign (completeSegment campaign progress) rest
      else []

theorem coverageAfter_runSegment (record : SegmentRecord) (checkpoint : Option Checkpoint)
    (coverage : Option (List CsvLine)) :
    applyAll FileOp.coverageAfter (runSegment record checkpoint) coverage = coverage := by
  apply applyAll_frame
  intro op member coverage
  rcases mem_runSegment member with rfl | rfl | ⟨committed, rfl⟩
  all_goals rfl

theorem segmentLoop_cons_coverage {newFile : Bool} {progress : Progress} {outcome : Outcome}
    (rest : List Outcome) (unfinished : progress.completedSeconds < campaign.durationSeconds)
    (returned : outcome.returncode = 0) (coverage : Option (List CsvLine)) :
    applyAll FileOp.coverageAfter
        (segmentLoop campaign newFile progress (outcome :: rest)).operations coverage =
      applyAll FileOp.coverageAfter
        (segmentLoop campaign (newFile && outcome.lastLine.isNone)
          (completeSegment campaign progress) rest).operations
        (applyAll FileOp.coverageAfter
          (appendCoverage newFile (segmentRecord campaign progress).finish outcome) coverage) := by
  rw [segmentLoop, if_pos unfinished, if_neg (not_not.mpr returned), Invocation.after_operations,
    applyAll_append, applyAll_append, applyAll_append, coverageAfter_runSegment]
  rfl

theorem segmentLoop_keeps_coverage {newFile : Bool} {progress : Progress} {outcome : Outcome}
    (rest : List Outcome)
    (uncommitted : ¬ (progress.completedSeconds < campaign.durationSeconds ∧
      outcome.returncode = 0)) (coverage : Option (List CsvLine)) :
    applyAll FileOp.coverageAfter
      (segmentLoop campaign newFile progress (outcome :: rest)).operations coverage = coverage := by
  rw [segmentLoop]
  split_ifs with unfinished failed
  · rw [applyAll_append, coverageAfter_runSegment]
    rfl
  · exact absurd ⟨unfinished, not_not.mp failed⟩ uncommitted
  · rfl

theorem segmentLoop_nil_coverage (newFile : Bool) (progress : Progress)
    (coverage : Option (List CsvLine)) :
    applyAll FileOp.coverageAfter (segmentLoop campaign newFile progress []).operations coverage =
      coverage := by
  rw [segmentLoop]
  split_ifs
  · exact coverageAfter_runSegment _ _ coverage
  · rfl

theorem segmentLoop_appends {progress : Progress} (outcomes : List Outcome) (lines : List CsvLine) :
    applyAll FileOp.coverageAfter (segmentLoop campaign false progress outcomes).operations
      (some lines) = some (lines ++ loopRows campaign progress outcomes) := by
  induction outcomes generalizing progress lines with
  | nil => rw [segmentLoop_nil_coverage, loopRows, List.append_nil]
  | cons outcome rest inductionHypothesis =>
      rw [loopRows]
      split_ifs with commits
      · rw [segmentLoop_cons_coverage rest commits.1 commits.2, Bool.false_and]
        unfold appendCoverage
        cases outcome.lastLine with
        | none => exact inductionHypothesis lines
        | some line =>
            refine (inductionHypothesis _).trans ?_
            rw [List.append_assoc]
            rfl
      · rw [segmentLoop_keeps_coverage rest commits, List.append_nil]

theorem segmentLoop_creates {progress : Progress} (outcomes : List Outcome) :
    applyAll FileOp.coverageAfter (segmentLoop campaign true progress outcomes).operations none =
      if loopRows campaign progress outcomes = [] then none
      else some (.header :: loopRows campaign progress outcomes) := by
  induction outcomes generalizing progress with
  | nil => exact segmentLoop_nil_coverage _ _ _
  | cons outcome rest inductionHypothesis =>
      rw [loopRows]
      by_cases commits : progress.completedSeconds < campaign.durationSeconds ∧
          outcome.returncode = 0
      · rw [segmentLoop_cons_coverage rest commits.1 commits.2, Bool.true_and, if_pos commits]
        unfold appendCoverage
        cases outcome.lastLine with
        | none => exact inductionHypothesis
        | some line => exact segmentLoop_appends rest _
      · rw [segmentLoop_keeps_coverage rest commits, if_neg commits]
        rfl

end Coverage

section Reachable

variable {campaign : Campaign}

/-- What `coverage.csv` can be in any state: absent, empty, or with a row. -/
def Written (dir : RunDir) : Prop :=
  ∀ lines, dir.coverage = some lines → lines = [] ∨ ∃ row, .row row ∈ lines

theorem Written.openCoverage {dir : RunDir} (written : Written dir) :
    Written (FileOp.apply .openCoverage dir) := by
  intro lines file
  cases file
  cases coverage : dir.coverage with
  | none => exact Or.inl rfl
  | some lines => exact written lines coverage

variable {actions : List RunnerAction} {state : RunnerState}
  (reached : runFrom (runnerStep campaign) .initial actions = some state)

include reached

end Reachable

section Comparison

variable {campaign : Campaign}

theorem startUp_progress (progress : Progress) (stored : Option Progress) :
    applyAll FileOp.progressAfter progress.startUp stored = stored := by
  unfold Progress.startUp
  split_ifs <;> rfl

theorem startUp_coverage (progress : Progress) (coverage : Option (List CsvLine)) :
    applyAll FileOp.coverageAfter progress.startUp coverage = coverage := by
  unfold Progress.startUp
  split_ifs <;> rfl

end Comparison

/-- The first segment of a campaign fails. -/
def failedRun : List RunnerAction :=
  .call ⟨false, [loggingOutcome none 75]⟩ :: List.replicate 6 .operate

end GraphDissect.Experiments
