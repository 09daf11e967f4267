import GraphDissect.Experiments.Force
import GraphDissect.Experiments.Ownership
import GraphDissect.Scheduler.CoverageLog
import GraphDissect.Scheduler.FastSync
import Mathlib

/-!
# The coverage curve of a campaign

`summarize_coverage.py` reads the rows of `coverage.csv` as one curve: its
`at_checkpoint` takes the last row at or before a checkpoint.  A row is the last
line that the MFuzz process of its segment logged, and that process has seen
neither the map nor the log of the segments before it.  The rows are cumulative
exactly when each process that logs had covered again, by its last line,
whatever was covered up to the end of its segment.
-/

namespace GraphDissect.Experiments

open Library Scheduler

/-- An MFuzz process as the runner starts it for one segment. -/
structure FuzzSegment where
  actions : List FuzzAction
  checkpoint : Option Checkpoint
  edges : Option Int
  returncode : Int

namespace FuzzSegment

def process (target : FuzzTarget) (segment : FuzzSegment) : FuzzProcess :=
  FuzzProcess.run target segment.actions

/-- The functions covered in the segment. -/
def covered (target : FuzzTarget) (segment : FuzzSegment) : Finset Nat :=
  target.functions (segment.process target).called

/-- The functions that the last line of the log counts, if there is a line. -/
def lastLogged (target : FuzzTarget) (segment : FuzzSegment) : Option (Finset Nat) :=
  (segment.process target).log.getLast?.map Prod.snd

/-- The log is created by its first line. -/
def outcome (target : FuzzTarget) (segment : FuzzSegment) : Outcome where
  checkpoint := segment.checkpoint
  log :=
    let lines := (segment.process target).log.map fun line => ⟨line.1, line.2.card⟩
    if lines = [] then none else some lines
  edges := segment.edges
  returncode := segment.returncode

end FuzzSegment

/-- A segment whose process returned 0, with the elapsed time at its end. -/
structure CompletedSegment where
  elapsedSeconds : Int
  segment : FuzzSegment

/-- The row of a completed segment, if its process logged anything. -/
def CompletedSegment.row? (target : FuzzTarget) (completed : CompletedSegment) :
    Option CoverageRow :=
  (completed.segment.lastLogged target).map fun seen =>
    ⟨completed.elapsedSeconds, seen.card, completed.segment.edges.getD 0⟩

/-- The segments that the loop of an invocation completes. -/
def loopCompleted (campaign : Campaign) : Progress → List FuzzSegment → List CompletedSegment
  | _, [] => []
  | progress, segment :: rest =>
      if progress.completedSeconds < campaign.durationSeconds ∧ segment.returncode = 0 then
        ⟨(segmentRecord campaign progress).finish, segment⟩ ::
          loopCompleted campaign (completeSegment campaign progress) rest
      else []

/-- The run directory of a campaign and the segments it has completed so far. -/
structure CurveState where
  dir : RunDir
  history : List CompletedSegment

def CurveState.initial : CurveState := ⟨RunDir.empty, []⟩

/-- One invocation.  It ends when the campaign is complete, when a segment fails,
or in the segment after the last one of the list. -/
def invoke (target : FuzzTarget) (campaign : Campaign) (state : CurveState)
    (segments : List FuzzSegment) : CurveState where
  dir := applyAll FileOp.apply
    (runOne campaign state.dir false (segments.map (FuzzSegment.outcome target))).operations
    state.dir
  history := state.history ++
    match startingProgress campaign state.dir false with
    | none => []
    | some progress => loopCompleted campaign progress segments

/-- A campaign executed by any number of invocations. -/
def invokeAll (target : FuzzTarget) (campaign : Campaign) (calls : List (List FuzzSegment)) :
    CurveState :=
  calls.foldl (invoke target campaign) .initial

/-- The functions covered in at least one segment completed up to a time. -/
def coveredUpTo (target : FuzzTarget) (history : List CompletedSegment) (elapsed : Int) :
    Finset Nat :=
  (history.filter fun completed => completed.elapsedSeconds ≤ elapsed).foldr
    (fun completed covered => completed.segment.covered target ∪ covered) ∅

/-- Every row counts the functions covered up to its time, and the counts do not
decrease with time. -/
def Cumulative (target : FuzzTarget) (state : CurveState) : Prop :=
  ∃ rows, state.dir.rows = some rows ∧
    (∀ row ∈ rows,
      row.cgNodes = (coveredUpTo target state.history row.elapsedSeconds).card) ∧
    ∀ first ∈ rows, ∀ second ∈ rows, first.elapsedSeconds ≤ second.elapsedSeconds →
      first.cgNodes ≤ second.cgNodes

/-- A process that logs has covered by its last line whatever was covered up to
the end of its segment, in it or before. -/
def CoversAgain (target : FuzzTarget) (history : List CompletedSegment) : Prop :=
  ∀ completed ∈ history, ∀ seen ∈ completed.segment.lastLogged target,
    coveredUpTo target history completed.elapsedSeconds ⊆ seen

section Segments

variable {target : FuzzTarget}

theorem FuzzSegment.lastLine_outcome (segment : FuzzSegment) :
    (segment.outcome target).lastLine =
      (segment.process target).log.getLast?.map fun line => ⟨line.1, line.2.card⟩ := by
  unfold FuzzSegment.outcome Outcome.lastLine
  dsimp only
  split_ifs with empty
  · rw [List.map_eq_nil_iff.mp empty]
    rfl
  · exact List.getLast?_map

theorem FuzzSegment.lastLogged_subset {segment : FuzzSegment} {seen : Finset Nat}
    (logged : seen ∈ segment.lastLogged target) : seen ⊆ segment.covered target := by
  rcases Option.map_eq_some_iff.mp logged with ⟨line, last, rfl⟩
  exact (reported_run segment.actions).log line (List.mem_of_getLast? last)

theorem mem_coveredUpTo {history : List CompletedSegment} {elapsed : Int} {nodeId : Nat} :
    nodeId ∈ coveredUpTo target history elapsed ↔
      ∃ completed ∈ history, completed.elapsedSeconds ≤ elapsed ∧
        nodeId ∈ completed.segment.covered target := by
  unfold coveredUpTo
  induction history with
  | nil => simp
  | cons completed rest inductionHypothesis =>
      rw [List.filter_cons]
      split_ifs with early
      · simp only [List.foldr_cons, Finset.mem_union, inductionHypothesis, List.exists_mem_cons_iff,
          of_decide_eq_true early, true_and]
      · simp only [inductionHypothesis, List.exists_mem_cons_iff,
          mt decide_eq_true early, false_and, false_or]

theorem coveredUpTo_mono {history : List CompletedSegment} {first second : Int}
    (order : first ≤ second) :
    coveredUpTo target history first ⊆ coveredUpTo target history second := by
  intro nodeId
  rw [mem_coveredUpTo, mem_coveredUpTo]
  rintro ⟨completed, member, early, covered⟩
  exact ⟨completed, member, early.trans order, covered⟩

theorem covered_subset_coveredUpTo {history : List CompletedSegment}
    {completed : CompletedSegment} (member : completed ∈ history) :
    completed.segment.covered target ⊆
      coveredUpTo target history completed.elapsedSeconds :=
  fun _ covered => mem_coveredUpTo.mpr ⟨completed, member, le_rfl, covered⟩

end Segments

section Rows

variable {target : FuzzTarget} {campaign : Campaign}

/-- What the file holds once rows were written to it. -/
def curveFile (rows : List CoverageRow) : Option (List CsvLine) :=
  if rows = [] then none else some (.header :: rows.map CsvLine.row)

theorem coverageRows_curveFile (rows : List CoverageRow) :
    coverageRows ((curveFile rows).getD []) = some rows := by
  unfold curveFile
  split_ifs with empty
  · rw [empty]
    rfl
  · exact coverageRows_header rows

theorem loopRows_outcomes (progress : Progress) (segments : List FuzzSegment) :
    loopRows campaign progress (segments.map (FuzzSegment.outcome target)) =
      ((loopCompleted campaign progress segments).filterMap
        (CompletedSegment.row? target)).map CsvLine.row := by
  induction segments generalizing progress with
  | nil => rfl
  | cons segment rest inductionHypothesis =>
      rw [List.map_cons, loopRows, loopCompleted]
      split_ifs with commits failed failed
      · rw [segment.lastLine_outcome, inductionHypothesis, List.filterMap_cons]
        unfold CompletedSegment.row? FuzzSegment.lastLogged
        cases (segment.process target).log.getLast? <;> rfl
      · exact absurd commits failed
      · exact absurd failed commits
      · rfl

theorem segmentLoop_curveFile (progress : Progress) (segments : List FuzzSegment)
    (rows : List CoverageRow) :
    applyAll FileOp.coverageAfter
        (segmentLoop campaign (curveFile rows).isNone progress
          (segments.map (FuzzSegment.outcome target))).operations (curveFile rows) =
      curveFile (rows ++ (loopCompleted campaign progress segments).filterMap
        (CompletedSegment.row? target)) := by
  by_cases empty : rows = []
  · subst empty
    refine (segmentLoop_creates _).trans ?_
    rw [loopRows_outcomes, List.nil_append]
    unfold curveFile
    simp only [List.map_eq_nil_iff]
  · have file : curveFile rows = some (.header :: rows.map CsvLine.row) := if_neg empty
    rw [file]
    refine (segmentLoop_appends _ _).trans ?_
    rw [loopRows_outcomes, curveFile, if_neg (by simp [empty]), List.map_append]
    rfl

/-- An invocation recovers a checkpoint or does not, and then runs its loop if it
gets there.  The recovery keeps the segments that were loaded. -/
theorem runOne_operations (dir : RunDir) (force : Bool) (outcomes : List Outcome) :
    ∃ recovery, (runOne campaign dir force outcomes).operations = recovery ++
        (match startingProgress campaign dir force with
        | none => []
        | some progress => progress.startUp ++
            (segmentLoop campaign dir.coverage.isNone progress outcomes).operations) ∧
      (recovery = [] ∨ ∃ progress, recovery = [.recoverProgress progress] ∧
        progress.completedSegments = (loadProgress campaign dir force).completedSegments) ∧
      ∀ progress ∈ startingProgress campaign dir force,
        progress.completedSegments = (loadProgress campaign dir force).completedSegments := by
  rcases runOne_cases campaign dir force outcomes with
    ⟨skips, ops⟩ | ⟨skips, ⟨raises, ops⟩ | ⟨progress, recovery, reconciled, runs⟩⟩
  · have starting : startingProgress campaign dir force = none := if_pos skips
    rw [ops, starting]
    exact ⟨[], rfl, Or.inl rfl, nofun⟩
  · have starting : startingProgress campaign dir force = none := by
      rw [startingProgress, skips, raises]
      rfl
    rw [ops, starting]
    exact ⟨[], rfl, Or.inl rfl, nofun⟩
  have kept : progress.completedSegments =
      (loadProgress campaign dir force).completedSegments := by
    rcases reconcileCheckpoint_cases reconciled with ⟨rfl, -⟩ | ⟨found, -, -, -, rfl, -⟩
    all_goals rfl
  have recovers : recovery = [] ∨ ∃ progress, recovery = [.recoverProgress progress] ∧
      progress.completedSegments = (loadProgress campaign dir force).completedSegments := by
    rcases reconcileCheckpoint_cases reconciled with ⟨-, rfl⟩ | ⟨found, -, -, -, -, rfl⟩
    · exact Or.inl rfl
    · exact Or.inr ⟨progress, rfl, kept⟩
  refine ⟨recovery, ?_, recovers, ?_⟩
  all_goals rw [startingProgress_of_reconciled skips reconciled]
  · rcases runs with ⟨invalid, ops⟩ | ⟨range, ops⟩
    · rw [ops, if_pos invalid]
      exact (List.append_nil recovery).symm
    · have valid := not_or.mpr ⟨not_lt.mpr range.1, not_lt.mpr range.2⟩
      rw [ops, if_neg valid]
      exact List.append_assoc _ _ _
  · intro other starts
    split_ifs at starts
    · cases starts
    · cases starts
      exact kept

/-- What an invocation does to `coverage.csv` is what its loop does. -/
theorem runOne_coverage (dir : RunDir) (force : Bool) (outcomes : List Outcome) :
    applyAll FileOp.coverageAfter (runOne campaign dir force outcomes).operations dir.coverage =
      match startingProgress campaign dir force with
      | none => dir.coverage
      | some progress => applyAll FileOp.coverageAfter
          (segmentLoop campaign dir.coverage.isNone progress outcomes).operations
          dir.coverage := by
  rcases @runOne_operations campaign dir force outcomes with ⟨recovery, ops, recovers, -⟩
  have unchanged : applyAll FileOp.coverageAfter recovery dir.coverage = dir.coverage := by
    rcases recovers with rfl | ⟨progress, rfl, -⟩
    all_goals rfl
  rw [ops, applyAll_append, unchanged]
  cases startingProgress campaign dir force with
  | none => rfl
  | some progress =>
      dsimp only
      rw [applyAll_append, startUp_coverage]

/-- The file holds the rows of the completed segments. -/
def Filed (target : FuzzTarget) (state : CurveState) : Prop :=
  state.dir.coverage = curveFile (state.history.filterMap (CompletedSegment.row? target))

theorem Filed.invoke {state : CurveState} (filed : Filed target state)
    (segments : List FuzzSegment) : Filed target (invoke target campaign state segments) := by
  unfold Filed Experiments.invoke
  dsimp only
  rw [applyAll_coverage, runOne_coverage]
  cases startingProgress campaign state.dir false with
  | none =>
      rw [List.append_nil]
      exact filed
  | some progress =>
      dsimp only
      rw [List.filterMap_append, filed]
      exact segmentLoop_curveFile progress segments _

theorem filed_invokeAll (calls : List (List FuzzSegment)) :
    Filed target (invokeAll target campaign calls) := by
  unfold invokeAll
  apply List.foldlRecOn
  · rfl
  · exact fun state filed segments _ => filed.invoke segments

theorem invokeAll_rows (calls : List (List FuzzSegment)) :
    (invokeAll target campaign calls).dir.rows =
      some ((invokeAll target campaign calls).history.filterMap
        (CompletedSegment.row? target)) := by
  rw [RunDir.rows, filed_invokeAll]
  exact coverageRows_curveFile _

end Rows

section Recorded

variable {target : FuzzTarget} {campaign : Campaign}

/-- The segments that a stored progress records. -/
def recordedSegments (stored : Option Progress) : List SegmentRecord :=
  (stored.map Progress.completedSegments).getD []

theorem loadProgress_completedSegments (dir : RunDir) :
    (loadProgress campaign dir false).completedSegments = recordedSegments dir.progress := by
  unfold loadProgress recordedSegments
  cases dir.progress <;> rfl

theorem segmentLoop_recorded {newFile : Bool} {progress : Progress} (segments : List FuzzSegment)
    {stored : Option Progress} (recorded : recordedSegments stored = progress.completedSegments) :
    (recordedSegments (applyAll FileOp.progressAfter (segmentLoop campaign newFile progress
        (segments.map (FuzzSegment.outcome target))).operations stored)).map SegmentRecord.finish =
      progress.completedSegments.map SegmentRecord.finish ++
        (loopCompleted campaign progress segments).map CompletedSegment.elapsedSeconds := by
  induction segments generalizing newFile progress stored with
  | nil =>
      rw [segmentLoop_keeps_progress, recorded, loopCompleted, List.map_nil, List.append_nil]
      rintro ⟨-, outcome, head, -⟩
      cases head
  | cons segment rest inductionHypothesis =>
      rw [loopCompleted, List.map_cons]
      split_ifs with commits
      · rw [segmentLoop_cons_progress _ commits.1 commits.2, inductionHypothesis rfl]
        simp only [completeSegment, List.map_append, List.map_cons, List.map_nil, List.append_assoc]
        rfl
      · rw [segmentLoop_keeps_progress, recorded, List.map_nil, List.append_nil]
        rintro ⟨unfinished, first, head, returned⟩
        cases head
        exact commits ⟨unfinished, returned⟩

/-- The history is what `progress.json` records. -/
def Recorded (state : CurveState) : Prop :=
  state.dir.segments.map SegmentRecord.finish =
    state.history.map CompletedSegment.elapsedSeconds

theorem Recorded.invoke {state : CurveState} (recorded : Recorded state)
    (segments : List FuzzSegment) : Recorded (invoke target campaign state segments) := by
  unfold Recorded Experiments.invoke
  change (recordedSegments (applyAll FileOp.apply _ state.dir).progress).map _ = _
  change (recordedSegments state.dir.progress).map _ = _ at recorded
  rw [applyAll_progress, List.map_append, ← recorded]
  rcases @runOne_operations campaign state.dir false
    (segments.map (FuzzSegment.outcome target)) with ⟨recovery, ops, recovers, starts⟩
  rw [loadProgress_completedSegments] at recovers starts
  have kept : recordedSegments (applyAll FileOp.progressAfter recovery state.dir.progress) =
      recordedSegments state.dir.progress := by
    rcases recovers with rfl | ⟨progress, rfl, same⟩
    · rfl
    · exact same
  rw [ops, applyAll_append]
  cases starting : startingProgress campaign state.dir false with
  | none =>
      dsimp only
      rw [List.map_nil, List.append_nil, ← kept]
      rfl
  | some progress =>
      have same := starts progress starting
      dsimp only
      rw [applyAll_append, startUp_progress, ← same]
      exact segmentLoop_recorded segments (kept.trans same.symm)

theorem recorded_invokeAll (calls : List (List FuzzSegment)) :
    Recorded (invokeAll target campaign calls) := by
  unfold invokeAll
  apply List.foldlRecOn
  · rfl
  · exact fun state recorded segments _ => recorded.invoke segments

end Recorded

section Curve

variable {target : FuzzTarget}

/-- A row is right exactly when the last line of its segment counted everything
covered up to then: it cannot have counted anything else. -/
theorem row_cumulative_iff {history : List CompletedSegment} {completed : CompletedSegment}
    (member : completed ∈ history) {seen : Finset Nat}
    (logged : seen ∈ completed.segment.lastLogged target) :
    (seen.card : Int) = (coveredUpTo target history completed.elapsedSeconds).card ↔
      coveredUpTo target history completed.elapsedSeconds ⊆ seen := by
  have inside : seen ⊆ coveredUpTo target history completed.elapsedSeconds :=
    (FuzzSegment.lastLogged_subset logged).trans (covered_subset_coveredUpTo member)
  constructor
  · intro counted
    have counted := Int.ofNat.inj counted
    exact (Finset.eq_of_subset_of_card_le inside counted.ge).ge
  · intro everything
    rw [inside.antisymm everything]

theorem mem_curve {history : List CompletedSegment} {row : CoverageRow} :
    row ∈ history.filterMap (CompletedSegment.row? target) ↔
      ∃ completed ∈ history, ∃ seen ∈ completed.segment.lastLogged target,
        row = ⟨completed.elapsedSeconds, seen.card, completed.segment.edges.getD 0⟩ := by
  rw [List.mem_filterMap]
  constructor
  · rintro ⟨completed, member, isRow⟩
    rcases Option.map_eq_some_iff.mp isRow with ⟨seen, logged, rfl⟩
    exact ⟨completed, member, seen, logged, rfl⟩
  · rintro ⟨completed, member, seen, logged, rfl⟩
    exact ⟨completed, member, Option.map_eq_some_iff.mpr ⟨seen, logged, rfl⟩⟩

/-- Where every process covers again, every row counts what was covered by then. -/
theorem CoversAgain.cgNodes_eq {state : CurveState}
    (again : CoversAgain target state.history)
    (written : state.dir.rows = some (state.history.filterMap (CompletedSegment.row? target)))
    {rows : List CoverageRow} (read : state.dir.rows = some rows) {row : CoverageRow}
    (member : row ∈ rows) :
    row.cgNodes = (coveredUpTo target state.history row.elapsedSeconds).card := by
  cases read.symm.trans written
  rcases mem_curve.mp member with ⟨completed, isCompleted, seen, logged, rfl⟩
  exact (row_cumulative_iff isCompleted logged).mpr (again completed isCompleted seen logged)

theorem CoversAgain.cumulative {state : CurveState} (again : CoversAgain target state.history)
    (written : state.dir.rows = some (state.history.filterMap (CompletedSegment.row? target))) :
    Cumulative target state := by
  refine ⟨_, written, fun row member => again.cgNodes_eq written written member, ?_⟩
  intro first isFirst second isSecond order
  rw [again.cgNodes_eq written written isFirst, again.cgNodes_eq written written isSecond]
  exact Int.ofNat_le.mpr (Finset.card_le_card (coveredUpTo_mono order))

/-- The rows of a campaign are cumulative exactly when every process that logged
had covered again whatever was covered up to the end of its segment. -/
theorem cumulative_iff_coversAgain (target : FuzzTarget) (campaign : Campaign)
    (calls : List (List FuzzSegment)) :
    Cumulative target (invokeAll target campaign calls) ↔
      CoversAgain target (invokeAll target campaign calls).history := by
  constructor
  · rintro ⟨rows, read, counts, -⟩
    cases read.symm.trans (invokeAll_rows calls)
    intro completed member seen logged
    have counted := counts _ (mem_curve.mpr ⟨completed, member, seen, logged, rfl⟩)
    exact (row_cumulative_iff member logged).mp counted
  · exact fun again => again.cumulative (invokeAll_rows calls)

/-- `load_rows`, which sorts the rows by time. -/
def loadRows (rows : List CoverageRow) : List CoverageRow :=
  rows.mergeSort fun first second => first.elapsedSeconds ≤ second.elapsedSeconds

/-- `at_checkpoint`; `none` where it raises. -/
def atCheckpoint (rows : List CoverageRow) (checkpoint : Int) : Option CoverageRow :=
  (rows.filter fun row => row.elapsedSeconds ≤ checkpoint).getLast?

theorem loadRows_sorted (rows : List CoverageRow) :
    (loadRows rows).Pairwise fun first second =>
      first.elapsedSeconds ≤ second.elapsedSeconds := by
  have sorted := @List.pairwise_mergeSort CoverageRow
    (fun first second => first.elapsedSeconds ≤ second.elapsedSeconds) ?_ ?_ rows
  · exact sorted.imp of_decide_eq_true
  · intro first second third earlier later
    exact decide_eq_true ((of_decide_eq_true earlier).trans (of_decide_eq_true later))
  · intro first second
    rw [Bool.or_eq_true, decide_eq_true_iff, decide_eq_true_iff]
    exact le_total _ _

/-- On a cumulative curve the row that is taken for a checkpoint has the largest
count up to then. -/
theorem Cumulative.atCheckpoint {state : CurveState} (cumulative : Cumulative target state)
    {rows : List CoverageRow} (read : state.dir.rows = some rows) {checkpoint : Int}
    {row : CoverageRow} (taken : Experiments.atCheckpoint (loadRows rows) checkpoint = some row)
    {other : CoverageRow} (member : other ∈ rows) (early : other.elapsedSeconds ≤ checkpoint) :
    other.cgNodes ≤ row.cgNodes := by
  rcases cumulative with ⟨_, same, -, ordered⟩
  cases read.symm.trans same
  rcases List.getLast?_eq_some_iff.mp taken with ⟨before, eligible⟩
  have loaded : ∀ found ∈ before ++ [row], found ∈ rows := by
    intro found inside
    rw [← eligible] at inside
    exact List.mem_mergeSort.mp (List.mem_filter.mp inside).1
  have isEligible : other ∈ before ++ [row] := by
    rw [← eligible]
    exact List.mem_filter.mpr ⟨List.mem_mergeSort.mpr member, decide_eq_true early⟩
  rcases List.mem_append.mp isEligible with earlier | last
  · have sorted := (loadRows_sorted rows).filter fun row => row.elapsedSeconds ≤ checkpoint
    rw [eligible] at sorted
    apply ordered other member row (loaded row (List.mem_append_right _ List.mem_cons_self))
    exact (List.pairwise_append.mp sorted).2.2 other earlier row List.mem_cons_self
  · rw [List.mem_singleton.mp last]

/-- What the summary takes for a checkpoint of such a campaign counts everything
covered by the time of its row, and no row up to the checkpoint counts more. -/
theorem CoversAgain.atCheckpoint {campaign : Campaign} {calls : List (List FuzzSegment)}
    (again : CoversAgain target (invokeAll target campaign calls).history) {rows : List CoverageRow}
    (read : (invokeAll target campaign calls).dir.rows = some rows) {checkpoint : Int}
    {row : CoverageRow} (taken : Experiments.atCheckpoint (loadRows rows) checkpoint = some row) :
    row.cgNodes =
        (coveredUpTo target (invokeAll target campaign calls).history row.elapsedSeconds).card ∧
      ∀ other ∈ rows, other.elapsedSeconds ≤ checkpoint → other.cgNodes ≤ row.cgNodes := by
  have cumulative := again.cumulative (invokeAll_rows calls)
  refine ⟨again.cgNodes_eq (invokeAll_rows calls) read ?_, ?_⟩
  · have eligible := List.mem_of_getLast? taken
    exact List.mem_mergeSort.mp (List.mem_filter.mp eligible).1
  · exact fun other member early => cumulative.atCheckpoint read taken member early

end Curve

/-- `main` and `parse`, which `twoFunctions` keys by their addresses. -/
def twoFunctionsTarget : FuzzTarget := ⟨twoFunctions, fun _ => none⟩

/-- A process that calls some functions, reads both nodes and logs. -/
def callingSegment (callees : List UInt64) : FuzzSegment where
  actions := callees.map (FuzzAction.fcovRecord 0x401005) ++
    [.getCoveredFuncs, .readNode, .readNode, .logCoverage 1]
  checkpoint := none
  edges := none
  returncode := 0

/-- The second segment does not reach what the first one covered. -/
theorem secondSegment_forgets :
    ¬ ∀ (target : FuzzTarget) (campaign : Campaign) (calls : List (List FuzzSegment)),
      Cumulative target (invokeAll target campaign calls) := by
  intro claimed
  rcases claimed twoFunctionsTarget ⟨2, 1⟩
    [[callingSegment [0x401000, 0x402000], callingSegment [0x401000]]] with
    ⟨rows, read, -, ordered⟩
  have written : (invokeAll twoFunctionsTarget ⟨2, 1⟩
      [[callingSegment [0x401000, 0x402000], callingSegment [0x401000]]]).dir.rows =
        some [⟨1, 2, 0⟩, ⟨2, 1, 0⟩] := by decide +kernel
  cases read.symm.trans written
  exact absurd (ordered ⟨1, 2, 0⟩ (by simp) ⟨2, 1, 0⟩ (by simp) (by decide)) (by decide)

end GraphDissect.Experiments
