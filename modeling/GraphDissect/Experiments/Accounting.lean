import GraphDissect.Library.MapM
import GraphDissect.Experiments.Tiling
import Mathlib

/-!
# One coverage row for each completed segment

A completed segment is recorded twice: `append_coverage` adds its row to
`coverage.csv` and then `progress.json` is replaced.  A runner killed between
the two leaves a row whose segment will be run again.  A row is also missing
when a segment leaves no coverage log, the header is missing when the runner
is killed between the creation of the file and its first write, and a forced
invocation appends to the rows of the campaign it discards.  Without these the
rows and the segments agree whenever the status is complete.
-/

namespace GraphDissect.Experiments

open Library

def CsvLine.row? : CsvLine → Option CoverageRow
  | .header => none
  | .row fields => some fields

/-- The rows as a `csv.DictReader` finds them, which takes the field names from
the first line. -/
def coverageRows : List CsvLine → Option (List CoverageRow)
  | [] => some []
  | .header :: lines => lines.mapM CsvLine.row?
  | .row _ :: _ => none

namespace RunDir

def rows (dir : RunDir) : Option (List CoverageRow) :=
  coverageRows (dir.coverage.getD [])

def segments (dir : RunDir) : List SegmentRecord :=
  (dir.progress.map Progress.completedSegments).getD []

/-- Exactly one row for each completed segment, at its end, in increasing order. -/
def Accounted (dir : RunDir) : Prop :=
  ∃ rows, dir.rows = some rows ∧
    rows.map CoverageRow.elapsedSeconds = dir.segments.map SegmentRecord.finish ∧
    (rows.map CoverageRow.elapsedSeconds).Pairwise (· < ·)

end RunDir

/-- What `coverage.csv` holds between two segments: nothing, or the header and
the rows of the segments. -/
def Matches : Option (List CsvLine) → List SegmentRecord → Prop
  | none, segments => segments = []
  | some lines, segments => ∃ rows : List CoverageRow, rows ≠ [] ∧
      lines = .header :: rows.map CsvLine.row ∧
      rows.map CoverageRow.elapsedSeconds = segments.map SegmentRecord.finish

theorem coverageRows_header (rows : List CoverageRow) :
    coverageRows (.header :: rows.map CsvLine.row) = some rows := by
  have read := @mapM_map_eq_some _ _ _ rows CsvLine.row CsvLine.row? id fun _ _ => rfl
  rwa [List.map_id] at read

theorem Matches.rows {dir : RunDir} (same : Matches dir.coverage dir.segments) :
    ∃ rows, dir.rows = some rows ∧
      rows.map CoverageRow.elapsedSeconds = dir.segments.map SegmentRecord.finish := by
  unfold RunDir.rows
  cases file : dir.coverage with
  | none =>
      rw [file] at same
      rw [show dir.segments = [] from same]
      exact ⟨[], rfl, rfl⟩
  | some lines =>
      rw [file] at same
      rcases same with ⟨rows, -, rfl, times⟩
      exact ⟨rows, coverageRows_header rows, times⟩

theorem Matches.append {coverage : Option (List CsvLine)} {segments : List SegmentRecord}
    (same : Matches coverage segments) {row : CoverageRow} {record : SegmentRecord}
    (time : row.elapsedSeconds = record.finish) :
    Matches (some (coverage.getD [] ++
      if coverage.isNone then [.header, .row row] else [.row row])) (segments ++ [record]) := by
  cases coverage with
  | none =>
      rw [show segments = [] from same]
      exact ⟨[row], List.cons_ne_nil _ _, rfl, by simp [time]⟩
  | some lines =>
      rcases same with ⟨rows, nonempty, rfl, times⟩
      refine ⟨rows ++ [row], by simp, by simp, ?_⟩
      rw [List.map_append, List.map_append, times]
      simp [time]

theorem Progress.Tiled.increasing {campaign : Campaign} {progress : Progress}
    (tiled : progress.Tiled campaign) :
    (progress.completedSegments.map SegmentRecord.finish).Pairwise (· < ·) := by
  rw [List.pairwise_map]
  refine tiled.pairwise.imp_of_mem ?_
  intro first second _ member apart
  have length := (tiled.bounded second member).1
  unfold SegmentRecord.finish at apart ⊢
  omega

/-- The row of a segment is on disk and its progress is not, or the file has
just been created and is still without its header. -/
def Uncommitted (dir : RunDir) : List FileOp → Prop
  | .commitProgress _ :: _ => True
  | .writeCoverage _ :: _ => dir.coverage = some []
  | _ => False

instance (dir : RunDir) (ops : List FileOp) : Decidable (Uncommitted dir ops) := by
  unfold Uncommitted
  split <;> infer_instance

/-- What holds before and after every file operation. -/
structure Balanced (campaign : Campaign) (dir : RunDir) (ops : List FileOp) : Prop where
  tiled : ∀ progress, dir.progress = some progress → progress.Tiled campaign
  agrees : Matches dir.coverage dir.segments ∨
    Uncommitted dir ops ∧ ∀ completed, dir.status ≠ some (.complete completed)

theorem Balanced.accounted {campaign : Campaign} {dir : RunDir} {ops : List FileOp}
    (balanced : Balanced campaign dir ops) {completed : Int}
    (complete : dir.status = some (.complete completed)) : dir.Accounted := by
  have agrees := balanced.agrees.resolve_right fun pending => pending.2 completed complete
  rcases agrees.rows with ⟨rows, read, times⟩
  refine ⟨rows, read, times, ?_⟩
  rw [times]
  unfold RunDir.segments
  cases file : dir.progress with
  | none => exact List.Pairwise.nil
  | some progress => exact (balanced.tiled progress file).increasing

/-- The directory when an invocation goes on from `progress`. -/
structure Loaded (campaign : Campaign) (progress : Progress) (newFile : Bool)
    (dir : RunDir) : Prop where
  tiled : progress.Tiled campaign
  stored : ∀ progress, dir.progress = some progress → progress.Tiled campaign
  segments : dir.segments = progress.completedSegments
  agrees : Matches dir.coverage progress.completedSegments
  fresh : newFile = dir.coverage.isNone

/-- The directory from the write of the running status on. -/
structure Recording (campaign : Campaign) (progress : Progress) (newFile : Bool)
    (dir : RunDir) : Prop extends Loaded campaign progress newFile dir where
  incomplete : ∀ completed, dir.status ≠ some (.complete completed)

theorem Loaded.balanced {campaign : Campaign} {progress : Progress} {newFile : Bool} {dir : RunDir}
    (loaded : Loaded campaign progress newFile dir) (ops : List FileOp) :
    Balanced campaign dir ops where
  tiled := loaded.stored
  agrees := by
    rw [loaded.segments]
    exact Or.inl loaded.agrees

theorem Loaded.writeStatus {campaign : Campaign} {progress : Progress} {newFile : Bool}
    {dir : RunDir} (loaded : Loaded campaign progress newFile dir) (status : Status) :
    Loaded campaign progress newFile (FileOp.apply (.writeStatus status) dir) :=
  ⟨loaded.tiled, loaded.stored, loaded.segments, loaded.agrees, loaded.fresh⟩

theorem Loaded.records {campaign : Campaign} {progress : Progress} {newFile : Bool}
    {dir : RunDir} (loaded : Loaded campaign progress newFile dir) {status : Status}
    (incomplete : status.isComplete = false) :
    Recording campaign progress newFile (FileOp.apply (.writeStatus status) dir) := by
  refine ⟨loaded.writeStatus status, ?_⟩
  intro completed file
  cases file
  cases incomplete

namespace Recording

variable {campaign : Campaign} {progress : Progress} {newFile : Bool} {dir : RunDir}

theorem congr {other : RunDir} (recording : Recording campaign progress newFile dir)
    (sameProgress : other.progress = dir.progress) (sameCoverage : other.coverage = dir.coverage)
    (incomplete : ∀ completed, other.status ≠ some (.complete completed)) :
    Recording campaign progress newFile other where
  tiled := recording.tiled
  stored := by rw [sameProgress]; exact recording.stored
  segments := by rw [← recording.segments, RunDir.segments, RunDir.segments, sameProgress]
  agrees := by rw [sameCoverage]; exact recording.agrees
  fresh := by rw [sameCoverage]; exact recording.fresh
  incomplete := incomplete

theorem runSegment {record : SegmentRecord} {checkpoint : Option Checkpoint} {op : FileOp}
    (member : op ∈ runSegment record checkpoint)
    (recording : Recording campaign progress newFile dir) :
    Recording campaign progress newFile (op.apply dir) := by
  rcases mem_runSegment member with rfl | rfl | ⟨committed, rfl⟩
  all_goals exact recording.congr rfl rfl recording.incomplete

theorem frame (recording : Recording campaign progress newFile dir) {first second : List FileOp}
    (keeps : ∀ op ∈ first, ∀ dir, Recording campaign progress newFile dir →
      Recording campaign progress newFile (op.apply dir))
    (later : ∀ dir, Recording campaign progress newFile dir →
      Throughout FileOp.apply (Balanced campaign) dir second) :
    Throughout FileOp.apply (Balanced campaign) dir (first ++ second) :=
  throughout_frame keeps (fun _ _ _ _ recording => recording.balanced _) recording later

theorem opened (recording : Recording campaign progress newFile dir) (lines : List CsvLine)
    (rest : List FileOp) :
    Balanced campaign (FileOp.apply .openCoverage dir) (.writeCoverage lines :: rest) := by
  refine ⟨recording.stored, ?_⟩
  cases file : dir.coverage with
  | none => exact Or.inr ⟨by simp [Uncommitted, FileOp.apply, file], recording.incomplete⟩
  | some lines =>
      have kept : Recording campaign progress newFile (FileOp.apply .openCoverage dir) :=
        recording.congr rfl (by simp [FileOp.apply, file]) recording.incomplete
      exact (kept.balanced _).agrees

theorem committed (positive : 0 < campaign.segmentSeconds)
    (recording : Recording campaign progress newFile dir)
    (unfinished : progress.completedSeconds < campaign.durationSeconds) (nodes edges : Int) :
    Recording campaign (completeSegment campaign progress) false
      { dir with
        progress := some (completeSegment campaign progress)
        coverage := some (dir.coverage.getD [] ++
          let row := .row ⟨(segmentRecord campaign progress).finish, nodes, edges⟩
          if dir.coverage.isNone then [.header, row] else [row]) } where
  tiled := completeSegment_tiled positive recording.tiled unfinished
  stored := by
    intro stored file
    cases file
    exact completeSegment_tiled positive recording.tiled unfinished
  segments := rfl
  agrees := recording.agrees.append rfl
  fresh := rfl
  incomplete := recording.incomplete

theorem commits (positive : 0 < campaign.segmentSeconds)
    (recording : Recording campaign progress newFile dir)
    (unfinished : progress.completedSeconds < campaign.durationSeconds) {outcome : Outcome}
    (logged : outcome.lastLine.isSome) {rest : List FileOp}
    (later : ∀ dir, Recording campaign (completeSegment campaign progress) false dir →
      Throughout FileOp.apply (Balanced campaign) dir rest) :
    Throughout FileOp.apply (Balanced campaign) dir
      (appendCoverage newFile (segmentRecord campaign progress).finish outcome ++
        (.commitProgress (completeSegment campaign progress) :: .removeCurrentSegment :: rest)) := by
  rcases Option.isSome_iff_exists.mp logged with ⟨line, last⟩
  have committed := recording.committed positive unfinished line.covered (outcome.edges.getD 0)
  unfold appendCoverage
  rw [last, recording.fresh]
  refine ⟨recording.balanced _, recording.opened _ _, ⟨recording.stored, ?_⟩, ?_, ?_⟩
  · exact Or.inr ⟨trivial, recording.incomplete⟩
  · exact committed.balanced _
  · exact later _ (committed.congr rfl rfl recording.incomplete)

theorem loopRule_balanced (positive : 0 < campaign.segmentSeconds) :
    LoopRule campaign FileOp.apply (Balanced campaign) (Recording campaign) (Recording campaign)
      (fun outcome => outcome.lastLine.isSome) where
  completes := fun recording _ => ⟨recording.balanced _, (recording.writeStatus _).balanced []⟩
  segment := fun recording later => recording.frame (fun _ member _ => runSegment member) later
  waits := fun recording => recording.balanced []
  fails := by
    intro progress newFile dir record returncode recording
    have recorded : Recording campaign progress newFile
        (FileOp.apply (.writeFailedSegment record) dir) :=
      recording.congr rfl rfl recording.incomplete
    exact ⟨recording.balanced _, recorded.balanced _, (recorded.writeStatus _).balanced []⟩
  commits := by
    intro progress newFile dir outcome rest recording unfinished logged later
    rw [Option.isNone_eq_false_iff.mpr logged, Bool.and_false] at later
    exact recording.commits positive unfinished logged later

end Recording

theorem Loaded.starts {campaign : Campaign} {progress : Progress} {newFile : Bool} {dir : RunDir}
    (positive : 0 < campaign.segmentSeconds) {outcomes : List Outcome}
    (logged : ∀ outcome ∈ outcomes, outcome.returncode = 0 → outcome.lastLine.isSome)
    (loaded : Loaded campaign progress newFile dir) :
    Throughout FileOp.apply (Balanced campaign) dir
      (progress.startUp ++ (segmentLoop campaign newFile progress outcomes).operations) := by
  have running : Throughout FileOp.apply (Balanced campaign) dir (.writeStatus .running ::
      (segmentLoop campaign newFile progress outcomes).operations) :=
    ⟨loaded.balanced _, (Recording.loopRule_balanced positive).segmentLoop logged (loaded.records rfl)⟩
  unfold Progress.startUp
  split_ifs with cleans
  · exact ⟨loaded.balanced _, running⟩
  · exact running

theorem runOne_balanced {campaign : Campaign} (positive : 0 < campaign.segmentSeconds)
    {dir : RunDir} (balanced : Balanced campaign dir []) {force : Bool}
    (unrecorded : force = true → dir.coverage = none) {outcomes : List Outcome}
    (logged : ∀ outcome ∈ outcomes, outcome.returncode = 0 → outcome.lastLine.isSome) :
    Throughout FileOp.apply (Balanced campaign) dir
      (runOne campaign dir force outcomes).operations := by
  have agrees := balanced.agrees.resolve_right fun pending => pending.1
  have nonneg := loadProgress_nonneg balanced.tiled force
  have segments : dir.segments = (loadProgress campaign dir force).completedSegments := by
    cases force with
    | true =>
        rw [unrecorded rfl] at agrees
        exact agrees
    | false =>
        unfold RunDir.segments loadProgress
        cases dir.progress <;> rfl
  have loaded (inside : 0 ≤ campaign.durationSeconds) :
      Loaded campaign (loadProgress campaign dir force) dir.coverage.isNone dir :=
    ⟨loadProgress_tiled balanced.tiled force inside, balanced.tiled, segments, segments ▸ agrees, rfl⟩
  apply runOne_throughout balanced
  · rintro progress rfl - - nonneg inside
    exact (loaded (nonneg.trans inside)).starts positive logged
  · intro found progress _ _ ahead inside next _
    have tiled := recovered_tiled (loaded (by omega)).tiled ahead inside
    rw [← next] at tiled
    have recovered : Loaded campaign progress dir.coverage.isNone
        { dir with progress := some progress } := by
      refine ⟨tiled, ?_, rfl, ?_, rfl⟩
      · intro stored file
        cases file
        exact tiled
      · rw [next]
        exact (loaded (by omega)).agrees
    exact ⟨fun _ => (loaded (by omega)).balanced _, recovered.balanced _,
      fun _ => recovered.starts positive logged⟩

/-- The condition on an action: no kill between the row of a segment and its
progress, nor between the creation of `coverage.csv` and its header; a segment
that returns 0 leaves a coverage log; `--force` only where there is no
`coverage.csv`. -/
def Orderly (state : RunnerState) : RunnerAction → Prop
  | .call call =>
      (call.force = true → state.disk.coverage = none) ∧
      ∀ outcome ∈ call.outcomes, outcome.returncode = 0 → outcome.lastLine.isSome
  | .kill => ¬ Uncommitted state.disk state.pending
  | _ => True

instance (state : RunnerState) (action : RunnerAction) : Decidable (Orderly state action) := by
  unfold Orderly
  split <;> infer_instance

theorem balanced_initial (campaign : Campaign) : Balanced campaign RunDir.empty [] where
  tiled := by
    intro progress file
    cases file
  agrees := Or.inl rfl

/-- In every state of an orderly run, a complete status means that the rows and
the completed segments agree. -/
theorem accounted_of_orderly {campaign : Campaign} (positive : 0 < campaign.segmentSeconds)
    {actions : List RunnerAction}
    (orderly : Along (runnerStep campaign) Orderly .initial actions) {final : RunnerState}
    (reached : runFrom (runnerStep campaign) .initial actions = some final) {completed : Int}
    (complete : final.disk.status = some (.complete completed)) : final.disk.Accounted := by
  have start : Throughout FileOp.apply (Balanced campaign)
      RunnerState.initial.disk RunnerState.initial.pending := balanced_initial campaign
  have throughout : Throughout FileOp.apply (Balanced campaign) final.disk final.pending := by
    refine Along.throughout ?_ ?_ ?_ orderly start reached
    · intro s call balanced idle allowed
      exact runOne_balanced positive balanced.here allowed.1 allowed.2
    · intro s throughout committed
      have balanced := throughout.here
      exact ⟨balanced.tiled, Or.inl (balanced.agrees.resolve_right fun pending => committed pending.1)⟩
    · intro s checkpoint throughout _
      apply throughout_commitCheckpoint _ checkpoint throughout
      rintro dir other ops ⟨checkpoint, rfl⟩ balanced
      exact ⟨balanced.tiled, balanced.agrees⟩
  exact throughout.here.accounted complete

theorem shutdownRun_accounted :
    Along (runnerStep shutdownCampaign) Orderly .initial shutdownRun ∧
      runFrom (runnerStep shutdownCampaign) .initial shutdownRun = some ⟨shutdownDir, []⟩ ∧
      shutdownDir.Accounted := by
  have orderly : Along (runnerStep shutdownCampaign) Orderly .initial shutdownRun := by
    decide +kernel
  have reached : runFrom (runnerStep shutdownCampaign) .initial shutdownRun =
      some ⟨shutdownDir, []⟩ := by decide +kernel
  have positive : 0 < shutdownCampaign.segmentSeconds := by decide
  exact ⟨orderly, reached, accounted_of_orderly positive orderly reached rfl⟩

/-- The runner is killed between the row of the first segment and its progress,
and restarted. -/
def doubledRun : List RunnerAction :=
  List.flatten
    [[.call ⟨false, [loggingOutcome none 0, loggingOutcome none 0]⟩],
      List.replicate 6 .operate, [.kill],
      [.call ⟨false, [loggingOutcome none 0, loggingOutcome none 0]⟩],
      List.replicate 15 .operate]

def doubledDir : RunDir where
  status := some (.complete 2)
  progress := some ⟨2, [⟨1, 0, 1, some 0⟩, ⟨2, 1, 1, some 0⟩], [], 2⟩
  coverage := some [.header, .row ⟨1, 7, 3⟩, .row ⟨1, 7, 3⟩, .row ⟨2, 7, 3⟩]
  checkpoint := none
  currentSegment := none
  lastFailedSegment := none

/-- The restart writes the row of the first segment a second time. -/
theorem doubledRun_unaccounted :
    ¬ ∀ (campaign : Campaign) (actions : List RunnerAction) (final : RunnerState)
        (completed : Int),
      0 < campaign.segmentSeconds →
      runFrom (runnerStep campaign) .initial actions = some final →
      final.disk.status = some (.complete completed) → final.disk.Accounted := by
  intro claimed
  have reached : runFrom (runnerStep ⟨2, 1⟩) .initial doubledRun = some ⟨doubledDir, []⟩ := by
    decide +kernel
  rcases claimed ⟨2, 1⟩ doubledRun _ 2 (by decide) reached rfl with ⟨rows, read, times, -⟩
  have found : doubledDir.rows = some [⟨1, 7, 3⟩, ⟨1, 7, 3⟩, ⟨2, 7, 3⟩] := by decide +kernel
  cases found.symm.trans read
  revert times
  decide

end GraphDissect.Experiments
