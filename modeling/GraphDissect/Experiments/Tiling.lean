import GraphDissect.Experiments.Runner
import GraphDissect.Library.Tiling
import Mathlib

/-!
# Segments and recovered checkpoints tile the elapsed time

The elapsed time that `progress.json` records is cut into pieces: the completed
segments, and the intervals that a recovered checkpoint skipped.  A piece is
added at the end, where the last one stopped, by a segment that returned 0 and
by `reconcile_checkpoint`, and by nothing else, whatever fails and wherever the
runner is killed.
-/

namespace GraphDissect.Experiments

open Library

/-- A completed segment, or an interval skipped by a recovered checkpoint. -/
inductive Piece where
  | ran (record : SegmentRecord)
  | skipped (start stop : Int)

namespace Piece

def start : Piece → Int
  | ran record => record.elapsedOffset
  | skipped start _ => start

def stop : Piece → Int
  | ran record => record.finish
  | skipped _ stop => stop

def segment? : Piece → Option SegmentRecord
  | ran record => some record
  | skipped _ _ => none

/-- The elapsed time to which a checkpoint skipped. -/
def recovered? : Piece → Option Int
  | ran _ => none
  | skipped _ stop => some stop

end Piece

/-- The completed segments and the intervals skipped by the recovered
checkpoints, in some order of interleaving, are exactly the time accounted for. -/
structure Progress.Tiled (campaign : Campaign) (progress : Progress) : Prop where
  tiles : ∃ pieces, Tiles Piece.start Piece.stop 0 pieces progress.completedSeconds ∧
    pieces.filterMap Piece.segment? = progress.completedSegments ∧
    pieces.filterMap Piece.recovered? = progress.recoveredCheckpoints
  bounded : ∀ record ∈ progress.completedSegments,
    0 < record.durationSeconds ∧ record.durationSeconds ≤ campaign.segmentSeconds
  inside : progress.completedSeconds ≤ campaign.durationSeconds

theorem Progress.Tiled.nonneg {campaign : Campaign} {progress : Progress}
    (tiled : progress.Tiled campaign) : 0 ≤ progress.completedSeconds := by
  rcases tiled.tiles with ⟨pieces, tiles, -, -⟩
  exact tiles.le

theorem Progress.Tiled.pairwise {campaign : Campaign} {progress : Progress}
    (tiled : progress.Tiled campaign) :
    progress.completedSegments.Pairwise fun first second =>
      first.finish ≤ second.elapsedOffset := by
  rcases tiled.tiles with ⟨pieces, tiles, segments, -⟩
  rw [← segments]
  refine tiles.pairwise.filterMap _ ?_
  intro first second apart record recordOf other otherOf
  cases first <;> cases recordOf
  cases second <;> cases otherOf
  exact apart

theorem Progress.Tiled.within {campaign : Campaign} {progress : Progress}
    (tiled : progress.Tiled campaign) {record : SegmentRecord}
    (member : record ∈ progress.completedSegments) :
    0 ≤ record.elapsedOffset ∧ record.finish ≤ campaign.durationSeconds := by
  rcases tiled.tiles with ⟨pieces, tiles, segments, -⟩
  rw [← segments] at member
  rcases List.mem_filterMap.mp member with ⟨piece, pieceIn, recordOf⟩
  cases piece <;> cases recordOf
  rcases tiles.within pieceIn with ⟨above, below⟩
  exact ⟨above, below.trans tiled.inside⟩

theorem freshProgress_tiled {campaign : Campaign} (nonneg : 0 ≤ campaign.durationSeconds) :
    (freshProgress campaign).Tiled campaign where
  tiles := ⟨[], rfl, rfl, rfl⟩
  bounded := by
    intro record member
    cases member
  inside := nonneg

section Extension

variable {campaign : Campaign} {progress : Progress}

theorem completeSegment_tiled (positive : 0 < campaign.segmentSeconds)
    (tiled : progress.Tiled campaign)
    (unfinished : progress.completedSeconds < campaign.durationSeconds) :
    (completeSegment campaign progress).Tiled campaign := by
  have length : 0 < (segmentRecord campaign progress).durationSeconds := by
    simp only [segmentRecord]
    omega
  rcases tiled.tiles with ⟨pieces, tiles, segments, recovered⟩
  constructor
  · refine ⟨pieces ++ [.ran { segmentRecord campaign progress with returncode := some 0 }], ?_, ?_, ?_⟩
    · apply tiles.snoc
      · rfl
      · simp only [Piece.start, Piece.stop, SegmentRecord.finish]
        omega
    · rw [List.filterMap_append, segments]
      rfl
    · rw [List.filterMap_append, recovered]
      exact List.append_nil _
  · intro record member
    rcases List.mem_append.mp member with earlier | last
    · exact tiled.bounded record earlier
    · cases List.mem_singleton.mp last
      exact ⟨length, min_le_left _ _⟩
  · simp only [completeSegment, SegmentRecord.finish, segmentRecord]
    omega

theorem recovered_tiled {committed : Int} (tiled : progress.Tiled campaign)
    (ahead : progress.completedSeconds < committed)
    (inside : committed ≤ campaign.durationSeconds) :
    Progress.Tiled campaign { progress with
      completedSeconds := committed
      recoveredCheckpoints := progress.recoveredCheckpoints ++ [committed] } := by
  rcases tiled.tiles with ⟨pieces, tiles, segments, recovered⟩
  refine ⟨⟨pieces ++ [.skipped progress.completedSeconds committed], ?_, ?_, ?_⟩, tiled.bounded, inside⟩
  · exact tiles.snoc rfl ahead
  · rw [List.filterMap_append, segments]
    exact List.append_nil _
  · rw [List.filterMap_append, recovered]
    rfl

end Extension

/-- What holds of the run directory before and after every file operation. -/
structure Sound (campaign : Campaign) (dir : RunDir) : Prop where
  tiled : ∀ progress, dir.progress = some progress → progress.Tiled campaign
  finished : ∀ completed, dir.status = some (.complete completed) →
    completed = campaign.durationSeconds ∧
      (dir.progress.getD (freshProgress campaign)).completedSeconds = campaign.durationSeconds

/-- The directory during an invocation: `progress` is what a restart would load. -/
structure Underway (campaign : Campaign) (progress : Progress) (dir : RunDir) : Prop where
  tiled : progress.Tiled campaign
  recorded : dir.progress.getD (freshProgress campaign) = progress
  incomplete : ∀ completed, dir.status ≠ some (.complete completed)

namespace Underway

variable {campaign : Campaign} {progress : Progress} {dir : RunDir}

theorem sound (underway : Underway campaign progress dir) : Sound campaign dir where
  tiled := by
    intro stored file
    have same := underway.recorded
    rw [file] at same
    cases same
    exact underway.tiled
  finished := by
    intro completed file
    exact absurd file (underway.incomplete completed)

theorem congr {other : RunDir} (underway : Underway campaign progress dir)
    (sameProgress : other.progress = dir.progress)
    (incomplete : ∀ completed, other.status ≠ some (.complete completed)) :
    Underway campaign progress other where
  tiled := underway.tiled
  recorded := by rw [sameProgress, underway.recorded]
  incomplete := incomplete

theorem completes (underway : Underway campaign progress dir)
    (done : ¬ progress.completedSeconds < campaign.durationSeconds) :
    Sound campaign (FileOp.apply (.writeStatus (.complete progress.completedSeconds)) dir) where
  tiled := underway.sound.tiled
  finished := by
    intro completed file
    cases file
    have full : progress.completedSeconds = campaign.durationSeconds :=
      le_antisymm underway.tiled.inside (not_lt.mp done)
    refine ⟨full, ?_⟩
    rw [← full, ← underway.recorded]
    rfl

theorem replace {next : Progress} (underway : Underway campaign progress dir)
    (tiled : next.Tiled campaign) : Underway campaign next { dir with progress := some next } where
  tiled := tiled
  recorded := rfl
  incomplete := underway.incomplete

theorem writeStatus (underway : Underway campaign progress dir) {status : Status}
    (incomplete : status.isComplete = false) :
    Underway campaign progress (FileOp.apply (.writeStatus status) dir) := by
  refine underway.congr ?_ ?_
  · rfl
  · intro completed file
    cases file
    cases incomplete

theorem runSegment {record : SegmentRecord} {checkpoint : Option Checkpoint} {op : FileOp}
    (member : op ∈ runSegment record checkpoint) (underway : Underway campaign progress dir) :
    Underway campaign progress (op.apply dir) := by
  rcases mem_runSegment member with rfl | rfl | ⟨committed, rfl⟩
  all_goals exact underway.congr rfl underway.incomplete

theorem appendCoverage {newFile : Bool} {elapsed : Int} {outcome : Outcome} {op : FileOp}
    (member : op ∈ appendCoverage newFile elapsed outcome)
    (underway : Underway campaign progress dir) :
    Underway campaign progress (op.apply dir) := by
  rcases mem_appendCoverage member with rfl | ⟨lines, rfl⟩
  all_goals exact underway.congr rfl underway.incomplete

theorem frame (underway : Underway campaign progress dir) {first second : List FileOp}
    (keeps : ∀ op ∈ first, ∀ dir, Underway campaign progress dir →
      Underway campaign progress (op.apply dir))
    (later : ∀ dir, Underway campaign progress dir →
      Throughout FileOp.apply (fun dir _ => Sound campaign dir) dir second) :
    Throughout FileOp.apply (fun dir _ => Sound campaign dir) dir (first ++ second) :=
  throughout_frame keeps (fun _ _ _ _ underway => underway.sound) underway later

theorem loopRule_sound (positive : 0 < campaign.segmentSeconds) :
    LoopRule campaign FileOp.apply (fun dir _ => Sound campaign dir)
      (fun progress _ => Underway campaign progress) (fun progress _ => Underway campaign progress)
      (fun _ => True) where
  completes := fun underway done => ⟨underway.sound, underway.completes done⟩
  segment := fun underway later => underway.frame (fun _ member _ => runSegment member) later
  waits := fun underway => underway.sound
  fails := by
    intro progress _ dir record returncode underway
    have recorded : Underway campaign progress (FileOp.apply (.writeFailedSegment record) dir) :=
      underway.congr rfl underway.incomplete
    exact ⟨underway.sound, recorded.sound, (recorded.writeStatus rfl).sound⟩
  commits := by
    intro progress newFile dir outcome rest underway unfinished _ later
    apply underway.frame fun op member dir => appendCoverage member
    intro dir underway
    have committed := underway.replace (completeSegment_tiled positive underway.tiled unfinished)
    refine ⟨underway.sound, committed.sound, later _ ?_⟩
    exact committed.congr rfl committed.incomplete

/-- From the end of `reconcile_checkpoint` on. -/
theorem starts (positive : 0 < campaign.segmentSeconds) (outcomes : List Outcome) (newFile : Bool)
    (underway : Underway campaign progress dir) :
    Throughout FileOp.apply (fun dir _ => Sound campaign dir) dir
      (progress.startUp ++
        (segmentLoop campaign newFile progress outcomes).operations) := by
  unfold Progress.startUp
  rw [List.append_assoc]
  apply underway.frame
  · intro op member dir underway
    split_ifs at member
    · cases List.mem_singleton.mp member
      exact underway
    · cases member
  · intro dir underway
    refine ⟨underway.sound, ?_⟩
    exact (loopRule_sound positive).segmentLoop (fun _ _ _ => trivial) (underway.writeStatus rfl)

end Underway

section Load

variable {campaign : Campaign} {dir : RunDir}
  (stored : ∀ progress, dir.progress = some progress → progress.Tiled campaign) (force : Bool)

include stored

theorem loadProgress_tiled (nonneg : 0 ≤ campaign.durationSeconds) :
    (loadProgress campaign dir force).Tiled campaign := by
  unfold loadProgress
  cases force with
  | true => exact freshProgress_tiled nonneg
  | false =>
      cases file : dir.progress with
      | none => exact freshProgress_tiled nonneg
      | some progress => exact stored progress file

theorem loadProgress_nonneg : 0 ≤ (loadProgress campaign dir force).completedSeconds := by
  unfold loadProgress
  cases force with
  | true => exact le_rfl
  | false =>
      cases file : dir.progress with
      | none => exact le_rfl
      | some progress => exact (stored progress file).nonneg

end Load

/-- An invocation without `--force`. -/
theorem runOne_sound {campaign : Campaign} (positive : 0 < campaign.segmentSeconds)
    {dir : RunDir} (sound : Sound campaign dir) (outcomes : List Outcome) :
    Throughout FileOp.apply (fun dir _ => Sound campaign dir) dir
      (runOne campaign dir false outcomes).operations := by
  have underway (skips : dir.skips false = false) (inside : 0 ≤ campaign.durationSeconds) :
      Underway campaign (loadProgress campaign dir false) dir := by
    refine ⟨loadProgress_tiled sound.tiled false inside, rfl, ?_⟩
    intro completed file
    simp [RunDir.skips, file, Status.isComplete] at skips
  apply runOne_throughout sound
  · rintro progress rfl skips - nonneg inside
    exact (underway skips (nonneg.trans inside)).starts positive outcomes dir.coverage.isNone
  · intro found progress _ skips ahead inside next _
    have nonneg := loadProgress_nonneg sound.tiled false
    have tiled := recovered_tiled (underway skips (by omega)).tiled ahead inside
    have recovered := (underway skips (by omega)).replace tiled
    rw [← next] at recovered
    exact ⟨fun _ => sound, recovered.sound, fun _ => recovered.starts positive outcomes _⟩

/-- The loop of an invocation returns: each segment is at least one second long. -/
theorem segmentLoop_returns {campaign : Campaign} (positive : 0 < campaign.segmentSeconds)
    (outcomes : List Outcome) (newFile : Bool) (progress : Progress)
    (enough : (campaign.durationSeconds - progress.completedSeconds).toNat ≤ outcomes.length) :
    (segmentLoop campaign newFile progress outcomes).result ≠ .waiting := by
  induction outcomes generalizing newFile progress with
  | nil =>
      unfold segmentLoop
      split_ifs with unfinished
      · simp only [List.length_nil] at enough
        omega
      · intro waits
        cases waits
  | cons outcome rest inductionHypothesis =>
      unfold segmentLoop
      split_ifs with unfinished failed
      · intro waits
        cases waits
      · apply inductionHypothesis
        simp only [List.length_cons] at enough
        simp only [completeSegment, SegmentRecord.finish, segmentRecord]
        omega
      · intro waits
        cases waits

theorem runOne_returns {campaign : Campaign} (positive : 0 < campaign.segmentSeconds)
    (dir : RunDir) (force : Bool) (outcomes : List Outcome)
    (enough : campaign.durationSeconds.toNat ≤ outcomes.length) :
    (runOne campaign dir force outcomes).result ≠ .waiting := by
  rcases runOne_cases campaign dir force outcomes with
    ⟨-, returns⟩ | ⟨-, ⟨-, returns⟩ | ⟨progress, recovery, -, ⟨-, returns⟩ | ⟨range, returns⟩⟩⟩
  all_goals rw [returns]
  · intro waits
    cases waits
  · intro waits
    cases waits
  · intro waits
    cases waits
  · apply segmentLoop_returns positive
    omega

theorem sound_initial (campaign : Campaign) : Sound campaign RunDir.empty where
  tiled := by
    intro progress file
    cases file
  finished := by
    intro completed file
    cases file

theorem sound_of_reached {campaign : Campaign} (positive : 0 < campaign.segmentSeconds)
    {actions : List RunnerAction}
    (unforced : ∀ call, .call call ∈ actions → call.force = false) {final : RunnerState}
    (reached : runFrom (runnerStep campaign) .initial actions = some final) :
    Sound campaign final.disk := by
  have along : Along (runnerStep campaign) (fun _ action => ∀ call, action = .call call →
      call.force = false) .initial actions := by
    apply along_of_forall
    rintro action member state call rfl
    exact unforced call member
  have start : Throughout FileOp.apply (fun dir _ => Sound campaign dir)
      RunnerState.initial.disk RunnerState.initial.pending := sound_initial campaign
  refine Throughout.here (Along.throughout ?_ ?_ ?_ along start reached)
  · intro s call sound idle unforced
    rw [unforced call rfl]
    exact runOne_sound positive sound.here call.outcomes
  · exact fun s throughout _ => throughout.here
  · intro s checkpoint throughout _
    apply throughout_commitCheckpoint _ checkpoint throughout
    rintro dir other ops ⟨checkpoint, rfl⟩ sound
    exact ⟨sound.tiled, sound.finished⟩

/-- Every `progress.json` of every run, with segments that fail, invocations
that are killed and checkpoints that are committed at any point. -/
theorem completedSegments_tile {campaign : Campaign} (positive : 0 < campaign.segmentSeconds)
    {actions : List RunnerAction}
    (unforced : ∀ call, .call call ∈ actions → call.force = false) {final : RunnerState}
    (reached : runFrom (runnerStep campaign) .initial actions = some final) :
    (∀ progress, final.disk.progress = some progress →
      (∃ pieces, Tiles Piece.start Piece.stop 0 pieces progress.completedSeconds ∧
        pieces.filterMap Piece.segment? = progress.completedSegments ∧
        pieces.filterMap Piece.recovered? = progress.recoveredCheckpoints) ∧
      progress.completedSegments.Pairwise
        (fun first second => first.finish ≤ second.elapsedOffset) ∧
      ∀ record ∈ progress.completedSegments,
        0 ≤ record.elapsedOffset ∧ record.finish ≤ campaign.durationSeconds ∧
        0 < record.durationSeconds ∧ record.durationSeconds ≤ campaign.segmentSeconds) ∧
    (∀ completed, final.disk.status = some (.complete completed) →
      completed = campaign.durationSeconds ∧
      (final.disk.progress.getD (freshProgress campaign)).completedSeconds =
        campaign.durationSeconds) ∧
    ∀ outcomes, campaign.durationSeconds.toNat ≤ outcomes.length →
      (runOne campaign final.disk false outcomes).result ≠ .waiting := by
  have sound := sound_of_reached positive unforced reached
  refine ⟨?_, sound.finished, ?_⟩
  · intro progress file
    have tiled := sound.tiled progress file
    refine ⟨tiled.tiles, tiled.pairwise, ?_⟩
    intro record member
    exact ⟨(tiled.within member).1, (tiled.within member).2, tiled.bounded record member⟩
  · exact fun outcomes enough => runOne_returns positive final.disk false outcomes enough

def shutdownCampaign : Campaign := ⟨5, 2⟩

/-- The second segment commits its checkpoint and the runner is killed before
it records the segment; the third fails once. -/
def shutdownRun : List RunnerAction :=
  List.flatten
    [[.call ⟨false, [loggingOutcome (some 2) 0, loggingOutcome (some 4) 0]⟩],
      List.replicate 12 .operate, [.kill],
      [.call ⟨false, [loggingOutcome none 75]⟩], List.replicate 6 .operate,
      [.call ⟨false, [loggingOutcome none 0]⟩], List.replicate 8 .operate]

def shutdownDir : RunDir where
  status := some (.complete 5)
  progress := some ⟨5, [⟨1, 0, 2, some 0⟩, ⟨2, 4, 1, some 0⟩], [4], 5⟩
  coverage := some [.header, .row ⟨2, 7, 3⟩, .row ⟨5, 7, 3⟩]
  checkpoint := some ⟨some 4⟩
  currentSegment := none
  lastFailedSegment := some ⟨2, 4, 1, some 75⟩

theorem shutdownRun_tiles :
    runFrom (runnerStep shutdownCampaign) .initial shutdownRun = some ⟨shutdownDir, []⟩ ∧
      ∃ pieces, Tiles Piece.start Piece.stop 0 pieces 5 ∧
        pieces.filterMap Piece.segment? = [⟨1, 0, 2, some 0⟩, ⟨2, 4, 1, some 0⟩] ∧
        pieces.filterMap Piece.recovered? = [4] := by
  have reached : runFrom (runnerStep shutdownCampaign) .initial shutdownRun =
      some ⟨shutdownDir, []⟩ := by decide +kernel
  have positive : 0 < shutdownCampaign.segmentSeconds := by decide
  have unforced : ∀ call, .call call ∈ shutdownRun → call.force = false := by
    intro call member
    simp [shutdownRun] at member
    rcases member with rfl | rfl | rfl
    all_goals rfl
  have tiles := (completedSegments_tile positive unforced reached).1 _ rfl
  exact ⟨reached, tiles.1⟩

end GraphDissect.Experiments
