import GraphDissect.Experiments.Runner
import Mathlib

/-!
# Whose runtime artifacts a resumed campaign finds

Progress belongs to the run directory of a campaign and the runtime artifacts
(`fuzz/`, `driver_runtimes/`, the logs) to the benchmark directory, which
several campaigns share.  `clean_runtime` is called only when a campaign starts
at zero.  A campaign that is interrupted and resumed after another one has
used its benchmark directory goes on with the artifacts of the other.

The model has any number of campaigns over any benchmark directories, invoked
one after the other.  The runtime of a benchmark directory is the list of the
segments that have written to it since it was last cleaned.
-/

namespace GraphDissect.Experiments

open Library

variable {Id Bench : Type} [DecidableEq Id] [DecidableEq Bench]

structure Plan (Id Bench : Type) where
  campaign : Id → Campaign
  benchmark : Id → Bench

structure PlanDisk (Id Bench : Type) where
  dirs : Id → RunDir
  runtime : Bench → List (Id × SegmentRecord)

/-- A file operation of the invocation of one campaign. -/
def PlanDisk.apply (plan : Plan Id Bench) (owner : Id) (op : FileOp) (disk : PlanDisk Id Bench) :
    PlanDisk Id Bench where
  dirs := Function.update disk.dirs owner (op.apply (disk.dirs owner))
  runtime :=
    let bench := plan.benchmark owner
    match op with
    | .cleanRuntime => Function.update disk.runtime bench []
    | .startSegment record =>
        Function.update disk.runtime bench (disk.runtime bench ++ [(owner, record)])
    | _ => disk.runtime

structure PlanCall (Id : Type) where
  owner : Id
  force : Bool
  outcomes : List Outcome

abbrev PlanState (Id Bench : Type) := Execution (PlanDisk Id Bench) (Id × FileOp)

abbrev PlanAction (Id : Type) := ExecutionAction (PlanCall Id) Empty

def PlanDisk.runOne (plan : Plan Id Bench) (disk : PlanDisk Id Bench) (call : PlanCall Id) :
    List (Id × FileOp) :=
  (Experiments.runOne (plan.campaign call.owner) (disk.dirs call.owner) call.force
    call.outcomes).operations.map fun op => (call.owner, op)

/-- Invocations of `run_one` on the campaigns of a plan, one at a time. -/
def planStep (plan : Plan Id Bench) :
    PlanState Id Bench → PlanAction Id → Option (PlanState Id Bench) :=
  executionStep (fun op => PlanDisk.apply plan op.1 op.2) (PlanDisk.runOne plan)
    (fun never => never.elim)

def PlanState.initial : PlanState Id Bench := ⟨⟨fun _ => RunDir.empty, fun _ => []⟩, []⟩

/-- The progress with which an invocation gets to its loop, if it does. -/
def startingProgress (campaign : Campaign) (dir : RunDir) (force : Bool) : Option Progress :=
  if dir.skips force then none
  else
    match reconcileCheckpoint campaign dir.checkpoint (loadProgress campaign dir force) with
    | none => none
    | some (progress, _) =>
        if progress.completedSeconds < 0 ∨ campaign.durationSeconds < progress.completedSeconds then
          none
        else some progress

/-- An invocation would go on with the runtime it finds. -/
def Resumes (campaign : Campaign) (dir : RunDir) : Prop :=
  ∃ progress ∈ startingProgress campaign dir false, progress.cleans = false

instance (campaign : Campaign) (dir : RunDir) : Decidable (Resumes campaign dir) :=
  inferInstanceAs (Decidable (∃ progress ∈ startingProgress campaign dir false, _))

/-- The runtime that a campaign finds was left by segments of its own. -/
def PlanDisk.Owned (plan : Plan Id Bench) (disk : PlanDisk Id Bench) (owner : Id) : Prop :=
  disk.runtime (plan.benchmark owner) ≠ [] ∧
    ∀ left ∈ disk.runtime (plan.benchmark owner), left.1 = owner

theorem not_resumes_complete {campaign : Campaign} {dir : RunDir} {completed : Int}
    (complete : dir.status = some (.complete completed)) : ¬ Resumes campaign dir := by
  rintro ⟨progress, starts, -⟩
  have skips : dir.skips false = true := by
    rw [RunDir.skips, complete]
    rfl
  rw [startingProgress, if_pos skips] at starts
  cases starts

/-- What holds before and after every file operation. -/
structure Attended (plan : Plan Id Bench) (disk : PlanDisk Id Bench)
    (ops : List (Id × FileOp)) : Prop where
  resumes : ∀ owner, Resumes (plan.campaign owner) (disk.dirs owner) → disk.Owned plan owner ∨
    disk.runtime (plan.benchmark owner) = [] ∧ ∃ op rest, ops = (owner, op) :: rest
  starts : ∀ owner record rest, ops = (owner, .startSegment record) :: rest →
    0 < record.elapsedOffset → disk.Owned plan owner

/-- The disk while `owner` runs: its benchmark directory is in nobody else's use. -/
structure Holding (plan : Plan Id Bench) (owner : Id) (progress : Progress)
    (disk : PlanDisk Id Bench) : Prop where
  others : ∀ other, other ≠ owner → plan.benchmark other = plan.benchmark owner →
    ¬ Resumes (plan.campaign other) (disk.dirs other)
  elsewhere : ∀ other, plan.benchmark other ≠ plan.benchmark owner →
    Resumes (plan.campaign other) (disk.dirs other) → disk.Owned plan other
  own : ∀ left ∈ disk.runtime (plan.benchmark owner), left.1 = owner
  begun : 0 < progress.completedSeconds → disk.runtime (plan.benchmark owner) ≠ []

namespace Holding

variable {plan : Plan Id Bench} {owner : Id} {progress : Progress} {disk : PlanDisk Id Bench}

omit [DecidableEq Id] in
theorem others_owned (holding : Holding plan owner progress disk) {other : Id}
    (different : other ≠ owner) (resumes : Resumes (plan.campaign other) (disk.dirs other)) :
    disk.Owned plan other := by
  by_cases shared : plan.benchmark other = plan.benchmark owner
  · exact absurd resumes (holding.others other different shared)
  · exact holding.elsewhere other shared resumes

theorem attended (holding : Holding plan owner progress disk) {op : FileOp} {rest : List FileOp}
    (record : ∀ record, op = .startSegment record →
      record.elapsedOffset = progress.completedSeconds) :
    Attended plan disk ((op :: rest).map (Prod.mk owner)) where
  resumes := by
    intro other resumes
    by_cases same : other = owner
    · subst same
      by_cases empty : disk.runtime (plan.benchmark other) = []
      · exact Or.inr ⟨empty, op, _, rfl⟩
      · exact Or.inl ⟨empty, holding.own⟩
    · exact Or.inl (holding.others_owned same resumes)
  starts := by
    intro other started rest head later
    cases head
    exact ⟨holding.begun (record started rfl ▸ later), holding.own⟩

/-- Once a segment has started, whatever comes next. -/
theorem attended_of_begun (holding : Holding plan owner progress disk)
    (begun : disk.runtime (plan.benchmark owner) ≠ []) (ops : List FileOp) :
    Attended plan disk (ops.map (Prod.mk owner)) where
  resumes := by
    intro other resumes
    left
    by_cases same : other = owner
    · subst same
      exact ⟨begun, holding.own⟩
    · exact holding.others_owned same resumes
  starts := by
    intro other started rest head later
    cases ops with
    | nil => cases head
    | cons op ops =>
        cases head
        exact ⟨begun, holding.own⟩

/-- The runtime changes only by what the owner's segments add. -/
theorem runtime_apply {op : FileOp} (keeps : op ≠ .cleanRuntime) :
    ∃ added, (∀ left ∈ added, left.1 = owner) ∧
      (disk.apply plan owner op).runtime = Function.update disk.runtime (plan.benchmark owner)
        (disk.runtime (plan.benchmark owner) ++ added) := by
  cases op with
  | cleanRuntime => exact absurd rfl keeps
  | startSegment record => exact ⟨[(owner, record)], by simp, rfl⟩
  | _ => exact ⟨[], by simp, by simp [PlanDisk.apply]⟩

theorem apply (holding : Holding plan owner progress disk) (op : FileOp)
    (keeps : op ≠ .cleanRuntime) : Holding plan owner progress (disk.apply plan owner op) := by
  rcases @runtime_apply _ _ _ _ plan owner disk op keeps with ⟨added, byOwner, runtime⟩
  have dirs : ∀ other, other ≠ owner → (disk.apply plan owner op).dirs other = disk.dirs other :=
    fun other different => Function.update_of_ne different _ _
  constructor
  · intro other different shared
    rw [dirs other different]
    exact holding.others other different shared
  · intro other apart resumes
    have different : other ≠ owner := fun same => apart (congrArg plan.benchmark same)
    rw [dirs other different] at resumes
    unfold PlanDisk.Owned
    rw [runtime, Function.update_of_ne apart]
    exact holding.elsewhere other apart resumes
  · rw [runtime, Function.update_self]
    intro left member
    rcases List.mem_append.mp member with earlier | new
    · exact holding.own left earlier
    · exact byOwner left new
  · rw [runtime, Function.update_self]
    intro later
    exact List.append_ne_nil_of_left_ne_nil (holding.begun later) added

end Holding

/-- `owner` runs and one of its segments has started. -/
structure Begun (plan : Plan Id Bench) (owner : Id) (progress : Progress)
    (disk : PlanDisk Id Bench) : Prop extends Holding plan owner progress disk where
  started : disk.runtime (plan.benchmark owner) ≠ []

namespace Begun

variable {plan : Plan Id Bench} {owner : Id} {progress : Progress} {disk : PlanDisk Id Bench}

theorem attended (begun : Begun plan owner progress disk) (ops : List FileOp) :
    Attended plan disk (ops.map (Prod.mk owner)) :=
  begun.attended_of_begun begun.started ops

theorem apply (begun : Begun plan owner progress disk) (op : FileOp) (keeps : op ≠ .cleanRuntime) :
    Begun plan owner progress (disk.apply plan owner op) := by
  refine ⟨begun.toHolding.apply op keeps, ?_⟩
  rcases @Holding.runtime_apply _ _ _ _ plan owner disk op keeps with ⟨added, -, runtime⟩
  rw [runtime, Function.update_self]
  exact List.append_ne_nil_of_left_ne_nil begun.started added

theorem frame (begun : Begun plan owner progress disk) {first second : List FileOp}
    (keeps : ∀ op ∈ first, op ≠ .cleanRuntime)
    (later : ∀ disk, Begun plan owner progress disk →
      Throughout (PlanDisk.apply plan owner)
        (fun disk ops => Attended plan disk (ops.map (Prod.mk owner))) disk second) :
    Throughout (PlanDisk.apply plan owner)
      (fun disk ops => Attended plan disk (ops.map (Prod.mk owner))) disk (first ++ second) :=
  throughout_frame (fun op member _ begun => begun.apply op (keeps op member))
    (fun _ _ _ _ begun => begun.attended _) begun later

theorem loopRule_attended (plan : Plan Id Bench) (owner : Id) :
    LoopRule (plan.campaign owner) (PlanDisk.apply plan owner)
      (fun disk ops => Attended plan disk (ops.map (Prod.mk owner)))
      (fun progress _ => Holding plan owner progress) (fun progress _ => Begun plan owner progress)
      (fun _ => True) where
  completes := by
    intro progress _ disk holding _
    refine ⟨holding.attended nofun, ?_, nofun⟩
    have kept := holding.apply (.writeStatus (.complete progress.completedSeconds)) nofun
    intro other resumes
    by_cases same : other = owner
    · subst same
      refine absurd resumes (@not_resumes_complete _ _ progress.completedSeconds ?_)
      simp [PlanDisk.apply, FileOp.apply]
    · exact Or.inl (kept.others_owned same resumes)
  segment := by
    intro progress _ disk checkpoint rest holding later
    have current := holding.apply
      (.writeCurrentSegment (segmentRecord (plan.campaign owner) progress)) nofun
    have started := current.apply
      (.startSegment (segmentRecord (plan.campaign owner) progress)) nofun
    have begun : Begun plan owner progress _ := ⟨started, by simp [PlanDisk.apply]⟩
    refine ⟨holding.attended nofun, current.attended ?_, ?_⟩
    · intro record same
      cases same
      rfl
    · apply begun.frame
      · intro op member
        cases checkpoint with
        | none => cases member
        | some committed =>
            cases List.mem_singleton.mp member
            exact nofun
      · exact later
  waits := fun begun => begun.attended []
  fails := by
    intro progress _ disk record returncode begun
    have recorded := begun.apply (.writeFailedSegment record) nofun
    exact ⟨begun.attended _, recorded.attended _,
      (recorded.apply (.writeStatus (.failed returncode progress.completedSeconds)) nofun).attended []⟩
  commits := by
    intro progress _ disk outcome rest begun _ _ later
    apply begun.frame
    · intro op member cleans
      rcases mem_appendCoverage member with rfl | ⟨lines, rfl⟩
      all_goals cases cleans
    · intro disk begun
      have committed := begun.apply (.commitProgress (completeSegment (plan.campaign owner) progress))
        nofun
      have removed := committed.apply .removeCurrentSegment nofun
      refine ⟨begun.attended _, committed.attended _, later _ ?_⟩
      exact ⟨removed.others, removed.elsewhere, removed.own, fun _ => removed.started⟩

end Begun

theorem startingProgress_of_reconciled {campaign : Campaign} {dir : RunDir} {force : Bool}
    (skips : dir.skips force = false) {progress : Progress} {recovery : List FileOp}
    (reconciled : reconcileCheckpoint campaign dir.checkpoint (loadProgress campaign dir force) =
      some (progress, recovery)) :
    startingProgress campaign dir force =
      if progress.completedSeconds < 0 ∨ campaign.durationSeconds < progress.completedSeconds then
        none
      else some progress := by
  unfold startingProgress
  rw [skips, reconciled]
  rfl

/-- The write of `reconcile_checkpoint` does not change what a restart would do. -/
theorem startingProgress_recovered {campaign : Campaign} {dir : RunDir}
    (skips : dir.skips false = false) {progress : Progress} {recovery : List FileOp}
    (reconciled : reconcileCheckpoint campaign dir.checkpoint (loadProgress campaign dir false) =
      some (progress, recovery)) :
    startingProgress campaign (FileOp.apply (.recoverProgress progress) dir) false =
      startingProgress campaign dir false := by
  rw [startingProgress_of_reconciled skips reconciled]
  exact @startingProgress_of_reconciled campaign (FileOp.apply (.recoverProgress progress) dir) false
    skips progress [] (reconcileCheckpoint_again reconciled)

/-- Between two invocations, whoever would resume finds a runtime of its own. -/
def Idle (plan : Plan Id Bench) (disk : PlanDisk Id Bench) : Prop :=
  ∀ owner, Resumes (plan.campaign owner) (disk.dirs owner) → disk.Owned plan owner

namespace Idle

variable {plan : Plan Id Bench} {owner : Id} {disk : PlanDisk Id Bench}

omit [DecidableEq Id] [DecidableEq Bench] in
theorem attended (idle : Idle plan disk) {op : FileOp} {rest : List FileOp}
    (unstarted : ∀ record, op ≠ .startSegment record) :
    Attended plan disk ((op :: rest).map (Prod.mk owner)) where
  resumes := fun other resumes => Or.inl (idle other resumes)
  starts := by
    intro other record rest head _
    cases head
    exact absurd rfl (unstarted record)

omit [DecidableEq Id] [DecidableEq Bench] in
theorem of_attended (attended : Attended plan disk []) : Idle plan disk := by
  intro owner resumes
  refine (attended.resumes owner resumes).resolve_right ?_
  rintro ⟨-, op, rest, none⟩
  cases none

/-- From the end of `reconcile_checkpoint` on. -/
theorem starts (idle : Idle plan disk) (newFile : Bool) {progress : Progress}
    (outcomes : List Outcome)
    (others : ∀ other, other ≠ owner → plan.benchmark other = plan.benchmark owner →
      ¬ Resumes (plan.campaign other) (disk.dirs other))
    (goesOn : progress.cleans = false → disk.Owned plan owner) :
    Throughout (PlanDisk.apply plan owner)
      (fun disk ops => Attended plan disk (ops.map (Prod.mk owner))) disk
      (progress.startUp ++
        (segmentLoop (plan.campaign owner) newFile progress outcomes).operations) := by
  have runs : ∀ disk, Holding plan owner progress disk →
      Throughout (PlanDisk.apply plan owner)
        (fun disk ops => Attended plan disk (ops.map (Prod.mk owner))) disk
        (.writeStatus .running ::
          (segmentLoop (plan.campaign owner) newFile progress outcomes).operations) := by
    intro disk holding
    refine ⟨holding.attended nofun, ?_⟩
    exact (Begun.loopRule_attended plan owner).segmentLoop (fun _ _ _ => trivial)
      (holding.apply (.writeStatus .running) nofun)
  unfold Progress.startUp
  cases cleans : progress.cleans with
  | false =>
      have owned := goesOn cleans
      exact runs disk ⟨others, fun other _ => idle other, owned.2, fun _ => owned.1⟩
  | true =>
      have dirs : (disk.apply plan owner .cleanRuntime).dirs = disk.dirs :=
        Function.update_eq_self _ _
      refine ⟨idle.attended nofun, runs _ ⟨?_, ?_, ?_, ?_⟩⟩
      · rw [dirs]
        exact others
      · intro other apart resumes
        rw [dirs] at resumes
        unfold PlanDisk.Owned
        rw [show (disk.apply plan owner .cleanRuntime).runtime (plan.benchmark other) = _ from
          Function.update_of_ne apart _ _]
        exact idle other resumes
      · simp [PlanDisk.apply]
      · intro later
        simp only [Progress.cleans, Bool.and_eq_true, beq_iff_eq] at cleans
        omega

/-- The write of `reconcile_checkpoint` in an invocation without `--force`. -/
theorem recover (idle : Idle plan disk) (skips : (disk.dirs owner).skips false = false)
    {progress : Progress} {recovery : List FileOp}
    (reconciled : reconcileCheckpoint (plan.campaign owner) (disk.dirs owner).checkpoint
      (loadProgress (plan.campaign owner) (disk.dirs owner) false) = some (progress, recovery)) :
    Idle plan (disk.apply plan owner (.recoverProgress progress)) := by
  intro other resumes
  by_cases same : other = owner
  · subst same
    rw [show (disk.apply plan other (.recoverProgress progress)).dirs other = _ from
      Function.update_self _ _ _, Resumes, startingProgress_recovered skips reconciled] at resumes
    exact idle other resumes
  · rw [show (disk.apply plan owner (.recoverProgress progress)).dirs other = _ from
      Function.update_of_ne same _ _] at resumes
    exact idle other resumes

end Idle

/-- The condition on an action.  An invocation that gets to its loop finds no
other campaign on its benchmark directory that could be resumed; a forced one
finds no checkpoint ahead of zero; the runner is not killed after it has
cleaned the runtime and before it starts a segment while its `progress.json`
still holds an unfinished campaign. -/
def Undisturbed (plan : Plan Id Bench) (state : PlanState Id Bench) : PlanAction Id → Prop
  | .call call =>
      let dir := state.disk.dirs call.owner
      (startingProgress (plan.campaign call.owner) dir call.force ≠ none →
        ∀ other, other ≠ call.owner → plan.benchmark other = plan.benchmark call.owner →
          ¬ Resumes (plan.campaign other) (state.disk.dirs other)) ∧
      (call.force = true → ∀ checkpoint ∈ dir.checkpoint, checkpoint.committed ≤ 0)
  | .kill =>
      match state.pending with
      | [] => True
      | (owner, _) :: _ =>
          state.disk.runtime (plan.benchmark owner) = [] →
            ¬ Resumes (plan.campaign owner) (state.disk.dirs owner)
  | _ => True

theorem runOne_attended {plan : Plan Id Bench} {state : PlanState Id Bench} {call : PlanCall Id}
    (idle : Idle plan state.disk) (undisturbed : Undisturbed plan state (.call call)) :
    Throughout (fun op => PlanDisk.apply plan op.1 op.2) (Attended plan) state.disk
      (state.disk.runOne plan call) := by
  rcases undisturbed with ⟨others, zero⟩
  have rest : ∀ disk, Idle plan disk → Attended plan disk [] :=
    fun disk idle => ⟨fun owner resumes => Or.inl (idle owner resumes), nofun⟩
  unfold PlanDisk.runOne
  rw [throughout_map]
  have valid {progress : Progress} (nonneg : 0 ≤ progress.completedSeconds)
      (inside : progress.completedSeconds ≤ (plan.campaign call.owner).durationSeconds) :=
    not_or.mpr ⟨not_lt.mpr nonneg, not_lt.mpr inside⟩
  apply runOne_throughout (rest _ idle)
  · rintro progress loaded skips reconciled nonneg inside
    rw [loaded] at reconciled
    have starting := startingProgress_of_reconciled skips reconciled
    rw [← loaded, if_neg (valid nonneg inside)] at starting
    apply idle.starts
    · apply others
      rw [starting]
      exact Option.some_ne_none _
    · intro cleans
      cases forced : call.force with
      | false =>
          rw [forced] at starting
          exact idle call.owner ⟨progress, starting, cleans⟩
      | true =>
          rw [loaded, forced] at cleans
          cases cleans
  · intro found progress present skips ahead inside next reconciled
    have starting := startingProgress_of_reconciled skips reconciled
    have unforced : call.force = false := by
      cases forced : call.force with
      | false => rfl
      | true =>
          have bound := zero forced found present
          rw [forced] at ahead
          exact absurd ahead (not_lt.mpr bound)
    have recovered : Idle plan (state.disk.apply plan call.owner (.recoverProgress progress)) := by
      rw [unforced] at skips reconciled
      exact idle.recover skips reconciled
    refine ⟨fun later => idle.attended nofun, rest _ recovered, fun nonneg => ?_⟩
    have within : progress.completedSeconds ≤ (plan.campaign call.owner).durationSeconds := by
      rw [next]
      exact inside
    rw [if_neg (valid nonneg within)] at starting
    refine recovered.starts _ _ ?_ ?_
    · intro other different shared
      rw [show (state.disk.apply plan call.owner (.recoverProgress progress)).dirs other = _ from
        Function.update_of_ne different _ _]
      apply others _ other different shared
      rw [starting]
      exact Option.some_ne_none _
    · intro cleans
      rw [unforced] at starting
      exact idle call.owner ⟨progress, starting, cleans⟩

omit [DecidableEq Id] [DecidableEq Bench] in
theorem attended_initial (plan : Plan Id Bench) : Attended plan PlanState.initial.disk [] where
  resumes := by
    rintro owner ⟨progress, starts, cleans⟩
    have starting : startingProgress (plan.campaign owner) RunDir.empty false =
        if _ then none else some (freshProgress (plan.campaign owner)) :=
      startingProgress_of_reconciled rfl rfl
    have starts := starting.symm.trans starts
    split_ifs at starts
    cases starts
    cases cleans
  starts := nofun

/-- In every state of an undisturbed run, a segment that starts after elapsed
time zero finds the runtime that segments of its own campaign left. -/
theorem owned_of_undisturbed {plan : Plan Id Bench} {actions : List (PlanAction Id)}
    (undisturbed : Along (planStep plan) (Undisturbed plan) .initial actions)
    {final : PlanState Id Bench}
    (reached : runFrom (planStep plan) .initial actions = some final)
    {owner : Id} {record : SegmentRecord} {rest : List (Id × FileOp)}
    (starts : final.pending = (owner, .startSegment record) :: rest)
    (later : 0 < record.elapsedOffset) : final.disk.Owned plan owner := by
  have start : Throughout (fun op => PlanDisk.apply plan op.1 op.2) (Attended plan)
      (PlanState.initial : PlanState Id Bench).disk [] := attended_initial plan
  have throughout := Along.throughout ?_ ?_ ?_ undisturbed start reached
  · exact throughout.here.starts owner record rest starts later
  · intro s call attended _ undisturbed
    exact runOne_attended (Idle.of_attended attended.here) undisturbed
  · intro s throughout undisturbed
    refine ⟨?_, nofun⟩
    intro owner resumes
    rcases throughout.here.resumes owner resumes with owned | ⟨empty, op, rest, pending⟩
    · exact Or.inl owned
    · simp only [Undisturbed, pending] at undisturbed
      exact absurd resumes (undisturbed empty)
  · exact fun s never => never.elim

instance [Fintype Id] (plan : Plan Id Bench) (state : PlanState Id Bench)
    (action : PlanAction Id) : Decidable (Undisturbed plan state action) := by
  unfold Undisturbed
  split
  · infer_instance
  · split <;> infer_instance
  · infer_instance

/-- Two campaigns on one benchmark directory. -/
def pairPlan : Plan Bool Unit := ⟨fun _ => ⟨2, 1⟩, fun _ => ()⟩

/-- The second segment of the first campaign fails and is resumed at once. -/
def resumedRun : List (PlanAction Bool) :=
  List.flatten
    [[.call ⟨false, false, [loggingOutcome none 0, loggingOutcome none 75]⟩],
      List.replicate 12 .operate,
      [.call ⟨false, false, [loggingOutcome none 0]⟩], List.replicate 2 .operate]

/-- The second campaign is run in between, as `main` does after a failure. -/
def overtakenRun : List (PlanAction Bool) :=
  List.flatten
    [[.call ⟨false, false, [loggingOutcome none 0, loggingOutcome none 75]⟩],
      List.replicate 12 .operate,
      [.call ⟨true, false, [loggingOutcome none 0, loggingOutcome none 0]⟩],
      List.replicate 15 .operate,
      [.call ⟨false, false, [loggingOutcome none 0]⟩], List.replicate 2 .operate]

def secondSegment : SegmentRecord := ⟨2, 1, 1, none⟩

theorem resumedRun_owned :
    Along (planStep pairPlan) (Undisturbed pairPlan) .initial resumedRun ∧
    ∃ final rest, runFrom (planStep pairPlan) .initial resumedRun = some final ∧
      final.pending = (false, .startSegment secondSegment) :: rest ∧
      final.disk.Owned pairPlan false := by
  have undisturbed : Along (planStep pairPlan) (Undisturbed pairPlan) .initial resumedRun := by
    decide +kernel
  have stops : (runFrom (planStep pairPlan) .initial resumedRun).map
      (fun final => final.pending.head?) =
        some (some (false, .startSegment secondSegment)) := by decide +kernel
  rcases Option.map_eq_some_iff.mp stops with ⟨final, reached, head⟩
  rcases List.head?_eq_some_iff.mp head with ⟨rest, starts⟩
  have later : 0 < secondSegment.elapsedOffset := by decide
  exact ⟨undisturbed, final, rest, reached, starts,
    owned_of_undisturbed undisturbed reached starts later⟩

/-- The first campaign is resumed on the runtime of the second. -/
theorem overtakenRun_disowned :
    ¬ ∀ (plan : Plan Bool Unit) (actions : List (PlanAction Bool)) (final : PlanState Bool Unit)
        (owner : Bool) (record : SegmentRecord) (rest : List (Bool × FileOp)),
      runFrom (planStep plan) .initial actions = some final →
      final.pending = (owner, .startSegment record) :: rest → 0 < record.elapsedOffset →
      final.disk.Owned plan owner := by
  intro claimed
  have stops : (runFrom (planStep pairPlan) .initial overtakenRun).map
      (fun final => (final.pending.head?, (final.disk.runtime ()).map Prod.fst)) =
        some (some (false, .startSegment secondSegment), [true, true]) := by decide +kernel
  rcases Option.map_eq_some_iff.mp stops with ⟨final, reached, observed⟩
  cases waiting : final.pending with
  | nil => simp [waiting] at observed
  | cons first rest =>
      simp only [waiting, List.head?_cons, Prod.mk.injEq, Option.some.injEq] at observed
      have owned := claimed pairPlan overtakenRun final false secondSegment rest reached
        (by rw [waiting, observed.1]) (by decide)
      have foreign : true ∈ (final.disk.runtime ()).map Prod.fst := by rw [observed.2]; decide
      rcases List.mem_map.mp foreign with ⟨left, member, isTrue⟩
      cases isTrue.symm.trans (owned.2 left member)

end GraphDissect.Experiments
