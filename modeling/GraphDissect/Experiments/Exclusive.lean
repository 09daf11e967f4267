import GraphDissect.Experiments.Lock
import GraphDissect.Experiments.Plan
import Mathlib

/-!
# Concurrent runners and the benchmark directory

The lock of `run_one` lies in the run directory, which has the experiment, the
condition and the trial in its path.  MFuzz writes into the benchmark directory,
which has none of them: all trials of a subject share it.  The lock keeps two
runners out of one run directory.  Out of one benchmark directory they are kept
only by whoever starts them.
-/

namespace GraphDissect.Experiments

open Library

variable {Proc Host : Type} [DecidableEq Proc] [DecidableEq Host]

/-- Runner processes with one `--output`, and the site they run at. -/
structure Fleet (Proc Host : Type) where
  host : Proc → Host
  recoverForeign : Proc → Bool
  output : PosixPath
  site : Site

def Fleet.runners (fleet : Fleet Proc Host) : Runners Proc Host Run PosixPath where
  host := fleet.host
  recoverForeign := fleet.recoverForeign
  lockPath run := (run.runDirectory fleet.output).join ".lock".toList

def Fleet.benchmark (fleet : Fleet Proc Host) (run : Run) : PosixPath :=
  run.benchmarkDirectory fleet.site.root fleet.site.resolve

abbrev FleetState (Proc : Type) := LockState Proc Run PosixPath

/-- The condition on an action: no runner starts on a benchmark directory on
which another is at work for a different run directory, and the lock is used
with care. -/
def Scheduled (fleet : Fleet Proc Host) (s : FleetState Proc) (action : LockAction Proc Run) :
    Prop :=
  Careful fleet.runners s action ∧
    match action with
    | .attempt proc run =>
        ∀ other, other ≠ proc → s.alive other = true → ∀ task ∈ (s.control other).job,
          fleet.benchmark task = fleet.benchmark run →
            fleet.runners.lockPath task = fleet.runners.lockPath run
    | _ => True

instance [Fintype Proc] (fleet : Fleet Proc Host) (s : FleetState Proc)
    (action : LockAction Proc Run) : Decidable (Scheduled fleet s action) := by
  unfold Scheduled
  cases action <;> infer_instance

/-- Live runners on one benchmark directory want the same lock. -/
def Separated (fleet : Fleet Proc Host) (s : FleetState Proc) : Prop :=
  ∀ proc other run task, proc ≠ other → s.alive proc = true → s.alive other = true →
    (s.control proc).job = some run → (s.control other).job = some task →
    fleet.benchmark run = fleet.benchmark task →
      fleet.runners.lockPath run = fleet.runners.lockPath task

theorem separated_step {fleet : Fleet Proc Host} {s next : FleetState Proc}
    {action : LockAction Proc Run} (separated : Separated fleet s)
    (scheduled : Scheduled fleet s action) (taken : s.step fleet.runners action = some next) :
    Separated fleet next := by
  cases action with
  | attempt proc run =>
      simp only [LockState.step] at taken
      split at taken
      · cases taken
        have moved : ∀ other task, ((s.move proc (if (s.files (fleet.runners.lockPath run)).isSome
            then .reading run else .creating run)).control other).job = some task →
            other = proc ∧ task = run ∨ other ≠ proc ∧ (s.control other).job = some task := by
          intro other task about
          by_cases same : other = proc
          · subst same
            rw [show (s.move other _).control other = _ from Function.update_self _ _ _] at about
            refine Or.inl ⟨rfl, ?_⟩
            split_ifs at about <;> exact (Option.some.inj about).symm
          · rw [show (s.move proc _).control other = _ from Function.update_of_ne same _ _] at about
            exact Or.inr ⟨same, about⟩
        intro first second firstRun secondRun different firstAlive secondAlive firstJob secondJob shared
        rcases moved first firstRun firstJob with ⟨rfl, rfl⟩ | ⟨-, firstBefore⟩
        · rcases moved second secondRun secondJob with ⟨rfl, rfl⟩ | ⟨apart, secondBefore⟩
          · exact absurd rfl different
          · exact (scheduled.2 second apart secondAlive secondRun secondBefore shared.symm).symm
        · rcases moved second secondRun secondJob with ⟨rfl, rfl⟩ | ⟨-, secondBefore⟩
          · exact scheduled.2 first different firstAlive firstRun firstBefore shared
          · exact separated first second firstRun secondRun different firstAlive secondAlive
              firstBefore secondBefore shared
      · cases taken
  | advance proc =>
      simp only [LockState.step] at taken
      split_ifs at taken
      rcases LockState.advance_job taken with ⟨alive, jobs⟩
      intro first second firstRun secondRun different firstAlive secondAlive firstJob secondJob
      rw [alive] at firstAlive secondAlive
      exact separated first second firstRun secondRun different firstAlive secondAlive
        (jobs first firstRun firstJob) (jobs second secondRun secondJob)
  | exit proc =>
      cases taken
      have living : ∀ other, Function.update s.alive proc false other = true →
          s.alive other = true := by
        intro other alive
        by_cases same : other = proc
        · subst same
          simp at alive
        · exact (Function.update_of_ne same _ _).symm.trans alive
      intro first second firstRun secondRun different firstAlive secondAlive
      exact separated first second firstRun secondRun different (living first firstAlive)
        (living second secondAlive)

/-- In every state of a scheduled run, no two live runners are between acquiring
their lock and releasing it with the same benchmark directory. -/
theorem benchmark_exclusive {fleet : Fleet Proc Host} {start : FleetState Proc}
    (idle : ∀ proc, start.control proc = .idle) {actions : List (LockAction Proc Run)}
    (scheduled : Along (LockState.step fleet.runners) (Scheduled fleet) start actions)
    {final : FleetState Proc}
    (reached : runFrom (LockState.step fleet.runners) start actions = some final)
    {proc other : Proc} {run task : Run} {inode file : Inode Proc}
    (alive : final.alive proc = true) (otherAlive : final.alive other = true)
    (holds : final.control proc = .holding run inode)
    (otherHolds : final.control other = .holding task file)
    (shared : fleet.benchmark run = fleet.benchmark task) : proc = other := by
  have invariant : Guarded fleet.runners final ∧ Separated fleet final := by
    refine @Along.invariant _ _ _ _ (fun s => Guarded fleet.runners s ∧ Separated fleet s) ?_
      _ _ _ scheduled ⟨guarded_of_idle idle fleet.runners, ?_⟩ reached
    · rintro s action next ⟨guarded, separated⟩ scheduled taken
      exact ⟨guarded.step scheduled.1 taken, separated_step separated scheduled taken⟩
    · intro proc other run task _ _ _ about
      rw [idle] at about
      cases about
  rcases invariant with ⟨guarded, separated⟩
  by_contra different
  have job : (final.control proc).job = some run := by rw [holds]; rfl
  have otherJob : (final.control other).job = some task := by rw [otherHolds]; rfl
  have claim : (final.control proc).claim = some (run, inode) := by rw [holds]; rfl
  have otherClaim : (final.control other).claim = some (task, file) := by rw [otherHolds]; rfl
  have samePath := separated proc other run task different alive otherAlive job otherJob shared
  exact different (guarded.claim_unique alive otherAlive claim otherClaim samePath)

/-- Two processes at a site without symbolic links. -/
def pairFleet : Fleet Bool Unit where
  host _ := ()
  recoverForeign _ := false
  output := .parse "/r/experiment-results".toList
  site := ⟨.parse "/r".toList, id, .parse "/r/mfuzz/build/mfuzz".toList⟩

def unlocked : FleetState Bool where
  files _ := none
  control _ := .idle
  alive _ := true
  serial := 0

/-- Each of two processes acquires the lock of its run. -/
def acquireBoth (first second : Run) : List (LockAction Bool Run) :=
  [.attempt false first, .attempt true second, .advance false, .advance true,
    .advance false, .advance true]

theorem differentSubjects_exclusive :
    ∃ final, runFrom (LockState.step pairFleet.runners) unlocked
        (acquireBoth (queueTrial "git" 1) (queueTrial "upx" 1)) = some final ∧
      final.control false = .holding (queueTrial "git" 1) ⟨false, 0⟩ ∧
      ∀ other task file, final.alive other = true → final.control other = .holding task file →
        pairFleet.benchmark (queueTrial "git" 1) = pairFleet.benchmark task → false = other := by
  have scheduled : Along (LockState.step pairFleet.runners) (Scheduled pairFleet) unlocked
      (acquireBoth (queueTrial "git" 1) (queueTrial "upx" 1)) := by decide +kernel
  have holds : (runFrom (LockState.step pairFleet.runners) unlocked
      (acquireBoth (queueTrial "git" 1) (queueTrial "upx" 1))).map
        (fun final => (final.alive false, final.control false)) =
          some (true, .holding (queueTrial "git" 1) ⟨false, 0⟩) := by decide +kernel
  rcases Option.map_eq_some_iff.mp holds with ⟨final, reached, observed⟩
  rcases Prod.mk.inj observed with ⟨alive, holding⟩
  refine ⟨final, reached, holding, ?_⟩
  intro other task file otherAlive otherHolding shared
  exact benchmark_exclusive (fun _ => rfl) scheduled reached alive otherAlive holding otherHolding
    shared

/-- Two trials of one subject run at the same time. -/
theorem twoTrials_shared :
    ¬ ∀ (start : FleetState Bool) (actions : List (LockAction Bool Run)) (final : FleetState Bool)
        (proc other : Bool) (run task : Run) (inode file : Inode Bool),
      (∀ proc, start.control proc = .idle) → (∀ path, start.files path = none) →
      runFrom (LockState.step pairFleet.runners) start actions = some final →
      final.alive proc = true → final.alive other = true →
      final.control proc = .holding run inode → final.control other = .holding task file →
      pairFleet.benchmark run = pairFleet.benchmark task → proc = other := by
  intro claimed
  have holds : (runFrom (LockState.step pairFleet.runners) unlocked
      (acquireBoth (queueTrial "git" 1) (queueTrial "git" 2))).map
        (fun final => ((final.alive false, final.alive true),
          (final.control false, final.control true))) =
      some ((true, true), (.holding (queueTrial "git" 1) ⟨false, 0⟩,
        .holding (queueTrial "git" 2) ⟨true, 1⟩)) := by decide +kernel
  rcases Option.map_eq_some_iff.mp holds with ⟨final, reached, observed⟩
  simp only [Prod.mk.injEq] at observed
  rcases observed with ⟨⟨alive, otherAlive⟩, holding, otherHolding⟩
  have same := claimed unlocked _ final false true _ _ _ _ (fun _ => rfl) (fun _ => rfl) reached
    alive otherAlive holding otherHolding rfl
  cases same

end GraphDissect.Experiments
