import GraphDissect.Experiments.Plan
import GraphDissect.Library.Runs
import Mathlib

/-!
# The tasks of the Slurm array

`emit_slurm_array.py` writes a script in which task `i` takes the run id from
line `i + 2` of the plan and starts `run_campaigns.py run --run-id`.  That
program expands the default matrix, keeps the runs with that id, and calls
`write_plan` with them before it runs them: it replaces `plan.csv` in the
results directory by a plan of one campaign.  When that is the plan of the
array, the lines of all later lookups are gone or belong to another campaign.

The script names the program relative to `parents[1]` of the emitter, which is
`tools` and not the repository, so `found` says whether a file is there at all.
-/

namespace GraphDissect.Experiments

open Library

variable {Task : Type}

/-- The files and arguments of an emitted array, and the default expansion that
its tasks compute.  `index` is the array index of a submitted task: an array
may be submitted again, and each submission is a task of its own. -/
structure SlurmArray (Task : Type) where
  site : Site
  emitter : PosixPath
  plan : PosixPath
  results : PosixPath
  defaults : List Run
  found : PosixPath → Bool
  valid : Run → Bool
  index : Task → Nat

namespace SlurmArray

/-- `{repo}/tools/experiments/run_campaigns.py` with `repo` as the emitter computes it. -/
def program (array : SlurmArray Task) : PosixPath :=
  array.emitter.parent.parent.join "tools/experiments/run_campaigns.py".toList

/-- The plan that `run` writes. -/
def rewritten (array : SlurmArray Task) : PosixPath := array.results.join "plan.csv".toList

end SlurmArray

/-- What a task does next. -/
inductive TaskControl where
  | waiting
  | resolved (runId : Text)
  | expanded (runs : List Run)
  | truncated (runs : List Run)
  | planned (runs : List Run)
  | running (runs : List Run)
  | exited
deriving DecidableEq

structure ArrayState (Task : Type) where
  files : PosixPath → Option Text
  control : Task → TaskControl
  executed : Task → List Run

section Steps

variable [DecidableEq Task]

namespace ArrayState

def move (s : ArrayState Task) (task : Task) (next : TaskControl) : ArrayState Task :=
  { s with control := Function.update s.control task next }

def put (s : ArrayState Task) (path : PosixPath) (text : Text) : ArrayState Task :=
  { s with files := Function.update s.files path (some text) }

/-- The run id that a lookup gives now; the lines of a missing file are none. -/
def lookup (s : ArrayState Task) (array : SlurmArray Task) (index : Nat) : Text :=
  resolveRunId ((s.files array.plan).getD []) index

/-- The next step of a task: the lookup, the start of the program, the opening
of `plan.csv` for writing, the write, the validation, and `run_one` on each run. -/
def step (array : SlurmArray Task) (s : ArrayState Task) (task : Task) :
    Option (ArrayState Task) :=
  match s.control task with
  | .waiting =>
      let runId := s.lookup array (array.index task)
      some (s.move task (if runId = [] then .exited else .resolved runId))
  | .resolved runId =>
      if array.found array.program then
        let runs := array.defaults.filter fun run => run.runId = runId
        some (s.move task (if runs = [] then .exited else .expanded runs))
      else some (s.move task .exited)
  | .expanded runs => some ((s.put array.rewritten []).move task (.truncated runs))
  | .truncated runs =>
      some ((s.put array.rewritten (planText array.site runs)).move task (.planned runs))
  | .planned runs =>
      some (s.move task (if runs.all array.valid then .running runs else .exited))
  | .running [] => some (s.move task .exited)
  | .running (run :: rest) =>
      some ({ s with executed := Function.update s.executed task (s.executed task ++ [run]) }.move
        task (.running rest))
  | .exited => none

end ArrayState

/-- The state after the `plan` action: the plan is written and no task has begun. -/
structure Submitted (array : SlurmArray Task) (runs : List Run) (s : ArrayState Task) : Prop where
  plan : s.files array.plan = some (planText array.site runs)
  waiting : ∀ task, s.control task = .waiting
  fresh : ∀ task, s.executed task = []

/-- What the array owes its plan in a state: index `i` denotes campaign `i`, no
task has executed anything but the campaign of its index, and a task that is
done has executed that campaign. -/
structure Stable (array : SlurmArray Task) (runs : List Run) (s : ArrayState Task) : Prop where
  denotes : ∀ index run, runs[index]? = some run → s.lookup array index = run.runId
  executes : ∀ task run, runs[array.index task]? = some run →
    s.executed task = [] ∨ s.executed task = [run]
  done : ∀ task run, runs[array.index task]? = some run → s.control task = .exited →
    s.executed task = [run]

/-- The conditions under which an array keeps to its plan. -/
structure Dependable (array : SlurmArray Task) (runs : List Run) : Prop where
  found : array.found array.program = true
  apart : array.rewritten ≠ array.plan
  plain : ∀ run ∈ runs, run.Plain
  single : ∀ run ∈ runs, array.defaults.filter (fun other => other.runId = run.runId) = [run]
  valid : ∀ run ∈ runs, array.valid run = true

/-- What a task that works on campaign `run` has done at each point. -/
def OnCourse (run : Run) : TaskControl → List Run → Prop
  | .waiting, executed => executed = []
  | .resolved runId, executed => runId = run.runId ∧ executed = []
  | .expanded runs, executed => runs = [run] ∧ executed = []
  | .truncated runs, executed => runs = [run] ∧ executed = []
  | .planned runs, executed => runs = [run] ∧ executed = []
  | .running runs, executed => runs = [run] ∧ executed = [] ∨ runs = [] ∧ executed = [run]
  | .exited, executed => executed = [run]

/-- The invariant. -/
structure Faithful (array : SlurmArray Task) (runs : List Run) (s : ArrayState Task) : Prop where
  plan : s.files array.plan = some (planText array.site runs)
  tasks : ∀ task run, runs[array.index task]? = some run →
    OnCourse run (s.control task) (s.executed task)

variable {array : SlurmArray Task} {runs : List Run} {s next : ArrayState Task} {task : Task}

omit [DecidableEq Task] in
theorem faithful_of_submitted (submitted : Submitted array runs s) : Faithful array runs s where
  plan := submitted.plan
  tasks := by
    intro task run _
    rw [submitted.waiting]
    exact submitted.fresh task

omit [DecidableEq Task] in
theorem Faithful.lookup (faithful : Faithful array runs s) (plain : ∀ run ∈ runs, run.Plain)
    {index : Nat} {run : Run} (found : runs[index]? = some run) :
    s.lookup array index = run.runId := by
  unfold ArrayState.lookup
  rw [faithful.plan]
  exact resolveRunId_planText array.site plain found

theorem Faithful.move {base : ArrayState Task} {point : TaskControl}
    (faithful : Faithful array runs s) (plan : base.files array.plan = s.files array.plan)
    (control : base.control = s.control)
    (others : ∀ other, other ≠ task → base.executed other = s.executed other)
    (onCourse : ∀ run, runs[array.index task]? = some run →
      OnCourse run point (base.executed task)) : Faithful array runs (base.move task point) where
  plan := plan.trans faithful.plan
  tasks := by
    intro other run found
    by_cases same : other = task
    · subst same
      rw [show (base.move other point).control other = point from Function.update_self _ _ _]
      exact onCourse run found
    · rw [show (base.move task point).control other = _ from Function.update_of_ne same _ _, control,
        show (base.move task point).executed other = _ from others other same]
      exact faithful.tasks other run found

theorem Faithful.put (dependable : Dependable array runs) (faithful : Faithful array runs s)
    {point : TaskControl} (text : Text)
    (onCourse : ∀ run, runs[array.index task]? = some run →
      OnCourse run point (s.executed task)) :
    Faithful array runs ((s.put array.rewritten text).move task point) :=
  faithful.move (Function.update_of_ne dependable.apart.symm _ _) rfl (fun _ _ => rfl) onCourse

theorem Faithful.step (dependable : Dependable array runs) (faithful : Faithful array runs s)
    (taken : s.step array task = some next) : Faithful array runs next := by
  have before := faithful.tasks task
  have member : ∀ run, runs[array.index task]? = some run → run ∈ runs :=
    fun run found => List.mem_of_getElem? found
  unfold ArrayState.step at taken
  cases control : s.control task with
  | waiting =>
      simp only [control] at taken before
      cases taken
      apply faithful.move rfl rfl fun _ _ => rfl
      intro run found
      rw [faithful.lookup dependable.plain found, if_neg run.runId_ne_nil]
      exact ⟨rfl, before run found⟩
  | resolved runId =>
      simp only [control, dependable.found, if_true] at taken before
      cases taken
      apply faithful.move rfl rfl fun _ _ => rfl
      intro run found
      rw [(before run found).1, dependable.single run (member run found),
        if_neg (List.cons_ne_nil _ _)]
      exact ⟨rfl, (before run found).2⟩
  | expanded selected =>
      simp only [control] at taken before
      cases taken
      exact faithful.put dependable [] before
  | truncated selected =>
      simp only [control] at taken before
      cases taken
      exact faithful.put dependable _ before
  | planned selected =>
      simp only [control] at taken before
      cases taken
      apply faithful.move rfl rfl fun _ _ => rfl
      intro run found
      rw [(before run found).1, List.all_cons, List.all_nil, Bool.and_true,
        dependable.valid run (member run found), if_pos rfl]
      exact Or.inl ⟨rfl, (before run found).2⟩
  | running selected =>
      cases selected with
      | nil =>
          simp only [control] at taken before
          cases taken
          apply faithful.move rfl rfl fun _ _ => rfl
          intro run found
          rcases before run found with ⟨none, -⟩ | ⟨-, executed⟩
          · cases none
          · exact executed
      | cons run rest =>
          simp only [control] at taken before
          cases taken
          refine faithful.move rfl rfl (fun other different => Function.update_of_ne different _ _) ?_
          intro target found
          rcases before target found with ⟨same, executed⟩ | ⟨none, -⟩
          · cases same
            refine Or.inr ⟨rfl, ?_⟩
            refine (Function.update_self _ _ _).trans ?_
            rw [executed]
            rfl
          · cases none
  | exited =>
      simp only [control] at taken
      cases taken

def TaskControl.steps : TaskControl → Nat
  | .waiting => 0
  | .resolved _ => 1
  | .expanded _ => 2
  | .truncated _ => 3
  | .planned _ => 4
  | .running runs => 6 - runs.length
  | .exited => 7

theorem Faithful.advances (dependable : Dependable array runs) (faithful : Faithful array runs s)
    {run : Run} (found : runs[array.index task]? = some run)
    (taken : s.step array task = some next) :
    (next.control task).steps = (s.control task).steps + 1 := by
  have before := faithful.tasks task run found
  have member : run ∈ runs := List.mem_of_getElem? found
  have point : ∀ (base : ArrayState Task) (control : TaskControl),
      (base.move task control).control task = control := fun _ _ => Function.update_self _ _ _
  unfold ArrayState.step at taken
  cases control : s.control task with
  | waiting =>
      simp only [control] at taken
      cases taken
      rw [point, faithful.lookup dependable.plain found, if_neg run.runId_ne_nil]
      rfl
  | resolved runId =>
      simp only [control, dependable.found, if_true] at taken before
      cases taken
      rw [point, before.1, dependable.single run member, if_neg (List.cons_ne_nil _ _)]
      rfl
  | expanded selected =>
      simp only [control] at taken
      cases taken
      rw [point]
      rfl
  | truncated selected =>
      simp only [control] at taken
      cases taken
      rw [point]
      rfl
  | planned selected =>
      simp only [control] at taken before
      cases taken
      rw [point, before.1, List.all_cons, List.all_nil, Bool.and_true, dependable.valid run member,
        if_pos rfl]
      rfl
  | running selected =>
      cases selected with
      | nil =>
          simp only [control] at taken
          cases taken
          rw [point]
          rfl
      | cons first rest =>
          simp only [control] at taken before
          cases taken
          rcases before with ⟨same, -⟩ | ⟨none, -⟩
          · cases same
            rw [point]
            rfl
          · cases none
  | exited =>
      simp only [control] at taken
      cases taken

theorem step_isSome (array : SlurmArray Task) (unfinished : s.control task ≠ .exited) :
    (s.step array task).isSome := by
  unfold ArrayState.step
  split
  case h_2 => split_ifs <;> rfl
  case h_8 exited => exact absurd exited unfinished
  all_goals rfl

theorem step_control_of_ne (taken : s.step array task = some next) {other : Task}
    (different : other ≠ task) : next.control other = s.control other := by
  unfold ArrayState.step at taken
  split at taken
  case h_2 =>
      split_ifs at taken
      all_goals
        cases taken
        exact Function.update_of_ne different _ _
  all_goals
    cases taken
  all_goals exact Function.update_of_ne different _ _

theorem Faithful.steps (dependable : Dependable array runs) (faithful : Faithful array runs s)
    {run : Run} (found : runs[array.index task]? = some run) {tasks : List Task}
    {final : ArrayState Task} (reached : runFrom (ArrayState.step array) s tasks = some final) :
    (final.control task).steps = (s.control task).steps + tasks.count task := by
  induction tasks generalizing s with
  | nil =>
      cases reached
      rfl
  | cons first rest inductionHypothesis =>
      rcases runFrom_cons_eq_some.mp reached with ⟨next, taken, remaining⟩
      have later := inductionHypothesis (faithful.step dependable taken) remaining
      by_cases same : first = task
      · subst same
        rw [later, faithful.advances dependable found taken, List.count_cons_self]
        omega
      · rw [later, step_control_of_ne taken (Ne.symm same), List.count_cons_of_ne same]

/-- For every order, interleaving and repetition of the tasks of a dependable
array, every state keeps to the plan. -/
theorem stable_of_dependable (dependable : Dependable array runs) (submitted : Submitted array runs s)
    {tasks : List Task} {final : ArrayState Task}
    (reached : runFrom (ArrayState.step array) s tasks = some final) :
    Stable array runs final ∧
      (∀ task, final.control task ≠ .exited → (final.step array task).isSome) ∧
      ∀ task run, runs[array.index task]? = some run → tasks.count task = 7 →
        final.executed task = [run] := by
  have faithful : Faithful array runs final :=
    runFrom_invariant (fun _ _ _ faithful taken => faithful.step dependable taken)
      (faithful_of_submitted submitted) reached
  refine ⟨⟨fun index run found => faithful.lookup dependable.plain found, ?_, ?_⟩,
    fun task unfinished => step_isSome array unfinished, ?_⟩
  · intro task run found
    have onCourse := faithful.tasks task run found
    cases control : final.control task with
    | running selected =>
        rw [control] at onCourse
        exact onCourse.imp And.right And.right
    | exited =>
        rw [control] at onCourse
        exact Or.inr onCourse
    | waiting =>
        rw [control] at onCourse
        exact Or.inl onCourse
    | _ =>
        rw [control] at onCourse
        exact Or.inl onCourse.2
  · intro task run found exited
    have onCourse := faithful.tasks task run found
    rw [exited] at onCourse
    exact onCourse
  · intro task run found all
    have taken := (faithful_of_submitted submitted).steps dependable found reached
    rw [submitted.waiting, all] at taken
    have onCourse := faithful.tasks task run found
    cases control : final.control task with
    | exited =>
        rw [control] at onCourse
        exact onCourse
    | _ =>
        rw [control] at taken
        simp only [TaskControl.steps] at taken
        omega

end Steps

/-- An array of two trials.  `plan` says in which directory its plan lies; the
results go to `experiment-results`, as in the instructions for a cluster. -/
def trialArray (plan : String) (found : Bool) : SlurmArray Bool where
  site := ⟨.parse "/r".toList, id, .parse "/r/mfuzz".toList⟩
  emitter := .parse "/r/tools/experiments/emit_slurm_array.py".toList
  plan := (PosixPath.parse plan.toList).join "plan.csv".toList
  results := .parse "/r/experiment-results".toList
  defaults := [queueTrial "git" 1, queueTrial "git" 2]
  found _ := found
  valid _ := true
  index task := if task then 1 else 0

def submittedState (array : SlurmArray Bool) : ArrayState Bool where
  files path := if path = array.plan then some (planText array.site array.defaults) else none
  control _ := .waiting
  executed _ := []

theorem submittedState_submitted (array : SlurmArray Bool) :
    Submitted array array.defaults (submittedState array) :=
  ⟨if_pos rfl, fun _ => rfl, fun _ => rfl⟩

/-- The second task runs to its end and then the first. -/
def secondFirst : List Bool := List.replicate 7 true ++ List.replicate 7 false

theorem separatePlan_stable :
    ∃ final, runFrom (ArrayState.step (trialArray "/r/plans" true))
        (submittedState (trialArray "/r/plans" true)) secondFirst = some final ∧
      final.executed false = [queueTrial "git" 1] ∧ final.executed true = [queueTrial "git" 2] := by
  have dependable : Dependable (trialArray "/r/plans" true) (trialArray "/r/plans" true).defaults :=
    ⟨rfl, by decide +kernel, by decide +kernel, by decide +kernel, fun _ _ => rfl⟩
  have ends : (runFrom (ArrayState.step (trialArray "/r/plans" true))
      (submittedState (trialArray "/r/plans" true)) secondFirst).isSome := by decide +kernel
  rcases Option.isSome_iff_exists.mp ends with ⟨final, reached⟩
  have stable := stable_of_dependable dependable (submittedState_submitted _) reached
  refine ⟨final, reached, stable.2.2 false _ rfl ?_, stable.2.2 true _ rfl ?_⟩
  all_goals decide

/-- With the plan in the results directory, the second task rewrites it and the
first then executes the campaign of the second; and without a program at the
emitted path a task ends and has executed nothing. -/
theorem sharedPlan_unstable :
    (¬ ∀ tasks final, runFrom (ArrayState.step (trialArray "/r/experiment-results" true))
        (submittedState (trialArray "/r/experiment-results" true)) tasks = some final →
      Stable (trialArray "/r/experiment-results" true)
        (trialArray "/r/experiment-results" true).defaults final) ∧
    ¬ ∀ tasks final, runFrom (ArrayState.step (trialArray "/r/experiment-results" false))
        (submittedState (trialArray "/r/experiment-results" false)) tasks = some final →
      Stable (trialArray "/r/experiment-results" false)
        (trialArray "/r/experiment-results" false).defaults final := by
  constructor
  · intro claimed
    have wrong : (runFrom (ArrayState.step (trialArray "/r/experiment-results" true))
        (submittedState (trialArray "/r/experiment-results" true)) secondFirst).map
          (fun final => final.executed false) = some [queueTrial "git" 2] := by decide +kernel
    rcases Option.map_eq_some_iff.mp wrong with ⟨final, reached, executed⟩
    have stable := (claimed secondFirst final reached).executes false (queueTrial "git" 1) rfl
    rw [executed] at stable
    revert stable
    decide +kernel
  · intro claimed
    have nothing : (runFrom (ArrayState.step (trialArray "/r/experiment-results" false))
        (submittedState (trialArray "/r/experiment-results" false)) [false, false]).map
          (fun final => (final.control false, final.executed false)) = some (.exited, []) := by
      decide +kernel
    rcases Option.map_eq_some_iff.mp nothing with ⟨final, reached, observed⟩
    rcases Prod.mk.inj observed with ⟨exited, executed⟩
    have stable := (claimed _ final reached).done false (queueTrial "git" 1) rfl exited
    rw [executed] at stable
    cases stable

end GraphDissect.Experiments
