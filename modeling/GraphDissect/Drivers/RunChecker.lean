import GraphDissect.Drivers.Drivergen

/-!
# Calibrating a driver

`run_checker.py` and `Driver.calibrate`: every seed is run once, the run is
classified by its error output and its return code, and a seed whose run is not
fine is counted as failed and removed.
-/

namespace GraphDissect.Drivergen

open Library

/-- What `bytes.decode`, `str.lower` and `\b` take from the tables of Unicode. -/
structure PyText where
  decodeIgnore : Bytes → PyStr
  lower : PyStr → PyStr
  isWord : Char → Bool

section Patterns

/-- The parts of the patterns that the checker searches for. -/
inductive PatternItem where
  | text (s : PyStr)
  | boundary
  | oneOf (alternatives : List PyStr)

/-- The character before the rest of a text once `s` is read. -/
def charBefore (before : Option Char) (s : PyStr) : Option Char := s.getLast?.or before

/-- A pattern matches here; `before` is the character in front. -/
def matchesHere (isWord : Char → Bool) : List PatternItem → Option Char → PyStr → Bool
  | [], _, _ => true
  | .text s :: items, before, input =>
      s.isPrefixOf input &&
        matchesHere isWord items (charBefore before s) (input.drop s.length)
  | .boundary :: items, before, input =>
      (before.any isWord != input.head?.any isWord) && matchesHere isWord items before input
  | .oneOf alternatives :: items, before, input =>
      alternatives.any fun s => s.isPrefixOf input &&
        matchesHere isWord items (charBefore before s) (input.drop s.length)

/-- `re.search` from a position on. -/
def searchFrom (isWord : Char → Bool) (items : List PatternItem) : Option Char → PyStr → Bool
  | before, [] => matchesHere isWord items before []
  | before, c :: rest =>
      matchesHere isWord items before (c :: rest) || searchFrom isWord items (some c) rest

def matchesAny (text : PyText) (input : PyStr) (patterns : List (List PatternItem)) : Bool :=
  patterns.any fun items => searchFrom text.isWord items none input

def literal (s : String) : List PatternItem := [.text s.toList]

def hardFailurePatterns : List (List PatternItem) :=
  [literal "segmentation fault",
    literal "segfault",
    literal "core dumped",
    literal "abort()",
    [.boundary, .text "aborted".toList, .boundary],
    literal "stack trace",
    literal "sigsegv",
    literal "sigabrt"]

def usageFailurePatterns : List (List PatternItem) :=
  [[.boundary, .text "usage".toList, .oneOf [[':'], [' ']]],
    literal "try '--help'",
    literal "try \"--help\"",
    literal "unrecognized option",
    literal "unknown option",
    literal "invalid option",
    literal "invalid argument",
    [.text "missing ".toList, .oneOf ["argument".toList, "operand".toList]],
    [.text "required ".toList, .oneOf ["argument".toList, "operand".toList]],
    literal "not found",
    literal "error occur",
    literal "error open",
    literal "error happen"]

end Patterns

inductive RunStatus where
  | ok
  | softFail
  | hardFail
  deriving DecidableEq

structure CommandCheckResult where
  status : RunStatus
  reason : String
  returncode : Int
  stderrSnippet : PyStr

/-- `subprocess.CompletedProcess`; a signal gives a negative return code. -/
structure CompletedProcess where
  returncode : Int
  stderr : Bytes

abbrev PerToolValidator := List PyStr → CompletedProcess → Option CommandCheckResult

def makeResult (status : RunStatus) (reason : String) (rc : Int) (stderrLower : PyStr) :
    CommandCheckResult where
  status
  reason
  returncode := rc
  stderrSnippet := (stderrLower.take 200).map fun c => if c = '\n' then ' ' else c

/-- `RunChecker`: the return codes that are fine, and the validators of single
tools. -/
structure RunChecker where
  defaultOkRc : List Int
  perToolValidators : PyStr → Option PerToolValidator

/-- `RunChecker()`. -/
def RunChecker.new : RunChecker where
  defaultOkRc := [0]
  perToolValidators _ := none

def CompletedProcess.stderrLower (text : PyText) (result : CompletedProcess) : PyStr :=
  text.lower (text.decodeIgnore result.stderr)

namespace RunChecker

/-- `check_completed`; the expected outputs are given by their sizes, `none` for
what cannot be read. -/
def checkCompleted (checker : RunChecker) (text : PyText) (binaryName : PyStr) (cmd : List PyStr)
    (result : CompletedProcess) (expectedOutputs : List (Option Nat)) : CommandCheckResult :=
  match (checker.perToolValidators binaryName).bind fun validator => validator cmd result with
  | some override => override
  | none =>
      let stderrLower := result.stderrLower text
      let rc := result.returncode
      if matchesAny text stderrLower hardFailurePatterns then
        makeResult .hardFail "hard_failure_pattern" rc stderrLower
      else if rc ∉ checker.defaultOkRc then
        if matchesAny text stderrLower usageFailurePatterns then
          makeResult .softFail "usage_error" rc stderrLower
        else makeResult .ok "nonzero_rc_but_benign" rc stderrLower
      else if expectedOutputs ≠ [] ∧ ¬ ∃ size ∈ expectedOutputs, ∃ bytes ∈ size, 0 < bytes then
        makeResult .softFail "no_nonempty_output_files" rc stderrLower
      else makeResult .ok "ok" rc stderrLower

/-- `check_timeout` for the timeout of `calibrate`. -/
def checkTimeout : CommandCheckResult where
  status := .hardFail
  reason := "timeout_5s"
  returncode := -1
  stderrSnippet := []

end RunChecker

/-- What `subprocess.run` does for a seed. -/
inductive RunOutcome where
  | completed (result : CompletedProcess)
  | timeoutExpired
  | exception

def RunOutcome.crashed : RunOutcome → Bool
  | .completed result => result.returncode < 0
  | .timeoutExpired => true
  | .exception => false

/-- What the loop of `calibrate` keeps: `failed`, and the seeds it removed. -/
structure Calibration where
  failed : Nat
  removed : List PyStr

namespace Driver

variable (d : Driver) (text : PyText) (binaryPath : PyStr)

/-- The result of the checker for the run of a seed, `none` after an exception. -/
def checkRun (seed : PyStr) : RunOutcome → Option CommandCheckResult
  | .completed result =>
      some (RunChecker.new.checkCompleted text d.driver (d.buildCmd binaryPath seed) result [])
  | .timeoutExpired => some RunChecker.checkTimeout
  | .exception => none

/-- The body of the loop of `calibrate`. -/
def calibrateSeed (state : Calibration) (run : PyStr × RunOutcome) : Calibration :=
  match d.checkRun text binaryPath run.1 run.2 with
  | some result =>
      if result.status ≠ .ok then ⟨state.failed + 1, state.removed ++ [run.1]⟩ else state
  | none => ⟨state.failed + 1, state.removed ++ [run.1]⟩

/-- `calibrate` for a list of seeds and the outcomes of their runs. -/
def calibrate (runs : List (PyStr × RunOutcome)) : Bool × Calibration :=
  let state := runs.foldl (d.calibrateSeed text binaryPath) ⟨0, []⟩
  (decide (state.failed < runs.length), state)

end Driver

section Calibrated

variable {d : Driver} {text : PyText} {binaryPath : PyStr}

def Driver.failedRun (d : Driver) (text : PyText) (binaryPath : PyStr)
    (run : PyStr × RunOutcome) : Bool :=
  (d.checkRun text binaryPath run.1 run.2).all fun result => result.status ≠ .ok

/-- Without validators the status is decided by the two lists of patterns and by
whether the return code is zero. -/
theorem status_checkCompleted (binaryName : PyStr) (cmd : List PyStr) (result : CompletedProcess) :
    (RunChecker.new.checkCompleted text binaryName cmd result []).status =
      if matchesAny text (result.stderrLower text) hardFailurePatterns then .hardFail
      else if result.returncode ≠ 0 ∧
        matchesAny text (result.stderrLower text) usageFailurePatterns then .softFail
      else .ok := by
  simp only [RunChecker.checkCompleted, RunChecker.new, Option.bind_none, List.mem_singleton,
    ne_eq, not_true_eq_false, false_and, if_false]
  split
  · rfl
  · by_cases zero : result.returncode = 0
    · simp [zero, makeResult]
    · by_cases usage : matchesAny text (result.stderrLower text) usageFailurePatterns = true
      · simp [zero, usage, makeResult]
      · simp [zero, usage, makeResult]

theorem calibrateSeed_eq (state : Calibration) (run : PyStr × RunOutcome) :
    d.calibrateSeed text binaryPath state run =
      if d.failedRun text binaryPath run then ⟨state.failed + 1, state.removed ++ [run.1]⟩
      else state := by
  unfold Driver.calibrateSeed Driver.failedRun
  cases d.checkRun text binaryPath run.1 run.2 with
  | none => rfl
  | some result => simp

theorem foldl_calibrateSeed (state : Calibration) (runs : List (PyStr × RunOutcome)) :
    runs.foldl (d.calibrateSeed text binaryPath) state =
      ⟨state.failed + (runs.filter (d.failedRun text binaryPath)).length,
        state.removed ++ (runs.filter (d.failedRun text binaryPath)).map Prod.fst⟩ := by
  induction runs generalizing state with
  | nil => simp
  | cons run rest inductionHypothesis =>
      rw [List.foldl_cons, inductionHypothesis, calibrateSeed_eq, List.filter_cons]
      split
      · simp only [List.length_cons, List.map_cons, List.append_assoc, List.singleton_append,
          Nat.add_assoc, Nat.add_comm 1]
      · rfl

/-- A driver passes exactly when the run of some seed is fine. -/
theorem calibrate_eq_true_iff (runs : List (PyStr × RunOutcome)) :
    (d.calibrate text binaryPath runs).1 = true ↔
      ∃ run ∈ runs, d.failedRun text binaryPath run = false := by
  simp only [Driver.calibrate, foldl_calibrateSeed, Nat.zero_add, decide_eq_true_eq,
    List.length_filter_lt_length_iff_exists, Bool.not_eq_true]

/-- Crashes and timeouts are hard failures, counted and removed, and a driver
passes exactly when some run is no failure of any kind. -/
structure CrashesRemoved (d : Driver) (text : PyText) (binaryPath : PyStr)
    (runs : List (PyStr × RunOutcome)) : Prop where
  hard : ∀ run ∈ runs, run.2.crashed = true →
    ∃ result, d.checkRun text binaryPath run.1 run.2 = some result ∧ result.status = .hardFail
  counted : (runs.filter fun run => run.2.crashed).length ≤
    (d.calibrate text binaryPath runs).2.failed
  removed : ∀ run ∈ runs, run.2.crashed = true →
    run.1 ∈ (d.calibrate text binaryPath runs).2.removed
  passes : (d.calibrate text binaryPath runs).1 = true ↔
    ∃ run ∈ runs, ∃ result, d.checkRun text binaryPath run.1 run.2 = some result ∧
      result.status ≠ .hardFail ∧ result.status ≠ .softFail

theorem failedRun_eq_false_iff {run : PyStr × RunOutcome} :
    d.failedRun text binaryPath run = false ↔
      ∃ result, d.checkRun text binaryPath run.1 run.2 = some result ∧
        result.status ≠ .hardFail ∧ result.status ≠ .softFail := by
  unfold Driver.failedRun
  cases d.checkRun text binaryPath run.1 run.2 with
  | none => simp
  | some result => cases status : result.status <;> simp [status]

/-- Crashing seeds are removed exactly when every run that was killed by a signal
also printed one of the words that the checker knows. -/
theorem crashesRemoved_iff (d : Driver) (text : PyText) (binaryPath : PyStr)
    (runs : List (PyStr × RunOutcome)) :
    CrashesRemoved d text binaryPath runs ↔
      ∀ run ∈ runs, ∀ result, run.2 = .completed result → result.returncode < 0 →
        matchesAny text (result.stderrLower text) hardFailurePatterns = true := by
  constructor
  · rintro ⟨hard, -, -, -⟩ run member result completed killed
    rcases hard run member (by simp [completed, RunOutcome.crashed, killed]) with
      ⟨check, checked, status⟩
    rw [completed] at checked
    obtain rfl := Option.some.inj checked
    rw [status_checkCompleted] at status
    by_contra silent
    rw [if_neg silent] at status
    split at status <;> cases status
  · intro loud
    have hard : ∀ run ∈ runs, run.2.crashed = true →
        ∃ result, d.checkRun text binaryPath run.1 run.2 = some result ∧
          result.status = .hardFail := by
      intro run member crashed
      cases outcome : run.2 with
      | completed result =>
          rw [outcome] at crashed
          have killed : result.returncode < 0 := by simpa [RunOutcome.crashed] using crashed
          refine ⟨_, rfl, ?_⟩
          rw [status_checkCompleted, if_pos (loud run member result outcome killed)]
      | timeoutExpired => exact ⟨_, rfl, rfl⟩
      | exception =>
          rw [outcome] at crashed
          cases crashed
    have failed : ∀ run ∈ runs, run.2.crashed = true → d.failedRun text binaryPath run = true := by
      intro run member crashed
      rcases hard run member crashed with ⟨result, checked, status⟩
      simp [Driver.failedRun, checked, status]
    refine ⟨hard, ?_, ?_, ?_⟩
    · simp only [Driver.calibrate, foldl_calibrateSeed, Nat.zero_add,
        ← List.countP_eq_length_filter]
      exact List.countP_mono_left failed
    · intro run member crashed
      simp only [Driver.calibrate, foldl_calibrateSeed, List.nil_append]
      exact List.mem_map_of_mem (List.mem_filter.mpr ⟨member, failed run member crashed⟩)
    · rw [calibrate_eq_true_iff]
      simp only [failedRun_eq_false_iff]

def asciiText : PyText where
  decodeIgnore bytes := (bytes.filter (· < 128)).map fun b => Char.ofNat b.toNat
  lower s := s.map Char.toLower
  isWord c := c.isAlphanum || c = '_'

def plainDriver : Driver where
  id := 1
  name := "1_b".toList
  driver := "file".toList
  args := ["-b".toList]
  baseArgs := []
  seedDir := "seeds".toList
  output := []
  priority := 1
  inPlaceEditing := false
  description := []

/-- A run that is killed by SIGSEGV and prints nothing. -/
def silentCrash : RunOutcome := .completed ⟨-11, []⟩

/-- The seed stays, and the driver passes. -/
theorem silentCrash_survives :
    plainDriver.calibrate asciiText "bench".toList [("seed0".toList, silentCrash)] =
        (true, ⟨0, []⟩) ∧
      ¬ ∀ (d : Driver) (text : PyText) (binaryPath : PyStr) (runs : List (PyStr × RunOutcome)),
        CrashesRemoved d text binaryPath runs := by
  refine ⟨rfl, fun removes => ?_⟩
  have gone := (removes plainDriver asciiText "bench".toList [("seed0".toList, silentCrash)]).removed
    ("seed0".toList, silentCrash) (by simp) rfl
  cases gone

end Calibrated

end GraphDissect.Drivergen
