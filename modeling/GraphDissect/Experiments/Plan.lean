import GraphDissect.Library.Numerals
import GraphDissect.Library.Text
import Mathlib

/-!
# Plans

A plan is a list of campaigns.  The run directory and the benchmark directory of
a campaign are computed from different fields of it.  `write_plan` lists the
campaigns in `plan.csv`, in which a task of the Slurm array looks up its run id
with `sed` and `cut`.
-/

namespace GraphDissect.Experiments

open Library

abbrev Text := List Char

/-- A `pathlib` path. -/
structure PosixPath where
  absolute : Bool
  parts : List Text
deriving DecidableEq, Repr

namespace PosixPath

def parse (text : Text) : PosixPath where
  absolute := text.head? = some '/'
  parts := (text.splitOnP (· = '/')).filter fun part => part ≠ [] ∧ part ≠ ['.']

/-- `base / path`. -/
def append (base path : PosixPath) : PosixPath :=
  if path.absolute then path else { base with parts := base.parts ++ path.parts }

def join (base : PosixPath) (text : Text) : PosixPath := base.append (parse text)

def parent (path : PosixPath) : PosixPath := { path with parts := path.parts.dropLast }

def name (path : PosixPath) : Text := path.parts.getLast?.getD []

/-- `str(path)`. -/
def text (path : PosixPath) : Text :=
  if path.absolute then '/' :: List.intercalate ['/'] path.parts
  else if path.parts = [] then ['.'] else List.intercalate ['/'] path.parts

end PosixPath

structure Subject where
  benchmark : Text
  executable : Text
  path : Text
  baselinePath : Option Text
deriving DecidableEq

inductive Schedule where
  | fixedRoundRobin
  | single
  | randomRound
  | coverageProgress
deriving DecidableEq

/-- `SCHEDULE_OPTIONS`. -/
def Schedule.option : Schedule → Text
  | .fixedRoundRobin => "fixed".toList
  | .single => "fixed".toList
  | .randomRound => "random".toList
  | .coverageProgress => "progress".toList

structure Condition where
  name : Text
  schedule : Schedule
  queue : Text
  requiresBestDriver : Bool
deriving DecidableEq

structure Run where
  experiment : Text
  subject : Subject
  condition : Condition
  trial : Nat
  randomSeed : Int
  durationSeconds : Int
  windowSeconds : Int
  segmentSeconds : Int
deriving DecidableEq

/-- The format `02d`. -/
def twoDigits (n : Nat) : Text :=
  let digits := Nat.toDigits 10 n
  List.replicate (2 - digits.length) '0' ++ digits

def Run.runId (run : Run) : Text :=
  List.intercalate "__".toList
    [run.experiment, run.subject.benchmark, run.subject.executable, run.condition.name,
      't' :: twoDigits run.trial]

/-- `run_directory`, scoped by experiment and trial. -/
def Run.runDirectory (output : PosixPath) (run : Run) : PosixPath :=
  ((((((output.join "runs".toList).join run.experiment).join run.subject.benchmark).join
    run.subject.executable).join run.condition.name).join ("trial-".toList ++ twoDigits run.trial))

/-- `benchmark_directory`; `resolve` follows the symbolic links of the host. -/
def Run.benchmarkDirectory (root : PosixPath) (resolve : PosixPath → PosixPath) (run : Run) :
    PosixPath :=
  let relative := PosixPath.parse run.subject.path
  if run.condition.requiresBestDriver then
    match run.subject.baselinePath with
    | some (c :: rest) => resolve (root.join (c :: rest))
    | _ => resolve ((((root.append relative.parent.parent).join "baseline".toList).join
        relative.parent.name).join relative.name)
  else resolve (root.join run.subject.path)

def queueTrial (benchmark : String) (trial : Nat) : Run where
  experiment := "queue".toList
  subject := ⟨benchmark.toList, benchmark.toList, "benchmarks/".toList ++ benchmark.toList, none⟩
  condition := ⟨"shared".toList, .fixedRoundRobin, "shared".toList, false⟩
  trial := trial
  randomSeed := 0
  durationSeconds := 86400
  windowSeconds := 900
  segmentSeconds := 3600

def decimal : Int → Text
  | .ofNat n => Nat.toDigits 10 n
  | .negSucc n => '-' :: Nat.toDigits 10 (n + 1)

/-- Where `run_campaigns.py` lives and which fuzzer it starts. -/
structure Site where
  root : PosixPath
  resolve : PosixPath → PosixPath
  mfuzz : PosixPath

def Run.command (site : Site) (run : Run) : List Text :=
  [site.mfuzz.text, "-b".toList, (run.benchmarkDirectory site.root site.resolve).text,
    "-t".toList, decimal run.durationSeconds, "-s".toList, run.condition.schedule.option,
    "-q".toList, run.condition.queue, "-w".toList, decimal run.windowSeconds,
    "-r".toList, decimal run.randomSeed]

def hexQuad (n : Nat) : Text :=
  let digits := Nat.toDigits 16 n
  ['\\', 'u'] ++ List.replicate (4 - digits.length) '0' ++ digits

/-- A character of a string in `json.dumps`, which writes ASCII only. -/
def jsonChar (c : Char) : Text :=
  if c = '"' then ['\\', '"']
  else if c = '\\' then ['\\', '\\']
  else if c = '\n' then ['\\', 'n']
  else if c = '\r' then ['\\', 'r']
  else if c = '\t' then ['\\', 't']
  else if c.toNat = 8 then ['\\', 'b']
  else if c.toNat = 12 then ['\\', 'f']
  else if 32 ≤ c.toNat ∧ c.toNat ≤ 126 then [c]
  else if c.toNat < 65536 then hexQuad c.toNat
  else
    let offset := c.toNat - 65536
    hexQuad (55296 + offset / 1024) ++ hexQuad (56320 + offset % 1024)

/-- `json.dumps` of a list of strings. -/
def dumps (values : List Text) : Text :=
  '[' :: List.intercalate [',', ' ']
    (values.map fun value => '"' :: value.flatMap jsonChar ++ ['"']) ++ [']']

/-- The characters on which `csv.writer` quotes a field. -/
def isCsvSpecial (c : Char) : Bool := c = ',' || c = '"' || c = '\r' || c = '\n'

def csvField (field : Text) : Text :=
  if field.any isCsvSpecial then
    '"' :: field.flatMap (fun c => if c = '"' then ['"', '"'] else [c]) ++ ['"']
  else field

/-- A row without the newline that ends it. -/
def csvRow (fields : List Text) : Text :=
  List.intercalate [','] (fields.map csvField) ++ ['\r']

def planHeader : List Text :=
  ["run_id", "experiment", "benchmark", "executable", "condition", "trial", "seed",
    "duration_seconds", "command"].map String.toList

def Run.fields (site : Site) (run : Run) : List Text :=
  [run.runId, run.experiment, run.subject.benchmark, run.subject.executable, run.condition.name,
    decimal run.trial, decimal run.randomSeed, decimal run.durationSeconds,
    dumps (run.command site)]

/-- What `write_plan` writes. -/
def planText (site : Site) (runs : List Run) : Text :=
  unlines ((planHeader :: runs.map (Run.fields site)).map csvRow)

/-- `sed -n "$((index + 2))p" | cut -d, -f1`. -/
def resolveRunId (plan : Text) (index : Nat) : Text :=
  (((getlines '\n' plan)[index + 1]?).getD []).takeWhile (· ≠ ',')

section Lookup

theorem newline_not_mem_decimal (n : Int) : '\n' ∉ decimal n := by
  have digits : ∀ n : Nat, '\n' ∉ Nat.toDigits 10 n := by
    intro n member
    rcases mem_toDigits (by decide) member with ⟨d, small, newline⟩
    revert newline
    revert d
    decide
  cases n with
  | ofNat n => exact digits n
  | negSucc n =>
      intro member
      rcases List.mem_cons.mp member with sign | member
      · cases sign
      · exact digits _ member

theorem newline_not_mem_hexQuad (n : Nat) : '\n' ∉ hexQuad n := by
  intro member
  simp only [hexQuad, List.mem_append, List.mem_cons, List.not_mem_nil, or_false,
    List.mem_replicate] at member
  rcases member with ((first | second) | ⟨-, zero⟩) | digit
  · cases first
  · cases second
  · cases zero
  · rcases mem_toDigits (by decide) digit with ⟨d, small, newline⟩
    revert newline
    revert d
    decide

theorem newline_not_mem_jsonChar (c : Char) : '\n' ∉ jsonChar c := by
  unfold jsonChar
  split_ifs with _ _ newline
  all_goals try decide
  · intro member
    exact newline (List.mem_singleton.mp member).symm
  · exact newline_not_mem_hexQuad _
  · intro member
    rcases List.mem_append.mp member with high | low
    · exact newline_not_mem_hexQuad _ high
    · exact newline_not_mem_hexQuad _ low

theorem newline_not_mem_dumps (values : List Text) : '\n' ∉ dumps values := by
  intro member
  simp only [dumps, List.cons_append, List.mem_cons, List.mem_append, List.not_mem_nil,
    or_false] at member
  rcases member with bracket | inside | bracket
  · cases bracket
  · rcases mem_intercalate inside with between | ⟨piece, among, here⟩
    · revert between
      decide
    · rcases List.mem_map.mp among with ⟨value, -, rfl⟩
      simp only [List.mem_cons, List.mem_append, List.not_mem_nil, or_false,
        List.mem_flatMap] at here
      rcases here with quote | ⟨c, -, inChar⟩ | quote
      · cases quote
      · exact newline_not_mem_jsonChar c inChar
      · cases quote
  · cases bracket

theorem newline_mem_of_csvField {field : Text} (member : '\n' ∈ csvField field) : '\n' ∈ field := by
  unfold csvField at member
  split_ifs at member
  · simp only [List.cons_append, List.mem_cons, List.mem_append, List.not_mem_nil, or_false,
      List.mem_flatMap] at member
    rcases member with quote | ⟨c, among, here⟩ | quote
    · cases quote
    · split_ifs at here
      · simp at here
      · cases List.mem_singleton.mp here
        exact among
    · cases quote
  · exact member

theorem newline_not_mem_csvRow {fields : List Text} (plain : ∀ field ∈ fields, '\n' ∉ field) :
    '\n' ∉ csvRow fields := by
  intro member
  rcases List.mem_append.mp member with inside | ending
  · rcases mem_intercalate inside with comma | ⟨piece, among, here⟩
    · cases List.mem_singleton.mp comma
    · rcases List.mem_map.mp among with ⟨field, fieldIn, rfl⟩
      exact plain field fieldIn (newline_mem_of_csvField here)
  · cases List.mem_singleton.mp ending

theorem csvRow_cons_cons (first second : Text) (rest : List Text) :
    csvRow (first :: second :: rest) = csvField first ++ ',' :: csvRow (second :: rest) := by
  simp [csvRow, List.intercalate_cons_cons]

/-- A run id that `csv.writer` writes as it is and `cut` does not split. -/
def Run.Plain (run : Run) : Prop := ∀ c ∈ run.runId, isCsvSpecial c = false

instance (run : Run) : Decidable run.Plain :=
  decidable_of_iff (run.runId.all fun c => !isCsvSpecial c) (by simp [Run.Plain])

theorem Run.Plain.newline_not_mem_fields {run : Run} (plain : run.Plain) (site : Site) :
    ∀ field ∈ run.fields site, '\n' ∉ field := by
  have inId : '\n' ∉ run.runId := by
    intro member
    have special := plain '\n' member
    revert special
    decide
  have names : ∀ name ∈ [run.experiment, run.subject.benchmark, run.subject.executable,
      run.condition.name, 't' :: twoDigits run.trial], '\n' ∉ name :=
    fun name among member => inId (mem_intercalate_of_mem among member)
  intro field among
  simp only [Run.fields, List.mem_cons, List.not_mem_nil, or_false] at among
  rcases among with rfl | rfl | rfl | rfl | rfl | rfl | rfl | rfl | rfl
  · exact inId
  · exact names _ (by simp)
  · exact names _ (by simp)
  · exact names _ (by simp)
  · exact names _ (by simp)
  · exact newline_not_mem_decimal _
  · exact newline_not_mem_decimal _
  · exact newline_not_mem_decimal _
  · exact newline_not_mem_dumps _

/-- The first field of a row is what `cut` returns. -/
theorem Run.Plain.cut_csvRow {run : Run} (plain : run.Plain) (site : Site) :
    (csvRow (run.fields site)).takeWhile (· ≠ ',') = run.runId := by
  have unquoted : csvField run.runId = run.runId := by
    unfold csvField
    rw [if_neg]
    intro special
    rcases List.any_eq_true.mp special with ⟨c, member, isSpecial⟩
    rw [plain c member] at isSpecial
    cases isSpecial
  have before : ∀ c ∈ run.runId, decide (c ≠ ',') = true := by
    intro c member
    have ordinary := plain c member
    rw [decide_eq_true_eq]
    rintro rfl
    revert ordinary
    decide
  rw [Run.fields, csvRow_cons_cons, unquoted, List.takeWhile_append_of_pos before]
  simp

theorem Run.runId_ne_nil (run : Run) : run.runId ≠ [] := by
  have among : 't' :: twoDigits run.trial ∈ [run.experiment, run.subject.benchmark,
      run.subject.executable, run.condition.name, 't' :: twoDigits run.trial] := by simp
  exact List.ne_nil_of_mem (mem_intercalate_of_mem among List.mem_cons_self)

/-- Task `index` finds the run id of campaign `index` in the plan as written. -/
theorem resolveRunId_planText (site : Site) {runs : List Run} (plain : ∀ run ∈ runs, run.Plain)
    {index : Nat} {run : Run} (found : runs[index]? = some run) :
    resolveRunId (planText site runs) index = run.runId := by
  have lines : ∀ line ∈ (planHeader :: runs.map (Run.fields site)).map csvRow, '\n' ∉ line := by
    intro line among
    rcases List.mem_map.mp among with ⟨fields, inPlan, rfl⟩
    apply newline_not_mem_csvRow
    rcases List.mem_cons.mp inPlan with rfl | inRuns
    · decide
    · rcases List.mem_map.mp inRuns with ⟨other, otherIn, rfl⟩
      exact (plain other otherIn).newline_not_mem_fields site
  unfold resolveRunId planText
  rw [getlines_unlines lines]
  simp only [List.map_cons, List.getElem?_cons_succ, List.getElem?_map, found, Option.map_some,
    Option.getD_some]
  exact (plain run (List.mem_of_getElem? found)).cut_csvRow site

end Lookup

end GraphDissect.Experiments
