import GraphDissect.Library.Words
import GraphDissect.Drivers.Profile

/-!
# Generating drivers

`drivergen.py`: the argument chunks of an option or of a combination of options,
the `Driver` built from them, its command line for calibration and its profile.
-/

namespace GraphDissect.Drivergen

open Library

abbrev PyStr := List Char

/-- `str.isspace` of one character. -/
def isSpace (c : Char) : Bool :=
  let n := c.toNat
  (9 ≤ n && n ≤ 13) || (28 ≤ n && n ≤ 32) || n == 0x85 || n == 0xa0 || n == 0x1680 ||
    (0x2000 ≤ n && n ≤ 0x200a) || n == 0x2028 || n == 0x2029 || n == 0x202f ||
    n == 0x205f || n == 0x3000

/-- `str.split()`. -/
def split (s : PyStr) : List PyStr := words isSpace s

inductive OptionKind where
  | choice
  | value
  | default
  | flag

/-- `class Option`, with the fields that the generator reads. -/
structure CliOption where
  selectedFlag : PyStr
  kind : OptionKind
  choices : List PyStr
  defaults : List PyStr
  selectedValue : Option PyStr

/-- The property `arg`. -/
def CliOption.arg (o : CliOption) : Option PyStr :=
  match o.selectedValue, o.kind with
  | some v, _ => some v
  | none, .value => o.defaults.head?
  | none, .choice => o.defaults.head?
  | none, _ => none

/-- `f"{flag} {val}"`. -/
def flagValue (flag val : PyStr) : PyStr := flag ++ ' ' :: val

def buildArgsForOption (o : CliOption) : List PyStr :=
  match o.kind with
  | .choice => o.choices.map (flagValue o.selectedFlag)
  | .value => o.defaults.map (flagValue o.selectedFlag)
  | .default => [[]]
  | .flag =>
    match o.arg with
    | none => [o.selectedFlag]
    | some arg => if arg = [] then [o.selectedFlag] else [flagValue o.selectedFlag arg]

/-- `itertools.product`: the last list varies fastest. -/
def product : List (List PyStr) → List (List PyStr)
  | [] => [[]]
  | xs :: rest => xs.flatMap fun x => (product rest).map (x :: ·)

def buildArgsForCombinations (opts : List CliOption) : List PyStr :=
  match (opts.map buildArgsForOption).filter (!·.isEmpty) with
  | [] => []
  | argsLists => (product argsLists).map (List.intercalate [' '])

/-- The `args` of the drivers that `generate` builds. -/
inductive GeneratedArgs : List PyStr → Prop
  | primary {o : CliOption} {chunk : PyStr} (h : chunk ∈ buildArgsForOption o) :
      GeneratedArgs [chunk]
  | combination {opts : List CliOption} {args : PyStr} (h : args ∈ buildArgsForCombinations opts) :
      GeneratedArgs [args]

inductive IOKind where
  | positional
  | flagged
  deriving DecidableEq

/-- `InputSpec` and `OutputSpec`. -/
structure IOField where
  kind : IOKind
  flag : Option PyStr

structure IOSpec where
  input : IOField
  output : IOField

/-- The arguments of `Driver.__init__`. -/
structure DriverSpec where
  id : Nat
  driver : PyStr
  args : List PyStr
  baseArgs : List PyStr
  seedDir : PyStr
  output : PyStr
  io : IOSpec
  priority : Rat
  inPlaceEditing : Bool
  description : PyStr

structure Driver where
  id : Nat
  name : PyStr
  driver : PyStr
  args : List PyStr
  baseArgs : List PyStr
  seedDir : PyStr
  output : PyStr
  priority : Rat
  inPlaceEditing : Bool
  description : PyStr

/-- `_normalize_token`.  Dropping the empty pieces between underscores collapses
their runs and strips the ends. -/
def normalizeToken (tok : PyStr) : PyStr :=
  let tok := tok.dropWhile (· = '-')
  let tok := tok.map fun c => if c.isAlphanum then c else '_'
  List.intercalate ['_'] (words (· = '_') tok)

def buildName (id : Nat) (args : List PyStr) : PyStr :=
  match (args.map normalizeToken).filter (!·.isEmpty) with
  | [] => Nat.toDigits 10 id ++ "_default".toList
  | parts => Nat.toDigits 10 id ++ '_' :: List.intercalate ['_'] parts

def formInput (io : IOSpec) (args : List PyStr) : Except String (List PyStr) :=
  match io.input.kind, io.input.flag with
  | .positional, _ => .ok args
  | .flagged, none => .error "flagged input requires a non-empty flag"
  | .flagged, some flag =>
    if flag = [] then .error "flagged input requires a non-empty flag" else .ok (args ++ [flag])

def formOutput (io : IOSpec) (output : PyStr) : Except String PyStr :=
  if output = [] then .ok output
  else
    match io.output.kind, io.output.flag with
    | .positional, _ => .ok output
    | .flagged, none => .error "flagged output requires a non-empty flag"
    | .flagged, some flag =>
      if flag = [] then .error "flagged output requires a non-empty flag"
      else .ok (flagValue flag output)

def Driver.init (spec : DriverSpec) : Except String Driver := do
  let args ← formInput spec.io spec.args
  let output ← formOutput spec.io spec.output
  return {
    id := spec.id
    name := buildName spec.id spec.args
    driver := spec.driver
    args
    baseArgs := spec.baseArgs
    seedDir := spec.seedDir
    output
    priority := spec.priority
    inPlaceEditing := spec.inPlaceEditing
    description := spec.description }

namespace Driver

def flattenArgs (d : Driver) : List PyStr :=
  d.args.flatMap fun a => if a = [] then [] else split a

/-- `os.path.join`. -/
def pathJoin (dir file : PyStr) : PyStr :=
  if file.head? = some '/' then file
  else if dir = [] ∨ dir.getLast? = some '/' then dir ++ file
  else dir ++ '/' :: file

def buildCmd (d : Driver) (binaryPath seed : PyStr) : List PyStr :=
  pathJoin binaryPath d.driver :: (d.baseArgs ++ d.flattenArgs ++ [seed] ++
    if d.output = [] then [] else split d.output)

def toJson (d : Driver) : Drivers.Json :=
  let fields : List (String × Drivers.Json) :=
    [("id", .int d.id),
      ("name", .str (utf8 d.name)),
      ("driver", .str (utf8 d.driver)),
      ("args", .arr ((d.baseArgs ++ d.args).map fun a => .str (utf8 a))),
      ("seed_dir", .str (utf8 d.seedDir)),
      ("output", .str (utf8 d.output)),
      ("priority", .real d.priority),
      ("description", .str (utf8 d.description))]
  .obj (fields ++ if d.inPlaceEditing then [("in_place_editing", .int 1)] else [])

end Driver

end GraphDissect.Drivergen
