import GraphDissect.Library.Text
import GraphDissect.Library.Numerals
import GraphDissect.Drivers.Drivergen

/-!
# Command specifications

`binary.py` and `option.py`: an option entry of `cmdspec.yaml` becomes an
`Option`, is adjusted for its kind, gets its metadata and is cloned for every
output.  The values of an entry are given as `str` prints them.
-/

namespace GraphDissect.Drivergen

open Library

/-- The kinds that the loader tells apart. -/
inductive EntryKind where
  | flag
  | value
  | choice
  | path
  | int
  | float
  | default
  | other
  deriving DecidableEq

/-- An option entry of the YAML file; a missing list is an empty one. -/
structure OptionEntry where
  id : PyStr
  cli : List PyStr
  kind : EntryKind
  choices : List PyStr
  defaults : List PyStr
  includeInSearch : Bool
  inPlaceEditing : Bool
  group : Option PyStr
  output : Option PyStr
  description : PyStr

/-- `class Option` with the attributes that the generator and the constraints
read. -/
structure SpecOption extends CliOption where
  id : PyStr
  group : Option PyStr
  output : Option PyStr
  inPlaceEditing : Bool
  description : PyStr

/-- How `build_args_for_option` and `Option.arg` see a kind. -/
def EntryKind.optionKind : EntryKind → OptionKind
  | .choice => .choice
  | .value => .value
  | .default => .default
  | _ => .flag

def OptionEntry.flag (entry : OptionEntry) : PyStr := entry.cli.head?.getD []

/-- `Option.from_yaml_dict`. -/
def SpecOption.fromYamlDict (entry : OptionEntry) : SpecOption where
  selectedFlag := entry.flag
  kind := entry.kind.optionKind
  choices := entry.choices
  defaults := entry.defaults
  selectedValue := none
  id := entry.id
  group := entry.group
  output := entry.output
  inPlaceEditing := entry.inPlaceEditing
  description := trim isSpace entry.description

/-- The adjustment for the kind in `_expand_option_list`. -/
def SpecOption.adjustKind (opt : SpecOption) (entry : OptionEntry) : SpecOption :=
  if entry.kind = .choice then
    { opt with choices := if entry.defaults ≠ [] then entry.defaults else entry.choices }
  else opt

def SpecOption.attachMeta (opt : SpecOption) (entry : OptionEntry) : SpecOption :=
  { opt with
    group := entry.group
    choices := entry.choices
    defaults := entry.defaults }

def expandOptionList (entries : List OptionEntry) : List SpecOption :=
  (entries.filter (·.includeInSearch)).map fun entry =>
    ((SpecOption.fromYamlDict entry).adjustKind entry).attachMeta entry

section Outputs

/-- `os.path.basename`. -/
def basename (path : PyStr) : PyStr := (path.reverse.takeWhile (· ≠ '/')).reverse

/-- `os.path.splitext` of a name: leading dots belong to the root. -/
def splitext (base : PyStr) : PyStr × PyStr :=
  let ext := (base.reverse.takeWhile (· ≠ '.')).reverse
  let root := base.take (base.length - ext.length - 1)
  if '.' ∈ base ∧ root.any (· ≠ '.') then (root, '.' :: ext) else (base, [])

def suffixFromOutput (output : PyStr) : PyStr :=
  let (root, ext) := splitext (basename output)
  if ext ≠ [] then ext.dropWhile (· = '.') else if root = [] then "out".toList else root

def splitOutputs (cleaned : PyStr) : List PyStr :=
  ((cleaned.splitOn ',').map (trim isSpace)).filter (· ≠ [])

def cloneId (baseId out : PyStr) (idx : Nat) : PyStr :=
  if baseId ≠ [] then baseId ++ '_' :: suffixFromOutput out
  else "opt_".toList ++ suffixFromOutput out ++ '_' :: Nat.toDigits 10 idx

/-- The body of the loop of `_expand_output_variants`. -/
def SpecOption.outputVariants (opt : SpecOption) : List SpecOption :=
  match opt.output with
  | none => [opt]
  | some spec =>
      let cleaned := trim isSpace spec
      if ',' ∉ cleaned then [{ opt with output := some cleaned }]
      else
        match splitOutputs cleaned with
        | [] => [opt]
        | [out] => [{ opt with output := some out }]
        | outputs => outputs.mapIdx fun idx out =>
            { opt with
              output := some out
              id := cloneId opt.id out idx }

def expandOutputVariants (options : List SpecOption) : List SpecOption :=
  options.flatMap SpecOption.outputVariants

end Outputs

/-- The options that `Binary` makes of a list of entries. -/
def loadOptions (entries : List OptionEntry) : List SpecOption :=
  expandOutputVariants (expandOptionList entries)

def OptionEntry.base (entry : OptionEntry) : SpecOption :=
  ((SpecOption.fromYamlDict entry).adjustKind entry).attachMeta entry

def OptionEntry.options (entry : OptionEntry) : List SpecOption :=
  if entry.includeInSearch then entry.base.outputVariants else []

section Loading

theorem loadOptions_eq_flatMap (entries : List OptionEntry) :
    loadOptions entries = entries.flatMap OptionEntry.options := by
  unfold loadOptions expandOutputVariants expandOptionList
  induction entries with
  | nil => rfl
  | cons entry rest inductionHypothesis =>
      rw [List.flatMap_cons, ← inductionHypothesis, OptionEntry.options]
      cases included : entry.includeInSearch
      · simp [included]
      · simp [included, OptionEntry.base]

theorem base_eq (entry : OptionEntry) : entry.base = SpecOption.fromYamlDict entry := by
  unfold OptionEntry.base SpecOption.adjustKind
  split <;> rfl

/-- A clone differs from its option in the id and the output only. -/
theorem toCliOption_of_mem_outputVariants {opt variant : SpecOption}
    (member : variant ∈ opt.outputVariants) :
    variant.toCliOption = opt.toCliOption ∧ variant.group = opt.group := by
  unfold SpecOption.outputVariants at member
  split at member
  · rw [List.mem_singleton.mp member]
    exact ⟨rfl, rfl⟩
  · dsimp only at member
    split at member
    · rw [List.mem_singleton.mp member]
      exact ⟨rfl, rfl⟩
    · split at member
      · rw [List.mem_singleton.mp member]
        exact ⟨rfl, rfl⟩
      · rw [List.mem_singleton.mp member]
        exact ⟨rfl, rfl⟩
      · rcases List.mem_mapIdx.mp member with ⟨idx, inside, rfl⟩
        exact ⟨rfl, rfl⟩

theorem outputVariants_ne_nil (opt : SpecOption) : opt.outputVariants ≠ [] := by
  unfold SpecOption.outputVariants
  split
  · simp
  · dsimp only
    split
    · simp
    · split
      · simp
      · simp
      · next outputs notEmpty notOne => simpa [List.mapIdx_eq_nil_iff] using notEmpty

theorem includeInSearch_of_mem_options {entry : OptionEntry} {opt : SpecOption}
    (member : opt ∈ entry.options) : entry.includeInSearch = true := by
  by_contra excluded
  rw [OptionEntry.options, if_neg excluded] at member
  cases member

theorem toCliOption_of_mem_options {entry : OptionEntry} {opt : SpecOption}
    (member : opt ∈ entry.options) :
    opt.toCliOption = (SpecOption.fromYamlDict entry).toCliOption := by
  unfold OptionEntry.options at member
  split at member
  · rw [(toCliOption_of_mem_outputVariants member).1, base_eq]
  · cases member

end Loading

section Expansion

variable {entry : OptionEntry}

def SpecOption.chunks (opt : SpecOption) : List PyStr := buildArgsForOption opt.toCliOption

def EntryKind.TakesDefault (kind : EntryKind) : Prop := kind = .path ∨ kind = .int ∨ kind = .float

/-- What an entry should expand to, through all its options. -/
structure FollowsSpec (entry : OptionEntry) : Prop where
  excluded : entry.includeInSearch = false → entry.options = []
  choice : entry.kind = .choice → ∀ opt ∈ entry.options,
    opt.chunks.Perm ((if entry.defaults ≠ [] then entry.defaults else entry.choices).map
      (flagValue entry.flag))
  takesDefault : entry.kind.TakesDefault → ∀ first ∈ entry.defaults.head?,
    ∀ opt ∈ entry.options, flagValue entry.flag first ∈ opt.chunks
  variants : ∀ opt ∈ entry.options, opt.chunks = entry.base.chunks

theorem chunks_of_mem_options {opt : SpecOption} (member : opt ∈ entry.options) :
    opt.chunks = (SpecOption.fromYamlDict entry).chunks := by
  rw [SpecOption.chunks, toCliOption_of_mem_options member]
  rfl

theorem chunks_choice (isChoice : entry.kind = .choice) :
    (SpecOption.fromYamlDict entry).chunks = entry.choices.map (flagValue entry.flag) := by
  simp [SpecOption.chunks, buildArgsForOption, SpecOption.fromYamlDict, isChoice,
    EntryKind.optionKind]

/-- `Option.arg` only knows the defaults of values and choices. -/
theorem chunks_takesDefault (takes : entry.kind.TakesDefault) :
    (SpecOption.fromYamlDict entry).chunks = [entry.flag] := by
  rcases takes with kind | kind | kind <;>
    simp [SpecOption.chunks, buildArgsForOption, SpecOption.fromYamlDict, kind,
      EntryKind.optionKind, CliOption.arg]

theorem flagValue_injective (flag : PyStr) : Function.Injective (flagValue flag) := by
  intro first second same
  exact (List.cons.inj (List.append_cancel_left same)).2

theorem options_ne_nil (included : entry.includeInSearch = true) : entry.options ≠ [] := by
  rw [OptionEntry.options, if_pos included]
  exact outputVariants_ne_nil _

/-- An entry expands as specified exactly when, if it is used at all, a choice
gives its choices as defaults or no defaults, and a path, an integer or a float
has no default. -/
theorem followsSpec_iff (entry : OptionEntry) :
    FollowsSpec entry ↔ (entry.includeInSearch = true →
      (entry.kind = .choice → entry.defaults ≠ [] → entry.choices.Perm entry.defaults) ∧
        (entry.kind.TakesDefault → entry.defaults = [])) := by
  constructor
  · rintro ⟨-, choice, takesDefault, -⟩ included
    rcases List.exists_mem_of_ne_nil _ (options_ne_nil included) with ⟨opt, member⟩
    refine ⟨fun isChoice given => ?_, fun takes => ?_⟩
    · have perm := choice isChoice opt member
      rw [chunks_of_mem_options member, chunks_choice isChoice, if_pos given] at perm
      exact (List.map_perm_map_iff (flagValue_injective entry.flag)).mp perm
    · by_contra given
      rcases List.exists_cons_of_ne_nil given with ⟨first, rest, defaults⟩
      have chunk := takesDefault takes first (by rw [defaults]; rfl) opt member
      rw [chunks_of_mem_options member, chunks_takesDefault takes, List.mem_singleton] at chunk
      have lengths := congrArg List.length chunk
      simp [flagValue] at lengths
  · intro holds
    refine ⟨fun excluded => by simp [OptionEntry.options, excluded], ?_, ?_, ?_⟩
    · intro isChoice opt member
      rw [chunks_of_mem_options member, chunks_choice isChoice]
      split
      · next given => exact ((holds (includeInSearch_of_mem_options member)).1 isChoice given).map _
      · exact List.Perm.refl _
    · intro takes first isFirst opt member
      rw [(holds (includeInSearch_of_mem_options member)).2 takes] at isFirst
      cases isFirst
    · intro opt member
      rw [chunks_of_mem_options member, base_eq]

/-- The demangling option that `option.py` gives as an example. -/
def demangleEntry : OptionEntry where
  id := "11".toList
  cli := ["-c".toList, "--demangle".toList]
  kind := .choice
  choices := ["none".toList, "auto".toList, "gnu-v3".toList]
  defaults := ["auto".toList, "gnu-v3".toList]
  includeInSearch := true
  inPlaceEditing := false
  group := some "demangle".toList
  output := some []
  description := "Decode mangled/processed symbol names".toList

/-- All three choices are expanded, not the two defaults. -/
theorem demangleEntry_expands :
    (loadOptions [demangleEntry]).map SpecOption.chunks =
        [["-c none".toList, "-c auto".toList, "-c gnu-v3".toList]] ∧
      ¬ ∀ entry : OptionEntry, FollowsSpec entry := by
  refine ⟨by decide, fun follows => ?_⟩
  rcases List.exists_mem_of_ne_nil _ (options_ne_nil (show demangleEntry.includeInSearch = true from rfl))
    with ⟨opt, member⟩
  have perm := (follows demangleEntry).choice rfl opt member
  rw [chunks_of_mem_options member] at perm
  exact absurd perm.length_eq (by decide)

end Expansion

end GraphDissect.Drivergen
