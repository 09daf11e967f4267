import GraphDissect.Library.Codes
import GraphDissect.Drivers.CommandLine
import GraphDissect.Drivers.Constraints

/-!
# Generated drivers as configurations

Two drivers are different configurations when their arguments or their outputs
differ.  For flags and values that are single words this is decided by the flags
that the selections of options print and by the outputs they select.
-/

namespace GraphDissect.Drivergen

open Library

section Entries

/-- The values that a choice or a value is expanded with. -/
def OptionEntry.values (entry : OptionEntry) : List PyStr :=
  match entry.kind with
  | .choice => entry.choices
  | .value => entry.defaults
  | _ => []

/-- The flag and the values have no space in them, and the values are different. -/
structure OptionEntry.Worded (entry : OptionEntry) : Prop where
  flag : ∀ c ∈ entry.flag, isSpace c = false
  values : entry.values.Nodup
  visible : ∀ value ∈ entry.values, ∀ c ∈ value, isSpace c = false

def OptionEntry.Uniform (entry : OptionEntry) : Prop :=
  entry.values = [] ∨ entry.values = [[]] ∨ entry.flag ≠ [] ∧ [] ∉ entry.values

/-- The entry is worded and uniform. -/
structure OptionEntry.Plain (entry : OptionEntry) : Prop extends entry.Worded where
  uniform : entry.Uniform

/-- The flag that an option prints, if it prints anything. -/
def SpecOption.printed (opt : SpecOption) : Option PyStr :=
  match opt.chunks.flatMap split with
  | [] => none
  | _ => some opt.selectedFlag

variable {entry : OptionEntry} {opt : SpecOption} {chunk other flag : PyStr}

theorem printed_eq_none_iff : opt.printed = none ↔ ∀ chunk ∈ opt.chunks, split chunk = [] := by
  rw [SpecOption.printed, ← List.flatMap_eq_nil_iff]
  split <;> simp_all

theorem printed_eq_some (printed : opt.printed = some flag) : opt.selectedFlag = flag := by
  rw [SpecOption.printed] at printed
  split at printed
  · cases printed
  · exact Option.some.inj printed

theorem split_of_visible {text : PyStr} (visible : ∀ c ∈ text, isSpace c = false) :
    split text = if text = [] then [] else [text] := by
  split
  · next empty => rw [empty]; rfl
  · next some => exact IsWord.words_eq ⟨some, visible⟩

theorem split_flagValue (flag value : PyStr) : split (flagValue flag value) = split flag ++ split value :=
  words_append_cons (by decide) flag value

theorem chunks_fromYamlDict (entry : OptionEntry) :
    (SpecOption.fromYamlDict entry).chunks = entry.values.map (flagValue entry.flag) ∨
      (SpecOption.fromYamlDict entry).chunks = [[]] ∨
      (SpecOption.fromYamlDict entry).chunks = [entry.flag] := by
  unfold SpecOption.chunks buildArgsForOption OptionEntry.values SpecOption.fromYamlDict
    CliOption.arg
  cases entry.kind <;> simp [EntryKind.optionKind]

theorem OptionEntry.Plain.chunks_spec (plain : entry.Plain)
    (isChunk : chunk ∈ (SpecOption.fromYamlDict entry).chunks)
    (isOther : other ∈ (SpecOption.fromYamlDict entry).chunks) :
    (split chunk).length = (split other).length ∧ (split chunk = split other → chunk = other) ∧
      (split chunk = [] ∨ (split chunk).head? = some entry.flag) := by
  have flag := split_of_visible plain.flag
  rcases chunks_fromYamlDict entry with chunks | chunks | chunks
  · rw [chunks] at isChunk isOther
    rcases List.mem_map.mp isChunk with ⟨value, isValue, rfl⟩
    rcases List.mem_map.mp isOther with ⟨second, isSecond, rfl⟩
    have valueWords := split_of_visible (plain.visible value isValue)
    have secondWords := split_of_visible (plain.visible second isSecond)
    simp only [split_flagValue, flag, valueWords, secondWords]
    rcases plain.uniform with none | blank | ⟨some, words⟩
    · rw [none] at isValue
      cases isValue
    · rw [blank, List.mem_singleton] at isValue isSecond
      subst isValue isSecond
      by_cases empty : entry.flag = [] <;> simp [empty]
    · have first : value ≠ [] := fun empty => words (empty ▸ isValue)
      have last : second ≠ [] := fun empty => words (empty ▸ isSecond)
      simp only [some, first, last, if_false]
      refine ⟨rfl, fun same => ?_, .inr rfl⟩
      rw [show value = second by simpa using same]
  · rw [chunks, List.mem_singleton] at isChunk isOther
    subst isChunk isOther
    exact ⟨rfl, fun _ => rfl, .inl rfl⟩
  · rw [chunks, List.mem_singleton] at isChunk isOther
    subst isChunk isOther
    rw [flag]
    by_cases empty : entry.flag = [] <;> simp [empty]

theorem OptionEntry.Plain.nodup_chunks (plain : entry.Plain) : (SpecOption.fromYamlDict entry).chunks.Nodup := by
  rcases chunks_fromYamlDict entry with chunks | chunks | chunks
  · rw [chunks]
    exact plain.values.map (flagValue_injective entry.flag)
  · simp [chunks]
  · simp [chunks]

end Entries

section Words

def CommandSpec.searched (spec : CommandSpec) : List OptionEntry :=
  (spec.primary ++ spec.second).filter (·.includeInSearch)

/-- The searched entries have different flags, and no flag or value has a space
in it or is given twice. -/
structure CommandSpec.Worded (spec : CommandSpec) : Prop where
  flags : (spec.searched.map OptionEntry.flag).Nodup
  entries : ∀ entry ∈ spec.searched, entry.Worded

/-- The searched entries are plain and have different flags. -/
structure CommandSpec.Plain (spec : CommandSpec) : Prop where
  flags : (spec.searched.map OptionEntry.flag).Nodup
  entries : ∀ entry ∈ spec.searched, entry.Plain

variable {spec : CommandSpec}

theorem CommandSpec.Worded.plain (worded : spec.Worded)
    (uniform : ∀ entry ∈ spec.searched, entry.Uniform) : spec.Plain :=
  ⟨worded.flags, fun entry searched => ⟨worded.entries entry searched, uniform entry searched⟩⟩

/-- The option comes from a searched entry. -/
def CommandSpec.Known (spec : CommandSpec) (opt : SpecOption) : Prop :=
  ∃ entry ∈ spec.searched, opt ∈ entry.options

theorem known_of_mem_loadOptions {entries : List OptionEntry} (among : entries ⊆ spec.primary ++ spec.second)
    {opt : SpecOption} (member : opt ∈ loadOptions entries) : spec.Known opt := by
  rw [loadOptions_eq_flatMap, List.mem_flatMap] at member
  rcases member with ⟨entry, inside, isOption⟩
  exact ⟨entry, List.mem_filter.mpr ⟨among inside, includeInSearch_of_mem_options isOption⟩, isOption⟩

theorem printed_of_mem_options {entry : OptionEntry} {opt : SpecOption} (member : opt ∈ entry.options) :
    opt.selectedFlag = entry.flag ∧ opt.chunks = (SpecOption.fromYamlDict entry).chunks := by
  have same := toCliOption_of_mem_options member
  exact ⟨congrArg CliOption.selectedFlag same, chunks_of_mem_options member⟩

theorem CommandSpec.Plain.markedCode (plain : spec.Plain) :
    MarkedCode (fun opt : SpecOption => opt.chunks.map split) SpecOption.printed spec.Known where
  blank := by
    rintro opt - silent words isWords
    rcases List.mem_map.mp isWords with ⟨chunk, isChunk, rfl⟩
    exact printed_eq_none_iff.mp silent chunk isChunk
  marked := by
    rintro opt ⟨entry, searched, member⟩ flag printed words isWords
    rcases List.mem_map.mp isWords with ⟨chunk, isChunk, rfl⟩
    rcases printed_of_mem_options member with ⟨isFlag, chunks⟩
    rw [chunks] at isChunk
    have isEntry := plain.entries entry searched
    have spoken : split chunk ≠ [] := by
      intro blank
      have silent : opt.printed = none := by
        rw [printed_eq_none_iff, chunks]
        intro second isSecond
        have lengths := (isEntry.chunks_spec isSecond isChunk).1
        rwa [blank, List.length_nil, List.length_eq_zero_iff] at lengths
      rw [silent] at printed
      cases printed
    rw [← printed_eq_some printed, isFlag]
    exact (isEntry.chunks_spec isChunk isChunk).2.2.resolve_left spoken
  same := by
    rintro first second ⟨entry, searched, member⟩ ⟨other, otherSearched, otherMember⟩ prints same
    rcases Option.ne_none_iff_exists'.mp prints with ⟨flag, isFlag⟩
    rcases printed_of_mem_options member with ⟨firstFlag, chunks⟩
    rcases printed_of_mem_options otherMember with ⟨secondFlag, otherChunks⟩
    have flags : entry.flag = other.flag := by
      rw [← firstFlag, ← secondFlag, printed_eq_some isFlag, printed_eq_some (same ▸ isFlag)]
    rw [chunks, otherChunks,
      List.inj_on_of_nodup_map plain.flags searched otherSearched flags]
  uniform := by
    rintro opt ⟨entry, searched, member⟩ first isFirst second isSecond
    rcases List.mem_map.mp isFirst with ⟨chunk, isChunk, rfl⟩
    rcases List.mem_map.mp isSecond with ⟨other, isOther, rfl⟩
    rw [(printed_of_mem_options member).2] at isChunk isOther
    exact ((plain.entries entry searched).chunks_spec isChunk isOther).1

theorem CommandSpec.Plain.split_injOn (plain : spec.Plain) {opt : SpecOption} (known : spec.Known opt)
    {chunk other : PyStr} (isChunk : chunk ∈ opt.chunks) (isOther : other ∈ opt.chunks)
    (same : split chunk = split other) : chunk = other := by
  rcases known with ⟨entry, searched, member⟩
  rw [(printed_of_mem_options member).2] at isChunk isOther
  exact ((plain.entries entry searched).chunks_spec isChunk isOther).2.1 same

theorem CommandSpec.Plain.nodup_chunks (plain : spec.Plain) {opt : SpecOption}
    (known : spec.Known opt) : opt.chunks.Nodup := by
  rcases known with ⟨entry, searched, member⟩
  rw [(printed_of_mem_options member).2]
  exact (plain.entries entry searched).nodup_chunks

end Words

section Rows

variable {spec : CommandSpec} {options : List SpecOption}

theorem mem_product_iff {lists : List (List PyStr)} {row : List PyStr} :
    row ∈ product lists ↔ List.Forall₂ (fun list chunk => chunk ∈ list) lists row := by
  induction lists generalizing row with
  | nil => simp [product]
  | cons first rest inductionHypothesis =>
      simp only [product, List.mem_flatMap, List.mem_map, inductionHypothesis]
      constructor
      · rintro ⟨chunk, member, tail, rows, rfl⟩
        exact .cons member rows
      · intro rows
        cases rows with
        | @cons _ chunk _ tail member rows => exact ⟨chunk, member, tail, rows, rfl⟩

theorem nodup_product {lists : List (List PyStr)} (nodup : ∀ list ∈ lists, list.Nodup) :
    (product lists).Nodup := by
  induction lists with
  | nil => simp [product]
  | cons first rest inductionHypothesis =>
      have later := inductionHypothesis fun list member => nodup list (List.mem_cons_of_mem _ member)
      rw [product, List.nodup_flatMap]
      refine ⟨fun chunk _ => later.map (List.cons_injective), ?_⟩
      refine (nodup first List.mem_cons_self).imp fun {chunk other} apart row isRow isOther => ?_
      rcases List.mem_map.mp isRow with ⟨tail, -, rfl⟩
      rcases List.mem_map.mp isOther with ⟨otherTail, -, same⟩
      exact apart (List.cons.inj same).1.symm

/-- The options of a combination that have a chunk. -/
def speaking (options : List SpecOption) : List SpecOption :=
  options.filter fun opt => !opt.chunks.isEmpty

theorem mem_speaking {opt : SpecOption} :
    opt ∈ speaking options ↔ opt ∈ options ∧ opt.chunks ≠ [] := by
  simp [speaking]

def printedFlags (options : List SpecOption) : List PyStr := options.filterMap SpecOption.printed

theorem printedFlags_speaking (options : List SpecOption) :
    (speaking options).filterMap SpecOption.printed = printedFlags options := by
  rw [speaking, printedFlags, List.filterMap_filter]
  congr 1
  funext opt
  cases chunks : opt.chunks with
  | nil => simp [SpecOption.printed, chunks]
  | cons chunk rest => simp

theorem map_split_buildArgs (spoken : speaking options ≠ []) :
    (buildArgsForCombinations (options.map SpecOption.toCliOption)).map split =
      (product ((speaking options).map SpecOption.chunks)).map fun row => (row.map split).flatten := by
  have filtered : ((options.map SpecOption.toCliOption).map buildArgsForOption).filter
      (!·.isEmpty) = (speaking options).map SpecOption.chunks := by
    rw [List.map_map, speaking, List.filter_map]
    rfl
  rw [buildArgsForCombinations, filtered]
  split
  · next none =>
    rw [List.map_eq_nil_iff] at none
    exact absurd none spoken
  · rw [List.map_map]
    exact List.map_congr_left fun row _ => words_intercalate (by decide) row

end Rows

section Selections

variable {spec : CommandSpec} {options others : List SpecOption} {words : List (List PyStr)}

theorem prints_iff : Prints (fun opt : SpecOption => opt.chunks.map split) options words ↔
    ∃ row ∈ product (options.map SpecOption.chunks), row.map split = words := by
  simp only [mem_product_iff, List.forall₂_map_left_iff]
  constructor
  · intro prints
    induction prints with
    | nil => exact ⟨[], .nil, rfl⟩
    | @cons opt word options words isWord prints inductionHypothesis =>
        rcases List.mem_map.mp isWord with ⟨chunk, isChunk, rfl⟩
        rcases inductionHypothesis with ⟨row, isRow, rfl⟩
        exact ⟨chunk :: row, .cons isChunk isRow, rfl⟩
  · rintro ⟨row, isRow, rfl⟩
    rw [Prints, List.forall₂_map_right_iff]
    exact isRow.imp fun opt chunk isChunk => List.mem_map_of_mem isChunk

theorem CommandSpec.Plain.map_split_injective (plain : spec.Plain)
    (known : ∀ opt ∈ options, spec.Known opt) {row other : List PyStr}
    (isRow : row ∈ product (options.map SpecOption.chunks))
    (isOther : other ∈ product (options.map SpecOption.chunks))
    (same : row.map split = other.map split) : row = other := by
  rw [mem_product_iff, List.forall₂_map_left_iff] at isRow isOther
  induction isRow generalizing other with
  | nil =>
      cases isOther
      rfl
  | @cons opt chunk options row isChunk isRow inductionHypothesis =>
      cases isOther with
      | @cons _ second _ others isSecond isOther =>
          rcases List.cons.inj same with ⟨first, rest⟩
          rw [plain.split_injOn (known opt List.mem_cons_self) isChunk isSecond first,
            inductionHypothesis (fun opt member => known opt (List.mem_cons_of_mem _ member))
              isOther rest]

theorem CommandSpec.Plain.nodup_map_split (plain : spec.Plain)
    (known : ∀ opt ∈ options, spec.Known opt) :
    ((buildArgsForCombinations (options.map SpecOption.toCliOption)).map split).Nodup := by
  have speakers : ∀ opt ∈ speaking options, spec.Known opt :=
    fun opt member => known opt (mem_speaking.mp member).1
  by_cases spoken : speaking options = []
  · have silent : ¬ ∃ opt ∈ options, opt.chunks ≠ [] := by
      rintro ⟨opt, member, chunk⟩
      have speaks := mem_speaking.mpr ⟨member, chunk⟩
      rw [spoken] at speaks
      cases speaks
    rw [← buildArgsForCombinations_ne_nil_iff, not_not] at silent
    simp [silent]
  · rw [map_split_buildArgs spoken]
    refine List.Nodup.map_on ?_ (nodup_product ?_)
    · intro row isRow other isOther same
      refine plain.map_split_injective speakers isRow isOther ?_
      exact plain.markedCode.row_eq speakers (prints_iff.mpr ⟨row, isRow, rfl⟩)
        (prints_iff.mpr ⟨other, isOther, rfl⟩) same
    · intro list member
      rcases List.mem_map.mp member with ⟨opt, speaks, rfl⟩
      exact plain.nodup_chunks (speakers opt speaks)

theorem mem_map_split_buildArgs (spoken : speaking options ≠ []) {arguments : List PyStr} :
    arguments ∈ (buildArgsForCombinations (options.map SpecOption.toCliOption)).map split ↔
      ∃ words, Prints (fun opt : SpecOption => opt.chunks.map split) (speaking options) words ∧
        words.flatten = arguments := by
  rw [map_split_buildArgs spoken, List.mem_map]
  constructor
  · rintro ⟨row, isRow, same⟩
    exact ⟨row.map split, prints_iff.mpr ⟨row, isRow, rfl⟩, same⟩
  · rintro ⟨words, prints, same⟩
    rcases prints_iff.mp prints with ⟨row, isRow, rfl⟩
    exact ⟨row, isRow, same⟩

/-- Two combinations with chunks have an argument list in common exactly when
they print the same flags. -/
theorem CommandSpec.Plain.exists_common_iff (plain : spec.Plain)
    (known : ∀ opt ∈ options, spec.Known opt) (otherKnown : ∀ opt ∈ others, spec.Known opt)
    (spoken : speaking options ≠ []) (otherSpoken : speaking others ≠ []) :
    (∃ arguments, arguments ∈
        (buildArgsForCombinations (options.map SpecOption.toCliOption)).map split ∧
      arguments ∈ (buildArgsForCombinations (others.map SpecOption.toCliOption)).map split) ↔
      printedFlags options = printedFlags others := by
  have speakers : ∀ opt ∈ speaking options, spec.Known opt :=
    fun opt member => known opt (mem_speaking.mp member).1
  have otherSpeakers : ∀ opt ∈ speaking others, spec.Known opt :=
    fun opt member => otherKnown opt (mem_speaking.mp member).1
  simp only [mem_map_split_buildArgs spoken, mem_map_split_buildArgs otherSpoken]
  rw [← printedFlags_speaking options, ← printedFlags_speaking others]
  constructor
  · rintro ⟨arguments, ⟨words, prints, rfl⟩, ⟨second, otherPrints, same⟩⟩
    exact plain.markedCode.filterMap_eq speakers otherSpeakers prints otherPrints same.symm
  · intro flags
    have full : ∀ list ∈ (speaking options).map SpecOption.chunks, list ≠ [] := by
      intro list member
      rcases List.mem_map.mp member with ⟨opt, speaks, rfl⟩
      exact (mem_speaking.mp speaks).2
    rcases List.exists_mem_of_ne_nil _ (product_ne_nil full) with ⟨row, isRow⟩
    have prints := prints_iff.mpr ⟨row, isRow, rfl⟩
    have speaks : ∀ opt ∈ speaking others, opt.chunks.map split ≠ [] := by
      intro opt member
      rw [ne_eq, List.map_eq_nil_iff]
      exact (mem_speaking.mp member).2
    rcases plain.markedCode.exists_prints speakers otherSpeakers speaks prints flags with
      ⟨other, otherPrints, same⟩
    exact ⟨_, ⟨_, prints, rfl⟩, ⟨other, otherPrints, same.symm⟩⟩

end Selections

section Drivers

variable {spec : CommandSpec} {success : Nat → Bool} {s : GenState}

/-- The arguments of a candidate and the output that it selects. -/
def Candidate.configuration (c : Candidate) : List PyStr × Option PyStr :=
  (split c.args, selectOutput c.primary c.secondaries)

/-- The output of a driver; one that was built with `None` keeps it. -/
def Accepted.output (a : Accepted) : Option PyStr :=
  (selectOutput a.candidate.primary a.candidate.secondaries).map fun _ => a.driver.output

/-- Any two accepted drivers differ in their arguments or in their output. -/
def CommandSpec.DistinctConfigurations (spec : CommandSpec) : Prop :=
  ∀ success s, generate spec success = .ok s →
    s.accepted.Pairwise fun first second =>
      first.driver.flattenArgs ≠ second.driver.flattenArgs ∨ first.output ≠ second.output

theorem formOutput_injective {io : IOSpec} {output other formed : PyStr}
    (isFormed : formOutput io output = .ok formed) (isOther : formOutput io other = .ok formed) :
    output = other := by
  have cases (text : PyStr) (result : formOutput io text = .ok formed) :
      text = [] ∧ formed = [] ∨ text ≠ [] ∧ (io.output.kind = .positional ∧ formed = text ∨
        io.output.kind = .flagged ∧ ∃ flag, io.output.flag = some flag ∧ formed = flagValue flag text) := by
    rw [formOutput] at result
    split at result
    · next empty => exact .inl ⟨empty, by rw [← Except.ok.inj result, empty]⟩
    · next some =>
      split at result
      · next kind => exact .inr ⟨some, .inl ⟨kind, (Except.ok.inj result).symm⟩⟩
      · cases result
      · next flag kind isFlag =>
        split at result
        · cases result
        · exact .inr ⟨some, .inr ⟨kind, flag, isFlag, (Except.ok.inj result).symm⟩⟩
  rcases cases output isFormed with ⟨rfl, rfl⟩ | ⟨some, ⟨kind, rfl⟩ | ⟨kind, flag, isFlag, rfl⟩⟩
  · rcases cases other isOther with ⟨rfl, -⟩ | ⟨otherSome, ⟨-, same⟩ | ⟨-, flag, -, same⟩⟩
    · rfl
    · exact absurd same.symm otherSome
    · simp [flagValue] at same
  · rcases cases other isOther with ⟨rfl, empty⟩ | ⟨-, ⟨-, same⟩ | ⟨otherKind, -⟩⟩
    · exact absurd empty some
    · exact same
    · rw [kind] at otherKind
      cases otherKind
  · rcases cases other isOther with ⟨-, empty⟩ | ⟨-, ⟨otherKind, -⟩ | ⟨-, second, isSecond, same⟩⟩
    · simp [flagValue] at empty
    · rw [kind] at otherKind
      cases otherKind
    · rw [isFlag] at isSecond
      cases isSecond
      exact flagValue_injective flag same

/-- The driver of every accepted candidate was built for it. -/
def GenState.Built (spec : CommandSpec) (s : GenState) : Prop :=
  ∀ a ∈ s.accepted, ∃ id, Driver.init (a.candidate.driverSpec spec id) = .ok a.driver

theorem built_of_generate (generated : generate spec success = .ok s) : s.Built spec := by
  rcases generate_eq_ok generated with ⟨final, returned, rfl⟩
  have start : GenState.start.Built spec := fun a member => by cases member
  have built : final.Built spec := by
    refine foldlM_ok_invariant ?_ start returned
    intro state c _ next built taken
    rcases GenState.tryCandidate_cases taken with ⟨driver, isDriver, ⟨-, rfl⟩ | ⟨-, rfl⟩⟩
    · intro a member
      rcases List.mem_append.mp member with earlier | last
      · exact built a earlier
      · cases List.mem_singleton.mp last
        exact ⟨_, isDriver⟩
    · exact built
  exact built

theorem flattenArgs_eq {c : Candidate} {id : Nat} {driver : Driver}
    (built : Driver.init (c.driverSpec spec id) = .ok driver) :
    driver.flattenArgs = split c.args ++ (c.driverSpec spec id).inputFlag.flatMap split := by
  have words : (fun text : PyStr => if text = [] then [] else split text) = split := by
    funext text
    split
    · next empty => rw [empty]; rfl
    · rfl
  rw [Driver.flattenArgs, formInput_ok (init_eq_ok built).2.2.1, words]
  simp [Candidate.driverSpec]

/-- Two drivers are the same configuration exactly when their candidates are. -/
theorem configuration_eq_iff {first second : Accepted} {id other : Nat}
    (built : Driver.init (first.candidate.driverSpec spec id) = .ok first.driver)
    (otherBuilt : Driver.init (second.candidate.driverSpec spec other) = .ok second.driver) :
    first.driver.flattenArgs = second.driver.flattenArgs ∧ first.output = second.output ↔
      first.candidate.configuration = second.candidate.configuration := by
  have flags : (first.candidate.driverSpec spec id).inputFlag =
      (second.candidate.driverSpec spec other).inputFlag := rfl
  have formed := (init_eq_ok built).2.2.2
  have otherFormed := (init_eq_ok otherBuilt).2.2.2
  rw [flattenArgs_eq built, flattenArgs_eq otherBuilt, flags, List.append_left_inj,
    Candidate.configuration, Candidate.configuration, Prod.mk.injEq, Accepted.output, Accepted.output]
  dsimp only [Candidate.driverSpec] at formed otherFormed
  refine and_congr_right fun _ => ?_
  cases isFirst : selectOutput first.candidate.primary first.candidate.secondaries with
  | none =>
      cases isSecond : selectOutput second.candidate.primary second.candidate.secondaries with
      | none => simp
      | some text => simp
  | some text =>
      cases isSecond : selectOutput second.candidate.primary second.candidate.secondaries with
      | none => simp
      | some otherText =>
          rw [isFirst] at formed
          rw [isSecond] at otherFormed
          simp only [Option.map_some, Option.some.injEq]
          constructor
          · intro same
            rw [← same] at otherFormed
            exact formOutput_injective formed otherFormed
          · rintro rfl
            exact Except.ok.inj (formed.symm.trans otherFormed)

/-- The drivers are different configurations when the candidates are, and an
error leaves none. -/
theorem distinctConfigurations_iff_nodup (spec : CommandSpec) :
    spec.DistinctConfigurations ↔
      (spec.Runs → (spec.candidates.map Candidate.configuration).Nodup) := by
  have pairs {success : Nat → Bool} {s : GenState} (generated : generate spec success = .ok s) :
      (s.accepted.Pairwise fun first second =>
        first.driver.flattenArgs ≠ second.driver.flattenArgs ∨ first.output ≠ second.output) ↔
        ((s.accepted.map Accepted.candidate).map Candidate.configuration).Nodup := by
    rw [List.map_map, List.nodup_iff_pairwise_ne, List.pairwise_map]
    refine List.Pairwise.iff_of_mem fun {first second} isFirst isSecond => ?_
    rcases built_of_generate generated first isFirst with ⟨id, built⟩
    rcases built_of_generate generated second isSecond with ⟨other, otherBuilt⟩
    simp only [Function.comp_apply, ne_eq, ← configuration_eq_iff built otherBuilt, not_and_or]
  constructor
  · intro distinct runs
    rcases (@generate_isOk_iff spec fun _ => true).mpr runs with ⟨s, generated⟩
    rw [← (generate_accepted generated).2 fun _ => rfl]
    exact (pairs generated).mp (distinct _ s generated)
  · intro nodup success s generated
    have all := nodup (generate_isOk_iff.mp ⟨s, generated⟩)
    exact (pairs generated).mpr (all.sublist ((generate_accepted generated).1.map _))

end Drivers

section Ambiguity

variable {spec : CommandSpec}

/-- A primary option with the secondary ones of a combination. -/
abbrev Selection := SpecOption × List SpecOption

/-- The selections in the order in which they are tried. -/
def CommandSpec.selections (spec : CommandSpec) : List Selection :=
  spec.primaryOptions.map (·, []) ++ spec.primaryOptions.flatMap fun primary =>
    (List.range' 1 spec.maxSecondary).flatMap fun k =>
      (combinations k spec.secondOptions).map (primary, ·)

def Selection.candidates (selection : Selection) : List Candidate :=
  (buildArgsForCombinations ((selection.1 :: selection.2).map SpecOption.toCliOption)).map
    fun args => ⟨selection.1, selection.2, args⟩

theorem primaryCandidates_eq (spec : CommandSpec) :
    spec.primaryCandidates = (spec.primaryOptions.map (·, [])).flatMap Selection.candidates := by
  rw [CommandSpec.primaryCandidates, List.flatMap_map]
  refine congrArg (List.flatMap · spec.primaryOptions) (funext fun primary => ?_)
  rw [Selection.candidates, List.map_cons, List.map_nil, buildArgsForCombinations_singleton]

theorem genAllSecondaryCombos_eq {primary : SpecOption} {secondaries : List SpecOption} {k : Nat}
    (positive : 0 < k) : genAllSecondaryCombos primary secondaries k =
      ((combinations k secondaries).map (primary, ·)).flatMap Selection.candidates := by
  rw [genAllSecondaryCombos, List.flatMap_map]
  split
  · next none =>
    have empty : secondaries = [] := none.resolve_left positive.ne'
    rcases Nat.exists_eq_succ_of_ne_zero positive.ne' with ⟨size, rfl⟩
    rw [empty, combinations]
    rfl
  · rfl

theorem combinedCandidates_eq (spec : CommandSpec) :
    spec.combinedCandidates = (spec.primaryOptions.flatMap fun primary =>
      (List.range' 1 spec.maxSecondary).flatMap fun k =>
        (combinations k spec.secondOptions).map (primary, ·)).flatMap Selection.candidates := by
  have combos (primary : SpecOption) :
      (List.range' 1 spec.maxSecondary).flatMap (genAllSecondaryCombos primary spec.secondOptions) =
        ((List.range' 1 spec.maxSecondary).flatMap fun k =>
          (combinations k spec.secondOptions).map (primary, ·)).flatMap Selection.candidates := by
    rw [List.flatMap_assoc]
    exact List.flatMap_congr fun k member => genAllSecondaryCombos_eq (List.mem_range'_1.mp member).1
  rw [List.flatMap_assoc, ← funext combos, CommandSpec.combinedCandidates]
  split
  · rfl
  · next skipped =>
    rw [not_and_or, not_not, Nat.not_lt, Nat.le_zero] at skipped
    rcases skipped with none | none
    · simp [none]
    · simp [none, genAllSecondaryCombos]

theorem candidates_eq_flatMap (spec : CommandSpec) :
    spec.candidates = spec.selections.flatMap Selection.candidates := by
  rw [CommandSpec.candidates, primaryCandidates_eq, combinedCandidates_eq, CommandSpec.selections,
    List.flatMap_append]

/-- The flags that a selection prints, and the output that it selects. -/
def Selection.key (selection : Selection) : List PyStr × Option PyStr :=
  (printedFlags (selection.1 :: selection.2), selectOutput selection.1 selection.2)

def Selection.Voiced (selection : Selection) : Prop := ∃ opt ∈ selection.1 :: selection.2, opt.chunks ≠ []

instance (selection : Selection) : Decidable selection.Voiced :=
  inferInstanceAs (Decidable (∃ opt ∈ _, _))

/-- No two selections with chunks print the same flags and select the same
output. -/
def CommandSpec.Unambiguous (spec : CommandSpec) : Prop :=
  ((spec.selections.filter fun selection => selection.Voiced).map Selection.key).Nodup

theorem known_of_mem_selections {selection : Selection} (member : selection ∈ spec.selections) :
    ∀ opt ∈ selection.1 :: selection.2, spec.Known opt := by
  have primary {opt : SpecOption} (among : opt ∈ spec.primaryOptions) : spec.Known opt :=
    known_of_mem_loadOptions (List.subset_append_left _ _) among
  have second {opt : SpecOption} (among : opt ∈ spec.secondOptions) : spec.Known opt :=
    known_of_mem_loadOptions (List.subset_append_right _ _) among
  rcases List.mem_append.mp member with alone | combined
  · rcases List.mem_map.mp alone with ⟨opt, among, rfl⟩
    simpa using primary among
  · rcases List.mem_flatMap.mp combined with ⟨opt, among, combined⟩
    rcases List.mem_flatMap.mp combined with ⟨k, -, combined⟩
    rcases List.mem_map.mp combined with ⟨subset, selected, rfl⟩
    rw [List.forall_mem_cons]
    exact ⟨primary among, fun other used => second ((mem_combinations.mp selected).1.subset used)⟩

def Selection.arguments (selection : Selection) : List (List PyStr) :=
  (buildArgsForCombinations ((selection.1 :: selection.2).map SpecOption.toCliOption)).map split

/-- No selection gives an argument list twice, and two selections with the same
output have none in common. -/
structure CommandSpec.Unmixed (spec : CommandSpec) : Prop where
  each : ∀ selection ∈ spec.selections, selection.arguments.Nodup
  pairs : spec.selections.Pairwise fun first second =>
    selectOutput first.1 first.2 = selectOutput second.1 second.2 →
      first.arguments.Disjoint second.arguments

theorem configurations_of_selection (selection : Selection) :
    selection.candidates.map Candidate.configuration =
      selection.arguments.map (·, selectOutput selection.1 selection.2) := by
  rw [Selection.candidates, Selection.arguments, List.map_map, List.map_map]
  rfl

theorem disjoint_configurations_iff {first second : Selection} :
    (first.candidates.map Candidate.configuration).Disjoint
        (second.candidates.map Candidate.configuration) ↔
      (selectOutput first.1 first.2 = selectOutput second.1 second.2 →
        first.arguments.Disjoint second.arguments) := by
  rw [configurations_of_selection, configurations_of_selection]
  constructor
  · intro disjoint output arguments isFirst isSecond
    refine disjoint (List.mem_map_of_mem isFirst) ?_
    rw [output]
    exact List.mem_map_of_mem isSecond
  · rintro apart configuration isFirst isSecond
    rcases List.mem_map.mp isFirst with ⟨arguments, inFirst, rfl⟩
    rcases List.mem_map.mp isSecond with ⟨others, inSecond, same⟩
    rcases Prod.mk.inj same with ⟨rfl, output⟩
    exact apart output.symm inFirst inSecond

/-- The candidates are different configurations exactly when the selections do
not mix. -/
theorem nodup_configurations_iff (spec : CommandSpec) :
    (spec.candidates.map Candidate.configuration).Nodup ↔ spec.Unmixed := by
  have each (selection : Selection) : (selection.candidates.map Candidate.configuration).Nodup ↔
      selection.arguments.Nodup := by
    rw [configurations_of_selection]
    exact List.nodup_map_iff (Prod.mk_left_injective _)
  rw [candidates_eq_flatMap, List.map_flatMap, List.nodup_flatMap]
  constructor
  · rintro ⟨nodup, pairs⟩
    exact ⟨fun selection member => (each selection).mp (nodup selection member),
      pairs.imp disjoint_configurations_iff.mp⟩
  · rintro ⟨nodup, pairs⟩
    exact ⟨fun selection member => (each selection).mpr (nodup selection member),
      pairs.imp disjoint_configurations_iff.mpr⟩

theorem voiced_iff {selection : Selection} :
    selection.Voiced ↔ speaking (selection.1 :: selection.2) ≠ [] := by
  rw [ne_eq, List.eq_nil_iff_forall_not_mem, not_forall_not]
  simp only [mem_speaking]
  rfl

theorem arguments_eq_nil {selection : Selection} (silent : ¬ selection.Voiced) :
    selection.arguments = [] := by
  rw [Selection.Voiced, ← buildArgsForCombinations_ne_nil_iff, not_not] at silent
  rw [Selection.arguments, silent, List.map_nil]

/-- Two selections with the same output have an argument list in common when
both have chunks and their keys agree. -/
theorem CommandSpec.Plain.disjoint_arguments_iff (plain : spec.Plain) {first second : Selection}
    (firstIn : first ∈ spec.selections) (secondIn : second ∈ spec.selections) :
    (selectOutput first.1 first.2 = selectOutput second.1 second.2 →
        first.arguments.Disjoint second.arguments) ↔
      (first.Voiced → second.Voiced → first.key ≠ second.key) := by
  by_cases isVoiced : first.Voiced
  · by_cases isOther : second.Voiced
    · have common := plain.exists_common_iff (known_of_mem_selections firstIn)
        (known_of_mem_selections secondIn) (voiced_iff.mp isVoiced) (voiced_iff.mp isOther)
      simp only [isVoiced, isOther, forall_const, Selection.key, ne_eq, Prod.mk.injEq]
      rw [← common]
      constructor
      · rintro disjoint ⟨⟨arguments, isFirst, isSecond⟩, output⟩
        exact disjoint output isFirst isSecond
      · rintro apart output arguments isFirst isSecond
        exact apart ⟨⟨arguments, isFirst, isSecond⟩, output⟩
    · simp [arguments_eq_nil isOther, isOther]
  · simp [arguments_eq_nil isVoiced, isVoiced]

/-- Selections of plain options do not mix exactly when no two print the same
flags and select the same output. -/
theorem CommandSpec.Plain.unmixed_iff (plain : spec.Plain) : spec.Unmixed ↔ spec.Unambiguous := by
  have pairs : (spec.selections.Pairwise fun first second =>
      selectOutput first.1 first.2 = selectOutput second.1 second.2 →
        first.arguments.Disjoint second.arguments) ↔ spec.Unambiguous := by
    rw [CommandSpec.Unambiguous, List.nodup_iff_pairwise_ne, List.pairwise_map, List.pairwise_filter]
    refine List.Pairwise.iff_of_mem fun {first second} firstIn secondIn => ?_
    simpa using plain.disjoint_arguments_iff firstIn secondIn
  rw [← pairs]
  refine ⟨CommandSpec.Unmixed.pairs, fun apart => ⟨fun selection member => ?_, apart⟩⟩
  exact plain.nodup_map_split (known_of_mem_selections member)

end Ambiguity

end GraphDissect.Drivergen
