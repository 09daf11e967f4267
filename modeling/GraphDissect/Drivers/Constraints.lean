import GraphDissect.Drivers.Generate

/-!
# Generated drivers and the constraints

`generate` promises to respect the constraints of the specification and never
asks `Constraints.is_valid`.  Which specifications it serves is decided by the
pairs of options that share a limited group.
-/

namespace GraphDissect.Drivergen

open Library

section Candidates

variable {spec : CommandSpec}

theorem product_ne_nil {lists : List (List PyStr)} (full : ∀ list ∈ lists, list ≠ []) :
    product lists ≠ [] := by
  induction lists with
  | nil => simp [product]
  | cons first rest inductionHypothesis =>
      have more := inductionHypothesis fun list member => full list (List.mem_cons_of_mem first member)
      rcases List.exists_mem_of_ne_nil first (full first List.mem_cons_self) with ⟨chunk, member⟩
      rcases List.exists_mem_of_ne_nil _ more with ⟨row, inside⟩
      exact List.ne_nil_of_mem
        (List.mem_flatMap.mpr ⟨chunk, member, List.mem_map_of_mem inside⟩)

theorem buildArgsForCombinations_ne_nil_iff {options : List SpecOption} :
    buildArgsForCombinations (options.map SpecOption.toCliOption) ≠ [] ↔
      ∃ opt ∈ options, opt.chunks ≠ [] := by
  have filtered : ((options.map SpecOption.toCliOption).map buildArgsForOption).filter
      (!·.isEmpty) = (options.map SpecOption.chunks).filter (!·.isEmpty) := by
    rw [List.map_map]
    rfl
  rw [buildArgsForCombinations, filtered]
  split
  · next none =>
    rw [List.filter_eq_nil_iff] at none
    simpa using none
  · next some =>
    have kept := List.exists_mem_of_ne_nil _ some
    rw [ne_eq, List.map_eq_nil_iff]
    refine ⟨fun _ => ?_, fun _ => product_ne_nil fun list member => ?_⟩
    · simpa using kept
    · simpa using List.of_mem_filter member

theorem buildArgsForCombinations_singleton (opt : SpecOption) :
    buildArgsForCombinations [opt.toCliOption] = opt.chunks := by
  have rows (chunks : List PyStr) : (product [chunks]).map (List.intercalate [' ']) = chunks := by
    simp [product, ← List.map_eq_flatMap, List.intercalate, Function.comp_def]
  unfold buildArgsForCombinations SpecOption.chunks
  cases chunks : buildArgsForOption opt.toCliOption with
  | nil => simp [chunks]
  | cons first rest => simpa [chunks] using rows (first :: rest)

theorem mem_primaryCandidates_iff {c : Candidate} :
    c ∈ spec.primaryCandidates ↔ c.primary ∈ spec.primaryOptions ∧ c.secondaries = [] ∧
      c.args ∈ c.primary.chunks := by
  rw [CommandSpec.primaryCandidates, List.mem_flatMap]
  constructor
  · rintro ⟨primary, member, inside⟩
    rcases List.mem_map.mp inside with ⟨chunk, isChunk, rfl⟩
    exact ⟨member, rfl, isChunk⟩
  · rintro ⟨member, none, isChunk⟩
    exact ⟨c.primary, member, List.mem_map.mpr ⟨c.args, isChunk, by rw [← none]⟩⟩

theorem mem_genAllSecondaryCombos_iff {primary : SpecOption} {secondaries : List SpecOption}
    {k : Nat} (positive : 0 < k) {c : Candidate} :
    c ∈ genAllSecondaryCombos primary secondaries k ↔ c.primary = primary ∧
      c.secondaries.Sublist secondaries ∧ c.secondaries.length = k ∧
      c.args ∈ buildArgsForCombinations ((c.primary :: c.secondaries).map SpecOption.toCliOption) := by
  rw [genAllSecondaryCombos]
  split
  · next none =>
    have empty : secondaries = [] := none.resolve_left positive.ne'
    subst empty
    simp only [List.not_mem_nil, List.sublist_nil, false_iff]
    rintro ⟨-, nothing, length, -⟩
    rw [nothing] at length
    exact absurd length positive.ne
  · rw [List.mem_flatMap]
    constructor
    · rintro ⟨subset, selected, inside⟩
      rcases List.mem_map.mp inside with ⟨args, isArgs, rfl⟩
      rcases mem_combinations.mp selected with ⟨sublist, length⟩
      exact ⟨rfl, sublist, length, isArgs⟩
    · rintro ⟨rfl, sublist, length, isArgs⟩
      exact ⟨c.secondaries, mem_combinations.mpr ⟨sublist, length⟩,
        List.mem_map.mpr ⟨c.args, isArgs, rfl⟩⟩

theorem mem_combinedCandidates_iff {c : Candidate} :
    c ∈ spec.combinedCandidates ↔ c.primary ∈ spec.primaryOptions ∧ c.secondaries ≠ [] ∧
      c.secondaries.Sublist spec.secondOptions ∧ c.secondaries.length ≤ spec.maxSecondary ∧
      c.args ∈ buildArgsForCombinations ((c.primary :: c.secondaries).map SpecOption.toCliOption) := by
  rw [CommandSpec.combinedCandidates]
  split
  · simp only [List.mem_flatMap, List.mem_range'_1]
    constructor
    · rintro ⟨primary, member, k, range, inside⟩
      rcases (mem_genAllSecondaryCombos_iff range.1).mp inside with ⟨rfl, sublist, length, isArgs⟩
      refine ⟨member, ?_, sublist, by omega, isArgs⟩
      rw [← List.length_pos_iff, length]
      exact range.1
    · rintro ⟨member, some, sublist, length, isArgs⟩
      have positive : 0 < c.secondaries.length := List.length_pos_iff.mpr some
      exact ⟨c.primary, member, c.secondaries.length, by omega,
        (mem_genAllSecondaryCombos_iff positive).mpr ⟨rfl, sublist, rfl, isArgs⟩⟩
  · next skipped =>
    simp only [List.not_mem_nil, false_iff]
    rintro ⟨-, some, sublist, length, -⟩
    refine skipped ⟨lt_of_lt_of_le (List.length_pos_iff.mpr some) length, ?_⟩
    intro empty
    rw [empty, List.sublist_nil] at sublist
    exact some sublist

/-- The candidates are the argument strings of a primary option and a selection
of secondary ones. -/
theorem mem_candidates_iff {c : Candidate} :
    c ∈ spec.candidates ↔ c.primary ∈ spec.primaryOptions ∧
      c.secondaries.Sublist spec.secondOptions ∧ c.secondaries.length ≤ spec.maxSecondary ∧
      c.args ∈ buildArgsForCombinations ((c.primary :: c.secondaries).map SpecOption.toCliOption) := by
  rw [CommandSpec.candidates, List.mem_append, mem_primaryCandidates_iff,
    mem_combinedCandidates_iff]
  by_cases none : c.secondaries = []
  · simp [none, buildArgsForCombinations_singleton]
  · simp [none]

end Candidates

section Pairs

def Clash (rules : List ConstraintRule) (first second : SpecOption) : Prop :=
  ∃ group ∈ atMostOneGroups rules, first.inGroup group = true ∧ second.inGroup group = true

theorem isValid_eq_false_iff {rules : List ConstraintRule} {options : List SpecOption} :
    isValid rules options = false ↔
      ∃ first second, [first, second].Sublist options ∧ Clash rules first second := by
  have twice (group : PyStr) : 1 < options.countP (·.inGroup group) ↔
      ∃ first second, [first, second].Sublist options ∧ first.inGroup group = true ∧
        second.inGroup group = true := two_le_countP_iff
  simp only [isValid, List.all_eq_false, decide_eq_true_eq, not_le, twice, Clash]
  constructor
  · rintro ⟨group, limited, first, second, pair, isFirst, isSecond⟩
    exact ⟨first, second, pair, group, limited, isFirst, isSecond⟩
  · rintro ⟨first, second, pair, group, limited, isFirst, isSecond⟩
    exact ⟨group, limited, first, second, pair, isFirst, isSecond⟩

namespace CommandSpec

variable {spec : CommandSpec} {primary : SpecOption} {chosen larger : List SpecOption}

/-- No combination of the primary option with these secondary ones has a chunk. -/
structure Silent (spec : CommandSpec) (primary : SpecOption) (chosen : List SpecOption) : Prop where
  used : ∀ opt ∈ primary :: chosen, opt.chunks = []
  others : chosen.length < spec.maxSecondary → ∀ opt ∈ spec.secondOptions, opt.chunks = []

theorem silent_iff (inside : chosen.Sublist spec.secondOptions)
    (short : chosen.length ≤ spec.maxSecondary) :
    spec.Silent primary chosen ↔ ∀ larger : List SpecOption, chosen.Sublist larger →
      larger.Sublist spec.secondOptions → larger.length ≤ spec.maxSecondary →
      ∀ opt ∈ primary :: larger, opt.chunks = [] := by
  constructor
  · intro silent larger contains sublist length opt member
    rcases List.mem_cons.mp member with rfl | selected
    · exact silent.used opt List.mem_cons_self
    · by_cases same : chosen.length < larger.length
      · exact silent.others (lt_of_lt_of_le same length) opt (sublist.subset selected)
      · rw [← contains.eq_of_length_le (by omega)] at selected
        exact silent.used opt (List.mem_cons_of_mem primary selected)
  · intro all
    refine ⟨all chosen (List.Sublist.refl _) inside short, fun room opt member => ?_⟩
    rcases exists_sublist_with inside member with ⟨larger, sublist, contains, has, length⟩
    exact all larger contains sublist (by omega) opt (List.mem_cons_of_mem primary has)

/-- Options that fit into one combination share a limited group only where no
such combination has a chunk. -/
structure Separated (spec : CommandSpec) : Prop where
  mixed : ∀ primary ∈ spec.primaryOptions, ∀ second ∈ spec.secondOptions,
    1 ≤ spec.maxSecondary → Clash spec.constraints primary second → spec.Silent primary [second]
  seconds : ∀ primary ∈ spec.primaryOptions, ∀ first second,
    [first, second].Sublist spec.secondOptions → 2 ≤ spec.maxSecondary →
      Clash spec.constraints first second → spec.Silent primary [first, second]

/-- Every accepted driver is built from a primary option and a bounded selection
of secondary ones that the constraints allow. -/
def RespectsConstraints (spec : CommandSpec) : Prop :=
  ∀ success s, generate spec success = .ok s → ∀ a ∈ s.accepted,
    a.candidate.primary ∈ spec.primaryOptions ∧
      a.candidate.secondaries.Sublist spec.secondOptions ∧
      a.candidate.secondaries.length ≤ spec.maxSecondary ∧
      isValid spec.constraints (a.candidate.primary :: a.candidate.secondaries) = true

theorem isValid_of_separated (separated : spec.Separated) (member : primary ∈ spec.primaryOptions)
    (sublist : larger.Sublist spec.secondOptions) (length : larger.length ≤ spec.maxSecondary)
    (voiced : ∃ opt ∈ primary :: larger, opt.chunks ≠ []) :
    isValid spec.constraints (primary :: larger) = true := by
  rcases voiced with ⟨opt, used, chunk⟩
  by_contra invalid
  rcases isValid_eq_false_iff.mp (Bool.eq_false_iff.mpr invalid) with ⟨first, second, pair, clash⟩
  -- The first of the two is the primary option, or both are secondary.
  cases pair with
  | cons_cons _ rest =>
      have selected : second ∈ larger := List.singleton_sublist.mp rest
      have room : 1 ≤ spec.maxSecondary := le_trans (List.length_pos_of_mem selected) length
      have silent := separated.mixed primary member second (sublist.subset selected) room clash
      exact chunk ((silent_iff (rest.trans sublist) room).mp silent larger rest sublist length opt used)
  | cons _ rest =>
      have room : 2 ≤ spec.maxSecondary := le_trans rest.length_le length
      have silent := separated.seconds primary member first second (rest.trans sublist) room clash
      exact chunk ((silent_iff (rest.trans sublist) room).mp silent larger rest sublist length opt used)

/-- Where all calibrations succeed every combination with a chunk becomes a
driver. -/
theorem RespectsConstraints.isValid (respects : spec.RespectsConstraints) (runs : spec.Runs)
    (member : primary ∈ spec.primaryOptions) (sublist : larger.Sublist spec.secondOptions)
    (length : larger.length ≤ spec.maxSecondary)
    (voiced : ∃ opt ∈ primary :: larger, opt.chunks ≠ []) :
    Drivergen.isValid spec.constraints (primary :: larger) = true := by
  rcases List.exists_mem_of_ne_nil _ (buildArgsForCombinations_ne_nil_iff.mpr voiced) with
    ⟨args, isArgs⟩
  have candidate : (⟨primary, larger, args⟩ : Candidate) ∈ spec.candidates :=
    mem_candidates_iff.mpr ⟨member, sublist, length, isArgs⟩
  rcases (@generate_isOk_iff spec fun _ => true).mpr runs with ⟨s, generated⟩
  rw [← (generate_accepted generated).2 fun _ => rfl] at candidate
  rcases List.mem_map.mp candidate with ⟨a, accepted, isCandidate⟩
  have valid := (respects _ s generated a accepted).2.2.2
  rwa [isCandidate] at valid

theorem RespectsConstraints.silent (respects : spec.RespectsConstraints) (runs : spec.Runs)
    (member : primary ∈ spec.primaryOptions) (inside : chosen.Sublist spec.secondOptions)
    (short : chosen.length ≤ spec.maxSecondary) {first second : SpecOption}
    (pair : [first, second].Sublist (primary :: chosen))
    (clash : Clash spec.constraints first second) : spec.Silent primary chosen := by
  rw [silent_iff inside short]
  intro larger contains sublist length opt used
  by_contra chunk
  have valid := respects.isValid runs member sublist length ⟨opt, used, chunk⟩
  rw [isValid_eq_false_iff.mpr ⟨first, second, pair.trans (contains.cons_cons primary), clash⟩] at valid
  cases valid

end CommandSpec

/-- The generator respects the constraints exactly when it raises an error, or
options that fit into one combination share a limited group only where no such
combination has a chunk. -/
theorem respectsConstraints_iff (spec : CommandSpec) :
    spec.RespectsConstraints ↔ (spec.Runs → spec.Separated) := by
  constructor
  · intro respects runs
    refine ⟨?_, ?_⟩
    · intro primary member second inside room clash
      exact respects.silent runs member (List.singleton_sublist.mpr inside) room
        (List.Sublist.refl _) clash
    · intro primary member first second inside room clash
      exact respects.silent runs member inside room (List.sublist_cons_self _ _) clash
  · intro separated success s generated a accepted
    have tried : a.candidate ∈ spec.candidates :=
      (generate_accepted generated).1.subset (List.mem_map_of_mem accepted)
    rcases mem_candidates_iff.mp tried with ⟨member, sublist, length, isArgs⟩
    have voiced := buildArgsForCombinations_ne_nil_iff.mp (List.ne_nil_of_mem isArgs)
    exact ⟨member, sublist, length, CommandSpec.isValid_of_separated
      (separated (generate_isOk_iff.mp ⟨s, generated⟩)) member sublist length voiced⟩

def modeEntry (flag : String) : OptionEntry where
  id := flag.toList
  cli := [flag.toList]
  kind := .flag
  choices := []
  defaults := []
  includeInSearch := true
  inPlaceEditing := false
  group := some "op_mode".toList
  output := some []
  description := []

/-- Compressing is a primary option, decompressing a secondary one, and the mode
is limited to one. -/
def xzSpec : CommandSpec where
  binary := "xz".toList
  maxCombination := 2
  baseArgs := []
  io := ⟨⟨.positional, none⟩, ⟨.positional, none⟩⟩
  primary := [modeEntry "-z"]
  second := [modeEntry "-d"]
  constraints := [.atMostOneFromGroup "op_mode".toList]

/-- The arguments of a driver, and whether the constraints allow its options. -/
def Accepted.judged (rules : List ConstraintRule) (a : Accepted) : List PyStr × Bool :=
  (a.driver.flattenArgs, isValid rules (a.candidate.primary :: a.candidate.secondaries))

/-- The second driver has both modes. -/
theorem xzSpec_mixes_modes :
    (generate xzSpec fun _ => true).toOption.map
        (fun s => s.accepted.map (Accepted.judged xzSpec.constraints)) =
      some [(["-z".toList], true), (["-z".toList, "-d".toList], false)] ∧
      ¬ ∀ spec : CommandSpec, spec.RespectsConstraints := by
  have accepted : (generate xzSpec fun _ => true).toOption.map
        (fun s => s.accepted.map (Accepted.judged xzSpec.constraints)) =
      some [(["-z".toList], true), (["-z".toList, "-d".toList], false)] := by
    decide +kernel
  refine ⟨accepted, fun respects => ?_⟩
  rcases exists_ok_of_toOption_map accepted with ⟨s, generated, drivers⟩
  have second : (["-z".toList, "-d".toList], false) ∈
      s.accepted.map (Accepted.judged xzSpec.constraints) := by
    rw [drivers]
    decide
  rcases List.mem_map.mp second with ⟨a, member, isSecond⟩
  have valid := (respects xzSpec _ s generated a member).2.2.2
  have invalid := (Prod.mk.inj isSecond).2
  rw [valid] at invalid
  cases invalid

end Pairs

end GraphDissect.Drivergen
