import GraphDissect.Library.Distinguish
import GraphDissect.Drivers.Configurations

/-!
# Ambiguous options

Which options make two selections print the same flags and select the same
output: options that print nothing, clones of one option for its outputs, and
outputs behind the first one.
-/

namespace GraphDissect.Drivergen

open Library

section Clones

variable {spec : CommandSpec}

theorem pairwise_outputVariants (opt : SpecOption) :
    opt.outputVariants.Pairwise fun first second =>
      first.output ≠ some [] ∧ second.output ≠ some [] := by
  unfold SpecOption.outputVariants
  split
  · exact List.pairwise_singleton _ _
  · dsimp only
    split
    · exact List.pairwise_singleton _ _
    · split
      · exact List.pairwise_singleton _ _
      · exact List.pairwise_singleton _ _
      · next text _ _ _ _ _ =>
        have loud : ∀ variant ∈ (splitOutputs (trim isSpace text)).mapIdx fun idx out =>
            { opt with
              output := some out
              id := cloneId opt.id out idx }, variant.output ≠ some [] := by
          intro variant member
          rcases List.mem_mapIdx.mp member with ⟨idx, inside, rfl⟩
          have kept := List.of_mem_filter (List.getElem_mem inside)
          simpa using kept
        exact List.pairwise_of_forall_mem_list fun first isFirst second isSecond =>
          ⟨loud first isFirst, loud second isSecond⟩

theorem searched_eq_append (spec : CommandSpec) :
    spec.searched = spec.primary.filter (·.includeInSearch) ++
      spec.second.filter (·.includeInSearch) :=
  List.filter_append _ _

theorem CommandSpec.Plain.pairwise_secondOptions (plain : spec.Plain) :
    spec.secondOptions.Pairwise fun first second =>
      first.printed ≠ none → first.printed = second.printed →
        first.output ≠ some [] ∧ second.output ≠ some [] := by
  have flags := plain.flags
  rw [searched_eq_append, List.map_append, List.nodup_append'] at flags
  have apart := flags.2.1
  rw [List.nodup_iff_pairwise_ne, List.pairwise_map, List.pairwise_filter] at apart
  rw [CommandSpec.secondOptions, loadOptions_eq_flatMap, List.pairwise_flatMap]
  refine ⟨fun entry _ => ?_, apart.imp fun {entry other} apart => ?_⟩
  · rw [OptionEntry.options]
    split
    · exact (pairwise_outputVariants _).imp fun loud _ _ => loud
    · exact List.Pairwise.nil
  · intro first isFirst second isSecond prints same
    rcases Option.ne_none_iff_exists'.mp prints with ⟨flag, isFlag⟩
    refine absurd ?_ (apart (includeInSearch_of_mem_options isFirst)
      (includeInSearch_of_mem_options isSecond))
    rw [← (printed_of_mem_options isFirst).1, ← (printed_of_mem_options isSecond).1,
      printed_eq_some isFlag, printed_eq_some (same ▸ isFlag)]

theorem CommandSpec.Plain.printed_ne (plain : spec.Plain) {primary second : SpecOption} {flag : PyStr}
    (isPrimary : primary ∈ spec.primaryOptions) (isSecond : second ∈ spec.secondOptions)
    (prints : primary.printed = some flag) : second.printed ≠ some flag := by
  intro same
  have flags := plain.flags
  rw [searched_eq_append, List.map_append, List.nodup_append'] at flags
  have entryOf {entries : List OptionEntry} {opt : SpecOption} (member : opt ∈ loadOptions entries)
      (prints : opt.printed = some flag) :
      flag ∈ (entries.filter (·.includeInSearch)).map OptionEntry.flag := by
    rw [loadOptions_eq_flatMap, List.mem_flatMap] at member
    rcases member with ⟨entry, among, isOption⟩
    have searched := List.mem_filter.mpr ⟨among, includeInSearch_of_mem_options isOption⟩
    refine List.mem_map.mpr ⟨entry, searched, ?_⟩
    rw [← (printed_of_mem_options isOption).1, printed_eq_some prints]
  exact flags.2.2 (entryOf isPrimary prints) (entryOf isSecond same)

end Clones

section Keys

variable {spec : CommandSpec} {primary : SpecOption}

theorem selectOutput_of_quiet (quiet : primary.output = some []) (secondaries : List SpecOption) :
    selectOutput primary secondaries = firstOut SpecOption.output (some []) secondaries := by
  rw [selectOutput, if_neg (not_not.mpr quiet)]
  induction secondaries with
  | nil => rfl
  | cons opt rest inductionHypothesis =>
      rw [firstOut, List.find?_cons]
      by_cases isQuiet : opt.output = some []
      · rw [if_pos isQuiet, ← inductionHypothesis]
        simp [isQuiet]
      · rw [if_neg isQuiet]
        simp [isQuiet]

theorem selectOutput_of_loud (loud : primary.output ≠ some []) (secondaries : List SpecOption) :
    selectOutput primary secondaries = primary.output :=
  if_pos loud

theorem selectOutput_nil (primary : SpecOption) : selectOutput primary [] = primary.output := by
  by_cases quiet : primary.output = some []
  · rw [selectOutput_of_quiet quiet, firstOut, quiet]
  · exact selectOutput_of_loud quiet []

theorem printedFlags_cons (primary : SpecOption) (secondaries : List SpecOption) :
    printedFlags (primary :: secondaries) = primary.printed.toList ++ printedFlags secondaries := by
  cases prints : primary.printed <;> simp [printedFlags, prints]

theorem key_eq_iff {secondaries others : List SpecOption} :
    Selection.key (primary, secondaries) = Selection.key (primary, others) ↔
      printedFlags secondaries = printedFlags others ∧
        selectOutput primary secondaries = selectOutput primary others := by
  simp only [Selection.key, Prod.mk.injEq, printedFlags_cons, List.append_cancel_left_eq]

theorem selections_perm (spec : CommandSpec) :
    spec.selections.Perm (spec.primaryOptions.flatMap fun primary =>
      (selectionsUpTo spec.maxSecondary spec.secondOptions).map (primary, ·)) := by
  have sizes : selectionsUpTo spec.maxSecondary spec.secondOptions =
      [[]] ++ (List.range' 1 spec.maxSecondary).flatMap (combinations · spec.secondOptions) := by
    rw [selectionsUpTo, List.range_eq_range', List.range'_succ, List.flatMap_cons, combinations]
  rw [CommandSpec.selections, List.map_eq_flatMap, sizes]
  simp only [List.map_append, List.map_flatMap]
  exact List.flatMap_append_perm _ _ _

theorem flatMap_speaking {β : Type*} (options : List SpecOption) (part : SpecOption → List β) :
    (speaking options).flatMap part =
      options.flatMap fun opt => if opt.chunks ≠ [] then part opt else [] := by
  induction options with
  | nil => rfl
  | cons opt rest inductionHypothesis =>
      rw [speaking] at inductionHypothesis ⊢
      rw [List.flatMap_cons, ← inductionHypothesis]
      by_cases chunks : opt.chunks = [] <;> simp [chunks]

/-- No chunk of a secondary option stands alone behind a primary option without
one. -/
def CommandSpec.Led (spec : CommandSpec) : Prop :=
  ∀ primary ∈ spec.primaryOptions, primary.chunks = [] → 1 ≤ spec.maxSecondary →
    ∀ second ∈ spec.secondOptions, second.chunks = []

theorem CommandSpec.Led.filter_selections_perm (led : spec.Led) :
    (spec.selections.filter fun selection => selection.Voiced).Perm
      ((speaking spec.primaryOptions).flatMap fun primary =>
        (selectionsUpTo spec.maxSecondary spec.secondOptions).map (primary, ·)) := by
  refine ((selections_perm spec).filter _).trans ?_
  rw [List.filter_flatMap, flatMap_speaking]
  refine List.Perm.of_eq (List.flatMap_congr fun primary isPrimary => ?_)
  split
  · next chunks =>
    rw [List.filter_eq_self]
    intro selection member
    rcases List.mem_map.mp member with ⟨secondaries, -, rfl⟩
    exact decide_eq_true ⟨primary, List.mem_cons_self, chunks⟩
  · next none =>
    rw [List.filter_eq_nil_iff]
    rintro selection member voiced
    rcases List.mem_map.mp member with ⟨secondaries, selected, rfl⟩
    rcases mem_selectionsUpTo.mp selected with ⟨among, short⟩
    rcases of_decide_eq_true voiced with ⟨opt, isOption, chunks⟩
    rcases List.mem_cons.mp isOption with rfl | isSecond
    · exact none chunks
    · have room := (List.length_pos_of_mem isSecond).trans_le short
      exact chunks (led primary isPrimary (not_not.mp none) room opt (among.subset isSecond))

theorem CommandSpec.Led.unambiguous_iff (led : spec.Led) :
    spec.Unambiguous ↔
      (∀ primary ∈ speaking spec.primaryOptions,
        ((selectionsUpTo spec.maxSecondary spec.secondOptions).map
          fun secondaries => Selection.key (primary, secondaries)).Nodup) ∧
        (speaking spec.primaryOptions).Pairwise fun primary other =>
          ∀ secondaries ∈ selectionsUpTo spec.maxSecondary spec.secondOptions,
            ∀ others ∈ selectionsUpTo spec.maxSecondary spec.secondOptions,
              Selection.key (primary, secondaries) ≠ Selection.key (other, others) := by
  rw [CommandSpec.Unambiguous, (led.filter_selections_perm.map Selection.key).nodup_iff,
    List.map_flatMap, List.nodup_iff_pairwise_ne, List.pairwise_flatMap]
  simp only [List.map_map, List.nodup_iff_pairwise_ne, List.forall_mem_map, Function.comp_def]

end Keys

section Separable

variable {spec : CommandSpec} {primary other : SpecOption}

/-- Two primary options that print the same select different outputs, and no
secondary option gives one of them the output of the other. -/
def CommandSpec.Apart (spec : CommandSpec) (primary other : SpecOption) : Prop :=
  primary.printed = other.printed → primary.output ≠ other.output ∧
    (1 ≤ spec.maxSecondary → ∀ second ∈ spec.secondOptions,
      (primary.output = some [] → second.output ≠ other.output) ∧
        (other.output = some [] → second.output ≠ primary.output))

/-- The options can be told apart.  Behind a primary option with an output every
secondary option prints a flag of its own; behind one without an output the
outputs of the secondary options help. -/
structure CommandSpec.Separable (spec : CommandSpec) : Prop where
  primaries : (speaking spec.primaryOptions).Pairwise spec.Apart
  loud : ∀ primary ∈ speaking spec.primaryOptions, primary.output ≠ some [] →
    1 ≤ spec.maxSecondary → OwnMarks SpecOption.printed spec.secondOptions
  quiet : ∀ primary ∈ speaking spec.primaryOptions, primary.output = some [] →
    ToldApart SpecOption.printed SpecOption.output (some []) spec.secondOptions spec.maxSecondary

theorem printedFlags_map_fst (places : List (SpecOption × Nat)) :
    printedFlags (places.map Prod.fst) = places.filterMap fun place => place.1.printed := by
  rw [printedFlags, List.filterMap_map]
  rfl

theorem firstOut_map_fst (places : List (SpecOption × Nat)) :
    firstOut SpecOption.output (some []) (places.map Prod.fst) =
      firstOut (fun place : SpecOption × Nat => place.1.output) (some []) places := by
  induction places with
  | nil => rfl
  | cons place rest inductionHypothesis =>
      rw [List.map_cons, firstOut, firstOut, inductionHypothesis]

/-- Behind an output only the flags matter. -/
theorem nodup_keys_iff_of_loud (loud : primary.output ≠ some []) :
    ((selectionsUpTo spec.maxSecondary spec.secondOptions).map
        fun secondaries => Selection.key (primary, secondaries)).Nodup ↔
      (1 ≤ spec.maxSecondary → OwnMarks SpecOption.printed spec.secondOptions) := by
  have own : OwnMarks (fun place : SpecOption × Nat => place.1.printed) spec.secondOptions.zipIdx ↔
      OwnMarks SpecOption.printed spec.secondOptions := by
    conv_rhs => rw [← List.zipIdx_map_fst 0 spec.secondOptions, OwnMarks, List.map_map]
    rfl
  rw [nodup_map_selectionsUpTo_iff, ← own, ← marks_tell_apart_iff (nodup_zipIdx spec.secondOptions)]
  simp only [key_eq_iff, selectOutput_of_loud loud, and_true, printedFlags_map_fst]

theorem CommandSpec.Plain.nodup_keys_iff_of_quiet (plain : spec.Plain)
    (quiet : primary.output = some []) :
    ((selectionsUpTo spec.maxSecondary spec.secondOptions).map
        fun secondaries => Selection.key (primary, secondaries)).Nodup ↔
      ToldApart SpecOption.printed SpecOption.output (some []) spec.secondOptions
        spec.maxSecondary := by
  have clones : ∀ first second, [first, second].Sublist spec.secondOptions.zipIdx →
      first.1.printed ≠ none → first.1.printed = second.1.printed →
        first.1.output ≠ some [] ∧ second.1.output ≠ some [] := by
    intro first second pair
    have places := pair.map Prod.fst
    rw [List.zipIdx_map_fst] at places
    exact plain.pairwise_secondOptions.forall_sublist places
  have told : ToldApart (fun place : SpecOption × Nat => place.1.printed)
        (fun place : SpecOption × Nat => place.1.output) (some []) spec.secondOptions.zipIdx
        spec.maxSecondary ↔
      ToldApart SpecOption.printed SpecOption.output (some [])
        (spec.secondOptions.zipIdx.map Prod.fst) spec.maxSecondary :=
    toldApart_map_iff
  rw [List.zipIdx_map_fst] at told
  rw [nodup_map_selectionsUpTo_iff, ← told, ← toldApart_iff (nodup_zipIdx spec.secondOptions) clones]
  simp only [key_eq_iff, selectOutput_of_quiet quiet, printedFlags_map_fst, firstOut_map_fst, and_imp]

/-- The output of a selection is the one of its primary option or, if that is
empty, the one of a secondary option. -/
theorem selectOutput_cases (primary : SpecOption) (secondaries : List SpecOption) :
    selectOutput primary secondaries = primary.output ∨
      primary.output = some [] ∧ ∃ second ∈ secondaries,
        selectOutput primary secondaries = second.output := by
  by_cases quiet : primary.output = some []
  · rw [selectOutput_of_quiet quiet]
    rcases @firstOut_eq_quiet_or _ _ _ SpecOption.output (some []) secondaries with
      none | ⟨second, member, -, isOut⟩
    · exact .inl (none.trans quiet.symm)
    · exact .inr ⟨quiet, second, member, isOut⟩
  · exact .inl (selectOutput_of_loud quiet secondaries)

/-- Selections of two primary options that print the same flags start with the
same one. -/
theorem CommandSpec.Plain.printed_eq_of_printedFlags (plain : spec.Plain)
    (isPrimary : primary ∈ spec.primaryOptions) (isOther : other ∈ spec.primaryOptions)
    {secondaries others : List SpecOption} (among : secondaries ⊆ spec.secondOptions)
    (otherAmong : others ⊆ spec.secondOptions)
    (same : printedFlags (primary :: secondaries) = printedFlags (other :: others)) :
    primary.printed = other.printed := by
  rw [printedFlags_cons, printedFlags_cons] at same
  have secondary {primary : SpecOption} {list : List SpecOption} {flag : PyStr} {rest : List PyStr}
      (isPrimary : primary ∈ spec.primaryOptions) (prints : primary.printed = some flag)
      (inside : list ⊆ spec.secondOptions) (starts : printedFlags list = flag :: rest) : False := by
    have member : flag ∈ printedFlags list := starts ▸ List.mem_cons_self
    rcases List.mem_filterMap.mp member with ⟨second, isSecond, printed⟩
    exact plain.printed_ne isPrimary (inside isSecond) prints printed
  cases prints : primary.printed with
  | none =>
      cases otherPrints : other.printed with
      | none => rfl
      | some flag =>
          rw [prints, otherPrints] at same
          exact (secondary isOther otherPrints among same).elim
  | some flag =>
      cases otherPrints : other.printed with
      | none =>
          rw [prints, otherPrints] at same
          exact (secondary isPrimary prints otherAmong same.symm).elim
      | some second =>
          rw [prints, otherPrints] at same
          rw [(List.cons.inj same).1]

theorem CommandSpec.Plain.apart_iff (plain : spec.Plain) (isPrimary : primary ∈ spec.primaryOptions)
    (isOther : other ∈ spec.primaryOptions) :
    (∀ secondaries ∈ selectionsUpTo spec.maxSecondary spec.secondOptions,
        ∀ others ∈ selectionsUpTo spec.maxSecondary spec.secondOptions,
          Selection.key (primary, secondaries) ≠ Selection.key (other, others)) ↔
      spec.Apart primary other := by
  constructor
  · intro apart same
    have keys {secondaries : List SpecOption}
        (inside : secondaries ∈ selectionsUpTo spec.maxSecondary spec.secondOptions) :
        selectOutput primary secondaries ≠ selectOutput other secondaries := by
      intro outputs
      refine apart secondaries inside secondaries inside ?_
      rw [Selection.key, Selection.key, printedFlags_cons, printedFlags_cons, same, outputs]
    have outputs : primary.output ≠ other.output := by
      have alone := keys (mem_selectionsUpTo.mpr ⟨List.nil_sublist _, Nat.zero_le _⟩)
      rwa [selectOutput_nil, selectOutput_nil] at alone
    refine ⟨outputs, fun room second isSecond => ?_⟩
    have single := keys (mem_selectionsUpTo.mpr ⟨List.singleton_sublist.mpr isSecond, room⟩)
    constructor
    · intro quiet
      have loud : other.output ≠ some [] := fun silent => outputs (quiet.trans silent.symm)
      rwa [selectOutput_of_quiet quiet, selectOutput_of_loud loud, firstOut_singleton] at single
    · intro quiet
      have loud : primary.output ≠ some [] := fun silent => outputs (silent.trans quiet.symm)
      rw [selectOutput_of_quiet quiet, selectOutput_of_loud loud, firstOut_singleton] at single
      exact single.symm
  · intro apart secondaries inside others otherInside same
    rcases mem_selectionsUpTo.mp inside with ⟨among, short⟩
    rcases mem_selectionsUpTo.mp otherInside with ⟨otherAmong, otherShort⟩
    rcases Prod.mk.inj same with ⟨flags, outs⟩
    have printed := plain.printed_eq_of_printedFlags isPrimary isOther among.subset otherAmong.subset flags
    rcases apart printed with ⟨outputs, through⟩
    have room {list : List SpecOption} {second : SpecOption} (member : second ∈ list)
        (short : list.length ≤ spec.maxSecondary) : 1 ≤ spec.maxSecondary :=
      (List.length_pos_of_mem member).trans_le short
    rcases selectOutput_cases primary secondaries with own | ⟨quiet, second, member, isOut⟩
    · rcases selectOutput_cases other others with otherOwn | ⟨otherQuiet, second, member, isOut⟩
      · exact outputs (own.symm.trans (outs.trans otherOwn))
      · refine (through (room member otherShort) second (otherAmong.subset member)).2 otherQuiet ?_
        exact isOut.symm.trans (outs.symm.trans own)
    · rcases selectOutput_cases other others with otherOwn | ⟨otherQuiet, -⟩
      · refine (through (room member short) second (among.subset member)).1 quiet ?_
        exact isOut.symm.trans (outs.trans otherOwn)
      · exact outputs (quiet.trans otherQuiet.symm)

/-- No two selections of plain options are confused exactly when the options can
be told apart. -/
theorem CommandSpec.Plain.unambiguous_iff_separable (plain : spec.Plain) (led : spec.Led) :
    spec.Unambiguous ↔ spec.Separable := by
  have apart : ((speaking spec.primaryOptions).Pairwise fun primary other =>
      ∀ secondaries ∈ selectionsUpTo spec.maxSecondary spec.secondOptions,
        ∀ others ∈ selectionsUpTo spec.maxSecondary spec.secondOptions,
          Selection.key (primary, secondaries) ≠ Selection.key (other, others)) ↔
      (speaking spec.primaryOptions).Pairwise spec.Apart :=
    List.Pairwise.iff_of_mem fun isPrimary isOther =>
      plain.apart_iff (mem_speaking.mp isPrimary).1 (mem_speaking.mp isOther).1
  rw [led.unambiguous_iff, apart]
  constructor
  · rintro ⟨keys, primaries⟩
    exact ⟨primaries, fun primary member loud => (nodup_keys_iff_of_loud loud).mp (keys primary member),
      fun primary member quiet => (plain.nodup_keys_iff_of_quiet quiet).mp (keys primary member)⟩
  · rintro ⟨primaries, loud, quiet⟩
    refine ⟨fun primary member => ?_, primaries⟩
    by_cases isQuiet : primary.output = some []
    · exact (plain.nodup_keys_iff_of_quiet isQuiet).mpr (quiet primary member isQuiet)
    · exact (nodup_keys_iff_of_loud isQuiet).mpr (loud primary member isQuiet)

/-- Exactly when the generated drivers are different configurations: for every
specification by the argument lists of the selections; where the number of words
of an option is fixed, by the flags and the outputs; and where the chunks are led
by a primary option, by the options alone. -/
theorem distinctConfigurations_iff (worded : spec.Worded) :
    (spec.DistinctConfigurations ↔ (spec.Runs → spec.Unmixed)) ∧
      ((∀ entry ∈ spec.searched, entry.Uniform) → (spec.Unmixed ↔ spec.Unambiguous) ∧
        (spec.Led → (spec.Unambiguous ↔ spec.Separable))) := by
  refine ⟨?_, fun uniform => ?_⟩
  · rw [distinctConfigurations_iff_nodup, nodup_configurations_iff]
  · have plain := worded.plain uniform
    exact ⟨plain.unmixed_iff, plain.unambiguous_iff_separable⟩

def valueEntry (flag : String) (defaults : List PyStr) : OptionEntry :=
  { modeEntry flag with
    kind := .value
    defaults := defaults
    group := none }

/-- The headers are a primary option of `h5dump`; it is combined with one more
option. -/
def h5dumpSpec (second : OptionEntry) : CommandSpec where
  binary := "h5dump".toList
  maxCombination := 2
  baseArgs := []
  io := ⟨⟨.positional, none⟩, ⟨.positional, none⟩⟩
  primary := [modeEntry "-H"]
  second := [second]
  constraints := []

theorem searched_h5dumpSpec {second : OptionEntry} (included : second.includeInSearch = true) :
    (h5dumpSpec second).searched = [modeEntry "-H", second] := by
  simp [CommandSpec.searched, h5dumpSpec, modeEntry, included]

theorem worded_h5dumpSpec {second : OptionEntry} (included : second.includeInSearch = true)
    (flag : second.flag ≠ "-H".toList) (worded : second.Worded) : (h5dumpSpec second).Worded := by
  have header : (modeEntry "-H").Worded :=
    ⟨by simp [OptionEntry.flag, modeEntry, isSpace], List.nodup_nil, fun value member => by cases member⟩
  refine ⟨?_, ?_⟩
  · rw [searched_h5dumpSpec included]
    simpa [OptionEntry.flag, modeEntry] using Ne.symm flag
  · rw [searched_h5dumpSpec included]
    simpa using ⟨header, worded⟩

/-- The width of the output has two values. -/
def widthEntry : OptionEntry := valueEntry "-w" ["0".toList, "80".toList]

theorem separable_width : (h5dumpSpec widthEntry).Separable := by
  have leading : speaking (h5dumpSpec widthEntry).primaryOptions =
      [SpecOption.fromYamlDict (modeEntry "-H")] := rfl
  have following : (h5dumpSpec widthEntry).secondOptions = [SpecOption.fromYamlDict widthEntry] := rfl
  refine ⟨?_, ?_, ?_⟩
  · rw [leading]
    exact List.pairwise_singleton _ _
  · intro primary member loud
    rw [leading, List.mem_singleton] at member
    subst member
    exact absurd rfl loud
  · intro primary _ _
    rw [following]
    refine ⟨fun _ => by decide, fun room => ?_, fun room => ?_⟩
    · exact absurd room (by decide)
    · exact absurd room (by decide)

/-- With the width there are three different configurations. -/
theorem distinctConfigurations_width :
    (h5dumpSpec widthEntry).Worded ∧ (h5dumpSpec widthEntry).DistinctConfigurations := by
  have worded : (h5dumpSpec widthEntry).Worded := by
    refine worded_h5dumpSpec rfl (by decide) ⟨?_, by decide, ?_⟩
    · simp [OptionEntry.flag, widthEntry, valueEntry, modeEntry, isSpace]
    · simp [OptionEntry.values, widthEntry, valueEntry, isSpace]
  have uniform : ∀ entry ∈ (h5dumpSpec widthEntry).searched, entry.Uniform := by
    rw [searched_h5dumpSpec rfl]
    simp only [List.mem_cons, List.not_mem_nil, or_false, forall_eq_or_imp, forall_eq]
    exact ⟨.inl rfl, .inr (.inr ⟨by decide, by decide⟩)⟩
  have led : (h5dumpSpec widthEntry).Led := by
    unfold CommandSpec.Led
    decide
  rcases distinctConfigurations_iff worded with ⟨distinct, detail⟩
  rcases detail uniform with ⟨unmixed, separable⟩
  exact ⟨worded, distinct.mpr fun _ => unmixed.mpr ((separable led).mpr separable_width)⟩

/-- An attribute without a value adds nothing to the headers. -/
theorem attribute_repeats_headers :
    (generate (h5dumpSpec (valueEntry "-a" [])) fun _ => true).toOption.map
        (fun s => s.accepted.map fun a => (a.driver.flattenArgs, a.output)) =
      some [(["-H".toList], some []), (["-H".toList], some [])] ∧
      ¬ ∀ spec : CommandSpec, spec.Worded → spec.DistinctConfigurations := by
  have accepted : (generate (h5dumpSpec (valueEntry "-a" [])) fun _ => true).toOption.map
        (fun s => s.accepted.map fun a => (a.driver.flattenArgs, a.output)) =
      some [(["-H".toList], some []), (["-H".toList], some [])] := by
    decide +kernel
  refine ⟨accepted, fun distinct => ?_⟩
  have worded : (h5dumpSpec (valueEntry "-a" [])).Worded := by
    refine worded_h5dumpSpec rfl (by decide) ⟨?_, List.nodup_nil, fun value member => by cases member⟩
    simp [OptionEntry.flag, valueEntry, modeEntry, isSpace]
  rcases exists_ok_of_toOption_map accepted with ⟨s, generated, drivers⟩
  have apart := distinct _ worded _ s generated
  have nodup : (s.accepted.map fun a => (a.driver.flattenArgs, a.output)).Nodup := by
    rw [List.nodup_iff_pairwise_ne, List.pairwise_map]
    refine apart.imp fun {first second} differ same => ?_
    rcases Prod.mk.inj same with ⟨arguments, outputs⟩
    exact differ.elim (· arguments) (· outputs)
  rw [drivers] at nodup
  exact absurd nodup (by decide)

end Separable

end GraphDissect.Drivergen
