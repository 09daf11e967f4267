import GraphDissect.Drivers.Drivergen
import GraphDissect.Drivers.ActiveDriver

/-!
# The calibrated and the fuzzed command line

Calibration splits the argument chunks and the output at whitespace; honggfuzz
passes every JSON string on as one argument.  The two agree exactly when every
chunk and the output are single words.
-/

namespace GraphDissect.Drivers

open Library

/-- `_HF_FILE_PLACEHOLDER`. -/
def filePlaceholder : List Char := "___FILE___".toList

/-- `_HF_INPUT_FILE_PATH`. -/
def inputFilePath : List Char := "/dev/fd/1021".toList

def hfArgsMax : Nat := 2048

def pathMax : Nat := 4096

def driveGetArgv (p : DriverProf) : List Bytes :=
  p.driver :: (p.argv.take (hfArgsMax - 4) ++ [utf8 filePlaceholder] ++
    if p.output = [] then [] else [p.output])

/-- What `snprintf` leaves in `argData` for an argument around the placeholder:
the text behind the placeholder is dropped. -/
def expandPlaceholder (before : Bytes) : Bytes :=
  (before ++ utf8 inputFilePath).take (pathMax - 1)

/-- The final content of `argData`, which all expanded arguments share. -/
def argData (cmdline : List Bytes) : Bytes :=
  match (cmdline.filter (· ≠ utf8 filePlaceholder)).filterMap (strstr (utf8 filePlaceholder)) with
  | [] => []
  | first :: rest => expandPlaceholder ((first :: rest).getLast (by simp))

def subprocPrepareExecvArgs (cmdline : List Bytes) : List Bytes :=
  let cmdline := cmdline.take hfArgsMax
  cmdline.map fun arg =>
    if arg = utf8 filePlaceholder then utf8 inputFilePath
    else if (strstr (utf8 filePlaceholder) arg).isSome then argData cmdline
    else arg

/-- The arguments of the target for a profile object: MFuzz loads it and writes
it for a phase, honggfuzz parses the text. -/
def fuzzedArgv (libs : JsonLibs) (profile : Json) (phase : Int32) : Option (List Bytes) := do
  let m ← Driver.load libs profile
  let p ← driveParseDriverProfile libs (m.activeText libs phase)
  return subprocPrepareExecvArgs (driveGetArgv p)

/-- Without another placeholder only the input file is filled in. -/
theorem tail_prepareExecvArgs {p : DriverProf} (hargc : p.argv.length ≤ 31)
    (hargv : ∀ arg ∈ p.argv, ¬ utf8 filePlaceholder <:+: arg)
    (houtput : ¬ utf8 filePlaceholder <:+: p.output) :
    (subprocPrepareExecvArgs (driveGetArgv p)).tail =
      p.argv ++ utf8 inputFilePath :: if p.output = [] then [] else [p.output] := by
  have htake : p.argv.take (hfArgsMax - 4) = p.argv :=
    List.take_of_length_le (by simp only [hfArgsMax]; omega)
  have hlen : (driveGetArgv p).length ≤ hfArgsMax := by
    rw [driveGetArgv, htake]
    split <;> simp [hfArgsMax] <;> omega
  have hkeep : ∀ (arg data : Bytes), ¬ utf8 filePlaceholder <:+: arg →
      (if arg = utf8 filePlaceholder then utf8 inputFilePath
        else if (strstr (utf8 filePlaceholder) arg).isSome then data else arg) = arg := by
    intro arg data harg
    have hne : arg ≠ utf8 filePlaceholder := fun h => harg (h ▸ List.infix_rfl)
    rw [if_neg hne, strstr_eq_none_iff.mpr harg]
    rfl
  rw [subprocPrepareExecvArgs, List.take_of_length_le hlen, ← List.map_tail]
  generalize argData (driveGetArgv p) = data
  rw [driveGetArgv, htake, List.tail_cons, List.map_append, List.map_append,
    List.map_congr_left (fun arg harg => hkeep arg data (hargv arg harg)), List.map_id',
    List.append_assoc]
  congr 1
  simp only [List.map_cons, List.map_nil, if_true, List.singleton_append]
  split
  · rfl
  · rw [List.map_singleton, hkeep _ _ houtput]

end GraphDissect.Drivers

namespace GraphDissect.Drivergen

open Library Drivers

variable {libs : JsonLibs} {d : Driver}

section Load

theorem parseArgs_strings (args : List PyStr) :
    Drivers.Driver.parseArgs (.arr (args.map fun a => .str (utf8 a))) = some (args.map utf8) := by
  rw [Drivers.Driver.parseArgs, List.filterMap_map]
  congr 1
  exact congrFun List.filterMap_eq_map args

/-- What MFuzz loads for a generated driver. -/
def Driver.loaded (libs : JsonLibs) (d : Driver) : Drivers.Driver where
  id := Int32.ofInt d.id
  name := utf8 d.name
  driver := utf8 d.driver
  seedDir := utf8 d.seedDir
  output := utf8 d.output
  priority := libs.getFloat d.priority
  description := utf8 d.description
  argv := (d.baseArgs ++ d.args).map utf8
  phase := 0
  inPlaceEdit := if d.inPlaceEditing then 1 else 0

theorem load_toJson (libs : JsonLibs) (d : Driver) :
    Drivers.Driver.load libs d.toJson = some (d.loaded libs) := by
  have hargs : d.toJson.index "args" = .arr ((d.baseArgs ++ d.args).map fun a => .str (utf8 a)) :=
    rfl
  rw [Drivers.Driver.load, hargs, parseArgs_strings]
  cases hedit : d.inPlaceEditing
  · simp only [Driver.toJson, Driver.loaded, hedit]
    rfl
  · simp only [Driver.toJson, Driver.loaded, hedit]
    rfl

end Load

theorem split_append_eq_untilNul_cons {a : PyStr} {xs ys : List PyStr}
    (hxs : ∀ x ∈ xs.head?, IsWord isSpace x) (h : split a ++ xs = untilNul a :: ys) :
    IsWord isSpace a ∧ '\x00' ∉ a ∧ xs = ys := by
  have hspace : ∀ c, isSpace c = true → decide (c ≠ '\x00') = true := by
    intro c hc
    have : c ≠ '\x00' := by
      rintro rfl
      revert hc
      decide
    simpa using this
  obtain ⟨hword, hkeep, htail⟩ := words_append_eq_takeWhile_cons hspace hxs h
  exact ⟨hword, untilNul_eq_self_iff.mp (List.takeWhile_eq_self_iff.mpr hkeep), htail⟩

theorem flatMap_split_eq_untilNul_iff {args : List PyStr} {seed : PyStr} {xs ys : List PyStr}
    (hseed : IsWord isSpace seed) :
    args.flatMap split ++ seed :: xs = args.map untilNul ++ seed :: ys ↔
      (∀ a ∈ args, IsWord isSpace a ∧ '\x00' ∉ a) ∧ xs = ys := by
  constructor
  · intro h
    induction args with
    | nil =>
      refine ⟨?_, (List.cons.inj h).2⟩
      intro a ha
      cases ha
    | cons a rest ih =>
      -- what follows the words of `a` starts with a word: one of `rest`, or the seed
      have hhead : ∀ x ∈ (rest.flatMap split ++ seed :: xs).head?, IsWord isSpace x := by
        intro x hx
        rw [List.head?_append] at hx
        cases hfirst : (rest.flatMap split).head? with
        | none =>
          rw [hfirst] at hx
          obtain rfl : seed = x := by simpa using hx
          exact hseed
        | some y =>
          rw [hfirst] at hx
          obtain rfl : y = x := by simpa using hx
          obtain ⟨b, -, hb⟩ := List.mem_flatMap.mp (List.mem_of_mem_head? hfirst)
          exact isWord_of_mem_words hb
      rw [List.flatMap_cons, List.append_assoc, List.map_cons, List.cons_append] at h
      obtain ⟨hword, hnul, htail⟩ := split_append_eq_untilNul_cons hhead h
      obtain ⟨hrest, hend⟩ := ih htail
      refine ⟨?_, hend⟩
      intro b hb
      obtain rfl | hb := List.mem_cons.mp hb
      · exact ⟨hword, hnul⟩
      · exact hrest b hb
  · rintro ⟨h, rfl⟩
    congr 1
    induction args with
    | nil => rfl
    | cons a rest ih =>
      obtain ⟨hword, hnul⟩ := h a List.mem_cons_self
      rw [List.flatMap_cons, List.map_cons, untilNul_eq_self_iff.mpr hnul,
        ih fun b hb => h b (List.mem_cons_of_mem a hb)]
      exact congrArg (· ++ rest.map untilNul) hword.words_eq

theorem split_output_eq_iff {output : PyStr} :
    (if output = [] then [] else split output) = (if untilNul output = [] then [] else [untilNul output]) ↔
      (output = [] ∨ IsWord isSpace output) ∧ '\x00' ∉ output := by
  cases output with
  | nil => simp [untilNul]
  | cons c rest =>
    rw [if_neg (by simp)]
    by_cases hc : c = '\x00'
    · subst hc
      have hcut : untilNul ('\x00' :: rest) = [] := by simp [untilNul]
      have hne : split ('\x00' :: rest) ≠ [] := words_ne_nil (by decide) rest
      simp [hcut, hne]
    · have hcut : untilNul (c :: rest) ≠ [] := by simp [untilNul, hc]
      rw [if_neg hcut]
      constructor
      · intro h
        obtain ⟨hword, hnul, -⟩ := @split_append_eq_untilNul_cons (c :: rest) [] []
          (by simp) (by rw [List.append_nil, h])
        exact ⟨.inr hword, hnul⟩
      · rintro ⟨hword, hnul⟩
        rw [untilNul_eq_self_iff.mpr hnul]
        exact (hword.resolve_left (by simp)).words_eq

/-- The input flag that `_form_input` appends. -/
def DriverSpec.inputFlag (spec : DriverSpec) : List PyStr :=
  match spec.io.input.kind with
  | .positional => []
  | .flagged => spec.io.input.flag.toList

/-- Every chunk and the output are single words, and no string has a NUL. -/
structure DriverSpec.Verbatim (spec : DriverSpec) : Prop where
  args : ∀ a ∈ spec.args ++ spec.inputFlag, IsWord isSpace a
  output : spec.output = [] ∨ spec.io.output.kind = .positional ∧ IsWord isSpace spec.output
  nul : ∀ a ∈ spec.baseArgs ++ (spec.args ++ spec.inputFlag) ++ [spec.output], '\x00' ∉ a

section Agreement

theorem formInput_ok {spec : DriverSpec} {args : List PyStr}
    (h : formInput spec.io spec.args = .ok args) : args = spec.args ++ spec.inputFlag := by
  unfold formInput at h
  unfold DriverSpec.inputFlag
  split at h
  · next hkind =>
    rw [hkind]
    simpa using (Except.ok.inj h).symm
  · cases h
  · next flag hkind hflag =>
    rw [hkind, hflag]
    split at h
    · cases h
    · exact (Except.ok.inj h).symm

theorem formOutput_ok {io : IOSpec} {output formed : PyStr} (h : formOutput io output = .ok formed) :
    (output = [] ∨ io.output.kind = .positional) ∧ formed = output ∨
      output ≠ [] ∧ io.output.kind = .flagged ∧ formed ≠ [] ∧ ¬ IsWord isSpace formed := by
  unfold formOutput at h
  split at h
  · next hempty => exact .inl ⟨.inl hempty, (Except.ok.inj h).symm⟩
  · next hne =>
    split at h
    · next hkind => exact .inl ⟨.inr hkind, (Except.ok.inj h).symm⟩
    · cases h
    · next flag hkind _ =>
      split at h
      · cases h
      · obtain rfl := Except.ok.inj h
        refine .inr ⟨hne, hkind, by simp [flagValue], ?_⟩
        intro hword
        have := hword.2 ' ' (by simp [flagValue])
        revert this
        decide

theorem init_ok {spec : DriverSpec} (h : Driver.init spec = .ok d) :
    d.baseArgs = spec.baseArgs ∧ d.args = spec.args ++ spec.inputFlag ∧
      ((spec.output = [] ∨ spec.io.output.kind = .positional) ∧ d.output = spec.output ∨
        spec.output ≠ [] ∧ spec.io.output.kind = .flagged ∧ d.output ≠ [] ∧
          ¬ IsWord isSpace d.output) := by
  unfold Driver.init at h
  cases hargs : formInput spec.io spec.args with
  | error e =>
    rw [hargs] at h
    cases h
  | ok args =>
    cases hout : formOutput spec.io spec.output with
    | error e =>
      rw [hargs, hout] at h
      cases h
    | ok output =>
      rw [hargs, hout] at h
      obtain rfl := Except.ok.inj h
      exact ⟨rfl, formInput_ok hargs, formOutput_ok hout⟩

/-- What the target receives behind `argv[0]`. -/
theorem fuzzedArgv_toJson {phase : Int32}
    (hlibs : libs.Inverse ((d.loaded libs).setPhase phase).toJson)
    (hargc : (d.baseArgs ++ d.args).length ≤ 31) (houtput : (utf8 d.output).length < 32)
    (hplaceholder : ∀ a ∈ d.baseArgs ++ d.args ++ [d.output],
      ¬ utf8 filePlaceholder <:+: utf8 a) :
    ∃ argv, fuzzedArgv libs d.toJson phase = some argv ∧
      argv.tail = ((d.baseArgs ++ d.args).map untilNul ++
        inputFilePath :: if untilNul d.output = [] then [] else [untilNul d.output]).map utf8 := by
  let p := ((d.loaded libs).setPhase phase).decoded libs
  have hrun : fuzzedArgv libs d.toJson phase = some (subprocPrepareExecvArgs (driveGetArgv p)) := by
    rw [fuzzedArgv, load_toJson]
    show (do
      let p ← driveParseDriverProfile libs (libs.dump ((d.loaded libs).setPhase phase).toJson)
      return subprocPrepareExecvArgs (driveGetArgv p)) = _
    rw [driveParseDriverProfile_dump hlibs]
    rfl
  have hargv : p.argv = (d.baseArgs ++ d.args).map fun a => utf8 (untilNul a) := by
    show (((d.baseArgs ++ d.args).map utf8).take 31).map cstr = _
    rw [List.take_of_length_le (by rwa [List.length_map]), List.map_map]
    exact List.map_congr_left fun a _ => cstr_utf8 a
  have hout : p.output = utf8 (untilNul d.output) := by
    show strncpy 31 (utf8 d.output) = _
    rw [strncpy, List.take_of_length_le (le_trans (length_cstr_le _) (by omega)), cstr_utf8]
  have hinfix : ∀ a ∈ d.baseArgs ++ d.args ++ [d.output],
      ¬ utf8 filePlaceholder <:+: utf8 (untilNul a) := by
    intro a ha hin
    refine hplaceholder a ha (hin.trans ?_)
    rw [← cstr_utf8]
    exact (List.takeWhile_prefix _).isInfix
  refine ⟨_, hrun, ?_⟩
  rw [tail_prepareExecvArgs]
  · have hnil : utf8 (untilNul d.output) = [] ↔ untilNul d.output = [] := by
      rw [← utf8_nil, utf8_injective.eq_iff]
    rw [hargv, hout]
    simp only [hnil, List.map_append, List.map_cons, List.map_map, Function.comp_def]
    split <;> rfl
  · rw [hargv, List.length_map]
    exact hargc
  · intro arg harg
    rw [hargv] at harg
    obtain ⟨a, ha, rfl⟩ := List.mem_map.mp harg
    exact hinfix a (List.mem_append_left _ ha)
  · rw [hout]
    exact hinfix d.output (by simp)

/-- The two vectors agree exactly when splitting changes nothing. -/
theorem tail_buildCmd_eq_iff (binaryPath : PyStr) :
    (d.baseArgs ++ d.args).map untilNul ++
        inputFilePath :: (if untilNul d.output = [] then [] else [untilNul d.output]) =
      (d.buildCmd binaryPath inputFilePath).tail ↔
    (∀ a ∈ d.args, IsWord isSpace a) ∧ (d.output = [] ∨ IsWord isSpace d.output) ∧
      ∀ a ∈ d.baseArgs ++ d.args ++ [d.output], '\x00' ∉ a := by
  have hseed : IsWord isSpace inputFilePath := by decide
  have hflatten : d.flattenArgs = d.args.flatMap split := by
    rw [Driver.flattenArgs]
    congr 1
    funext a
    split
    · next h => simp [h, split]
    · rfl
  have htail : (d.buildCmd binaryPath inputFilePath).tail = d.baseArgs ++
      (d.args.flatMap split ++ inputFilePath :: if d.output = [] then [] else split d.output) := by
    rw [Driver.buildCmd, List.tail_cons, hflatten]
    simp
  have hbase : d.baseArgs.map untilNul = d.baseArgs ↔ ∀ a ∈ d.baseArgs, '\x00' ∉ a := by
    conv_lhs => rhs; rw [← List.map_id d.baseArgs]
    rw [List.map_inj_left]
    exact forall₂_congr fun a _ => untilNul_eq_self_iff
  rw [htail, List.map_append, List.append_assoc, List.append_eq_append_iff_of_size_eq_left
    (by simp), hbase, eq_comm, flatMap_split_eq_untilNul_iff hseed, split_output_eq_iff]
  simp only [List.mem_append, List.mem_singleton, or_imp, forall_and, forall_eq]
  tauto

theorem agree_iff {phase : Int32} (binaryPath : PyStr)
    (hlibs : ∀ m, Drivers.Driver.load libs d.toJson = some m →
      libs.Inverse (m.setPhase phase).toJson)
    (hargc : (d.baseArgs ++ d.args).length ≤ 31) (houtput : (utf8 d.output).length < 32)
    (hplaceholder : ∀ a ∈ d.baseArgs ++ d.args ++ [d.output],
      ¬ utf8 filePlaceholder <:+: utf8 a) :
    (∃ argv, fuzzedArgv libs d.toJson phase = some argv ∧
      argv.tail = (d.buildCmd binaryPath inputFilePath).tail.map utf8) ↔
    (∀ a ∈ d.args, IsWord isSpace a) ∧ (d.output = [] ∨ IsWord isSpace d.output) ∧
      ∀ a ∈ d.baseArgs ++ d.args ++ [d.output], '\x00' ∉ a := by
  obtain ⟨argv, hrun, htail⟩ := fuzzedArgv_toJson (hlibs _ (load_toJson libs d)) hargc houtput
    hplaceholder
  rw [← tail_buildCmd_eq_iff binaryPath, ← (utf8_injective.list_map).eq_iff, ← htail, hrun]
  simp

/-- A generated driver is fuzzed with the command line it was calibrated with
exactly when splitting at whitespace leaves its chunks and its output alone. -/
theorem calibrated_eq_fuzzed_iff {spec : DriverSpec} {phase : Int32} (binaryPath : PyStr)
    (hinit : Driver.init spec = .ok d)
    (hlibs : ∀ m, Drivers.Driver.load libs d.toJson = some m →
      libs.Inverse (m.setPhase phase).toJson)
    (hargc : (d.baseArgs ++ d.args).length ≤ 31) (houtput : (utf8 d.output).length < 32)
    (hplaceholder : ∀ a ∈ d.baseArgs ++ d.args ++ [d.output],
      ¬ utf8 filePlaceholder <:+: utf8 a) :
    (∃ argv, fuzzedArgv libs d.toJson phase = some argv ∧
      argv.tail = (d.buildCmd binaryPath inputFilePath).tail.map utf8) ↔ spec.Verbatim := by
  obtain ⟨hbase, hargs, hformed⟩ := init_ok hinit
  rw [agree_iff binaryPath hlibs hargc houtput hplaceholder, hbase, hargs]
  constructor
  · rintro ⟨hwords, hword, hnul⟩
    obtain ⟨hplain, heq⟩ | ⟨-, -, hne, hspace⟩ := hformed
    · rw [heq] at hword hnul
      refine ⟨hwords, ?_, hnul⟩
      by_cases hempty : spec.output = []
      · exact .inl hempty
      · exact .inr ⟨hplain.resolve_left hempty, hword.resolve_left hempty⟩
    · exact absurd (hword.resolve_left hne) hspace
  · intro h
    obtain ⟨-, heq⟩ | ⟨hne, hflagged, -, -⟩ := hformed
    · rw [heq]
      exact ⟨h.args, h.output.imp_right And.right, h.nul⟩
    · obtain hempty | ⟨hpositional, -⟩ := h.output
      · exact absurd hempty hne
      · rw [hpositional] at hflagged
        cases hflagged

end Agreement

/-- The first driver of `objdump` for an argument chunk. -/
def objdumpSpec (chunk : String) : DriverSpec where
  id := 1
  driver := "objdump".toList
  args := [chunk.toList]
  baseArgs := []
  seedDir := "seeds".toList
  output := []
  io := ⟨⟨.positional, none⟩, ⟨.positional, none⟩⟩
  priority := 1
  inPlaceEditing := false
  description := []

def objdumpDriver (chunk name : String) : Driver where
  id := 1
  name := name.toList
  driver := "objdump".toList
  args := [chunk.toList]
  baseArgs := []
  seedDir := "seeds".toList
  output := []
  priority := 1
  inPlaceEditing := false
  description := []

/-- Libraries that print the profile of `objdumpDriver`. -/
def objdumpLibs (chunk name : String) : JsonLibs :=
  .ofText
    { id := 1
      name := utf8 name.toList
      driver := utf8 "objdump".toList
      seedDir := utf8 "seeds".toList
      output := []
      priority := some 1
      description := []
      argv := [utf8 chunk.toList]
      phase := 0
      inPlaceEdit := 0 : Drivers.Driver }.toJson
    (pilotText chunk "objdump" name "")

theorem objdumpLibs_inverse {chunk name : String}
    (hne : pilotText chunk "objdump" name "" ≠ []) (hnul : 0 ∉ pilotText chunk "objdump" name "")
    (m : Drivers.Driver)
    (hload : Drivers.Driver.load (objdumpLibs chunk name) (objdumpDriver chunk name).toJson = some m) :
    (objdumpLibs chunk name).Inverse (m.setPhase 0).toJson := by
  rw [load_toJson] at hload
  obtain rfl := Option.some.inj hload
  exact JsonLibs.ofText_inverse hne hnul

theorem calibrated_eq_fuzzed_flag :
    ∃ argv, fuzzedArgv (objdumpLibs "-a" "1_a") (objdumpDriver "-a" "1_a").toJson 0 = some argv ∧
      argv.tail =
        ((objdumpDriver "-a" "1_a").buildCmd "binutils".toList inputFilePath).tail.map utf8 :=
  (calibrated_eq_fuzzed_iff "binutils".toList
    (show Driver.init (objdumpSpec "-a") = .ok (objdumpDriver "-a" "1_a") by rfl)
    (objdumpLibs_inverse (by decide +kernel) (by decide +kernel))
    (by decide) (by decide) (by decide +kernel)).mpr {
      args := by decide
      output := .inl rfl
      nul := by decide }

def demangleOption : CliOption where
  selectedFlag := "-C".toList
  kind := .choice
  choices := ["auto".toList, "gnu-v3".toList]
  defaults := []
  selectedValue := none

/-- The value of a choice option is calibrated as an argument of its own and
fuzzed together with its flag. -/
theorem calibrated_ne_fuzzed_choice :
    ¬ ∀ (libs : JsonLibs) (spec : DriverSpec) (d : Driver) (phase : Int32) (binaryPath : PyStr),
      GeneratedArgs spec.args → Driver.init spec = .ok d →
      (∀ m, Drivers.Driver.load libs d.toJson = some m → libs.Inverse (m.setPhase phase).toJson) →
      (d.baseArgs ++ d.args).length ≤ 31 → (utf8 d.output).length < 32 →
      (∀ a ∈ d.baseArgs ++ d.args ++ [d.output], ¬ utf8 filePlaceholder <:+: utf8 a) →
      ∃ argv, fuzzedArgv libs d.toJson phase = some argv ∧
        argv.tail = (d.buildCmd binaryPath inputFilePath).tail.map utf8 := by
  intro h
  have hgenerated : GeneratedArgs (objdumpSpec "-C auto").args :=
    .primary (show "-C auto".toList ∈ buildArgsForOption demangleOption by decide)
  have hinverse := @objdumpLibs_inverse "-C auto" "1_C_auto" (by decide +kernel) (by decide +kernel)
  have hagree := h (objdumpLibs "-C auto" "1_C_auto") (objdumpSpec "-C auto")
    (objdumpDriver "-C auto" "1_C_auto") 0 "binutils".toList hgenerated rfl hinverse
    (by decide) (by decide) (by decide +kernel)
  obtain ⟨hwords, -⟩ := (agree_iff "binutils".toList hinverse (by decide) (by decide)
    (by decide +kernel)).mp hagree
  revert hwords
  decide

end GraphDissect.Drivergen
