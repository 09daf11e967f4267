import GraphDissect.Library.Runs
import GraphDissect.Library.Selections
import GraphDissect.Drivers.CommandSpec

/-!
# Generating all drivers of a binary

`DriverGenerator.generate`: drivers for every chunk of a primary option, then
for every primary option with up to `max_combination - 1` secondary ones.  Every
candidate gets a directory and is calibrated there; a candidate that fails loses
its directory and its id.
-/

namespace GraphDissect.Drivergen

open Library

/-- A rule of the constraints; only one type is supported. -/
inductive ConstraintRule where
  | atMostOneFromGroup (group : PyStr)
  | other

/-- `cmdspec.yaml`. -/
structure CommandSpec where
  binary : PyStr
  maxCombination : Int
  baseArgs : List PyStr
  io : IOSpec
  primary : List OptionEntry
  second : List OptionEntry
  constraints : List ConstraintRule

section Constraints

def atMostOneGroups (rules : List ConstraintRule) : List PyStr :=
  rules.filterMap fun rule =>
    match rule with
    | .atMostOneFromGroup group => some group
    | .other => none

/-- The option counts for a group; an empty group is none. -/
def SpecOption.inGroup (opt : SpecOption) (group : PyStr) : Bool :=
  opt.group = some group && group ≠ []

/-- `Constraints.is_valid`. -/
def isValid (rules : List ConstraintRule) (options : List SpecOption) : Bool :=
  (atMostOneGroups rules).all fun group => options.countP (·.inGroup group) ≤ 1

end Constraints

/-- A primary option, secondary ones and one argument string of theirs. -/
structure Candidate where
  primary : SpecOption
  secondaries : List SpecOption
  args : PyStr

def selectOutput (primary : SpecOption) (secondaries : List SpecOption) : Option PyStr :=
  if primary.output ≠ some [] then primary.output
  else
    match secondaries.find? fun opt => opt.output ≠ some [] with
    | some opt => opt.output
    | none => some []

def genAllSecondaryCombos (primary : SpecOption) (secondaries : List SpecOption) (k : Nat) :
    List Candidate :=
  if k = 0 ∨ secondaries = [] then []
  else
    (combinations k secondaries).flatMap fun subset =>
      (buildArgsForCombinations ((primary :: subset).map SpecOption.toCliOption)).map fun args =>
        ⟨primary, subset, args⟩

namespace CommandSpec

variable (spec : CommandSpec)

def primaryOptions : List SpecOption := loadOptions spec.primary

def secondOptions : List SpecOption := loadOptions spec.second

def maxSecondary : Nat := (spec.maxCombination - 1).toNat

/-- The candidates of the first step of `generate`. -/
def primaryCandidates : List Candidate :=
  spec.primaryOptions.flatMap fun primary => primary.chunks.map fun chunk => ⟨primary, [], chunk⟩

def combinedCandidates : List Candidate :=
  if 0 < spec.maxSecondary ∧ spec.secondOptions ≠ [] then
    spec.primaryOptions.flatMap fun primary =>
      (List.range' 1 spec.maxSecondary).flatMap (genAllSecondaryCombos primary spec.secondOptions)
  else []

def candidates : List Candidate := spec.primaryCandidates ++ spec.combinedCandidates

end CommandSpec

/-- The arguments of the `Driver` that is built for a candidate. -/
def Candidate.driverSpec (spec : CommandSpec) (id : Nat) (c : Candidate) : DriverSpec where
  id
  driver := spec.binary
  args := [c.args]
  baseArgs := spec.baseArgs
  seedDir := "seeds".toList
  output := (selectOutput c.primary c.secondaries).getD []
  io := spec.io
  priority := 1
  inPlaceEditing := c.primary.inPlaceEditing || c.secondaries.any (·.inPlaceEditing)
  description := List.intercalate " + ".toList
    (c.primary.description :: (c.secondaries.map (·.description)).filter (· ≠ []))

/-- A driver's directory: its profile, once it is written. -/
structure DriverDir where
  profile : Option Drivers.Json

/-- The directories of the drivers, by name. -/
abbrev DriverDirs := PyStr → Option DriverDir

section Directories

/-- `os.makedirs(…, exist_ok=True)`, as `gen_seed` and `write_driver` use it. -/
def makeDirs (dirs : DriverDirs) (name : PyStr) : DriverDirs :=
  Function.update dirs name (some ((dirs name).getD ⟨none⟩))

def removerDriver (dirs : DriverDirs) (driver : Driver) : DriverDirs :=
  if (dirs driver.name).isSome then Function.update dirs driver.name none else dirs

def writeDriver (dirs : DriverDirs) (driver : Driver) : DriverDirs :=
  Function.update (makeDirs dirs driver.name) driver.name (some ⟨some driver.toJson⟩)

end Directories

/-- A driver of the list, and the candidate it was built for. -/
structure Accepted where
  candidate : Candidate
  driver : Driver

/-- The variables of `generate` and what it writes below the drivers directory;
`tried` counts the calibrations. -/
structure GenState where
  driverId : Nat
  accepted : List Accepted
  dirs : DriverDirs
  driverList : Option (List (Nat × PyStr))
  tried : Nat

namespace GenState

/-- Before the first candidate, in an empty drivers directory. -/
def start : GenState where
  driverId := 1
  accepted := []
  dirs _ := none
  driverList := none
  tried := 0

/-- The body of the loops of `generate`; `success` is the pattern of
calibrations. -/
def tryCandidate (spec : CommandSpec) (success : Nat → Bool) (s : GenState) (c : Candidate) :
    Except String GenState := do
  let driver ← Driver.init (c.driverSpec spec s.driverId)
  let dirs := makeDirs s.dirs driver.name
  if success s.tried then
    return { s with
      driverId := s.driverId + 1
      accepted := s.accepted ++ [⟨c, driver⟩]
      dirs := writeDriver dirs driver
      tried := s.tried + 1 }
  else
    return { s with
      dirs := removerDriver dirs driver
      tried := s.tried + 1 }

def genDriverList (s : GenState) : GenState :=
  { s with driverList := some (s.accepted.map fun a => (a.driver.id, a.driver.name)) }

def checkCached (s : GenState) : Bool :=
  match s.driverList with
  | none => false
  | some drivers =>
      if drivers.length = 0 then false
      else drivers.length ==
        drivers.countP fun entry => (s.dirs entry.2).any fun dir => dir.profile.isSome

end GenState

def generate (spec : CommandSpec) (success : Nat → Bool) : Except String GenState := do
  let s ← spec.candidates.foldlM (GenState.tryCandidate spec success) GenState.start
  return s.genDriverList

section Construction

def IOField.Usable (field : IOField) : Prop :=
  field.kind = .flagged → field.flag.getD [] ≠ []

/-- The constructor of a driver raises no error. -/
def IOSpec.Accepts (io : IOSpec) (output : PyStr) : Prop :=
  io.input.Usable ∧ (output ≠ [] → io.output.Usable)

theorem formInput_isOk_iff (io : IOSpec) (args : List PyStr) :
    (∃ formed, formInput io args = .ok formed) ↔ io.input.Usable := by
  unfold formInput IOField.Usable
  cases io.input.kind with
  | positional => simp
  | flagged =>
      cases io.input.flag with
      | none => simp
      | some flag => by_cases empty : flag = [] <;> simp [empty]

theorem formOutput_isOk_iff (io : IOSpec) (output : PyStr) :
    (∃ formed, formOutput io output = .ok formed) ↔ (output ≠ [] → io.output.Usable) := by
  unfold formOutput IOField.Usable
  by_cases none : output = []
  · simp [none]
  · cases io.output.kind with
    | positional => simp [none]
    | flagged =>
        cases io.output.flag with
        | none => simp [none]
        | some flag => by_cases empty : flag = [] <;> simp [none, empty]

theorem init_eq_ok {spec : DriverSpec} {driver : Driver} (built : Driver.init spec = .ok driver) :
    driver.id = spec.id ∧ driver.name = buildName spec.id spec.args ∧
      formInput spec.io spec.args = .ok driver.args ∧
      formOutput spec.io spec.output = .ok driver.output := by
  unfold Driver.init at built
  cases args : formInput spec.io spec.args with
  | error text =>
      rw [args] at built
      cases built
  | ok formed =>
      cases output : formOutput spec.io spec.output with
      | error text =>
          rw [args, output] at built
          cases built
      | ok text =>
          rw [args, output] at built
          cases built
          exact ⟨rfl, rfl, rfl, rfl⟩

theorem init_isOk_iff (spec : DriverSpec) :
    (∃ driver, Driver.init spec = .ok driver) ↔ spec.io.Accepts spec.output := by
  rw [IOSpec.Accepts, ← formInput_isOk_iff spec.io spec.args, ← formOutput_isOk_iff]
  constructor
  · rintro ⟨driver, built⟩
    rcases init_eq_ok built with ⟨-, -, args, output⟩
    exact ⟨⟨_, args⟩, ⟨_, output⟩⟩
  · rintro ⟨⟨formed, args⟩, ⟨text, output⟩⟩
    rw [Driver.init, args, output]
    exact ⟨_, rfl⟩

end Construction

section Names

theorem toDigits_injective : Function.Injective (Nat.toDigits 10) := by
  intro first second same
  have read := @readNat_toDigits 10 (by decide) (by decide) first
  rw [same, readNat_toDigits (by decide) (by decide)] at read
  exact (Option.some.inj read).symm

theorem digitChar_ne_underscore : ∀ digit < 10, digit.digitChar ≠ '_' := by decide

theorem takeWhile_buildName (id : Nat) (args : List PyStr) :
    (buildName id args).takeWhile (· ≠ '_') = Nat.toDigits 10 id := by
  have digits : ∀ c ∈ Nat.toDigits 10 id, decide (c ≠ '_') = true := by
    intro c member
    rcases mem_toDigits (by decide) member with ⟨digit, small, rfl⟩
    exact decide_eq_true (digitChar_ne_underscore digit small)
  have stops (rest : PyStr) :
      (Nat.toDigits 10 id ++ '_' :: rest).takeWhile (· ≠ '_') = Nat.toDigits 10 id := by
    rw [List.takeWhile_append_of_pos digits]
    simp
  unfold buildName
  split
  · exact stops "default".toList
  · exact stops _

theorem id_eq_of_buildName_eq {first second : Nat} {args others : List PyStr}
    (same : buildName first args = buildName second others) : first = second := by
  apply toDigits_injective
  rw [← takeWhile_buildName first args, same, takeWhile_buildName]

end Names

section Steps

variable {spec : CommandSpec} {success : Nat → Bool} {s next final : GenState} {c : Candidate}
  {driver : Driver}

/-- The output that the driver of a candidate is built with. -/
def Candidate.output (c : Candidate) : PyStr := (selectOutput c.primary c.secondaries).getD []

def CommandSpec.Runs (spec : CommandSpec) : Prop :=
  ∀ c ∈ spec.candidates, spec.io.Accepts c.output

namespace GenState

/-- The state after a successful calibration. -/
def accept (s : GenState) (c : Candidate) (driver : Driver) : GenState :=
  { s with
    driverId := s.driverId + 1
    accepted := s.accepted ++ [⟨c, driver⟩]
    dirs := writeDriver (makeDirs s.dirs driver.name) driver
    tried := s.tried + 1 }

/-- The state after a failed calibration. -/
def reject (s : GenState) (driver : Driver) : GenState :=
  { s with
    dirs := removerDriver (makeDirs s.dirs driver.name) driver
    tried := s.tried + 1 }

theorem tryCandidate_eq (built : Driver.init (c.driverSpec spec s.driverId) = .ok driver) :
    s.tryCandidate spec success c =
      .ok (if success s.tried then s.accept c driver else s.reject driver) := by
  rw [tryCandidate, built]
  cases calibrated : success s.tried <;> rfl

theorem tryCandidate_cases (taken : s.tryCandidate spec success c = .ok next) :
    ∃ driver, Driver.init (c.driverSpec spec s.driverId) = .ok driver ∧
      (success s.tried = true ∧ next = s.accept c driver ∨
        success s.tried = false ∧ next = s.reject driver) := by
  cases built : Driver.init (c.driverSpec spec s.driverId) with
  | error text =>
      rw [tryCandidate, built] at taken
      cases taken
  | ok driver =>
      rw [tryCandidate_eq built] at taken
      refine ⟨driver, rfl, ?_⟩
      cases calibrated : success s.tried with
      | true => exact .inl ⟨rfl, by simpa [calibrated] using (Except.ok.inj taken).symm⟩
      | false => exact .inr ⟨rfl, by simpa [calibrated] using (Except.ok.inj taken).symm⟩

theorem tryCandidate_isOk_iff :
    (∃ next, s.tryCandidate spec success c = .ok next) ↔ spec.io.Accepts c.output := by
  have initial := init_isOk_iff (c.driverSpec spec s.driverId)
  constructor
  · rintro ⟨next, taken⟩
    rcases tryCandidate_cases taken with ⟨driver, built, -⟩
    exact initial.mp ⟨driver, built⟩
  · intro accepts
    rcases initial.mpr accepts with ⟨driver, built⟩
    exact ⟨_, tryCandidate_eq built⟩

/-- The loops return exactly when no driver is refused. -/
theorem foldlM_isOk_iff {remaining : List Candidate} :
    (∃ final, remaining.foldlM (tryCandidate spec success) s = .ok final) ↔
      ∀ c ∈ remaining, spec.io.Accepts c.output := by
  induction remaining generalizing s with
  | nil => exact ⟨fun _ => List.forall_mem_nil _, fun _ => ⟨s, rfl⟩⟩
  | cons c rest inductionHypothesis =>
      rw [List.forall_mem_cons, ← @tryCandidate_isOk_iff spec success s c, List.foldlM_cons]
      cases taken : s.tryCandidate spec success c with
      | error text => simp [bind, Except.bind]
      | ok next => simpa [bind, Except.bind] using @inductionHypothesis next

/-- The candidates of the accepted drivers are some of those tried, all of them
when every calibration succeeds. -/
theorem foldlM_accepted {remaining : List Candidate}
    (returned : remaining.foldlM (tryCandidate spec success) s = .ok final) :
    ∃ chosen : List Candidate, chosen.Sublist remaining ∧
      final.accepted.map Accepted.candidate = s.accepted.map Accepted.candidate ++ chosen ∧
      ((∀ n, success n = true) → chosen = remaining) := by
  induction remaining generalizing s with
  | nil =>
      cases returned
      exact ⟨[], List.Sublist.refl [], by simp, fun _ => rfl⟩
  | cons c rest inductionHypothesis =>
      rw [List.foldlM_cons] at returned
      cases taken : s.tryCandidate spec success c with
      | error text =>
          rw [taken] at returned
          cases returned
      | ok next =>
          rw [taken] at returned
          rcases inductionHypothesis returned with ⟨chosen, sublist, candidates, all⟩
          rcases tryCandidate_cases taken with ⟨driver, built, ⟨-, rfl⟩ | ⟨failed, rfl⟩⟩
          · exact ⟨c :: chosen, sublist.cons_cons c, by simp [candidates, accept],
              fun succeeds => by rw [all succeeds]⟩
          · exact ⟨chosen, sublist.cons c, by simp [candidates, reject],
              fun succeeds => by simp [succeeds] at failed⟩

end GenState

theorem generate_eq_ok (generated : generate spec success = .ok s) :
    ∃ final, spec.candidates.foldlM (GenState.tryCandidate spec success) GenState.start = .ok final ∧
      s = final.genDriverList := by
  rw [generate] at generated
  cases returned : spec.candidates.foldlM (GenState.tryCandidate spec success) GenState.start with
  | error text =>
      rw [returned] at generated
      cases generated
  | ok final =>
      rw [returned] at generated
      cases generated
      exact ⟨final, rfl, rfl⟩

theorem generate_isOk_iff : (∃ s, generate spec success = .ok s) ↔ spec.Runs := by
  rw [CommandSpec.Runs, ← @GenState.foldlM_isOk_iff spec success GenState.start]
  constructor
  · rintro ⟨s, generated⟩
    rcases generate_eq_ok generated with ⟨final, returned, -⟩
    exact ⟨final, returned⟩
  · rintro ⟨final, returned⟩
    rw [generate, returned]
    exact ⟨_, rfl⟩

theorem generate_accepted (generated : generate spec success = .ok s) :
    (s.accepted.map Accepted.candidate).Sublist spec.candidates ∧
      ((∀ n, success n = true) → s.accepted.map Accepted.candidate = spec.candidates) := by
  rcases generate_eq_ok generated with ⟨final, returned, rfl⟩
  rcases GenState.foldlM_accepted returned with ⟨chosen, sublist, candidates, all⟩
  change (final.accepted.map Accepted.candidate).Sublist _ ∧
    (_ → final.accepted.map Accepted.candidate = _)
  rw [candidates]
  exact ⟨sublist, all⟩

end Steps

section Agreement

variable {spec : CommandSpec} {success : Nat → Bool} {s next : GenState} {c : Candidate}
  {driver : Driver} {dirs : DriverDirs}

theorem makeDirs_of_absent {name : PyStr} (absent : dirs name = none) :
    makeDirs dirs name = Function.update dirs name (some ⟨none⟩) := by
  rw [makeDirs, absent]
  rfl

/-- A rejected candidate leaves nothing behind. -/
theorem removerDriver_makeDirs (absent : dirs driver.name = none) :
    removerDriver (makeDirs dirs driver.name) driver = dirs := by
  rw [makeDirs_of_absent absent, removerDriver, Function.update_self, if_pos Option.isSome_some,
    Function.update_idem, ← absent, Function.update_eq_self]

theorem writeDriver_makeDirs (absent : dirs driver.name = none) :
    writeDriver (makeDirs dirs driver.name) driver =
      Function.update dirs driver.name (some ⟨some driver.toJson⟩) := by
  rw [makeDirs_of_absent absent, writeDriver, makeDirs, Function.update_idem,
    Function.update_idem]

namespace GenState

/-- Between two candidates: the accepted drivers are numbered from one, and each
of them, and nothing else, has a directory with its profile. -/
structure Numbered (s : GenState) : Prop where
  next : s.driverId = s.accepted.length + 1
  ids : s.accepted.map (·.driver.id) = List.range' 1 s.accepted.length
  names : ∀ a ∈ s.accepted, ∃ args, a.driver.name = buildName a.driver.id args
  profiles : ∀ a ∈ s.accepted, s.dirs a.driver.name = some ⟨some a.driver.toJson⟩
  present : ∀ name, (s.dirs name).isSome = true → ∃ a ∈ s.accepted, a.driver.name = name

theorem Numbered.id_lt (numbered : s.Numbered) {a : Accepted} (member : a ∈ s.accepted) :
    a.driver.id < s.driverId := by
  have inRange : a.driver.id ∈ List.range' 1 s.accepted.length := by
    rw [← numbered.ids]
    exact List.mem_map_of_mem member
  rw [List.mem_range'_1] at inRange
  rw [numbered.next]
  omega

theorem Numbered.absent (numbered : s.Numbered) (args : List PyStr) :
    s.dirs (buildName s.driverId args) = none := by
  rw [← Option.not_isSome_iff_eq_none]
  intro used
  rcases numbered.present _ used with ⟨a, member, name⟩
  rcases numbered.names a member with ⟨others, built⟩
  rw [built] at name
  exact absurd (id_eq_of_buildName_eq name) (numbered.id_lt member).ne

theorem numbered_start : start.Numbered := by
  refine ⟨rfl, rfl, ?_, ?_, ?_⟩ <;> simp [start]

theorem Numbered.accept (numbered : s.Numbered) {args : List PyStr} (id : driver.id = s.driverId)
    (name : driver.name = buildName s.driverId args) : (s.accept c driver).Numbered := by
  have absent : s.dirs driver.name = none := name ▸ numbered.absent args
  refine ⟨by simp [GenState.accept, numbered.next], ?_, ?_, ?_, ?_⟩
  · simp only [GenState.accept, List.map_append, List.map_cons, List.map_nil, List.length_append,
      List.length_singleton, List.range'_1_concat, numbered.ids, id, numbered.next, Nat.add_comm]
  · intro a member
    rcases List.mem_append.mp member with earlier | last
    · exact numbered.names a earlier
    · cases List.mem_singleton.mp last
      exact ⟨args, by rw [name, id]⟩
  · intro a member
    change writeDriver (makeDirs s.dirs driver.name) driver a.driver.name = _
    rw [writeDriver_makeDirs absent]
    rcases List.mem_append.mp member with earlier | last
    · rw [Function.update_of_ne, numbered.profiles a earlier]
      intro same
      rw [← same, numbered.profiles a earlier] at absent
      cases absent
    · cases List.mem_singleton.mp last
      exact Function.update_self _ _ _
  · intro other used
    change (writeDriver (makeDirs s.dirs driver.name) driver other).isSome = true at used
    rw [writeDriver_makeDirs absent] at used
    by_cases same : other = driver.name
    · exact ⟨⟨c, driver⟩, List.mem_append_right _ (List.mem_singleton_self _), same.symm⟩
    · rw [Function.update_of_ne same] at used
      rcases numbered.present other used with ⟨a, member, isName⟩
      exact ⟨a, List.mem_append_left _ member, isName⟩

theorem Numbered.reject (numbered : s.Numbered) {args : List PyStr}
    (name : driver.name = buildName s.driverId args) : (s.reject driver).Numbered := by
  have unchanged : s.reject driver = { s with tried := s.tried + 1 } := by
    rw [GenState.reject, removerDriver_makeDirs (name ▸ numbered.absent args)]
  rw [unchanged]
  exact ⟨numbered.next, numbered.ids, numbered.names, numbered.profiles, numbered.present⟩

theorem Numbered.step (numbered : s.Numbered) (taken : s.tryCandidate spec success c = .ok next) :
    next.Numbered := by
  rcases tryCandidate_cases taken with ⟨driver, built, ⟨-, rfl⟩ | ⟨-, rfl⟩⟩
  · exact numbered.accept (init_eq_ok built).1 (init_eq_ok built).2.1
  · exact numbered.reject (init_eq_ok built).2.1

theorem Numbered.nodup_names (numbered : s.Numbered) :
    (s.accepted.map (·.driver.name)).Nodup := by
  have ids : (s.accepted.map (·.driver.id)).Nodup := by
    rw [numbered.ids]
    exact List.nodup_range'
  rw [List.nodup_iff_pairwise_ne, List.pairwise_map] at ids ⊢
  refine ids.imp_of_mem fun {a b} first second apart same => apart ?_
  rcases numbered.names a first with ⟨args, name⟩
  rcases numbered.names b second with ⟨others, otherName⟩
  rw [name, otherName] at same
  exact id_eq_of_buildName_eq same

/-- The list, the directories and the profiles agree on these drivers. -/
structure Agrees (s : GenState) (drivers : List (Nat × PyStr)) : Prop where
  listed : s.driverList = some drivers
  ids : drivers.map Prod.fst = List.range' 1 drivers.length
  names : (drivers.map Prod.snd).Nodup
  directories : ∀ name, (s.dirs name).isSome = true ↔ name ∈ drivers.map Prod.snd
  profiles : ∀ entry ∈ drivers, ∃ profile, s.dirs entry.2 = some ⟨some profile⟩ ∧
    profile.find "id" = some (.int entry.1) ∧ profile.find "name" = some (.str (utf8 entry.2))
  cached : s.checkCached = true ↔ 0 < drivers.length

theorem checkCached_iff {drivers : List (Nat × PyStr)} (listed : s.driverList = some drivers)
    (written : ∀ entry ∈ drivers,
      ((s.dirs entry.2).any fun dir => dir.profile.isSome) = true) :
    s.checkCached = true ↔ 0 < drivers.length := by
  have all : drivers.countP (fun entry => (s.dirs entry.2).any fun dir => dir.profile.isSome) =
      drivers.length := List.countP_eq_length.mpr written
  simp only [checkCached, listed, all, beq_self_eq_true]
  cases drivers <;> simp

theorem Numbered.agrees (numbered : s.Numbered) :
    s.genDriverList.Agrees (s.accepted.map fun a => (a.driver.id, a.driver.name)) := by
  have dirs : s.genDriverList.dirs = s.dirs := rfl
  refine ⟨rfl, ?_, ?_, ?_, ?_, checkCached_iff rfl ?_⟩
  · rw [List.map_map, List.length_map]
    exact numbered.ids
  · rw [List.map_map]
    exact numbered.nodup_names
  · intro name
    rw [List.map_map, List.mem_map]
    constructor
    · exact numbered.present name
    · rintro ⟨a, accepted, rfl⟩
      exact Option.isSome_of_eq_some (numbered.profiles a accepted)
  · intro entry member
    rcases List.mem_map.mp member with ⟨a, accepted, rfl⟩
    exact ⟨_, numbered.profiles a accepted, rfl, rfl⟩
  · intro entry member
    rcases List.mem_map.mp member with ⟨a, accepted, rfl⟩
    rw [dirs, numbered.profiles a accepted]
    rfl

end GenState

/-- Whenever the generator returns, the list, the directories and the profiles
agree; it returns exactly when no candidate's driver is refused. -/
theorem generate_agrees (spec : CommandSpec) (success : Nat → Bool) :
    (∀ s, generate spec success = .ok s → ∃ drivers, s.Agrees drivers) ∧
      ((∃ s, generate spec success = .ok s) ↔ spec.Runs) := by
  refine ⟨fun s generated => ?_, generate_isOk_iff⟩
  rcases generate_eq_ok generated with ⟨final, returned, rfl⟩
  have numbered : final.Numbered := foldlM_ok_invariant
    (fun state c _ next numbered taken => numbered.step taken) GenState.numbered_start returned
  exact ⟨_, numbered.agrees⟩

end Agreement

end GraphDissect.Drivergen
