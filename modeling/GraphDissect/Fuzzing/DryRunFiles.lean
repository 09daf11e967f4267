import GraphDissect.Fuzzing.DryRun

/-!
# What the dry run executes

Every file of the input directory goes to one thread, which runs it with four
bytes first and then with twice as many each time, and ends with the whole file
or with `maxInputSz` bytes of it.  The dry run is not left before all of that
has been done.
-/

namespace GraphDissect.Fuzzing

open Library

/-- The sizes of a file that are run after a read that filled its size. -/
def laterSizes (length maxInputSz size : Nat) : List Nat :=
  if _ : 0 < size ∧ size * 2 < maxInputSz then
    if length < size * 2 then [length] else size * 2 :: laterSizes length maxInputSz (size * 2)
  else [min length maxInputSz]
termination_by maxInputSz - size

def staticSizes (length maxInputSz : Nat) : List Nat :=
  if length < min 4 maxInputSz then [length]
  else min 4 maxInputSz :: laterSizes length maxInputSz (min 4 maxInputSz)

theorem getLast?_laterSizes (length maxInputSz size : Nat) :
    (laterSizes length maxInputSz size).getLast? = some (min length maxInputSz) := by
  induction size using laterSizes.induct length maxInputSz with
  | case1 size grows short =>
      rw [laterSizes, dif_pos grows, if_pos short, Nat.min_eq_left (by omega)]
      rfl
  | case2 size grows long inductionHypothesis =>
      rw [laterSizes, dif_pos grows, if_neg long, List.getLast?_cons, inductionHypothesis]
      rfl
  | case3 size ends =>
      rw [laterSizes, dif_neg ends]
      rfl

theorem getLast?_staticSizes (length maxInputSz : Nat) :
    (staticSizes length maxInputSz).getLast? = some (min length maxInputSz) := by
  unfold staticSizes
  split
  · next short =>
    rw [Nat.min_eq_left (by omega)]
    rfl
  · rw [List.getLast?_cons, getLast?_laterSizes]
    rfl

namespace StaticRun

variable {maxInputSz : Nat} {run : StaticRun} {file : StaticFile}

def upcoming (maxInputSz : Nat) (run : StaticRun) : List Nat :=
  match run.file with
  | none => []
  | some file => if run.tryMore then laterSizes file.length maxInputSz run.size else []

/-- What a read that was to fill `size` bytes leaves. -/
theorem upcoming_readFile (more : run.tryMore = true) :
    (run.readFile file).size :: (run.readFile file).upcoming maxInputSz =
      if file.length < run.size then [file.length]
      else run.size :: laterSizes file.length maxInputSz run.size := by
  rcases Nat.lt_or_ge file.length run.size with short | long
  · have least : min file.length run.size = file.length := Nat.min_eq_left (Nat.le_of_lt short)
    rw [if_pos short]
    simp [upcoming, readFile, least, short]
  · have least : min file.length run.size = run.size := Nat.min_eq_right long
    rw [if_neg (Nat.not_lt.mpr long)]
    simp [upcoming, readFile, least, more]

theorem shouldReadNewFile_new (fresh : run.tryMore = false) :
    (run.shouldReadNewFile maxInputSz).1 = true ∧
      ((run.shouldReadNewFile maxInputSz).2.readFile file).size ::
          ((run.shouldReadNewFile maxInputSz).2.readFile file).upcoming maxInputSz =
        staticSizes file.length maxInputSz := by
  unfold shouldReadNewFile
  rw [fresh]
  exact ⟨rfl, upcoming_readFile rfl⟩

theorem shouldReadNewFile_same (more : run.tryMore = true) (positive : 0 < run.size) :
    (run.shouldReadNewFile maxInputSz).1 = false ∧
      (run.shouldReadNewFile maxInputSz).2.file = run.file ∧
      ((run.shouldReadNewFile maxInputSz).2.readFile file).size ::
          ((run.shouldReadNewFile maxInputSz).2.readFile file).upcoming maxInputSz =
        laterSizes file.length maxInputSz run.size := by
  unfold shouldReadNewFile
  rw [more, if_neg (by decide)]
  split
  · next large =>
    refine ⟨rfl, rfl, ?_⟩
    rw [laterSizes, dif_neg (fun grows => absurd grows.2 (Nat.not_lt.mpr large))]
    simp [readFile, upcoming]
  · next small =>
    refine ⟨rfl, rfl, ?_⟩
    rw [laterSizes, dif_pos ⟨positive, Nat.not_le.mp small⟩]
    exact upcoming_readFile rfl

/-- A read keeps `tryMore` only when it filled its size. -/
theorem readFile_size_pos (positive : 0 < run.size) (more : (run.readFile file).tryMore = true) :
    0 < (run.readFile file).size := by
  simp only [readFile, Bool.and_eq_true, Bool.not_eq_true', decide_eq_false_iff_not, Nat.not_lt] at more ⊢
  omega

theorem file_shouldReadNewFile (maxInputSz : Nat) (run : StaticRun) :
    (run.shouldReadNewFile maxInputSz).2.file = run.file := by
  unfold shouldReadNewFile
  split
  · rfl
  · split <;> rfl

theorem shouldReadNewFile_size_pos (large : 0 < maxInputSz) (positive : run.tryMore = true → 0 < run.size) :
    0 < (run.shouldReadNewFile maxInputSz).2.size := by
  unfold shouldReadNewFile
  split
  · exact Nat.lt_min.mpr ⟨by decide, large⟩
  · next more =>
    have size := positive (by simpa using more)
    split
    · exact large
    · exact Nat.mul_pos size (by decide)

end StaticRun

namespace DryRun

/-- The sizes with which a file has been run. -/
def runsOf (executed : List (StaticFile × Nat)) (file : StaticFile) : List Nat :=
  (executed.filter fun entry => entry.1 = file).map Prod.snd

/-- What a thread has still to run of its file. -/
def pending (maxInputSz : Nat) (thread : DryThread) : List Nat :=
  if thread.hasReported then []
  else
    match thread.phase with
    | .running true => thread.run.size :: thread.run.upcoming maxInputSz
    | .reporting => []
    | _ => thread.run.upcoming maxInputSz

/-- A thread and its file: what has been run and what is pending make up the
sequence of sizes. -/
structure Serving (maxInputSz : Nat) (queue : List StaticFile) (executed : List (StaticFile × Nat))
    (thread : DryThread) : Prop where
  accounted : ∀ file, thread.run.file = some file →
    file ∉ queue ∧ runsOf executed file ++ pending maxInputSz thread =
      staticSizes file.length maxInputSz
  underway : thread.hasReported = false → thread.phase ≠ .reporting → thread.run.tryMore = true →
    0 < thread.run.size ∧ thread.run.file ≠ none
  exhausted : thread.hasReported = true ∨ thread.phase = .reporting → queue = []

/-- The inputs that are in the queue or have been in it. -/
def inputs (s : DryRun) : List DynInput := s.dynfileq ++ s.handedOut

/-- An input of the corpus for which `input_prepareStaticFile` passes a file over. -/
def Matches (maxInputSz : Nat) (file : StaticFile) (input : DynInput) : Prop :=
  input.path = file.name ∧ input.size = min file.length (min 4 maxInputSz)

/-- Where the files of the input directory are. -/
structure FilesKept (config : DryConfig) (maxInputSz : Nat) (files : List StaticFile) (s : DryRun) :
    Prop where
  limit : s.state = .dryRun → s.maxInputSz = maxInputSz
  nodup : s.files.Nodup
  fresh : ∀ file ∈ s.files, runsOf s.executed file = []
  serving : ∀ i < config.threadsMax, Serving maxInputSz s.files s.executed (s.threads i)
  distinct : ∀ i < config.threadsMax, ∀ j < config.threadsMax, ∀ file,
    (s.threads i).run.file = some file → (s.threads j).run.file = some file → i = j
  place : ∀ file ∈ files, file ∈ s.files ∨ file ∈ s.skipped ∨
    (∃ i < config.threadsMax, (s.threads i).run.file = some file) ∨
    runsOf s.executed file = staticSizes file.length maxInputSz
  passedOver : ∀ file ∈ s.skipped, ∃ input ∈ s.inputs, Matches maxInputSz file input

section Files

variable {config : DryConfig} {maxInputSz : Nat} {files queue : List StaticFile}
  {executed : List (StaticFile × Nat)} {s : DryRun} {i : Nat} {thread later : DryThread}

theorem runsOf_append (file other : StaticFile) (size : Nat) :
    runsOf (executed ++ [(other, size)]) file =
      if other = file then runsOf executed file ++ [size] else runsOf executed file := by
  unfold runsOf
  split
  · next same => simp [same]
  · next differ => simp [differ]

/-- A thread that has reported has nothing to run, wherever it stands. -/
theorem Serving.ofReported (serving : Serving maxInputSz queue executed thread)
    (done : pending maxInputSz thread = []) (exhausted : queue = [])
    (reported : later.hasReported = true) (file : later.run.file = thread.run.file) :
    Serving maxInputSz queue executed later where
  accounted := by
    intro served holds
    have accounted := serving.accounted served (file.symm.trans holds)
    rw [done] at accounted
    rwa [pending, if_pos reported]
  underway := fun missing => absurd (reported.symm.trans missing) (by decide)
  exhausted := fun _ => exhausted

theorem Serving.ofSame (serving : Serving maxInputSz queue executed thread)
    (same : pending maxInputSz later = pending maxInputSz thread) (run : later.run = thread.run)
    (reported : later.hasReported = thread.hasReported) (before : thread.phase ≠ .reporting)
    (after : later.phase ≠ .reporting) : Serving maxInputSz queue executed later where
  accounted := by
    rw [same, run]
    exact serving.accounted
  underway := by
    rw [reported, run]
    exact fun missing _ more => serving.underway missing before more
  exhausted := by
    rw [reported]
    rintro (told | reporting)
    · exact serving.exhausted (.inl told)
    · exact absurd reporting after

theorem FilesKept.setThread (kept : FilesKept config maxInputSz files s)
    (inside : i < config.threadsMax) (sameFile : thread.run.file = (s.threads i).run.file)
    (serving : Serving maxInputSz s.files s.executed thread) :
    FilesKept config maxInputSz files (s.setThread i thread) := by
  have file : ∀ j, ((s.setThread i thread).threads j).run.file = (s.threads j).run.file := by
    intro j
    by_cases here : j = i
    · subst here
      rw [setThread_threads_self, sameFile]
    · rw [setThread_threads_of_ne here]
  refine ⟨kept.limit, kept.nodup, kept.fresh, ?_, ?_, ?_, kept.passedOver⟩
  · exact forall_setThread (fun _ t => Serving maxInputSz s.files s.executed t) kept.serving serving
  · intro j first k second
    rw [file, file]
    exact kept.distinct j first k second
  · simp only [file]
    exact kept.place

theorem FilesKept.congr (kept : FilesKept config maxInputSz files s) {next : DryRun}
    (limit : next.state = .dryRun → next.maxInputSz = maxInputSz) (queue : next.files = s.files)
    (threads : next.threads = s.threads) (executed : next.executed = s.executed)
    (skipped : next.skipped = s.skipped) (inputs : ∀ input ∈ s.inputs, input ∈ next.inputs) :
    FilesKept config maxInputSz files next where
  limit := limit
  nodup := queue ▸ kept.nodup
  fresh := by
    rw [queue, executed]
    exact kept.fresh
  serving := by
    rw [queue, executed, threads]
    exact kept.serving
  distinct := by
    rw [threads]
    exact kept.distinct
  place := by
    rw [queue, executed, threads, skipped]
    exact kept.place
  passedOver := by
    rw [skipped]
    intro file member
    obtain ⟨input, known, isMatch⟩ := kept.passedOver file member
    exact ⟨input, inputs input known, isMatch⟩

theorem filesKept_start (nodup : files.Nodup) :
    FilesKept config maxInputSz files (start maxInputSz files) where
  limit := fun _ => rfl
  nodup := nodup
  fresh := fun _ _ => rfl
  serving := fun _ _ =>
    { accounted := by rintro _ ⟨⟩
      underway := by rintro _ _ ⟨⟩
      exhausted := by rintro (⟨⟨⟩⟩ | ⟨⟨⟩⟩) }
  distinct := by rintro _ _ _ _ _ ⟨⟩
  place := fun _ member => .inl member
  passedOver := by rintro _ ⟨⟩

/-- A thread that serves nothing any more takes the next file. -/
theorem FilesKept.takeFile (kept : FilesKept config maxInputSz files s)
    (inside : i < config.threadsMax) (thread : DryThread) {file : StaticFile} {rest : List StaticFile}
    (queue : s.files = file :: rest) (done : pending maxInputSz (s.threads i) = [])
    (holds : thread.run.file = some file)
    (begins : pending maxInputSz thread = staticSizes file.length maxInputSz)
    (positive : thread.run.tryMore = true → 0 < thread.run.size)
    (early : thread.hasReported = false) (runs : thread.phase ≠ .reporting) :
    FilesKept config maxInputSz files ({ s with files := rest }.setThread i thread) := by
  have member : file ∈ s.files := queue ▸ List.mem_cons_self
  have split := List.nodup_cons.mp (queue ▸ kept.nodup)
  have nobody : ∀ j < config.threadsMax, (s.threads j).run.file ≠ some file := fun j within has =>
    ((kept.serving j within).accounted file has).1 member
  refine ⟨kept.limit, split.2, ?_, ?_, ?_, ?_, kept.passedOver⟩
  · exact fun other later => kept.fresh other (queue ▸ List.mem_cons_of_mem file later)
  · refine forall_setThread (fun _ t => Serving maxInputSz rest s.executed t) ?_ ?_
    · intro j within
      have old := kept.serving j within
      refine ⟨fun other has => ?_, old.underway, fun told => ?_⟩
      · have accounted := old.accounted other has
        exact ⟨fun later => accounted.1 (queue ▸ List.mem_cons_of_mem file later), accounted.2⟩
      · exact absurd (queue.symm.trans (old.exhausted told)) (List.cons_ne_nil _ _)
    · refine ⟨fun other has => ?_, fun _ _ more => ⟨positive more, ?_⟩, ?_⟩
      · cases holds.symm.trans has
        refine ⟨split.1, ?_⟩
        rw [kept.fresh file member, begins, List.nil_append]
      · rw [holds]
        exact Option.some_ne_none file
      · rintro (told | reporting)
        · exact absurd (early.symm.trans told) (by decide)
        · exact absurd reporting runs
  · have others : ∀ j < config.threadsMax, j ≠ i → ∀ other, thread.run.file = some other →
        (s.threads j).run.file ≠ some other := by
      intro j within _ other has
      cases holds.symm.trans has
      exact nobody j within
    intro j first k second other has also
    by_cases here : j = i <;> by_cases there : k = i
    · exact here.trans there.symm
    · subst here
      rw [setThread_threads_self] at has
      rw [setThread_threads_of_ne there] at also
      exact absurd also (others k second there other has)
    · subst there
      rw [setThread_threads_self] at also
      rw [setThread_threads_of_ne here] at has
      exact absurd has (others j first here other also)
    · rw [setThread_threads_of_ne here] at has
      rw [setThread_threads_of_ne there] at also
      exact kept.distinct j first k second other has also
  · intro other known
    rcases kept.place other known with queued | skipped | ⟨j, within, has⟩ | whole
    · rw [queue] at queued
      rcases List.mem_cons.mp queued with rfl | later
      · refine .inr (.inr (.inl ⟨i, inside, ?_⟩))
        rwa [setThread_threads_self]
      · exact .inl later
    · exact .inr (.inl skipped)
    · by_cases here : j = i
      · subst here
        have accounted := ((kept.serving j within).accounted other has).2
        rw [done, List.append_nil] at accounted
        exact .inr (.inr (.inr accounted))
      · refine .inr (.inr (.inl ⟨j, within, ?_⟩))
        rwa [setThread_threads_of_ne here]
    · exact .inr (.inr (.inr whole))

theorem exists_of_inCorpus {file : StaticFile} {rest : List StaticFile}
    (queue : s.files = file :: rest) (known : s.inCorpus i = true) :
    ∃ input ∈ s.inputs, Matches s.maxInputSz file input := by
  simp only [inCorpus, queue, Bool.and_eq_true, inDynamicCorpus, List.any_eq_true,
    decide_eq_true_eq] at known
  obtain ⟨input, member, isMatch⟩ := known.2
  exact ⟨input, List.mem_append_left _ member, isMatch⟩

theorem FilesKept.skipFile (kept : FilesKept config maxInputSz files s) {file : StaticFile}
    {rest : List StaticFile} (queue : s.files = file :: rest)
    (known : ∃ input ∈ s.inputs, Matches maxInputSz file input) :
    FilesKept config maxInputSz files { s with files := rest, skipped := file :: s.skipped } := by
  have split := List.nodup_cons.mp (queue ▸ kept.nodup)
  refine ⟨kept.limit, split.2, ?_, ?_, kept.distinct, ?_, ?_⟩
  · exact fun other later => kept.fresh other (queue ▸ List.mem_cons_of_mem file later)
  · intro j within
    have old := kept.serving j within
    refine ⟨fun other has => ?_, old.underway, fun told => ?_⟩
    · have accounted := old.accounted other has
      exact ⟨fun later => accounted.1 (queue ▸ List.mem_cons_of_mem file later), accounted.2⟩
    · exact absurd (queue.symm.trans (old.exhausted told)) (List.cons_ne_nil _ _)
  · intro other known
    rcases kept.place other known with queued | skipped | held | whole
    · rw [queue] at queued
      rcases List.mem_cons.mp queued with rfl | later
      · exact .inr (.inl List.mem_cons_self)
      · exact .inl later
    · exact .inr (.inl (List.mem_cons_of_mem file skipped))
    · exact .inr (.inr (.inl held))
    · exact .inr (.inr (.inr whole))
  · exact List.forall_mem_cons.mpr ⟨known, kept.passedOver⟩

theorem FilesKept.record (kept : FilesKept config maxInputSz files s) (inside : i < config.threadsMax)
    {file : StaticFile} (holds : (s.threads i).run.file = some file)
    (early : (s.threads i).hasReported = false) (here : (s.threads i).phase = .running true)
    {phase : DryPhase} (loops : phase = .idle ∨ phase = .stopped) :
    FilesKept config maxInputSz files { s.setPhase i phase with
      executed := s.executed ++ [(file, (s.threads i).run.size)] } := by
  have own := kept.serving i inside
  have before := own.accounted file holds
  have pendingBefore : pending maxInputSz (s.threads i) =
      (s.threads i).run.size :: (s.threads i).run.upcoming maxInputSz := by
    simp [pending, early, here]
  have pendingAfter : pending maxInputSz { s.threads i with phase } =
      (s.threads i).run.upcoming maxInputSz := by
    rcases loops with rfl | rfl <;> simp [pending, early]
  have sameFile : ∀ j, ((s.setPhase i phase).threads j).run.file = (s.threads j).run.file := by
    intro j
    by_cases same : j = i
    · subst same
      rw [setPhase, setThread_threads_self]
    · rw [setPhase, setThread_threads_of_ne same]
  have elsewhere : ∀ other, other ≠ file →
      runsOf (s.executed ++ [(file, (s.threads i).run.size)]) other = runsOf s.executed other := by
    intro other differ
    rw [runsOf_append, if_neg (Ne.symm differ)]
  refine ⟨kept.limit, kept.nodup, ?_, ?_, ?_, ?_, kept.passedOver⟩
  · intro other queued
    rw [elsewhere other (by rintro rfl; exact before.1 queued)]
    exact kept.fresh other queued
  · intro j within
    by_cases same : j = i
    · subst same
      change Serving maxInputSz s.files _ ((s.setThread j { s.threads j with phase }).threads j)
      rw [setThread_threads_self]
      refine ⟨fun other has => ?_, fun missing _ => ?_, ?_⟩
      · cases holds.symm.trans has
        refine ⟨before.1, ?_⟩
        have accounted := before.2
        rw [pendingBefore] at accounted
        rw [runsOf_append, if_pos rfl, pendingAfter, List.append_assoc]
        exact accounted
      · exact own.underway missing (by simp [here])
      · rintro (told | reporting)
        · exact absurd (early.symm.trans told) (by decide)
        · rcases loops with rfl | rfl <;> cases reporting
    · change Serving maxInputSz s.files _ ((s.setThread i { s.threads i with phase }).threads j)
      rw [setThread_threads_of_ne same]
      have old := kept.serving j within
      refine ⟨fun other has => ?_, old.underway, old.exhausted⟩
      rw [elsewhere other (by rintro rfl; exact same (kept.distinct j within i inside other has holds))]
      exact old.accounted other has
  · intro j first k second other has also
    exact kept.distinct j first k second other (sameFile j ▸ has) (sameFile k ▸ also)
  · intro other known
    rcases kept.place other known with queued | skipped | ⟨j, within, has⟩ | whole
    · exact .inl queued
    · exact .inr (.inl skipped)
    · exact .inr (.inr (.inl ⟨j, within, (sameFile j).trans has⟩))
    · by_cases differ : other = file
      · exact .inr (.inr (.inl ⟨i, inside, (sameFile i).trans (differ ▸ holds)⟩))
      · exact .inr (.inr (.inr ((elsewhere other differ).trans whole)))

/-- A step does not meet an unreadable file. -/
def Readable : DryAction → Prop
  | .prepare _ readable => readable = true
  | _ => True

theorem FilesKept.prepare (kept : FilesKept config maxInputSz files s)
    (inside : i < config.threadsMax) (here : (s.threads i).phase = .preparing)
    (early : (s.threads i).hasReported = false) (dry : s.state = .dryRun)
    (positive : 0 < maxInputSz) : FilesKept config maxInputSz files (s.prepare i true) := by
  have own := kept.serving i inside
  have before : pending maxInputSz (s.threads i) = (s.threads i).run.upcoming maxInputSz := by
    simp [pending, early, here]
  have starts (run : StaticRun) :
      pending maxInputSz { s.threads i with run, phase := .running true } =
        run.size :: run.upcoming maxInputSz := by
    simp [pending, early]
  obtain rfl := kept.limit dry
  unfold DryRun.prepare
  dsimp only
  have large := @StaticRun.shouldReadNewFile_size_pos s.maxInputSz (s.threads i).run positive
    fun more => (own.underway early (by simp [here]) more).1
  cases more : (s.threads i).run.tryMore with
  | false =>
      have opens (file : StaticFile) :=
        @StaticRun.shouldReadNewFile_new s.maxInputSz _ file more
      rcases asked : (s.threads i).run.shouldReadNewFile s.maxInputSz with ⟨new, run⟩
      have done : pending s.maxInputSz (s.threads i) = [] := by
        rw [before]
        unfold StaticRun.upcoming
        split <;> simp [more]
      have sameFile : run.file = (s.threads i).run.file := by
        have kept := congrArg (fun answer => answer.2.file) asked
        exact kept.symm.trans (StaticRun.file_shouldReadNewFile _ _)
      rw [asked] at opens large
      have isNew : new = true := (opens ⟨[], 0⟩).1
      subst isNew
      cases queue : s.files with
      | nil =>
          refine kept.setThread inside sameFile ⟨fun file holds => ?_, ?_, fun _ => queue⟩
          · have accounted := own.accounted file (sameFile ▸ holds)
            rw [done] at accounted
            simpa [pending, early] using accounted
          · exact fun _ reports => absurd rfl reports
      | cons file rest =>
          dsimp only
          rw [if_pos rfl]
          refine kept.takeFile inside
            { s.threads i with run := run.readFile file, phase := .running true } queue done rfl ?_
            (StaticRun.readFile_size_pos large) early
            (by rintro ⟨⟩)
          rw [starts]
          exact (opens file).2
  | true =>
      obtain ⟨size, hasFile⟩ := own.underway early (by simp [here]) more
      obtain ⟨file, holds⟩ := Option.ne_none_iff_exists'.mp hasFile
      obtain ⟨old, sameFile, begins⟩ :=
        @StaticRun.shouldReadNewFile_same s.maxInputSz _ file more size
      rcases asked : (s.threads i).run.shouldReadNewFile s.maxInputSz with ⟨new, run⟩
      rw [asked] at old sameFile begins large
      dsimp only at old
      subst old
      dsimp only
      rw [sameFile.trans holds]
      dsimp only
      rw [if_pos rfl]
      have accounted := own.accounted file holds
      refine kept.setThread inside holds.symm ⟨fun other has => ?_, fun _ _ again => ?_, ?_⟩
      · cases has
        refine ⟨accounted.1, ?_⟩
        rw [starts, begins, ← accounted.2, before]
        simp [StaticRun.upcoming, holds, more]
      · exact ⟨StaticRun.readFile_size_pos large again, Option.some_ne_none file⟩
      · rintro (told | reporting)
        · exact absurd (early.symm.trans told) (by decide)
        · cases reporting

/-- A thread with nothing to run moves on, and has reported. -/
theorem FilesKept.moveReported (kept : FilesKept config maxInputSz files s)
    (inside : i < config.threadsMax) (thread : DryThread) (done : pending maxInputSz (s.threads i) = [])
    (exhausted : s.files = []) (reported : thread.hasReported = true)
    (file : thread.run.file = (s.threads i).run.file) {next : DryRun}
    (threads : next.threads = (s.setThread i thread).threads)
    (limit : next.state = .dryRun → next.maxInputSz = maxInputSz) (queue : next.files = s.files)
    (executed : next.executed = s.executed) (skipped : next.skipped = s.skipped)
    (inputs : ∀ input ∈ s.inputs, input ∈ next.inputs) : FilesKept config maxInputSz files next := by
  have served := (kept.serving i inside).ofReported done exhausted reported file
  exact (kept.setThread inside file served).congr limit queue threads executed skipped inputs

theorem mem_inputs_addDynamicInput (added : DynInput) :
    ∀ input ∈ s.inputs, input ∈ (s.addDynamicInput added).inputs := by
  intro input member
  rcases List.mem_append.mp member with queued | gone
  · exact List.mem_append_left _ (List.mem_append_left _ queued)
  · exact List.mem_append_right _ gone

theorem switch_files (config : DryConfig) (s : DryRun) :
    (s.switch config).files = s.files ∧ (s.switch config).executed = s.executed ∧
      (s.switch config).skipped = s.skipped ∧
        ∀ input ∈ s.inputs, input ∈ (s.switch config).inputs := by
  unfold DryRun.switch
  dsimp only
  split
  · exact ⟨rfl, rfl, rfl, fun _ => id⟩
  · split
    · exact ⟨rfl, rfl, rfl, mem_inputs_addDynamicInput _⟩
    · exact ⟨rfl, rfl, rfl, fun _ => id⟩

theorem FilesKept.finish (kept : FilesKept config maxInputSz files s) (barrier : Barrier config s)
    (inside : i < config.threadsMax) {static : Bool} (here : (s.threads i).phase = .running static)
    (added : Option Bytes) : FilesKept config maxInputSz files (s.finish i static added) := by
  have own := barrier.ok i inside
  rw [ThreadOk, here] at own
  have serving := kept.serving i inside
  obtain ⟨phase, isPhase, loops⟩ : ∃ phase, (if s.terminating then DryPhase.stopped else .idle) = phase ∧
      (phase = .idle ∨ phase = .stopped) := by
    split
    · exact ⟨_, rfl, .inr rfl⟩
    · exact ⟨_, rfl, .inl rfl⟩
  have quiet : phase ≠ .reporting := by
    rintro rfl
    rcases loops with ⟨⟨⟩⟩ | ⟨⟨⟩⟩
  unfold DryRun.finish
  dsimp only
  rw [isPhase]
  cases static with
  | false =>
      have told : pending maxInputSz (s.threads i) = [] := by rw [pending, if_pos own.1]
      have moved : FilesKept config maxInputSz files (s.setPhase i phase) := kept.setThread inside rfl
        (serving.ofReported told (serving.exhausted (.inl own.1)) own.1 rfl)
      cases added with
      | none => exact moved.congr kept.limit rfl rfl rfl rfl fun _ => id
      | some path => exact moved.congr kept.limit rfl rfl rfl rfl (mem_inputs_addDynamicInput _)
  | true =>
      cases held : (s.threads i).run.file with
      | none =>
          have moved : FilesKept config maxInputSz files (s.setPhase i phase) := kept.setThread inside rfl
            ⟨fun file holds => absurd (held.symm.trans holds) (by rintro ⟨⟩),
              fun _ _ more => serving.underway own (by simp [here]) more, fun told => ?_⟩
          · cases added with
            | none => exact moved.congr kept.limit rfl rfl (List.append_nil _) rfl fun _ => id
            | some path =>
                exact moved.congr kept.limit rfl rfl (List.append_nil _) rfl
                  (mem_inputs_addDynamicInput _)
          · rcases told with told | reporting
            · exact absurd (own.symm.trans told) (by decide)
            · exact absurd reporting quiet
      | some file =>
          have recorded := kept.record inside held own here loops
          cases added with
          | none => exact recorded.congr kept.limit rfl rfl rfl rfl fun _ => id
          | some path =>
              exact recorded.congr kept.limit rfl rfl rfl rfl (mem_inputs_addDynamicInput _)

theorem FilesKept.told (kept : FilesKept config maxInputSz files s) (inside : i < config.threadsMax)
    (reported : (s.threads i).hasReported = true) :
    pending maxInputSz (s.threads i) = [] ∧ s.files = [] :=
  ⟨by rw [pending, if_pos reported], (kept.serving i inside).exhausted (.inl reported)⟩

theorem FilesKept.fetch (kept : FilesKept config maxInputSz files s) (barrier : Barrier config s)
    (inside : i < config.threadsMax) (here : (s.threads i).phase = .idle) :
    FilesKept config maxInputSz files (s.fetch i) := by
  have old := kept.serving i inside
  have own := barrier.ok i inside
  rw [ThreadOk, here] at own
  unfold DryRun.fetch
  split
  · next dry =>
    refine kept.setThread inside rfl (old.ofSame ?_ rfl rfl (by simp [here]) (by rintro ⟨⟩))
    simp [pending, own dry, here]
  · next left =>
    have reported := barrier.passed left i inside
    obtain ⟨done, exhausted⟩ := kept.told inside reported
    exact kept.setThread inside rfl (old.ofReported done exhausted reported rfl)

theorem dry_of_preparing (barrier : Barrier config s) (inside : i < config.threadsMax)
    (here : (s.threads i).phase = .preparing) :
    (s.threads i).hasReported = false ∧ s.state = .dryRun := by
  have own := barrier.ok i inside
  rw [ThreadOk, here] at own
  refine ⟨own, ?_⟩
  by_contra left
  exact absurd (own.symm.trans (barrier.passed left i inside)) (by decide)

theorem FilesKept.count (kept : FilesKept config maxInputSz files s) (barrier : Barrier config s)
    (inside : i < config.threadsMax) (here : (s.threads i).phase = .reporting) :
    FilesKept config maxInputSz files
      { s.setThread i { s.threads i with phase := .counted, hasReported := true } with
        cnt := s.cnt + 1 } := by
  have own := barrier.ok i inside
  rw [ThreadOk, here] at own
  refine kept.moveReported inside { s.threads i with phase := .counted, hasReported := true } ?_
    ((kept.serving i inside).exhausted (.inr here)) rfl rfl rfl kept.limit rfl rfl rfl fun _ => id
  simp [pending, own, here]

/-- A thread that has reported goes on, whatever happens to the mutex and the state. -/
theorem FilesKept.goesOn (kept : FilesKept config maxInputSz files s)
    (inside : i < config.threadsMax) (reported : (s.threads i).hasReported = true)
    (thread : DryThread) (same : thread.hasReported = (s.threads i).hasReported)
    (file : thread.run.file = (s.threads i).run.file) {next : DryRun}
    (threads : next.threads = (s.setThread i thread).threads)
    (limit : next.state = .dryRun → next.maxInputSz = maxInputSz) (queue : next.files = s.files)
    (executed : next.executed = s.executed) (skipped : next.skipped = s.skipped)
    (inputs : ∀ input ∈ s.inputs, input ∈ next.inputs) :
    FilesKept config maxInputSz files next := by
  obtain ⟨done, exhausted⟩ := kept.told inside reported
  exact kept.moveReported inside thread done exhausted (same.trans reported) file threads limit
    queue executed skipped inputs

theorem FilesKept.switch (kept : FilesKept config maxInputSz files s) (barrier : Barrier config s)
    (inside : i < config.threadsMax) (here : (s.threads i).phase = .waiting) :
    FilesKept config maxInputSz files
      { (s.switch config).setPhase i .reported with mutex := none } := by
  have own := barrier.ok i inside
  rw [ThreadOk, here] at own
  obtain ⟨left, threads, _, _⟩ := switch_spec config s
  obtain ⟨queue, executed, skipped, inputs⟩ := switch_files config s
  refine kept.goesOn inside own.1 { s.threads i with phase := .reported } rfl rfl ?_
    (fun dry => absurd dry left) queue executed skipped inputs
  simp only [setPhase, DryRun.setThread, threads]

/-- An imported input leaves the queue, but not the inputs that were known. -/
theorem mem_inputs_handOut {position : Nat} {taken : DynInput}
    (queued : s.dynfileq[position]? = some taken) :
    ∀ input ∈ s.inputs, input ∈ s.dynfileq.eraseIdx position ++ (s.handedOut ++ [taken]) := by
  intro input member
  rcases List.mem_append.mp member with here | gone
  · by_cases same : input = taken
    · exact List.mem_append_right _ (List.mem_append_right _ (List.mem_singleton.mpr same))
    · obtain ⟨k, isInput⟩ := List.mem_iff_getElem?.mp here
      have differ : k ≠ position := by
        rintro rfl
        exact same (Option.some.inj (isInput.symm.trans queued))
      exact List.mem_append_left _ (List.mem_eraseIdx_iff_getElem?.mpr ⟨k, differ, isInput⟩)
  · exact List.mem_append_right _ (List.mem_append_left _ gone)

theorem FilesKept.step {action : DryAction} {next : DryRun}
    (kept : FilesKept config maxInputSz files s) (barrier : Barrier config s)
    (positive : 0 < maxInputSz) (readable : Readable action)
    (stepped : Stepped config s action next) : FilesKept config maxInputSz files next := by
  have reported {i : Nat} (inside : i < config.threadsMax)
      (here : (s.threads i).phase = .waiting ∨ (s.threads i).phase = .reported) :
      (s.threads i).hasReported = true := by
    have own := barrier.ok i inside
    rcases here with here | here <;> rw [ThreadOk, here] at own <;> exact own.1
  cases stepped with
  | fetch inside here => exact kept.fetch barrier inside here
  | skip queue inside here known =>
      obtain rfl := kept.limit (dry_of_preparing barrier inside here).2
      exact kept.skipFile queue (exists_of_inCorpus queue known)
  | prepare inside here =>
      cases readable
      obtain ⟨early, dry⟩ := dry_of_preparing barrier inside here
      exact kept.prepare inside here early dry positive
  | finish inside here => exact kept.finish barrier inside here _
  | count inside here => exact kept.count barrier inside here
  | @wait i inside here free dry =>
      have own := barrier.ok i inside
      rw [ThreadOk, here] at own
      exact kept.goesOn inside own { s.threads i with phase := .waiting } rfl rfl rfl kept.limit rfl
        rfl rfl fun _ => id
  | @pass i inside here free left =>
      exact kept.goesOn inside (barrier.passed left i inside) { s.threads i with phase := .reported }
        rfl rfl rfl kept.limit rfl rfl rfl fun _ => id
  | switch inside here full => exact kept.switch barrier inside here
  | @giveUp i inside here open_ ending =>
      exact kept.goesOn inside (reported inside (.inl here)) { s.threads i with phase := .reported }
        rfl rfl rfl kept.limit rfl rfl rfl fun _ => id
  | spin inside here open_ goesOn => exact kept
  | @minimized i size position inside here state =>
      exact kept.goesOn inside (reported inside (.inr here)) { s.threads i with phase := .stopped }
        rfl rfl rfl kept.limit rfl rfl rfl fun _ => id
  | @mutated i size given position inside here state fits =>
      exact kept.goesOn inside (reported inside (.inr here))
        { s.threads i with run := { (s.threads i).run with size }, phase := .running false }
        rfl rfl rfl kept.limit rfl rfl rfl fun _ => id
  | @imported i position size input inside here state queued isImported =>
      exact kept.goesOn inside (reported inside (.inr here))
        { s.threads i with
          run := { (s.threads i).run with size := input.size }, phase := .running false }
        rfl rfl rfl kept.limit rfl rfl rfl (mem_inputs_handOut queued)
  | @stale i size position inside here state =>
      exact kept.goesOn inside (reported inside (.inr here))
        { s.threads i with phase := .running false } rfl rfl rfl kept.limit rfl rfl rfl fun _ => id
  | @leave i inside here =>
      refine kept.setThread inside rfl
        ((kept.serving i inside).ofSame ?_ rfl rfl (by simp [here]) (by rintro ⟨⟩))
      simp [pending, here]
  | terminate => exact kept.congr kept.limit rfl rfl rfl rfl fun _ => id
  | injectSeed =>
      exact kept.congr kept.limit rfl rfl rfl rfl fun _ member => List.mem_cons_of_mem _ member
  | enqueue => exact kept.congr kept.limit rfl rfl rfl rfl (mem_inputs_addDynamicInput _)

theorem threads_of_left {action : DryAction} {next : DryRun} (stepped : Stepped config s action next)
    (before : s.state ≠ .dryRun → 0 < config.threadsMax) :
    next.state ≠ .dryRun → 0 < config.threadsMax := by
  cases stepped
  case terminate => exact before
  case injectSeed => exact before
  case enqueue => exact before
  all_goals exact fun _ => by omega

/-- When the dry run is over and every file could be read, every file of the input
directory has been run with all its sizes, in their order, or it was passed over
because an input of its name and its first size was in the corpus. -/
theorem dryRun_executes {final : DryRun} {actions : List DryAction} (positive : 0 < maxInputSz)
    (nodup : files.Nodup)
    (reached : runFrom (DryRun.step config) (start maxInputSz files) actions = some final)
    (readable : ∀ action ∈ actions, Readable action) (left : final.state ≠ .dryRun) :
    ∀ file ∈ files,
      (file ∈ final.skipped ∧ ∃ input ∈ final.dynfileq ++ final.handedOut,
        input.path = file.name ∧ input.size = min file.length (min 4 maxInputSz)) ∨
      (runsOf final.executed file = staticSizes file.length maxInputSz ∧
        (runsOf final.executed file).getLast? = some (min file.length maxInputSz)) := by
  have along : Along (DryRun.step config) (fun _ action => Readable action) (start maxInputSz files)
      actions := along_of_forall (fun action member _ => readable action member) _
  have keeps : ∀ (s : DryRun) (action : DryAction) (next : DryRun),
      (Barrier config s ∧ FilesKept config maxInputSz files s ∧
        (s.state ≠ .dryRun → 0 < config.threadsMax)) →
      Readable action → s.step config action = some next →
      (Barrier config next ∧ FilesKept config maxInputSz files next ∧
        (next.state ≠ .dryRun → 0 < config.threadsMax)) := by
    rintro s action next ⟨barrier, kept, someone⟩ allowed taken
    have stepped := stepped_of_step taken
    exact ⟨barrier.step stepped, kept.step barrier positive allowed stepped,
      threads_of_left stepped someone⟩
  obtain ⟨barrier, kept, someone⟩ := along.invariant keeps
    ⟨barrier_start maxInputSz files, filesKept_start nodup, fun left => absurd rfl left⟩ reached
  have everybody := barrier.passed left
  have drained : final.files = [] :=
    (kept.serving 0 (someone left)).exhausted (.inl (everybody 0 (someone left)))
  intro file known
  have whole : file ∈ final.skipped ∨
      runsOf final.executed file = staticSizes file.length maxInputSz := by
    rcases kept.place file known with queued | skipped | ⟨i, inside, holds⟩ | whole
    · rw [drained] at queued
      cases queued
    · exact .inl skipped
    · have accounted := ((kept.serving i inside).accounted file holds).2
      rw [pending, if_pos (everybody i inside), List.append_nil] at accounted
      exact .inr accounted
    · exact .inr whole
  refine whole.imp (fun skipped => ⟨skipped, kept.passedOver file skipped⟩) fun whole => ⟨whole, ?_⟩
  rw [whole, getLast?_staticSizes]

end Files

/-- Two threads, a file of nine bytes and one that a driver has brought along. -/
def pairActions : List DryAction :=
  [.injectSeed [98] 3, .fetch 0, .prepare 0 true, .fetch 1, .skip 1, .prepare 1 true, .count 1,
    .acquire 1, .poll 1, .finish 0 none, .fetch 0, .prepare 0 true, .finish 0 (some [99]), .fetch 0,
    .prepare 0 true, .finish 0 none, .fetch 0, .prepare 0 true, .count 0, .poll 1]

theorem dryRun_executes_pair :
    ∃ final, runFrom (DryRun.step ⟨2, false, 0, [48]⟩) (start 16 [⟨[97], 9⟩, ⟨[98], 3⟩])
        pairActions = some final ∧
      ∀ file ∈ [(⟨[97], 9⟩ : StaticFile), ⟨[98], 3⟩],
        (file ∈ final.skipped ∧ ∃ input ∈ final.dynfileq ++ final.handedOut,
          input.path = file.name ∧ input.size = min file.length (min 4 16)) ∨
        (runsOf final.executed file = staticSizes file.length 16 ∧
          (runsOf final.executed file).getLast? = some (min file.length 16)) :=
  ⟨_, rfl, @dryRun_executes ⟨2, false, 0, [48]⟩ 16 [⟨[97], 9⟩, ⟨[98], 3⟩] _ pairActions
    (by decide) (by decide) rfl (by simp [Readable, pairActions]) (by rintro ⟨⟩)⟩

end DryRun

end GraphDissect.Fuzzing
