import GraphDissect.Library.Runs
import GraphDissect.Library.CString

/-!
# The dry run and its barrier

All fuzzing threads share the files of the input directory, read each of them
with growing sizes, and leave the dry run through `fuzz_setDynamicMainState`,
which lets nobody pass before everybody has reported.  Beside them the queue of
the corpus grows and loses imported inputs that are handed out.  The threads
interleave freely; every atomic access of the source is a step of its own.
-/

namespace GraphDissect.Fuzzing

open Library

/-- A regular file of the input directory. -/
structure StaticFile where
  name : Bytes
  length : Nat
deriving DecidableEq

/-- What the dry run looks at in an element of the queue. -/
structure DynInput where
  path : Bytes
  size : Nat
  imported : Bool
deriving DecidableEq

/-- The file in `run->dynfile`, its size and `run->staticFileTryMore`. -/
structure StaticRun where
  file : Option StaticFile
  size : Nat
  tryMore : Bool

namespace StaticRun

/-- `input_shouldReadNewFile` in the dry run: is the next file to be read, and
with which size. -/
def shouldReadNewFile (maxInputSz : Nat) (run : StaticRun) : Bool × StaticRun :=
  if !run.tryMore then (true, { run with size := min 4 maxInputSz, tryMore := true })
  else if maxInputSz ≤ run.size * 2 then
    (false, { run with size := maxInputSz, tryMore := false })
  else (false, { run with size := run.size * 2 })

/-- The reading half of `input_prepareStaticFile`: a short read ends the file. -/
def readFile (run : StaticRun) (file : StaticFile) : StaticRun where
  file := some file
  size := min file.length run.size
  tryMore := run.tryMore && !decide (min file.length run.size < run.size)

end StaticRun

inductive FuzzState where
  | dryRun
  | minimize
  | main
deriving DecidableEq

/-- Where a thread stands: at the head of its loop, in `input_prepareStaticFile`,
running an input, in front of `ATOMIC_PRE_INC(cnt)`, in front of the mutex, in
the loop that waits for the others, behind `fuzz_setDynamicMainState`, or behind
its loop. -/
inductive DryPhase where
  | idle
  | preparing
  | running (static : Bool)
  | reporting
  | counted
  | waiting
  | reported
  | stopped
deriving DecidableEq

/-- `hasReported` remembers that the thread has added itself to `cnt`. -/
structure DryThread where
  phase : DryPhase
  run : StaticRun
  hasReported : Bool

/-- `emptyPath` is what `input_generateFileName` makes of no bytes. -/
structure DryConfig where
  threadsMax : Nat
  minimize : Bool
  maxFileSz : Nat
  emptyPath : Bytes

/-- `files` is what `readdir` has still to return; `executed` and `skipped`
remember the static runs that are over and the files that were passed over, and
`handedOut` the imported inputs that have left the queue.  The order of the
queue is left open. -/
structure DryRun where
  state : FuzzState
  cnt : Nat
  mutex : Option Nat
  switchingToFDM : Bool
  terminating : Bool
  maxInputSz : Nat
  dynfileq : List DynInput
  dynfileqCnt : Nat
  dynfileqMaxSz : Nat
  files : List StaticFile
  threads : Nat → DryThread
  executed : List (StaticFile × Nat)
  skipped : List StaticFile
  handedOut : List DynInput

/-- Steps of a thread, a signal, a seed that a driver brings along, and a file of
the directory for dynamic inputs.  Whether a file can be read, what a run finds
and its name, and which input of the queue is next are left open. -/
inductive DryAction where
  | fetch (thread : Nat)
  | skip (thread : Nat)
  | prepare (thread : Nat) (readable : Bool)
  | finish (thread : Nat) (added : Option Bytes)
  | count (thread : Nat)
  | acquire (thread : Nat)
  | poll (thread : Nat)
  | resume (thread : Nat) (position : Option Nat) (size : Nat)
  | leave (thread : Nat)
  | terminate
  | injectSeed (path : Bytes) (size : Nat)
  | enqueueDynamicInput (path : Bytes) (size : Nat)

def hfInputDefaultSize : Nat := 1024 * 8

namespace DryRun

def start (maxInputSz : Nat) (files : List StaticFile) : DryRun where
  state := .dryRun
  cnt := 0
  mutex := none
  switchingToFDM := false
  terminating := false
  maxInputSz
  dynfileq := []
  dynfileqCnt := 0
  dynfileqMaxSz := 0
  files
  threads := fun _ => ⟨.idle, ⟨none, 0, false⟩, false⟩
  executed := []
  skipped := []
  handedOut := []

def setThread (s : DryRun) (i : Nat) (thread : DryThread) : DryRun :=
  { s with threads := Function.update s.threads i thread }

def setPhase (s : DryRun) (i : Nat) (phase : DryPhase) : DryRun :=
  s.setThread i { s.threads i with phase }

/-- `input_addDynamicInput`. -/
def addDynamicInput (s : DryRun) (input : DynInput) : DryRun :=
  { s with
    dynfileq := s.dynfileq ++ [input]
    dynfileqCnt := s.dynfileqCnt + 1
    dynfileqMaxSz := max s.dynfileqMaxSz input.size }

/-- `input_inDynamicCorpus`. -/
def inDynamicCorpus (s : DryRun) (fname : Bytes) (len : Nat) : Bool :=
  s.dynfileq.any fun input => input.path = fname ∧ input.size = len

/-- A thread that needs a new file and is in front of one that the corpus has
with the first size. -/
def inCorpus (s : DryRun) (i : Nat) : Bool :=
  match s.files with
  | [] => false
  | file :: _ =>
      !(s.threads i).run.tryMore &&
        s.inDynamicCorpus file.name (min file.length (min 4 s.maxInputSz))

/-- The state that `fuzz_fetchInput` reads first. -/
def fetch (s : DryRun) (i : Nat) : DryRun :=
  if s.state = .dryRun then s.setPhase i .preparing else s.setPhase i .reported

/-- `input_prepareStaticFile`, which fails when the directory is at its end or
the file cannot be read. -/
def prepare (s : DryRun) (i : Nat) (readable : Bool) : DryRun :=
  let thread := s.threads i
  match thread.run.shouldReadNewFile s.maxInputSz, s.files with
  | (true, run), [] => s.setThread i { thread with run, phase := .reporting }
  | (true, run), file :: rest =>
      let s := { s with files := rest }
      if readable then
        s.setThread i { thread with run := run.readFile file, phase := .running true }
      else s.setThread i { thread with run := { run with file := some file }, phase := .reporting }
  | (false, run), _ =>
      match run.file with
      | some file =>
          if readable then
            s.setThread i { thread with run := run.readFile file, phase := .running true }
          else s.setThread i { thread with run, phase := .reporting }
      | none => s.setThread i { thread with run, phase := .reporting }

/-- The end of a run: `input_addDynamicInput` if it found something, and the
check of `fuzz_isTerminating` behind it. -/
def finish (s : DryRun) (i : Nat) (static : Bool) (added : Option Bytes) : DryRun :=
  let thread := s.threads i
  let s := s.setPhase i (if s.terminating then .stopped else .idle)
  let s := if static then
      { s with executed := s.executed ++ (thread.run.file.map fun file => (file, thread.run.size)).toList }
    else s
  match added with
  | none => s
  | some path => s.addDynamicInput ⟨path, thread.run.size, false⟩

/-- The part of `input_prepareDynamicInput` that takes an input out of the queue:
an imported one is run as it is and removed. -/
def prepareDynamicInput (s : DryRun) (i position size : Nat) : Option DryRun :=
  match s.dynfileq[position]? with
  | none => none
  | some input =>
      if s.maxInputSz < input.size then none
      else if input.imported then
        some { s.setThread i { s.threads i with
            run := { (s.threads i).run with size := input.size }, phase := .running false } with
          dynfileq := s.dynfileq.eraseIdx position
          handedOut := s.handedOut ++ [input] }
      else if s.maxInputSz < size then none
      else some (s.setThread i { s.threads i with
        run := { (s.threads i).run with size }, phase := .running false })

/-- The size limit of the main state: a quarter more than the largest input. -/
def newMaxInputSz (config : DryConfig) (s : DryRun) : Nat :=
  if config.maxFileSz = 0 ∧ hfInputDefaultSize < s.maxInputSz then
    let newsz := if hfInputDefaultSize ≤ s.dynfileqMaxSz then s.dynfileqMaxSz else hfInputDefaultSize
    min (newsz + newsz / 4) s.maxInputSz
  else s.maxInputSz

/-- The end of `fuzz_setDynamicMainState`, when all threads have reported. -/
def switch (config : DryConfig) (s : DryRun) : DryRun :=
  let s := { s with switchingToFDM := false }
  if config.minimize then { s with state := .minimize }
  else
    -- an empty corpus gets an empty input
    let s := if s.dynfileqCnt = 0 then s.addDynamicInput ⟨config.emptyPath, 0, false⟩ else s
    { s with maxInputSz := newMaxInputSz config s, state := .main }

def step (config : DryConfig) (s : DryRun) : DryAction → Option DryRun
  | .fetch i => if i < config.threadsMax ∧ (s.threads i).phase = .idle then some (s.fetch i) else none
  | .skip i =>
      match s.files with
      | [] => none
      | file :: rest =>
          if i < config.threadsMax ∧ (s.threads i).phase = .preparing ∧ s.inCorpus i = true then
            some { s with files := rest, skipped := file :: s.skipped }
          else none
  | .prepare i readable =>
      if i < config.threadsMax ∧ (s.threads i).phase = .preparing ∧ s.inCorpus i = false then
        some (s.prepare i readable)
      else none
  | .finish i added =>
      match (s.threads i).phase with
      | .running static => if i < config.threadsMax then some (s.finish i static added) else none
      | _ => none
  | .count i =>
      if i < config.threadsMax ∧ (s.threads i).phase = .reporting then
        some { s.setThread i { s.threads i with phase := .counted, hasReported := true } with
          cnt := s.cnt + 1 }
      else none
  | .acquire i =>
      if i < config.threadsMax ∧ (s.threads i).phase = .counted ∧ s.mutex = none then
        if s.state = .dryRun then
          some { s.setPhase i .waiting with mutex := some i, switchingToFDM := true }
        else some (s.setPhase i .reported)
      else none
  | .poll i =>
      if i < config.threadsMax ∧ (s.threads i).phase = .waiting then
        if s.cnt = config.threadsMax then
          some { (s.switch config).setPhase i .reported with mutex := none }
        else if s.terminating then some { s.setPhase i .reported with mutex := none }
        else some s
      else none
  | .resume i position size =>
      if i < config.threadsMax ∧ (s.threads i).phase = .reported then
        match s.state with
        | .minimize => some { s.setPhase i .stopped with terminating := true }
        | .main =>
            match position with
            | some position => s.prepareDynamicInput i position size
            | none =>
                -- an external command writes the input
                if size ≤ s.maxInputSz then
                  some (s.setThread i { s.threads i with
                    run := { (s.threads i).run with size }, phase := .running false })
                else none
        | .dryRun => some (s.setPhase i (.running false))
      else none
  | .leave i => if i < config.threadsMax ∧ (s.threads i).phase = .idle then some (s.setPhase i .stopped) else none
  | .terminate => some { s with terminating := true }
  | .injectSeed path size =>
      some { s with
        dynfileq := ⟨path, size, true⟩ :: s.dynfileq
        dynfileqCnt := s.dynfileqCnt + 1 }
  | .enqueueDynamicInput path size => some (s.addDynamicInput ⟨path, size, true⟩)

/-! ## What a step can do -/

inductive Stepped (config : DryConfig) (s : DryRun) : DryAction → DryRun → Prop where
  | fetch {i : Nat} (inside : i < config.threadsMax) (here : (s.threads i).phase = .idle) :
      Stepped config s (.fetch i) (s.fetch i)
  | skip {i : Nat} {file : StaticFile} {rest : List StaticFile} (files : s.files = file :: rest)
      (inside : i < config.threadsMax) (here : (s.threads i).phase = .preparing)
      (known : s.inCorpus i = true) :
      Stepped config s (.skip i) { s with files := rest, skipped := file :: s.skipped }
  | prepare {i : Nat} {readable : Bool} (inside : i < config.threadsMax)
      (here : (s.threads i).phase = .preparing) :
      Stepped config s (.prepare i readable) (s.prepare i readable)
  | finish {i : Nat} {static : Bool} {added : Option Bytes} (inside : i < config.threadsMax)
      (here : (s.threads i).phase = .running static) :
      Stepped config s (.finish i added) (s.finish i static added)
  | count {i : Nat} (inside : i < config.threadsMax) (here : (s.threads i).phase = .reporting) :
      Stepped config s (.count i)
        { s.setThread i { s.threads i with phase := .counted, hasReported := true } with
          cnt := s.cnt + 1 }
  | wait {i : Nat} (inside : i < config.threadsMax) (here : (s.threads i).phase = .counted)
      (free : s.mutex = none) (dry : s.state = .dryRun) :
      Stepped config s (.acquire i)
        { s.setPhase i .waiting with mutex := some i, switchingToFDM := true }
  | pass {i : Nat} (inside : i < config.threadsMax) (here : (s.threads i).phase = .counted)
      (free : s.mutex = none) (left : s.state ≠ .dryRun) :
      Stepped config s (.acquire i) (s.setPhase i .reported)
  | switch {i : Nat} (inside : i < config.threadsMax) (here : (s.threads i).phase = .waiting)
      (full : s.cnt = config.threadsMax) :
      Stepped config s (.poll i) { (s.switch config).setPhase i .reported with mutex := none }
  | giveUp {i : Nat} (inside : i < config.threadsMax) (here : (s.threads i).phase = .waiting)
      (open_ : s.cnt ≠ config.threadsMax) (ending : s.terminating = true) :
      Stepped config s (.poll i) { s.setPhase i .reported with mutex := none }
  | spin {i : Nat} (inside : i < config.threadsMax) (here : (s.threads i).phase = .waiting)
      (open_ : s.cnt ≠ config.threadsMax) (goesOn : s.terminating = false) :
      Stepped config s (.poll i) s
  | minimized {i size : Nat} {position : Option Nat} (inside : i < config.threadsMax)
      (here : (s.threads i).phase = .reported) (state : s.state = .minimize) :
      Stepped config s (.resume i position size) { s.setPhase i .stopped with terminating := true }
  | mutated {i size given : Nat} {position : Option Nat} (inside : i < config.threadsMax)
      (here : (s.threads i).phase = .reported) (state : s.state = .main) (fits : size ≤ s.maxInputSz) :
      Stepped config s (.resume i position given)
        (s.setThread i { s.threads i with
          run := { (s.threads i).run with size }, phase := .running false })
  | imported {i position size : Nat} {input : DynInput} (inside : i < config.threadsMax)
      (here : (s.threads i).phase = .reported) (state : s.state = .main)
      (queued : s.dynfileq[position]? = some input) (isImported : input.imported = true) :
      Stepped config s (.resume i (some position) size)
        { s.setThread i { s.threads i with
            run := { (s.threads i).run with size := input.size }, phase := .running false } with
          dynfileq := s.dynfileq.eraseIdx position
          handedOut := s.handedOut ++ [input] }
  | stale {i size : Nat} {position : Option Nat} (inside : i < config.threadsMax)
      (here : (s.threads i).phase = .reported) (state : s.state = .dryRun) :
      Stepped config s (.resume i position size) (s.setPhase i (.running false))
  | leave {i : Nat} (inside : i < config.threadsMax) (here : (s.threads i).phase = .idle) :
      Stepped config s (.leave i) (s.setPhase i .stopped)
  | terminate : Stepped config s .terminate { s with terminating := true }
  | injectSeed {path : Bytes} {size : Nat} :
      Stepped config s (.injectSeed path size)
        { s with
          dynfileq := ⟨path, size, true⟩ :: s.dynfileq
          dynfileqCnt := s.dynfileqCnt + 1 }
  | enqueue {path : Bytes} {size : Nat} :
      Stepped config s (.enqueueDynamicInput path size) (s.addDynamicInput ⟨path, size, true⟩)

theorem stepped_of_prepareDynamicInput {config : DryConfig} {s next : DryRun} {i position size : Nat}
    (inside : i < config.threadsMax) (here : (s.threads i).phase = .reported) (state : s.state = .main)
    (taken : s.prepareDynamicInput i position size = some next) :
    Stepped config s (.resume i (some position) size) next := by
  unfold prepareDynamicInput at taken
  split at taken
  · cases taken
  · next input queued =>
    obtain ⟨-, taken⟩ := Option.ite_none_left_eq_some.mp taken
    split at taken
    · next isImported =>
      cases taken
      exact .imported inside here state queued isImported
    · obtain ⟨fits, taken⟩ := Option.ite_none_left_eq_some.mp taken
      cases taken
      exact .mutated inside here state (Nat.not_lt.mp fits)

theorem stepped_of_step {config : DryConfig} {s next : DryRun} {action : DryAction}
    (taken : s.step config action = some next) : Stepped config s action next := by
  cases action <;> simp only [step] at taken
  case fetch i =>
    obtain ⟨⟨inside, here⟩, taken⟩ := Option.ite_none_right_eq_some.mp taken
    cases taken
    exact .fetch inside here
  case skip i =>
    split at taken
    · cases taken
    · next files =>
      obtain ⟨⟨inside, here, known⟩, taken⟩ := Option.ite_none_right_eq_some.mp taken
      cases taken
      exact .skip files inside here known
  case prepare i readable =>
    obtain ⟨⟨inside, here, -⟩, taken⟩ := Option.ite_none_right_eq_some.mp taken
    cases taken
    exact .prepare inside here
  case finish i added =>
    split at taken
    · next here =>
      obtain ⟨inside, taken⟩ := Option.ite_none_right_eq_some.mp taken
      cases taken
      exact .finish inside here
    · cases taken
  case count i =>
    obtain ⟨⟨inside, here⟩, taken⟩ := Option.ite_none_right_eq_some.mp taken
    cases taken
    exact .count inside here
  case acquire i =>
    obtain ⟨⟨inside, here, free⟩, taken⟩ := Option.ite_none_right_eq_some.mp taken
    split at taken
    · next dry =>
      cases taken
      exact .wait inside here free dry
    · next left =>
      cases taken
      exact .pass inside here free left
  case poll i =>
    obtain ⟨⟨inside, here⟩, taken⟩ := Option.ite_none_right_eq_some.mp taken
    split at taken
    · next full =>
      cases taken
      exact .switch inside here full
    · next open_ =>
      split at taken
      · next ending =>
        cases taken
        exact .giveUp inside here open_ ending
      · next goesOn =>
        cases taken
        exact .spin inside here open_ (Bool.eq_false_of_not_eq_true goesOn)
  case resume i position size =>
    obtain ⟨⟨inside, here⟩, taken⟩ := Option.ite_none_right_eq_some.mp taken
    split at taken
    · next state =>
      cases taken
      exact .minimized inside here state
    · next state =>
      cases position with
      | some position => exact stepped_of_prepareDynamicInput inside here state taken
      | none =>
        obtain ⟨fits, taken⟩ := Option.ite_none_right_eq_some.mp taken
        cases taken
        exact .mutated inside here state fits
    · next state =>
      cases taken
      exact .stale inside here state
  case leave i =>
    obtain ⟨⟨inside, here⟩, taken⟩ := Option.ite_none_right_eq_some.mp taken
    cases taken
    exact .leave inside here
  case terminate =>
    cases taken
    exact .terminate
  case injectSeed path size =>
    cases taken
    exact .injectSeed
  case enqueueDynamicInput path size =>
    cases taken
    exact .enqueue

/-! ## The barrier -/

def reporters (config : DryConfig) (threads : Nat → DryThread) : Finset Nat :=
  (Finset.range config.threadsMax).filter fun i => (threads i).hasReported = true

/-- Where a thread can stand before and after its report. -/
def ThreadOk (state : FuzzState) (terminating : Bool) (thread : DryThread) : Prop :=
  match thread.phase with
  | .idle => state = .dryRun → thread.hasReported = false
  | .preparing | .running true | .reporting => thread.hasReported = false
  | .counted => thread.hasReported = true
  | .waiting => thread.hasReported = true ∧ state = .dryRun
  | .reported | .running false =>
      thread.hasReported = true ∧ (state = .dryRun → terminating = true)
  | .stopped => True

/-- The invariant of the barrier. -/
structure Barrier (config : DryConfig) (s : DryRun) : Prop where
  counted : s.cnt = (reporters config s.threads).card
  ok : ∀ i < config.threadsMax, ThreadOk s.state s.terminating (s.threads i)
  holder : ∀ i < config.threadsMax, s.mutex = some i ↔ (s.threads i).phase = .waiting
  passed : s.state ≠ .dryRun → ∀ i < config.threadsMax, (s.threads i).hasReported = true

/-- The counter of the queue, which counts what was queued ever. -/
structure Queued (s : DryRun) : Prop where
  counted : s.dynfileqCnt = s.dynfileq.length + s.handedOut.length
  imported : ∀ input ∈ s.handedOut, input.imported = true
  filled : s.state = .main → 1 ≤ s.dynfileqCnt

section Barrier

variable {config : DryConfig} {s : DryRun} {i : Nat} {thread : DryThread}

@[simp]
theorem setThread_threads_self : (s.setThread i thread).threads i = thread :=
  Function.update_self ..

theorem setThread_threads_of_ne {j : Nat} (other : j ≠ i) :
    (s.setThread i thread).threads j = s.threads j :=
  Function.update_of_ne other ..

theorem forall_setThread (holds : Nat → DryThread → Prop)
    (others : ∀ j < config.threadsMax, holds j (s.threads j)) (here : holds i thread) :
    ∀ j < config.threadsMax, holds j ((s.setThread i thread).threads j) := by
  intro j inside
  by_cases same : j = i
  · subst same
    rwa [setThread_threads_self]
  · rw [setThread_threads_of_ne same]
    exact others j inside

theorem barrier_start (maxInputSz : Nat) (files : List StaticFile) :
    Barrier config (start maxInputSz files) where
  counted := by
    have none : reporters config (start maxInputSz files).threads = ∅ :=
      Finset.filter_false_of_mem fun _ _ => Bool.false_ne_true
    rw [none]
    rfl
  ok := fun _ _ _ => rfl
  holder := fun _ _ => Iff.intro (by rintro ⟨⟩) (by rintro ⟨⟩)
  passed := fun left => absurd rfl left

theorem reporters_setThread (same : thread.hasReported = (s.threads i).hasReported) :
    reporters config (s.setThread i thread).threads = reporters config s.threads := by
  refine Finset.filter_congr fun j _ => ?_
  by_cases here : j = i
  · subst here
    rw [setThread_threads_self, same]
  · rw [setThread_threads_of_ne here]

theorem reporters_setPhase {phase : DryPhase} :
    reporters config (s.setPhase i phase).threads = reporters config s.threads :=
  reporters_setThread rfl

/-- Outside of the dry run a thread that has reported may stand anywhere but in
the critical section. -/
theorem threadOk_of_left {state before : FuzzState} {terminating later : Bool}
    (left : state ≠ .dryRun) (reported : thread.hasReported = true)
    (free : thread.phase ≠ .waiting) (old : ThreadOk before terminating thread) :
    ThreadOk state later thread := by
  rcases thread with ⟨phase, run, _⟩
  cases reported
  cases phase with
  | idle => exact fun dry => absurd dry left
  | preparing => exact old
  | running static =>
      cases static with
      | true => exact old
      | false => exact ⟨rfl, fun dry => absurd dry left⟩
  | reporting => exact old
  | counted => exact old
  | waiting => exact absurd rfl free
  | reported => exact ⟨rfl, fun dry => absurd dry left⟩
  | stopped => trivial

/-- A step of one thread that neither reports nor waits. -/
theorem Barrier.setThread (barrier : Barrier config s) (inside : i < config.threadsMax)
    (same : thread.hasReported = (s.threads i).hasReported)
    (before : (s.threads i).phase ≠ .waiting) (after : thread.phase ≠ .waiting)
    (ok : ThreadOk s.state s.terminating thread) : Barrier config (s.setThread i thread) where
  counted := barrier.counted.trans (congrArg _ (reporters_setThread same).symm)
  ok := forall_setThread (fun _ t => ThreadOk s.state s.terminating t) barrier.ok ok
  holder := by
    refine forall_setThread (fun j t => s.mutex = some j ↔ t.phase = .waiting) barrier.holder ?_
    exact ⟨fun holds => absurd ((barrier.holder i inside).mp holds) before,
      fun waits => absurd waits after⟩
  passed := fun left => forall_setThread (fun _ t => t.hasReported = true) (barrier.passed left)
    (same.trans (barrier.passed left i inside))

theorem reporters_report (inside : i < config.threadsMax) (reports : thread.hasReported = true) :
    reporters config (s.setThread i thread).threads = insert i (reporters config s.threads) := by
  ext j
  simp only [reporters, Finset.mem_filter, Finset.mem_range, Finset.mem_insert]
  by_cases here : j = i
  · subst here
    simp [inside, reports]
  · simp [setThread_threads_of_ne here, here]

theorem Barrier.report (barrier : Barrier config s) (inside : i < config.threadsMax)
    (here : (s.threads i).phase = .reporting) :
    Barrier config { s.setThread i { s.threads i with phase := .counted, hasReported := true } with
      cnt := s.cnt + 1 } where
  counted := by
    have early : (s.threads i).hasReported = false := by
      have ok := barrier.ok i inside
      rwa [ThreadOk, here] at ok
    have fresh : i ∉ reporters config s.threads := by simp [reporters, early]
    have grown : (reporters config (s.setThread i
        { s.threads i with phase := .counted, hasReported := true }).threads).card =
        (reporters config s.threads).card + 1 := by
      rw [reporters_report inside rfl, Finset.card_insert_of_notMem fresh]
    exact (congrArg (· + 1) barrier.counted).trans grown.symm
  ok := forall_setThread (fun _ t => ThreadOk s.state s.terminating t) barrier.ok rfl
  holder := by
    refine forall_setThread (fun j t => s.mutex = some j ↔ t.phase = .waiting) barrier.holder ?_
    rw [barrier.holder i inside, here]
    exact Iff.intro (by rintro ⟨⟩) (by rintro ⟨⟩)
  passed := fun left =>
    forall_setThread (fun _ t => t.hasReported = true) (barrier.passed left) rfl

theorem Barrier.acquire (barrier : Barrier config s) (inside : i < config.threadsMax)
    (here : (s.threads i).phase = .counted) (free : s.mutex = none) (dry : s.state = .dryRun) :
    Barrier config { s.setPhase i .waiting with mutex := some i, switchingToFDM := true } where
  counted := barrier.counted.trans (congrArg _ reporters_setPhase.symm)
  ok := by
    have reported : (s.threads i).hasReported = true := by
      have ok := barrier.ok i inside
      rwa [ThreadOk, here] at ok
    exact forall_setThread (fun _ t => ThreadOk s.state s.terminating t) barrier.ok ⟨reported, dry⟩
  holder := by
    intro j within
    by_cases same : j = i
    · subst same
      simp [setPhase]
    · have idle : (s.threads j).phase ≠ .waiting := by
        intro waits
        have held := (barrier.holder j within).mpr waits
        rw [free] at held
        cases held
      have threads : ((s.setPhase i .waiting).threads j).phase ≠ .waiting := by
        rwa [setPhase, setThread_threads_of_ne same]
      exact ⟨fun held => absurd (Option.some.inj held).symm same, fun waits => absurd waits threads⟩
  passed := fun left => absurd dry left

theorem card_reporters_iff {threads : Nat → DryThread} :
    (reporters config threads).card = config.threadsMax ↔
      ∀ j < config.threadsMax, (threads j).hasReported = true := by
  have filled := @Finset.card_filter_eq_iff _ (Finset.range config.threadsMax)
    (fun j => (threads j).hasReported = true) _
  rw [Finset.card_range] at filled
  simpa only [reporters, Finset.mem_range] using filled

/-- The mutex is given back: because the process terminates, or after the switch,
when everybody has reported. -/
theorem Barrier.release (barrier : Barrier config s) (inside : i < config.threadsMax)
    (here : (s.threads i).phase = .waiting) {later : DryRun}
    (threads : later.threads = (s.setPhase i .reported).threads) (mutex : later.mutex = none)
    (cnt : later.cnt = s.cnt) (terminating : later.terminating = s.terminating)
    (leaves : (later.state = .dryRun ∧ s.terminating = true) ∨
      (later.state ≠ .dryRun ∧ s.cnt = config.threadsMax)) : Barrier config later := by
  have own := barrier.ok i inside
  rw [ThreadOk, here] at own
  have holds : s.mutex = some i := (barrier.holder i inside).mpr here
  have everybody (full : s.cnt = config.threadsMax) :=
    card_reporters_iff.mp (barrier.counted.symm.trans full)
  refine ⟨?_, ?_, ?_, ?_⟩
  · rw [cnt, threads, reporters_setPhase]
    exact barrier.counted
  · rw [threads]
    intro j within
    by_cases same : j = i
    · subst same
      rw [setPhase, setThread_threads_self, terminating]
      refine ⟨own.1, fun dry => ?_⟩
      rcases leaves with ⟨_, ending⟩ | ⟨left, _⟩
      · exact ending
      · exact absurd dry left
    · rw [setPhase, setThread_threads_of_ne same]
      rcases leaves with ⟨dry, _⟩ | ⟨left, full⟩
      · rw [dry, terminating, ← own.2]
        exact barrier.ok j within
      · refine threadOk_of_left left (everybody full j within) (fun waits => ?_) (barrier.ok j within)
        have held := (barrier.holder j within).mpr waits
        exact same (Option.some.inj (held.symm.trans holds))
  · rw [threads, mutex]
    intro j within
    by_cases same : j = i
    · subst same
      simp [setPhase]
    · rw [setPhase, setThread_threads_of_ne same, ← barrier.holder j within, holds]
      exact Iff.intro (by rintro ⟨⟩) fun held => absurd (Option.some.inj held).symm same
  · intro left
    rw [threads]
    rcases leaves with ⟨dry, _⟩ | ⟨_, full⟩
    · exact absurd dry left
    · exact forall_setThread (fun _ t => t.hasReported = true) (everybody full) own.1

theorem threadOk_terminating {state : FuzzState} {terminating : Bool}
    (ok : ThreadOk state terminating thread) : ThreadOk state true thread := by
  rcases thread with ⟨phase, run, reported⟩
  cases phase with
  | running static =>
      cases static with
      | true => exact ok
      | false => exact ⟨ok.1, fun _ => rfl⟩
  | reported => exact ⟨ok.1, fun _ => rfl⟩
  | idle | preparing | reporting | counted | waiting | stopped => exact ok

theorem Barrier.congr (barrier : Barrier config s) {later : DryRun} (state : later.state = s.state)
    (cnt : later.cnt = s.cnt) (mutex : later.mutex = s.mutex)
    (terminating : later.terminating = s.terminating) (threads : later.threads = s.threads) :
    Barrier config later where
  counted := by rw [cnt, threads, barrier.counted]
  ok := by
    rw [state, terminating, threads]
    exact barrier.ok
  holder := by
    rw [mutex, threads]
    exact barrier.holder
  passed := by
    rw [state, threads]
    exact barrier.passed

theorem Barrier.fetch (barrier : Barrier config s) (inside : i < config.threadsMax)
    (here : (s.threads i).phase = .idle) : Barrier config (s.fetch i) := by
  have own := barrier.ok i inside
  rw [ThreadOk, here] at own
  have free : (s.threads i).phase ≠ .waiting := by
    rw [here]
    rintro ⟨⟩
  unfold DryRun.fetch
  split
  · next dry => exact barrier.setThread inside rfl free (by rintro ⟨⟩) (own dry)
  · next left =>
    exact barrier.setThread inside rfl free (by rintro ⟨⟩)
      ⟨barrier.passed left i inside, fun dry => absurd dry left⟩

theorem Barrier.prepare (barrier : Barrier config s) (inside : i < config.threadsMax)
    (here : (s.threads i).phase = .preparing) (readable : Bool) :
    Barrier config (s.prepare i readable) := by
  have own := barrier.ok i inside
  rw [ThreadOk, here] at own
  have free : (s.threads i).phase ≠ .waiting := by
    rw [here]
    rintro ⟨⟩
  have fails (run : StaticRun) :
      Barrier config (s.setThread i { s.threads i with run, phase := .reporting }) :=
    barrier.setThread inside rfl free (by rintro ⟨⟩) own
  have runs (run : StaticRun) :
      Barrier config (s.setThread i { s.threads i with run, phase := .running true }) :=
    barrier.setThread inside rfl free (by rintro ⟨⟩) own
  have keeps (later : DryRun) (files : List StaticFile) (prepared : Barrier config later) :
      Barrier config { later with files } := prepared.congr rfl rfl rfl rfl rfl
  unfold DryRun.prepare
  dsimp only
  split
  · exact fails _
  · split
    · exact keeps _ _ (runs _)
    · exact keeps _ _ (fails _)
  · split
    · split
      · exact runs _
      · exact fails _
    · exact fails _

theorem Barrier.finish (barrier : Barrier config s) (inside : i < config.threadsMax) {static : Bool}
    (here : (s.threads i).phase = .running static) (added : Option Bytes) :
    Barrier config (s.finish i static added) := by
  have own := barrier.ok i inside
  rw [ThreadOk, here] at own
  have free : (s.threads i).phase ≠ .waiting := by
    rw [here]
    rintro ⟨⟩
  have looped : Barrier config (s.setPhase i (if s.terminating then .stopped else .idle)) := by
    split
    · exact barrier.setThread inside rfl free (by rintro ⟨⟩) trivial
    · next goesOn =>
      refine barrier.setThread inside rfl free (by rintro ⟨⟩) fun dry => ?_
      cases static with
      | true => exact own
      | false => exact absurd (own.2 dry) goesOn
  unfold DryRun.finish
  cases static <;> cases added
  · exact looped
  · exact looped.congr rfl rfl rfl rfl rfl
  · exact looped.congr rfl rfl rfl rfl rfl
  · exact looped.congr rfl rfl rfl rfl rfl

theorem switch_spec (config : DryConfig) (s : DryRun) :
    (s.switch config).state ≠ .dryRun ∧ (s.switch config).threads = s.threads ∧
      (s.switch config).cnt = s.cnt ∧ (s.switch config).terminating = s.terminating := by
  unfold DryRun.switch
  dsimp only
  split
  · exact ⟨by rintro ⟨⟩, rfl, rfl, rfl⟩
  · split <;> exact ⟨by rintro ⟨⟩, rfl, rfl, rfl⟩

theorem Barrier.terminate (barrier : Barrier config s) :
    Barrier config { s with terminating := true } where
  counted := barrier.counted
  ok := fun j within => threadOk_terminating (barrier.ok j within)
  holder := barrier.holder
  passed := barrier.passed

theorem Barrier.step {action : DryAction} {next : DryRun} (barrier : Barrier config s)
    (stepped : Stepped config s action next) : Barrier config next := by
  cases stepped with
  | fetch inside here => exact barrier.fetch inside here
  | skip files inside here known => exact barrier.congr rfl rfl rfl rfl rfl
  | prepare inside here => exact barrier.prepare inside here _
  | finish inside here => exact barrier.finish inside here _
  | count inside here => exact barrier.report inside here
  | wait inside here free dry => exact barrier.acquire inside here free dry
  | @pass i inside here free left =>
      exact barrier.setThread inside rfl (by simp [here]) (by rintro ⟨⟩)
        ⟨barrier.passed left i inside, fun dry => absurd dry left⟩
  | switch inside here full =>
      obtain ⟨left, threads, cnt, terminating⟩ := switch_spec config s
      refine barrier.release inside here ?_ rfl cnt terminating (.inr ⟨left, full⟩)
      simp only [setPhase, DryRun.setThread, threads]
  | @giveUp i inside here open_ ending =>
      have own := barrier.ok i inside
      rw [ThreadOk, here] at own
      exact barrier.release inside here rfl rfl rfl rfl (.inl ⟨own.2, ending⟩)
  | spin inside here open_ goesOn => exact barrier
  | @minimized i size position inside here state =>
      have stopped : Barrier config (s.setPhase i .stopped) :=
        barrier.setThread inside rfl (by simp [here]) (by rintro ⟨⟩) trivial
      exact stopped.terminate
  | @mutated i size given position inside here state fits =>
      have own := barrier.ok i inside
      rw [ThreadOk, here] at own
      exact barrier.setThread inside rfl (by simp [here]) (by rintro ⟨⟩) own
  | @imported i position size input inside here state queued isImported =>
      have own := barrier.ok i inside
      rw [ThreadOk, here] at own
      have moved : Barrier config (s.setThread i { s.threads i with
          run := { (s.threads i).run with size := input.size }, phase := .running false }) :=
        barrier.setThread inside rfl (by simp [here]) (by rintro ⟨⟩) own
      exact moved.congr rfl rfl rfl rfl rfl
  | @stale i size position inside here state =>
      have own := barrier.ok i inside
      rw [ThreadOk, here] at own
      exact barrier.setThread inside rfl (by simp [here]) (by rintro ⟨⟩) own
  | leave inside here =>
      exact barrier.setThread inside rfl (by simp [here]) (by rintro ⟨⟩) trivial
  | terminate => exact barrier.terminate
  | injectSeed => exact barrier.congr rfl rfl rfl rfl rfl
  | enqueue => exact barrier.congr rfl rfl rfl rfl rfl

theorem Barrier.run {final : DryRun} {actions : List DryAction} (barrier : Barrier config s)
    (reached : runFrom (DryRun.step config) s actions = some final) : Barrier config final :=
  runFrom_invariant (fun _ _ _ barrier taken => barrier.step (stepped_of_step taken)) barrier reached

theorem Queued.congr (queued : s.Queued) {later : DryRun} (queue : later.dynfileq = s.dynfileq)
    (cnt : later.dynfileqCnt = s.dynfileqCnt) (handedOut : later.handedOut = s.handedOut)
    (state : later.state = s.state) : later.Queued where
  counted := by
    rw [queue, cnt, handedOut]
    exact queued.counted
  imported := handedOut ▸ queued.imported
  filled := by
    rw [cnt, state]
    exact queued.filled

theorem Queued.add (queued : s.Queued) {later : DryRun}
    (queue : later.dynfileq.length = s.dynfileq.length + 1)
    (cnt : later.dynfileqCnt = s.dynfileqCnt + 1) (handedOut : later.handedOut = s.handedOut) :
    later.Queued where
  counted := by
    rw [queue, cnt, handedOut, queued.counted, Nat.add_right_comm]
  imported := handedOut ▸ queued.imported
  filled := fun _ => cnt ▸ Nat.le_add_left 1 _

theorem Queued.addDynamicInput (queued : s.Queued) (input : DynInput) :
    (s.addDynamicInput input).Queued :=
  queued.add (by simp [DryRun.addDynamicInput]) rfl rfl

theorem Queued.finish (queued : s.Queued) (i : Nat) (static : Bool) (added : Option Bytes) :
    (s.finish i static added).Queued := by
  unfold DryRun.finish
  cases static <;> cases added
  · exact queued.congr rfl rfl rfl rfl
  · exact queued.add (by simp [DryRun.addDynamicInput, setPhase, DryRun.setThread]) rfl rfl
  · exact queued.congr rfl rfl rfl rfl
  · exact queued.add (by simp [DryRun.addDynamicInput, setPhase, DryRun.setThread]) rfl rfl

theorem Queued.switch (queued : s.Queued) (config : DryConfig) : (s.switch config).Queued := by
  unfold DryRun.switch
  dsimp only
  split
  · exact ⟨queued.counted, queued.imported, by rintro ⟨⟩⟩
  · split
    · have ended : Queued { s with switchingToFDM := false } := queued.congr rfl rfl rfl rfl
      have filled := ended.addDynamicInput ⟨config.emptyPath, 0, false⟩
      exact ⟨filled.counted, filled.imported, fun _ => Nat.le_add_left 1 _⟩
    · next full => exact ⟨queued.counted, queued.imported, fun _ => Nat.pos_of_ne_zero full⟩

theorem Queued.prepare (queued : s.Queued) (i : Nat) (readable : Bool) :
    (s.prepare i readable).Queued := by
  unfold DryRun.prepare
  dsimp only
  split
  · exact queued.congr rfl rfl rfl rfl
  · split <;> exact queued.congr rfl rfl rfl rfl
  · split
    · split <;> exact queued.congr rfl rfl rfl rfl
    · exact queued.congr rfl rfl rfl rfl

theorem Queued.fetch (queued : s.Queued) (i : Nat) : (s.fetch i).Queued := by
  unfold DryRun.fetch
  split <;> exact queued.congr rfl rfl rfl rfl

theorem Queued.step {action : DryAction} {next : DryRun} (queued : s.Queued)
    (stepped : Stepped config s action next) : next.Queued := by
  cases stepped with
  | fetch => exact queued.fetch _
  | prepare => exact queued.prepare _ _
  | finish => exact queued.finish _ _ _
  | switch => exact (queued.switch config).congr rfl rfl rfl rfl
  | imported inside here state isQueued isImported =>
      have inside := (List.getElem?_eq_some_iff.mp isQueued).1
      have counted := queued.counted
      refine ⟨?_, fun other member => ?_, queued.filled⟩
      · simp only [DryRun.setThread, List.length_eraseIdx, if_pos inside, List.length_append,
          List.length_singleton]
        omega
      · rcases List.mem_append.mp member with before | here
        · exact queued.imported other before
        · exact List.mem_singleton.mp here ▸ isImported
  | injectSeed => exact queued.add rfl rfl rfl
  | enqueue => exact queued.addDynamicInput _
  | skip | count | wait | pass | giveUp | spin | minimized | mutated | stale | leave | terminate =>
      exact queued.congr rfl rfl rfl rfl

theorem Queued.run {final : DryRun} {actions : List DryAction} (queued : s.Queued)
    (reached : runFrom (DryRun.step config) s actions = some final) : final.Queued :=
  runFrom_invariant (fun _ _ _ queued taken => queued.step (stepped_of_step taken)) queued reached

/-- At most one thread waits for the others, it holds the mutex, and it waits
only as long as the dry run lasts. -/
theorem dryRun_one_waits {maxInputSz : Nat} {files : List StaticFile} {final : DryRun}
    {actions : List DryAction}
    (reached : runFrom (DryRun.step config) (start maxInputSz files) actions = some final)
    (first : i < config.threadsMax) (waits : (final.threads i).phase = .waiting) :
    final.state = .dryRun ∧
      ∀ j < config.threadsMax, (final.threads j).phase = .waiting → j = i := by
  have barrier := (barrier_start maxInputSz files).run reached
  have own := barrier.ok i first
  rw [ThreadOk, waits] at own
  refine ⟨own.2, fun j second also => ?_⟩
  have holds := (barrier.holder i first).mpr waits
  exact (Option.some.inj (holds.symm.trans ((barrier.holder j second).mpr also))).symm

end Barrier

theorem dryRun_one_waits_alone :
    ∃ final, runFrom (DryRun.step ⟨2, false, 0, [48]⟩) (start 16 [])
        [.fetch 1, .prepare 1 true, .count 1, .acquire 1] = some final ∧
      final.state = .dryRun ∧ ∀ j < 2, (final.threads j).phase = .waiting → j = 1 :=
  ⟨_, rfl, @dryRun_one_waits ⟨2, false, 0, [48]⟩ 1 16 [] _
    [.fetch 1, .prepare 1 true, .count 1, .acquire 1] rfl (by decide) rfl⟩

end DryRun

end GraphDissect.Fuzzing
