import GraphDissect.Library.CString
import GraphDissect.Library.Refinement

/-!
# Rounds of a target

A fuzzing thread gives its target one input a round.  In the persistent mode
the target lives on from round to round and the two talk over a socket pair:
the target says that it is ready, the thread says how long the input is.
Otherwise every round has a process of its own.  The target moves on its own,
can write to what it was given, and can die at any time.  After a crash the
verifier gives the same input to a target again.
-/

namespace GraphDissect.Fuzzing

open Library

/-- `runState_t`. -/
inductive RunState where
  | waitingForInitialReady
  | waitingForReady
  | sendData
deriving DecidableEq

/-- Where the thread stands in `fuzz_fuzzLoop`: in front of it, in
`fuzz_fetchInput`, in `subproc_New`, at the three places of `arch_reapChild`
(the state machine, the checks and the wait), and behind `subproc_Run`. -/
inductive LoopPhase where
  | idle
  | fetching
  | launching
  | machine
  | checking
  | sleeping
  | verifying
deriving DecidableEq

/-- Where the target stands: in front of `HFReadyTag`, in front of the length, in
a run of so many bytes, or, without the persistent mode, behind its only run. -/
inductive TargetPhase where
  | asking
  | reading
  | running (len : Nat)
  | ended
deriving DecidableEq

/-- A signal ends a target, which may go on until it does. -/
inductive Life where
  | alive
  | signaled
  | dead
deriving DecidableEq

/-- A process that has not been waited for.  It was started on a working copy of
the input, or on the input itself. -/
structure Target where
  phase : TargetPhase
  life : Life
  copy : Option Bytes
deriving DecidableEq

inductive Signal where
  | sigkill
  | sigvtalrm
deriving DecidableEq

/-- What an observer sees of the rounds.  What is edited is the working copy, what
is overwritten the input. -/
inductive RoundEvent where
  | fetched (input : Bytes)
  | started (len : Nat)
  | looked (bytes : Bytes)
  | edited
  | overwritten (bytes : Bytes)
  | finished
  | done
  | died
  | verifying
deriving DecidableEq

/-- `tmOut` is zero where there is no limit. -/
structure TargetConfig where
  persistent : Bool
  tmOut : Int
  tmoutVTALRM : Bool
  inPlaceEdit : Bool
  useVerifier : Bool

def hfReadyTag : UInt8 := 82

def hfVerifierIter : Nat := 5

def TargetConfig.verifierIter (config : TargetConfig) : Nat :=
  if config.useVerifier then hfVerifierIter else 0

/-- The thread's `run_t`, the shared input file with its length, the two
directions of the socket pair and the target.  `iterations` counts the rounds of
the verifier. -/
structure TargetRun where
  phase : LoopPhase
  runState : RunState
  target : Option Target
  toFuzzer : Bytes
  toTarget : List Nat
  file : Bytes
  timeStartedUSecs : Int
  tmOutSignaled : Bool
  timeoutedCnt : Nat
  iterations : Nat
  signals : List Signal
  log : List RoundEvent

/-- `write` changes the input file, of which the new content is left open, as are
the clock, the delivery of a length, the making of a copy, whether a crash is to
be verified, and what the target does with an input. -/
inductive TargetAction where
  | beginRound (now : Int)
  | verify (now : Int)
  | write (file : Bytes)
  | fetched
  | launch (copied : Bool)
  | machine (sent : Bool)
  | check (now : Int) (terminating : Bool)
  | wait (sigio : Bool)
  | ready
  | receive
  | begin
  | look
  | edit (bytes : Bytes)
  | finish
  | die
deriving DecidableEq

def Target.hit (target : Target) : Target :=
  match target.life with
  | .dead => target
  | .alive | .signaled => { target with life := .signaled }

namespace TargetRun

def start : TargetRun where
  phase := .idle
  runState := .waitingForInitialReady
  target := none
  toFuzzer := []
  toTarget := []
  file := []
  timeStartedUSecs := 0
  tmOutSignaled := false
  timeoutedCnt := 0
  iterations := 0
  signals := []
  log := []

def note (s : TargetRun) (event : RoundEvent) : TargetRun :=
  { s with log := s.log ++ [event] }

def kill (s : TargetRun) (signal : Signal) : TargetRun :=
  { s with signals := s.signals ++ [signal], target := s.target.map Target.hit }

def living (s : TargetRun) : Option Target :=
  s.target.filter fun target => target.life ≠ .dead

/-- `fuzz_inPlaceEditBefore`, which the verifier does not call. -/
def inPlaceEditBefore (config : TargetConfig) (s : TargetRun) (copied : Bool) : Option Bytes :=
  if config.inPlaceEdit ∧ s.iterations = 0 ∧ s.file ≠ [] ∧ copied then some s.file else none

/-- `subproc_New`: a new process gets a new socket pair. -/
def subprocNew (config : TargetConfig) (s : TargetRun) (copy : Option Bytes) : TargetRun :=
  match s.target with
  | some _ => s
  | none =>
      let s := { s with target := some ⟨.asking, .alive, copy⟩, toFuzzer := [], toTarget := [] }
      if config.persistent then { s with runState := .waitingForInitialReady } else s

/-- `subproc_persistentGetReady`. -/
def persistentGetReady (s : TargetRun) : Bool × TargetRun :=
  match s.toFuzzer with
  | [] => (false, s)
  | rcv :: rest => (decide (rcv = hfReadyTag), { s with toFuzzer := rest })

/-- `subproc_persistentSendFileIndicator`: the length goes out whole or not at all. -/
def persistentSendFileIndicator (s : TargetRun) (sent : Bool) : Bool × TargetRun :=
  if sent then (true, { s with toTarget := s.toTarget ++ [s.file.length] }) else (false, s)

/-- One turn of the loop of `subproc_persistentModeStateMachine`. -/
def persistentModeStateMachine (config : TargetConfig) (s : TargetRun) (sent : Bool) : TargetRun :=
  if !config.persistent then { s with phase := .checking }
  else
    match s.runState with
    | .waitingForInitialReady =>
        match s.persistentGetReady with
        | (false, s) => { s with phase := .checking }
        | (true, s) => { s with runState := .sendData }
    | .sendData =>
        match s.persistentSendFileIndicator sent with
        | (false, s) => { s.kill .sigkill with phase := .checking }
        | (true, s) => { s with runState := .waitingForReady }
    | .waitingForReady =>
        match s.persistentGetReady with
        | (false, s) => { s with phase := .checking }
        -- the round is done
        | (true, s) => { s.note .done with runState := .sendData, phase := .verifying }

/-- `subproc_checkTimeLimit`. -/
def checkTimeLimit (config : TargetConfig) (now : Int) (s : TargetRun) : TargetRun :=
  let diffUSecs := now - s.timeStartedUSecs
  if config.tmOut = 0 then s
  else if s.tmOutSignaled ∧ (config.tmOut + 1) * 1000000 < diffUSecs then s.kill .sigkill
  else if config.tmOut * 1000000 < diffUSecs ∧ !s.tmOutSignaled then
    let s := { s with tmOutSignaled := true, timeoutedCnt := s.timeoutedCnt + 1 }
    if config.tmoutVTALRM then s.kill .sigvtalrm else s.kill .sigkill
  else s

/-- `subproc_checkTermination`. -/
def checkTermination (terminating : Bool) (s : TargetRun) : TargetRun :=
  if terminating then s.kill .sigkill else s

/-- The end of a turn of `arch_reapChild`: after `SIGIO` nobody is waited for. -/
def reap (s : TargetRun) (sigio : Bool) : TargetRun :=
  match s.target with
  | some ⟨_, .dead, _⟩ =>
      if sigio then { s with phase := .machine }
      else { s.note .died with target := none, phase := .verifying }
  | _ => { s with phase := .machine }

/-- `HonggfuzzFetchData` hands over as many bytes as were announced; without the
persistent mode the target reads its file. -/
def given (config : TargetConfig) (s : TargetRun) (len : Nat) (copy : Option Bytes) : Bytes :=
  if config.persistent then (copy.getD s.file).take len else copy.getD s.file

def step (config : TargetConfig) (s : TargetRun) : TargetAction → Option TargetRun
  | .beginRound now =>
      if s.phase = .idle ∨ s.phase = .verifying then
        some { s with phase := .fetching, timeStartedUSecs := now, tmOutSignaled := false, signals := [] }
      else none
  -- an iteration of `fuzz_runVerifier`; `tmOutSignaled` stays as it is
  | .verify now =>
      if s.phase = .verifying ∧ s.iterations < config.verifierIter then
        some { s.note .verifying with
          phase := .launching, timeStartedUSecs := now, iterations := s.iterations + 1 }
      else none
  | .write file => if s.phase = .fetching then some { s with file } else none
  | .fetched =>
      if s.phase = .fetching then
        some { s.note (.fetched s.file) with phase := .launching, iterations := 0 }
      else none
  | .launch copied =>
      if s.phase = .launching then
        some { s.subprocNew config (s.inPlaceEditBefore config copied) with phase := .machine }
      else none
  | .machine sent =>
      if s.phase = .machine then some (s.persistentModeStateMachine config sent) else none
  | .check now terminating =>
      if s.phase = .checking then
        some { (s.checkTimeLimit config now).checkTermination terminating with phase := .sleeping }
      else none
  | .wait sigio => if s.phase = .sleeping then some (s.reap sigio) else none
  | .ready =>
      match s.living with
      | some ⟨.asking, life, copy⟩ =>
          if config.persistent then
            some { s with target := some ⟨.reading, life, copy⟩, toFuzzer := s.toFuzzer ++ [hfReadyTag] }
          else none
      | _ => none
  | .receive =>
      match s.living, s.toTarget with
      | some ⟨.reading, life, copy⟩, len :: rest =>
          some { s.note (.started len) with target := some ⟨.running len, life, copy⟩, toTarget := rest }
      | _, _ => none
  | .begin =>
      match s.living with
      | some ⟨.asking, life, copy⟩ =>
          if config.persistent then none
          else
            let len := (copy.getD s.file).length
            some { s.note (.started len) with target := some ⟨.running len, life, copy⟩ }
      | _ => none
  | .look =>
      match s.living with
      | some ⟨.running len, _, copy⟩ => some (s.note (.looked (s.given config len copy)))
      | _ => none
  | .edit bytes =>
      match s.living with
      | some ⟨.running len, life, some _⟩ =>
          some { s.note .edited with target := some ⟨.running len, life, some bytes⟩ }
      -- the mapped input keeps the size that the thread has of it
      | some ⟨.running _, _, none⟩ =>
          if bytes.length = s.file.length then some { s.note (.overwritten bytes) with file := bytes }
          else none
      | _ => none
  | .finish =>
      match s.living with
      | some ⟨.running _, life, copy⟩ =>
          some { s.note .finished with
            target := some ⟨if config.persistent then .asking else .ended, life, copy⟩ }
      | _ => none
  | .die =>
      match s.living with
      | some ⟨phase, _, copy⟩ => some { s with target := some ⟨phase, .dead, copy⟩ }
      | none => none

/-! ## The rounds as an observer wants them -/

/-- The abstract thread: it has nothing on offer, or an input that has not been
run, is being run, has been run, or is over with.  The verifier offers it again,
and the target can have edited what it runs. -/
inductive Offer where
  | idle
  | offered (input : Bytes) (iteration : Nat)
  | running (input : Bytes) (iteration : Nat) (edited : Bool)
  | ran (input : Bytes) (iteration : Nat)
  | over (input : Bytes) (iteration : Nat)
deriving DecidableEq

/-- An input is run once, from its first to its last byte, before its round is
done; where the target dies, its round is over.  Then the same input can be offered
again, `again` times.  A target that overwrites the input changes what is offered
again. -/
def Offer.step (again : Nat) : Offer → RoundEvent → Option Offer
  | .idle, .fetched input => some (.offered input 0)
  | .over _ _, .fetched input => some (.offered input 0)
  | .over input iteration, .verifying =>
      if iteration < again then some (.offered input (iteration + 1)) else none
  | .offered input iteration, .started len =>
      if len = input.length then some (.running input iteration false) else none
  | .running input iteration edited, .looked bytes =>
      if edited ∨ bytes = input then some (.running input iteration edited) else none
  | .running input iteration _, .edited => some (.running input iteration true)
  | .running _ iteration _, .overwritten bytes => some (.running bytes iteration true)
  | .running input iteration _, .finished => some (.ran input iteration)
  | .ran input iteration, .done => some (.over input iteration)
  | .offered input iteration, .died => some (.over input iteration)
  | .running input iteration _, .died => some (.over input iteration)
  | .ran input iteration, .died => some (.over input iteration)
  | _, _ => none

/-- Where the thread, the target and the messages can be at one time in the
persistent mode. -/
inductive Handshake (input : Bytes) (iteration : Nat) :
    RunState → TargetPhase → Bytes → List Nat → Offer → Prop where
  | booting : Handshake input iteration .waitingForInitialReady .asking [] [] (.offered input iteration)
  | greeted : Handshake input iteration .waitingForInitialReady .reading [hfReadyTag] []
      (.offered input iteration)
  | agreed : Handshake input iteration .sendData .reading [] [] (.offered input iteration)
  | sent : Handshake input iteration .waitingForReady .reading [] [input.length]
      (.offered input iteration)
  | running (edited : Bool) : Handshake input iteration .waitingForReady (.running input.length) [] []
      (.running input iteration edited)
  | finished : Handshake input iteration .waitingForReady .asking [] [] (.ran input iteration)
  | answered : Handshake input iteration .waitingForReady .reading [hfReadyTag] []
      (.ran input iteration)

/-- The same without the persistent mode. -/
inductive Single (input : Bytes) (iteration : Nat) : Option Bytes → TargetPhase → Offer → Prop where
  | booting {copy : Option Bytes} (same : copy.getD input = input) :
      Single input iteration copy .asking (.offered input iteration)
  | running {copy : Option Bytes} (same : copy.getD input = input) :
      Single input iteration copy (.running input.length) (.running input iteration false)
  | edited {copy : Option Bytes} :
      Single input iteration copy (.running input.length) (.running input iteration true)
  | finished {copy : Option Bytes} : Single input iteration copy .ended (.ran input iteration)

/-- Between two rounds a persistent target waits for a length. -/
def Resting (config : TargetConfig) (s : TargetRun) : Prop :=
  s.target = none ∨ (config.persistent = true ∧ s.runState = .sendData ∧ s.toFuzzer = [] ∧
    s.toTarget = [] ∧ ∃ life, s.target = some ⟨.reading, life, none⟩)

def Engaged (config : TargetConfig) (s : TargetRun) (offer : Offer) : Prop :=
  ∃ phase life copy, s.target = some ⟨phase, life, copy⟩ ∧
    if config.persistent then
      copy = none ∧ Handshake s.file s.iterations s.runState phase s.toFuzzer s.toTarget offer
    else Single s.file s.iterations copy phase offer

def Coupled (config : TargetConfig) (s : TargetRun) (offer : Offer) : Prop :=
  match s.phase with
  | .idle => offer = .idle ∧ Resting config s
  | .fetching => (offer = .idle ∨ ∃ input iteration, offer = .over input iteration) ∧ Resting config s
  | .launching => offer = .offered s.file s.iterations ∧ Resting config s
  | .machine | .checking | .sleeping => Engaged config s offer
  | .verifying => offer = .over s.file s.iterations ∧ Resting config s

end TargetRun

end GraphDissect.Fuzzing
