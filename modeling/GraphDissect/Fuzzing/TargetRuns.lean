import GraphDissect.Fuzzing.Target

/-!
# What the rounds of a target guarantee

Whatever the thread and its target do, and in whatever order, an observer sees
rounds: an input is run at most once in a round, is what was offered until the
target itself writes to it, and a round that is done has run it.
-/

namespace GraphDissect.Fuzzing

open Library

def LoopPhase.Reaps : LoopPhase → Prop
  | .machine | .checking | .sleeping => True
  | .idle | .fetching | .launching | .verifying => False

def LoopPhase.Offers : LoopPhase → Prop
  | .idle | .fetching => False
  | .launching | .machine | .checking | .sleeping | .verifying => True

def TargetAction.ofTarget : TargetAction → Bool
  | .ready | .receive | .begin | .look | .edit _ | .finish | .die => true
  | _ => false

theorem Target.hit_eq (phase : TargetPhase) (life : Life) (copy : Option Bytes) :
    ∃ later, Target.hit ⟨phase, life, copy⟩ = ⟨phase, later, copy⟩ := by
  cases life with
  | alive | signaled => exact ⟨.signaled, rfl⟩
  | dead => exact ⟨.dead, rfl⟩

namespace TargetRun

section Handshake

variable {input : Bytes} {iteration : Nat} {runState : RunState} {phase : TargetPhase}
  {toFuzzer : Bytes} {toTarget : List Nat} {offer : Offer} {again : Nat}

theorem Handshake.ready
    (talk : Handshake input iteration runState .asking toFuzzer toTarget offer) :
    Handshake input iteration runState .reading (toFuzzer ++ [hfReadyTag]) toTarget offer := by
  cases talk with
  | booting => exact .greeted
  | finished => exact .answered

theorem Handshake.receive {len : Nat} {rest : List Nat}
    (talk : Handshake input iteration runState .reading toFuzzer (len :: rest) offer) :
    offer.step again (.started len) = some (.running input iteration false) ∧
      Handshake input iteration runState (.running len) toFuzzer rest
        (.running input iteration false) := by
  cases talk with
  | sent => exact ⟨if_pos rfl, .running false⟩

theorem Handshake.look {len : Nat}
    (talk : Handshake input iteration runState (.running len) toFuzzer toTarget offer) :
    len = input.length ∧ ∃ edited, offer = .running input iteration edited := by
  cases talk with
  | running edited => exact ⟨rfl, edited, rfl⟩

theorem Handshake.overwrite {len : Nat} {bytes : Bytes} (size : bytes.length = input.length)
    (talk : Handshake input iteration runState (.running len) toFuzzer toTarget offer) :
    Handshake bytes iteration runState (.running len) toFuzzer toTarget
      (.running bytes iteration true) := by
  cases talk with
  | running edited =>
      rw [← size]
      exact .running true

theorem Handshake.finish {len : Nat}
    (talk : Handshake input iteration runState (.running len) toFuzzer toTarget offer) :
    Handshake input iteration runState .asking toFuzzer toTarget (.ran input iteration) := by
  cases talk with
  | running => exact .finished

theorem Handshake.send (talk : Handshake input iteration .sendData phase toFuzzer toTarget offer) :
    Handshake input iteration .waitingForReady phase toFuzzer (toTarget ++ [input.length]) offer := by
  cases talk with
  | agreed => exact .sent

theorem Handshake.greet {rcv : UInt8} {rest : Bytes}
    (talk : Handshake input iteration .waitingForInitialReady phase (rcv :: rest) toTarget offer) :
    rcv = hfReadyTag ∧ Handshake input iteration .sendData phase rest toTarget offer := by
  cases talk with
  | greeted => exact ⟨rfl, .agreed⟩

theorem Handshake.answer {rcv : UInt8} {rest : Bytes}
    (talk : Handshake input iteration .waitingForReady phase (rcv :: rest) toTarget offer) :
    rcv = hfReadyTag ∧ phase = .reading ∧ rest = [] ∧ toTarget = [] ∧
      offer = .ran input iteration := by
  cases talk with
  | answered => exact ⟨rfl, rfl, rfl, rfl, rfl⟩

theorem Handshake.dies
    (talk : Handshake input iteration runState phase toFuzzer toTarget offer) :
    offer.step again .died = some (.over input iteration) := by
  cases talk <;> rfl

theorem Single.dies {copy : Option Bytes} (talk : Single input iteration copy phase offer) :
    offer.step again .died = some (.over input iteration) := by
  cases talk <;> rfl

theorem Single.look {copy : Option Bytes} {len : Nat}
    (talk : Single input iteration copy (.running len) offer) :
    len = input.length ∧ ∃ edited, offer = .running input iteration edited ∧
      (edited = false → copy.getD input = input) := by
  cases talk with
  | running same => exact ⟨rfl, false, rfl, fun _ => same⟩
  | edited => exact ⟨rfl, true, rfl, by rintro ⟨⟩⟩

end Handshake

section Rounds

variable {config : TargetConfig} {s next : TargetRun} {offer : Offer}

theorem living_eq_some {target : Target} :
    s.living = some target ↔ s.target = some target ∧ target.life ≠ .dead := by
  simp [living, Option.filter_eq_some_iff]

theorem Engaged.at {phase : TargetPhase} {life : Life} {copy : Option Bytes}
    (engaged : Engaged config s offer) (target : s.target = some ⟨phase, life, copy⟩) :
    if config.persistent then
      copy = none ∧ Handshake s.file s.iterations s.runState phase s.toFuzzer s.toTarget offer
    else Single s.file s.iterations copy phase offer := by
  obtain ⟨_, _, _, here, talk⟩ := engaged
  cases target.symm.trans here
  exact talk

theorem Engaged.persists {phase : TargetPhase} {life : Life} {copy : Option Bytes}
    (engaged : Engaged config s offer) (target : s.target = some ⟨phase, life, copy⟩)
    (persistent : config.persistent = true) : copy = none ∧
      Handshake s.file s.iterations s.runState phase s.toFuzzer s.toTarget offer := by
  have talk := engaged.at target
  rwa [if_pos persistent] at talk

theorem Engaged.single {phase : TargetPhase} {life : Life} {copy : Option Bytes}
    (engaged : Engaged config s offer) (target : s.target = some ⟨phase, life, copy⟩)
    (single : config.persistent = false) : Single s.file s.iterations copy phase offer := by
  have talk := engaged.at target
  rwa [if_neg (by simp [single])] at talk

theorem Engaged.congr (engaged : Engaged config s offer)
    (target : ∀ phase life copy, s.target = some ⟨phase, life, copy⟩ →
      ∃ life, next.target = some ⟨phase, life, copy⟩)
    (file : next.file = s.file) (iterations : next.iterations = s.iterations)
    (runState : next.runState = s.runState) (toFuzzer : next.toFuzzer = s.toFuzzer)
    (toTarget : next.toTarget = s.toTarget) : Engaged config next offer := by
  obtain ⟨phase, life, copy, here, talk⟩ := engaged
  obtain ⟨later, there⟩ := target phase life copy here
  refine ⟨phase, later, copy, there, ?_⟩
  rw [file, iterations, runState, toFuzzer, toTarget]
  exact talk

theorem Engaged.phase (engaged : Engaged config s offer) (phase : LoopPhase) :
    Engaged config { s with phase } offer :=
  engaged.congr (fun _ life _ target => ⟨life, target⟩) rfl rfl rfl rfl rfl

theorem Engaged.note (engaged : Engaged config s offer) (event : RoundEvent) :
    Engaged config (s.note event) offer :=
  engaged.congr (fun _ life _ target => ⟨life, target⟩) rfl rfl rfl rfl rfl

theorem Engaged.kill (engaged : Engaged config s offer) (signal : Signal) :
    Engaged config (s.kill signal) offer := by
  refine engaged.congr (fun phase life copy target => ?_) rfl rfl rfl rfl rfl
  obtain ⟨later, hit⟩ := Target.hit_eq phase life copy
  exact ⟨later, by rw [TargetRun.kill, target, Option.map_some, hit]⟩

theorem coupled_iff_engaged (reaps : s.phase.Reaps) :
    Coupled config s offer ↔ Engaged config s offer := by
  unfold Coupled
  cases here : s.phase with
  | machine | checking | sleeping => exact Iff.rfl
  | idle | fetching | launching | verifying =>
      rw [here] at reaps
      cases reaps

theorem Coupled.resting (coupled : Coupled config s offer) (between : ¬ s.phase.Reaps) :
    Resting config s := by
  unfold Coupled at coupled
  cases here : s.phase with
  | machine | checking | sleeping =>
      rw [here] at between
      exact absurd trivial between
  | idle | fetching | launching | verifying =>
      rw [here] at coupled
      exact coupled.2

theorem Coupled.engaged (coupled : Coupled config s offer) {phase : TargetPhase} {life : Life}
    {copy : Option Bytes} (target : s.target = some ⟨phase, life, copy⟩)
    (busy : phase ≠ .reading ∨ s.toTarget ≠ []) : s.phase.Reaps ∧ Engaged config s offer := by
  have restless : ¬ Resting config s := by
    rintro (nobody | ⟨_, _, _, empty, _, rests⟩)
    · cases target.symm.trans nobody
    · cases target.symm.trans rests
      rcases busy with busy | waiting
      · exact busy rfl
      · exact waiting empty
  by_cases reaps : s.phase.Reaps
  · exact ⟨reaps, (coupled_iff_engaged reaps).mp coupled⟩
  · exact absurd (coupled.resting reaps) restless

/-! ### The target -/

theorem Coupled.ready (coupled : Coupled config s offer) {life : Life} {copy : Option Bytes}
    (target : s.target = some ⟨.asking, life, copy⟩) (persistent : config.persistent = true) :
    Coupled config { s with
      target := some ⟨.reading, life, copy⟩, toFuzzer := s.toFuzzer ++ [hfReadyTag] } offer := by
  obtain ⟨reaps, engaged⟩ := coupled.engaged target (.inl (by rintro ⟨⟩))
  obtain ⟨original, talk⟩ := engaged.persists target persistent
  refine (coupled_iff_engaged (by exact reaps)).mpr ⟨.reading, life, copy, rfl, ?_⟩
  rw [if_pos persistent]
  exact ⟨original, talk.ready⟩

theorem Coupled.receive (coupled : Coupled config s offer) {life : Life} {copy : Option Bytes}
    (target : s.target = some ⟨.reading, life, copy⟩) {len : Nat} {rest : List Nat}
    (messages : s.toTarget = len :: rest) :
    offer.step config.verifierIter (.started len) = some (.running s.file s.iterations false) ∧
      Coupled config { s.note (.started len) with
        target := some ⟨.running len, life, copy⟩, toTarget := rest }
        (.running s.file s.iterations false) := by
  obtain ⟨reaps, engaged⟩ :=
    coupled.engaged target (.inr (by rw [messages]; exact List.cons_ne_nil _ _))
  cases persistent : config.persistent with
  | true =>
      obtain ⟨original, talk⟩ := engaged.persists target persistent
      rw [messages] at talk
      obtain ⟨starts, begun⟩ := talk.receive
      refine ⟨starts, (coupled_iff_engaged (by exact reaps)).mpr ⟨_, life, copy, rfl, ?_⟩⟩
      rw [if_pos persistent]
      exact ⟨original, begun⟩
  | false => cases engaged.single target persistent

theorem Coupled.begin (coupled : Coupled config s offer) {life : Life} {copy : Option Bytes}
    (target : s.target = some ⟨.asking, life, copy⟩) (single : config.persistent = false) :
    let len := (copy.getD s.file).length
    offer.step config.verifierIter (.started len) = some (.running s.file s.iterations false) ∧
      Coupled config { s.note (.started len) with target := some ⟨.running len, life, copy⟩ }
        (.running s.file s.iterations false) := by
  obtain ⟨reaps, engaged⟩ := coupled.engaged target (.inl (by rintro ⟨⟩))
  cases engaged.single target single with
  | booting same =>
      dsimp only
      rw [same]
      refine ⟨if_pos rfl, (coupled_iff_engaged (by exact reaps)).mpr ⟨_, life, copy, rfl, ?_⟩⟩
      rw [if_neg (by simp [single])]
      exact .running same

/-- As long as the target runs an input, and after it has died of it, the file
holds just this input, and before it writes it sees nothing else. -/
theorem Coupled.look (coupled : Coupled config s offer) {len : Nat} {life : Life}
    {copy : Option Bytes} (target : s.target = some ⟨.running len, life, copy⟩) :
    len = s.file.length ∧ ∃ edited, offer = .running s.file s.iterations edited ∧
      (edited = false → s.given config len copy = s.file) := by
  obtain ⟨_, engaged⟩ := coupled.engaged target (.inl (by rintro ⟨⟩))
  unfold given
  cases persistent : config.persistent with
  | true =>
      obtain ⟨rfl, talk⟩ := engaged.persists target persistent
      obtain ⟨rfl, edited, isRunning⟩ := talk.look
      exact ⟨rfl, edited, isRunning, fun _ => List.take_length⟩
  | false =>
      obtain ⟨whole, edited, isRunning, same⟩ := (engaged.single target persistent).look
      exact ⟨whole, edited, isRunning, same⟩

theorem Coupled.running (coupled : Coupled config s offer) {len : Nat} {life : Life}
    {copy : Option Bytes} (target : s.target = some ⟨.running len, life, copy⟩) :
    s.phase.Reaps ∧ Engaged config s offer :=
  coupled.engaged target (.inl (by rintro ⟨⟩))

theorem Coupled.edit (coupled : Coupled config s offer) {len : Nat} {life : Life} {copy bytes : Bytes}
    (target : s.target = some ⟨.running len, life, some copy⟩) :
    offer.step config.verifierIter .edited = some (.running s.file s.iterations true) ∧
      Coupled config { s.note .edited with target := some ⟨.running len, life, some bytes⟩ }
        (.running s.file s.iterations true) := by
  obtain ⟨rfl, edited, rfl, _⟩ := coupled.look target
  obtain ⟨reaps, engaged⟩ := coupled.running target
  refine ⟨rfl, (coupled_iff_engaged (by exact reaps)).mpr ⟨_, life, some bytes, rfl, ?_⟩⟩
  cases persistent : config.persistent with
  | true => cases (engaged.persists target persistent).1
  | false => exact .edited

theorem Coupled.overwrite (coupled : Coupled config s offer) {len : Nat} {life : Life} {bytes : Bytes}
    (target : s.target = some ⟨.running len, life, none⟩) (size : bytes.length = s.file.length) :
    offer.step config.verifierIter (.overwritten bytes) = some (.running bytes s.iterations true) ∧
      Coupled config { s.note (.overwritten bytes) with file := bytes }
        (.running bytes s.iterations true) := by
  obtain ⟨rfl, edited, rfl, _⟩ := coupled.look target
  obtain ⟨reaps, engaged⟩ := coupled.running target
  refine ⟨rfl, (coupled_iff_engaged (by exact reaps)).mpr ⟨_, life, none, target, ?_⟩⟩
  cases persistent : config.persistent with
  | true => exact ⟨rfl, (engaged.persists target persistent).2.overwrite size⟩
  | false =>
      rw [← size]
      exact .edited

theorem Coupled.finish (coupled : Coupled config s offer) {len : Nat} {life : Life}
    {copy : Option Bytes} (target : s.target = some ⟨.running len, life, copy⟩) :
    offer.step config.verifierIter .finished = some (.ran s.file s.iterations) ∧
      Coupled config { s.note .finished with
        target := some ⟨if config.persistent then .asking else .ended, life, copy⟩ }
        (.ran s.file s.iterations) := by
  obtain ⟨_, edited, isRunning, _⟩ := coupled.look target
  obtain ⟨reaps, engaged⟩ := coupled.running target
  refine ⟨by rw [isRunning]; rfl, (coupled_iff_engaged (by exact reaps)).mpr ⟨_, life, copy, rfl, ?_⟩⟩
  cases persistent : config.persistent with
  | true =>
      obtain ⟨original, talk⟩ := engaged.persists target persistent
      exact ⟨original, talk.finish⟩
  | false => exact .finished

theorem Resting.die (resting : Resting config s) {phase : TargetPhase} {life : Life}
    {copy : Option Bytes} (target : s.target = some ⟨phase, life, copy⟩) :
    Resting config { s with target := some ⟨phase, .dead, copy⟩ } := by
  rcases resting with nobody | ⟨persistent, runState, toFuzzer, toTarget, _, here⟩
  · cases target.symm.trans nobody
  · cases target.symm.trans here
    exact .inr ⟨persistent, runState, toFuzzer, toTarget, .dead, rfl⟩

theorem Coupled.die (coupled : Coupled config s offer) {phase : TargetPhase} {life : Life}
    {copy : Option Bytes} (target : s.target = some ⟨phase, life, copy⟩) :
    Coupled config { s with target := some ⟨phase, .dead, copy⟩ } offer := by
  unfold Coupled at coupled ⊢
  cases here : s.phase with
  | machine | checking | sleeping =>
      rw [here] at coupled
      exact ⟨phase, .dead, copy, rfl, coupled.at target⟩
  | idle | fetching | launching | verifying =>
      rw [here] at coupled
      exact ⟨coupled.1, coupled.2.die target⟩

/-! ### The thread -/

theorem Coupled.launch (coupled : Coupled config s offer) (here : s.phase = .launching)
    (editing : config.persistent = true → config.inPlaceEdit = false) (copied : Bool) :
    Coupled config
      { s.subprocNew config (s.inPlaceEditBefore config copied) with phase := .machine } offer := by
  rw [Coupled, here] at coupled
  obtain ⟨rfl, resting⟩ := coupled
  refine (coupled_iff_engaged (by exact trivial)).mpr ?_
  have same : (s.inPlaceEditBefore config copied).getD s.file = s.file := by
    unfold inPlaceEditBefore
    split <;> rfl
  have original (persistent : config.persistent = true) :
      s.inPlaceEditBefore config copied = none := by
    simp [inPlaceEditBefore, editing persistent]
  unfold subprocNew
  rcases resting with nobody | ⟨persistent, runState, toFuzzer, toTarget, life, target⟩
  · rw [nobody]
    dsimp only
    split
    · next persistent =>
      refine ⟨.asking, .alive, _, rfl, ?_⟩
      rw [if_pos persistent]
      exact ⟨original persistent, .booting⟩
    · next single =>
      refine ⟨.asking, .alive, _, rfl, ?_⟩
      rw [if_neg single]
      exact .booting same
  · rw [target]
    refine ⟨.reading, life, none, target, ?_⟩
    rw [if_pos persistent]
    dsimp only
    rw [runState, toFuzzer, toTarget]
    exact ⟨rfl, .agreed⟩

theorem Engaged.checkTimeLimit (engaged : Engaged config s offer) (now : Int) :
    Engaged config (s.checkTimeLimit config now) offer := by
  have counted : Engaged config
      { s with tmOutSignaled := true, timeoutedCnt := s.timeoutedCnt + 1 } offer :=
    engaged.congr (fun _ life _ target => ⟨life, target⟩) rfl rfl rfl rfl rfl
  unfold TargetRun.checkTimeLimit
  dsimp only
  split
  · exact engaged
  · split
    · exact engaged.kill _
    · split
      · split
        · exact counted.kill _
        · exact counted.kill _
      · exact engaged

theorem Engaged.checkTermination (engaged : Engaged config s offer) (terminating : Bool) :
    Engaged config (s.checkTermination terminating) offer := by
  unfold TargetRun.checkTermination
  split
  · exact engaged.kill _
  · exact engaged

theorem checks_quiet (s : TargetRun) (now : Int) (terminating : Bool) :
    ((s.checkTimeLimit config now).checkTermination terminating).log = s.log ∧
      ((s.checkTimeLimit config now).checkTermination terminating).phase = s.phase := by
  have limit : (s.checkTimeLimit config now).log = s.log ∧
      (s.checkTimeLimit config now).phase = s.phase := by
    unfold TargetRun.checkTimeLimit
    dsimp only
    split
    · exact ⟨rfl, rfl⟩
    · split
      · exact ⟨rfl, rfl⟩
      · split
        · split <;> exact ⟨rfl, rfl⟩
        · exact ⟨rfl, rfl⟩
  unfold TargetRun.checkTermination
  split <;> exact limit

theorem persistentGetReady_nil (empty : s.toFuzzer = []) : s.persistentGetReady = (false, s) := by
  rw [persistentGetReady, empty]

theorem persistentGetReady_tag {rest : Bytes} (messages : s.toFuzzer = hfReadyTag :: rest) :
    s.persistentGetReady = (true, { s with toFuzzer := rest }) := by
  simp [persistentGetReady, messages]

/-- What a step on the log of rounds looks like. -/
abbrev Told (config : TargetConfig) (s next : TargetRun) (offer : Offer) : Prop :=
  Explains (Offer.step config.verifierIter) log (Coupled config) s next offer

/-- Nothing was said and nothing is over. -/
theorem Engaged.waits (engaged : Engaged config next offer) (reaps : next.phase.Reaps)
    (same : next.log = s.log) : Told config s next offer :=
  .silent same ((coupled_iff_engaged reaps).mpr engaged)

/-- A turn of the state machine, which ends the round when the target has
answered. -/
theorem Coupled.machine (coupled : Coupled config s offer) (here : s.phase = .machine) (sent : Bool) :
    Told config s (s.persistentModeStateMachine config sent) offer := by
  have reaps : s.phase.Reaps := by
    rw [here]
    trivial
  have engaged := (coupled_iff_engaged reaps).mp coupled
  have waits : Told config s { s with phase := .checking } offer :=
    (engaged.phase .checking).waits trivial rfl
  unfold persistentModeStateMachine
  cases persistent : config.persistent with
  | false => exact waits
  | true =>
      rw [if_neg (by decide)]
      obtain ⟨phase, life, copy, target, _⟩ := id engaged
      obtain ⟨rfl, talk⟩ := engaged.persists target persistent
      cases runState : s.runState with
      | waitingForInitialReady =>
          dsimp only
          cases messages : s.toFuzzer with
          | nil =>
              rw [persistentGetReady_nil messages]
              exact waits
          | cons rcv rest =>
              rw [runState, messages] at talk
              obtain ⟨rfl, later⟩ := talk.greet
              rw [persistentGetReady_tag messages]
              refine Engaged.waits ⟨phase, life, none, target, ?_⟩ reaps rfl
              rw [if_pos persistent]
              exact ⟨rfl, later⟩
      | sendData =>
          dsimp only
          unfold persistentSendFileIndicator
          cases sent with
          | false => exact ((engaged.kill .sigkill).phase .checking).waits trivial rfl
          | true =>
              rw [runState] at talk
              refine Engaged.waits ⟨phase, life, none, target, ?_⟩ reaps rfl
              rw [if_pos persistent]
              exact ⟨rfl, talk.send⟩
      | waitingForReady =>
          dsimp only
          cases messages : s.toFuzzer with
          | nil =>
              rw [persistentGetReady_nil messages]
              exact waits
          | cons rcv rest =>
              rw [runState, messages] at talk
              obtain ⟨rfl, rfl, rfl, empty, rfl⟩ := talk.answer
              rw [persistentGetReady_tag messages]
              exact .emits rfl rfl ⟨rfl, .inr ⟨persistent, rfl, rfl, empty, life, target⟩⟩

theorem Coupled.reap (coupled : Coupled config s offer) (here : s.phase = .sleeping) (sigio : Bool) :
    Told config s (s.reap sigio) offer := by
  have engaged := (coupled_iff_engaged (by rw [here]; trivial)).mp coupled
  have again : Told config s { s with phase := .machine } offer :=
    (engaged.phase .machine).waits trivial rfl
  obtain ⟨phase, life, copy, target, talk⟩ := engaged
  unfold TargetRun.reap
  split
  · split
    · exact again
    · refine .emits rfl ?_ ⟨rfl, .inl rfl⟩
      split at talk
      · exact talk.2.dies
      · exact talk.dies
  · exact again

/-- A round begins with nothing on offer. -/
theorem Coupled.beginRound (coupled : Coupled config s offer)
    (here : s.phase = .idle ∨ s.phase = .verifying) (now : Int) :
    Coupled config { s with
      phase := .fetching, timeStartedUSecs := now, tmOutSignaled := false, signals := [] } offer := by
  rcases here with here | here <;> rw [Coupled, here] at coupled
  · exact ⟨.inl coupled.1, coupled.2⟩
  · exact ⟨.inr ⟨_, _, coupled.1⟩, coupled.2⟩

theorem Coupled.verify (coupled : Coupled config s offer) (here : s.phase = .verifying)
    (left : s.iterations < config.verifierIter) (now : Int) :
    Told config s { s.note .verifying with
      phase := .launching, timeStartedUSecs := now, iterations := s.iterations + 1 } offer := by
  rw [Coupled, here] at coupled
  obtain ⟨rfl, resting⟩ := coupled
  exact .emits rfl (if_pos left) ⟨rfl, resting⟩

theorem Coupled.fetched (coupled : Coupled config s offer) (here : s.phase = .fetching) :
    Told config s { s.note (.fetched s.file) with phase := .launching, iterations := 0 } offer := by
  rw [Coupled, here] at coupled
  obtain ⟨rfl | ⟨input, iteration, rfl⟩, resting⟩ := coupled
  · exact .emits rfl rfl ⟨rfl, resting⟩
  · exact .emits rfl rfl ⟨rfl, resting⟩

theorem subprocNew_quiet (s : TargetRun) (copy : Option Bytes) :
    (s.subprocNew config copy).log = s.log ∧ (s.subprocNew config copy).phase = s.phase ∧
      (s.subprocNew config copy).signals = s.signals := by
  unfold subprocNew
  split
  · exact ⟨rfl, rfl, rfl⟩
  · dsimp only
    split <;> exact ⟨rfl, rfl, rfl⟩

theorem Coupled.stepThread {action : TargetAction} (coupled : Coupled config s offer)
    (editing : config.persistent = true → config.inPlaceEdit = false)
    (taken : s.step config action = some next) (own : action.ofTarget = false) :
    Told config s next offer := by
  cases action <;> simp only [TargetRun.step] at taken
  case beginRound now =>
    obtain ⟨here, taken⟩ := Option.ite_none_right_eq_some.mp taken
    cases taken
    exact .silent rfl (coupled.beginRound here now)
  case verify now =>
    obtain ⟨⟨here, left⟩, taken⟩ := Option.ite_none_right_eq_some.mp taken
    cases taken
    exact coupled.verify here left now
  case write file =>
    obtain ⟨here, taken⟩ := Option.ite_none_right_eq_some.mp taken
    cases taken
    refine .silent rfl ?_
    rw [Coupled, here] at coupled ⊢
    exact coupled
  case fetched =>
    obtain ⟨here, taken⟩ := Option.ite_none_right_eq_some.mp taken
    cases taken
    exact coupled.fetched here
  case launch copied =>
    obtain ⟨here, taken⟩ := Option.ite_none_right_eq_some.mp taken
    cases taken
    exact .silent (subprocNew_quiet s _).1 (coupled.launch here editing copied)
  case machine sent =>
    obtain ⟨here, taken⟩ := Option.ite_none_right_eq_some.mp taken
    cases taken
    exact coupled.machine here sent
  case check now terminating =>
    obtain ⟨here, taken⟩ := Option.ite_none_right_eq_some.mp taken
    cases taken
    have engaged := (coupled_iff_engaged (by rw [here]; trivial)).mp coupled
    exact (((engaged.checkTimeLimit now).checkTermination terminating).phase .sleeping).waits trivial
      (checks_quiet s now terminating).1
  case wait sigio =>
    obtain ⟨here, taken⟩ := Option.ite_none_right_eq_some.mp taken
    cases taken
    exact coupled.reap here sigio
  all_goals cases own

theorem Coupled.stepTarget {action : TargetAction} (coupled : Coupled config s offer)
    (taken : s.step config action = some next) (own : action.ofTarget = true) :
    Told config s next offer := by
  cases action <;> simp only [TargetRun.step] at taken
  case ready =>
    split at taken
    · next living =>
      obtain ⟨persistent, taken⟩ := Option.ite_none_right_eq_some.mp taken
      cases taken
      exact .silent rfl (coupled.ready (living_eq_some.mp living).1 persistent)
    · cases taken
  case receive =>
    split at taken
    · next living messages =>
      cases taken
      obtain ⟨starts, later⟩ := coupled.receive (living_eq_some.mp living).1 messages
      exact .emits rfl starts later
    · cases taken
  case begin =>
    split at taken
    · next living =>
      split at taken
      · cases taken
      · next single =>
        cases taken
        obtain ⟨starts, later⟩ :=
          coupled.begin (living_eq_some.mp living).1 (Bool.eq_false_iff.mpr single)
        exact .emits rfl starts later
    · cases taken
  case look =>
    split at taken
    · next living =>
      cases taken
      have target := (living_eq_some.mp living).1
      obtain ⟨_, edited, rfl, same⟩ := coupled.look target
      obtain ⟨reaps, engaged⟩ := coupled.running target
      refine .emits rfl (if_pos ?_) ((coupled_iff_engaged (by exact reaps)).mpr (engaged.note _))
      cases edited with
      | true => exact .inl rfl
      | false => exact .inr (same rfl)
    · cases taken
  case edit bytes =>
    split at taken
    · next living =>
      cases taken
      obtain ⟨edits, later⟩ := coupled.edit (living_eq_some.mp living).1
      exact .emits rfl edits later
    · next living =>
      obtain ⟨size, taken⟩ := Option.ite_none_right_eq_some.mp taken
      cases taken
      obtain ⟨writes, later⟩ := coupled.overwrite (living_eq_some.mp living).1 size
      exact .emits rfl writes later
    · cases taken
  case finish =>
    split at taken
    · next living =>
      cases taken
      obtain ⟨ends, later⟩ := coupled.finish (living_eq_some.mp living).1
      exact .emits rfl ends later
    · cases taken
  case die =>
    split at taken
    · next living =>
      cases taken
      exact .silent rfl (coupled.die (living_eq_some.mp living).1)
    · cases taken
  all_goals cases own

theorem Coupled.step {action : TargetAction} (coupled : Coupled config s offer)
    (editing : config.persistent = true → config.inPlaceEdit = false)
    (taken : s.step config action = some next) : Told config s next offer := by
  cases own : action.ofTarget with
  | true => exact coupled.stepTarget taken own
  | false => exact coupled.stepThread editing taken own

theorem exists_coupled {final : TargetRun} {actions : List TargetAction}
    (editing : config.persistent = true → config.inPlaceEdit = false)
    (reached : runFrom (TargetRun.step config) start actions = some final) :
    ∃ offer, runFrom (Offer.step config.verifierIter) .idle final.log = some offer ∧
      Coupled config final offer := by
  have coupled : Coupled config start .idle := ⟨rfl, .inl rfl⟩
  have steps : ∀ (s : TargetRun) (action : TargetAction) (next : TargetRun) (offer : Offer),
      Coupled config s offer → s.step config action = some next → Told config s next offer :=
    fun _ _ _ _ coupled taken => coupled.step editing taken
  obtain ⟨appended, moved, related⟩ := runFrom_explained steps coupled reached
  rw [show final.log = _ from appended]
  exact ⟨_, moved, related⟩

/-- In every run the log is one of rounds: an input is offered, and offered again
only by the verifier; in a round it is run at most once, is what was offered at
every look of the target until the target itself writes to it, and the round is
done only after the run of it has ended; a target that dies ends its round.  A
target that dies in a run leaves the input of this run in the file.  A persistent
target never sees the working copies of later rounds, so it may not be one that
edits in place. -/
theorem targetRun_refines {final : TargetRun} {actions : List TargetAction}
    (editing : config.persistent = true → config.inPlaceEdit = false)
    (reached : runFrom (TargetRun.step config) start actions = some final) :
    ∃ offer, runFrom (Offer.step config.verifierIter) .idle final.log = some offer ∧
      ∀ len life copy, final.target = some ⟨.running len, life, copy⟩ →
        len = final.file.length ∧ ∃ edited, offer = .running final.file final.iterations edited := by
  obtain ⟨offer, accepted, coupled⟩ := exists_coupled editing reached
  refine ⟨offer, accepted, fun len life copy target => ?_⟩
  obtain ⟨whole, edited, isRunning, _⟩ := coupled.look target
  exact ⟨whole, edited, isRunning⟩

end Rounds

/-- A target that edits in place dies of an input of two bytes, and dies of it again
when the verifier offers it. -/
theorem targetRun_refines_verified :
    ∃ final, runFrom (TargetRun.step ⟨false, 1, false, true, true⟩) start
        [.beginRound 0, .write [1, 2], .fetched, .launch true, .begin, .look, .edit [7], .look, .die,
          .machine true, .check 5 false, .wait false, .verify 20, .launch true, .machine true, .begin,
          .look, .die] = some final ∧
      ∃ offer, runFrom (Offer.step hfVerifierIter) .idle final.log = some offer ∧
        ∀ len life copy, final.target = some ⟨.running len, life, copy⟩ →
          len = final.file.length ∧ ∃ edited, offer = .running final.file final.iterations edited :=
  ⟨_, rfl, @targetRun_refines ⟨false, 1, false, true, true⟩ _
    [.beginRound 0, .write [1, 2], .fetched, .launch true, .begin, .look, .edit [7], .look, .die,
      .machine true, .check 5 false, .wait false, .verify 20, .launch true, .machine true, .begin,
      .look, .die] (by rintro ⟨⟩) rfl⟩

/-! ## Rounds can be done -/

section Progress

variable {config : TargetConfig} {s next : TargetRun} {offer : Offer} {now : Int}

/-- The round can be done while the clock shows `now`: nobody dies and nobody is
sent a signal. -/
def CanFinish (config : TargetConfig) (now : Int) (s : TargetRun) : Prop :=
  ∃ actions, .die ∉ actions ∧
    (∀ clock terminating, .check clock terminating ∈ actions → clock = now ∧ terminating = false) ∧
    ∃ final, runFrom (TargetRun.step config) s actions = some final ∧
      final.phase = .verifying ∧ final.log.getLast? = some .done ∧ final.signals = s.signals

theorem CanFinish.after (action : TargetAction) (taken : s.step config action = some next)
    (lives : action ≠ .die)
    (inTime : ∀ clock terminating, action = .check clock terminating → clock = now ∧ terminating = false)
    (unsent : next.signals = s.signals) (can : CanFinish config now next) : CanFinish config now s := by
  obtain ⟨actions, alive, timely, final, reached, ended, done, quiet⟩ := can
  refine ⟨action :: actions, ?_, ?_, final, runFrom_cons_eq_some.mpr ⟨next, taken, reached⟩, ended,
    done, quiet.trans unsent⟩
  · rw [List.mem_cons]
    rintro (dies | later)
    · exact lives dies.symm
    · exact alive later
  · intro clock terminating checks
    rcases List.mem_cons.mp checks with first | later
    · exact inTime clock terminating first.symm
    · exact timely clock terminating later

/-- The thread is at its state machine, and this is what the two have said. -/
structure Talking (s : TargetRun) (runState : RunState) (phase : TargetPhase) (toFuzzer : Bytes)
    (toTarget : List Nat) : Prop where
  machine : s.phase = .machine
  target : s.target = some ⟨phase, .alive, none⟩
  runState : s.runState = runState
  toFuzzer : s.toFuzzer = toFuzzer
  toTarget : s.toTarget = toTarget

theorem living_of_alive {phase : TargetPhase} {copy : Option Bytes}
    (target : s.target = some ⟨phase, .alive, copy⟩) : s.living = some ⟨phase, .alive, copy⟩ :=
  living_eq_some.mpr ⟨target, by rintro ⟨⟩⟩

section Steps

variable {runState : RunState} {toFuzzer : Bytes} {toTarget : List Nat}

theorem persistentModeStateMachine_greet (persistent : config.persistent = true) (sent : Bool)
    (runState : s.runState = .waitingForInitialReady) {rest : Bytes}
    (messages : s.toFuzzer = hfReadyTag :: rest) :
    s.persistentModeStateMachine config sent =
      { s with toFuzzer := rest, runState := .sendData } := by
  simp [persistentModeStateMachine, persistent, runState, persistentGetReady_tag messages]

theorem persistentModeStateMachine_send (persistent : config.persistent = true)
    (runState : s.runState = .sendData) :
    s.persistentModeStateMachine config true =
      { s with toTarget := s.toTarget ++ [s.file.length], runState := .waitingForReady } := by
  simp [persistentModeStateMachine, persistent, runState, persistentSendFileIndicator]

theorem persistentModeStateMachine_answer (persistent : config.persistent = true) (sent : Bool)
    (runState : s.runState = .waitingForReady) {rest : Bytes}
    (messages : s.toFuzzer = hfReadyTag :: rest) :
    s.persistentModeStateMachine config sent =
      { s.note .done with toFuzzer := rest, runState := .sendData, phase := .verifying } := by
  simp [persistentModeStateMachine, persistent, runState, persistentGetReady_tag messages, note]

theorem canFinish_answered (persistent : config.persistent = true)
    (talking : Talking s .waitingForReady .reading [hfReadyTag] []) : CanFinish config now s := by
  refine .after (.machine true) (if_pos talking.machine) (by rintro ⟨⟩) (by rintro _ _ ⟨⟩) ?_ ?_
  · rw [persistentModeStateMachine_answer persistent true talking.runState talking.toFuzzer]
    rfl
  · rw [persistentModeStateMachine_answer persistent true talking.runState talking.toFuzzer]
    exact ⟨[], List.not_mem_nil, by rintro _ _ ⟨⟩, _, rfl, rfl, List.getLast?_concat .., rfl⟩

theorem Talking.ready (persistent : config.persistent = true)
    (talking : Talking s runState .asking toFuzzer toTarget)
    (later : ∀ {s : TargetRun}, Talking s runState .reading (toFuzzer ++ [hfReadyTag]) toTarget →
      CanFinish config now s) : CanFinish config now s := by
  have taken : s.step config .ready = some { s with
      target := some ⟨.reading, .alive, none⟩, toFuzzer := s.toFuzzer ++ [hfReadyTag] } := by
    rw [TargetRun.step, living_of_alive talking.target]
    exact if_pos persistent
  refine .after .ready taken (by rintro ⟨⟩) (by rintro _ _ ⟨⟩) rfl (later ?_)
  exact ⟨talking.machine, rfl, talking.runState, by rw [talking.toFuzzer], talking.toTarget⟩

theorem canFinish_finished (persistent : config.persistent = true)
    (talking : Talking s .waitingForReady .asking [] []) : CanFinish config now s :=
  talking.ready persistent fun later => canFinish_answered persistent later

theorem canFinish_running (persistent : config.persistent = true) (len : Nat)
    (talking : Talking s .waitingForReady (.running len) [] []) : CanFinish config now s := by
  have taken : s.step config .finish = some { s.note .finished with
      target := some ⟨if config.persistent then .asking else .ended, .alive, none⟩ } := by
    rw [TargetRun.step, living_of_alive talking.target]
  refine .after .finish taken (by rintro ⟨⟩) (by rintro _ _ ⟨⟩) rfl (canFinish_finished persistent ?_)
  refine ⟨talking.machine, ?_, talking.runState, talking.toFuzzer, talking.toTarget⟩
  rw [if_pos persistent]

theorem canFinish_sent (persistent : config.persistent = true) (len : Nat)
    (talking : Talking s .waitingForReady .reading [] [len]) : CanFinish config now s := by
  have taken : s.step config .receive = some { s.note (.started len) with
      target := some ⟨.running len, .alive, none⟩, toTarget := [] } := by
    rw [TargetRun.step, living_of_alive talking.target, talking.toTarget]
  refine .after .receive taken (by rintro ⟨⟩) (by rintro _ _ ⟨⟩) rfl
    (canFinish_running persistent len ?_)
  exact ⟨talking.machine, rfl, talking.runState, talking.toFuzzer, rfl⟩

theorem canFinish_agreed (persistent : config.persistent = true)
    (talking : Talking s .sendData .reading [] []) : CanFinish config now s := by
  have taken : s.step config (.machine true) = some
      { s with toTarget := s.toTarget ++ [s.file.length], runState := .waitingForReady } := by
    rw [TargetRun.step, if_pos talking.machine,
      persistentModeStateMachine_send persistent talking.runState]
  refine .after (.machine true) taken (by rintro ⟨⟩) (by rintro _ _ ⟨⟩) rfl
    (canFinish_sent persistent s.file.length ?_)
  exact ⟨talking.machine, talking.target, rfl, talking.toFuzzer,
    congrArg (· ++ [s.file.length]) talking.toTarget⟩

theorem canFinish_greeted (persistent : config.persistent = true)
    (talking : Talking s .waitingForInitialReady .reading [hfReadyTag] []) :
    CanFinish config now s := by
  have taken : s.step config (.machine true) = some
      { s with toFuzzer := [], runState := .sendData } := by
    rw [TargetRun.step, if_pos talking.machine,
      persistentModeStateMachine_greet persistent true talking.runState talking.toFuzzer]
  refine .after (.machine true) taken (by rintro ⟨⟩) (by rintro _ _ ⟨⟩) rfl
    (canFinish_agreed persistent ?_)
  exact ⟨talking.machine, talking.target, rfl, rfl, talking.toTarget⟩

theorem canFinish_booting (persistent : config.persistent = true)
    (talking : Talking s .waitingForInitialReady .asking [] []) : CanFinish config now s :=
  talking.ready persistent fun later => canFinish_greeted persistent later

theorem canFinish_machine (persistent : config.persistent = true) (here : s.phase = .machine)
    (engaged : Engaged config s offer)
    (lives : ∀ target, s.target = some target → target.life = .alive) : CanFinish config now s := by
  obtain ⟨phase, life, copy, target, _⟩ := id engaged
  obtain ⟨rfl, talk⟩ := engaged.persists target persistent
  obtain rfl : life = .alive := lives _ target
  have talking : Talking s s.runState phase s.toFuzzer s.toTarget := ⟨here, target, rfl, rfl, rfl⟩
  generalize s.runState = runState, s.toFuzzer = toFuzzer, s.toTarget = toTarget at talk talking
  cases talk with
  | booting => exact canFinish_booting persistent talking
  | greeted => exact canFinish_greeted persistent talking
  | agreed => exact canFinish_agreed persistent talking
  | sent => exact canFinish_sent persistent _ talking
  | running => exact canFinish_running persistent _ talking
  | finished => exact canFinish_finished persistent talking
  | answered => exact canFinish_answered persistent talking

end Steps

theorem canFinish_sleeping (persistent : config.persistent = true) (here : s.phase = .sleeping)
    (engaged : Engaged config s offer)
    (lives : ∀ target, s.target = some target → target.life = .alive) : CanFinish config now s := by
  obtain ⟨phase, life, copy, target, _⟩ := id engaged
  obtain rfl : life = .alive := lives _ target
  have taken : s.step config (.wait true) = some { s with phase := .machine } := by
    rw [TargetRun.step, if_pos here, reap, target]
  exact .after (.wait true) taken (by rintro ⟨⟩) (by rintro _ _ ⟨⟩) rfl
    (canFinish_machine persistent rfl (engaged.phase .machine) lives)

theorem checkTimeLimit_inTime
    (inTime : config.tmOut = 0 ∨ now - s.timeStartedUSecs ≤ config.tmOut * 1000000) :
    s.checkTimeLimit config now = s := by
  unfold checkTimeLimit
  dsimp only
  rcases inTime with unlimited | inTime
  · rw [if_pos unlimited]
  · split
    · rfl
    · rw [if_neg (by omega), if_neg (by omega)]

theorem canFinish_checking (persistent : config.persistent = true) (here : s.phase = .checking)
    (engaged : Engaged config s offer)
    (lives : ∀ target, s.target = some target → target.life = .alive)
    (inTime : config.tmOut = 0 ∨ now - s.timeStartedUSecs ≤ config.tmOut * 1000000) :
    CanFinish config now s := by
  have taken : s.step config (.check now false) = some { s with phase := .sleeping } := by
    rw [TargetRun.step, if_pos here, checkTimeLimit_inTime inTime]
    rfl
  refine .after (.check now false) taken (by rintro ⟨⟩) ?_ rfl
    (canFinish_sleeping persistent rfl (engaged.phase .sleeping) lives)
  rintro clock terminating ⟨⟩
  exact ⟨rfl, rfl⟩

theorem alive_subprocNew (copy : Option Bytes)
    (lives : ∀ target, s.target = some target → target.life = .alive) :
    ∀ target, (s.subprocNew config copy).target = some target → target.life = .alive := by
  unfold subprocNew
  split
  · exact lives
  · dsimp only
    split <;> (rintro target ⟨⟩; rfl)

/-- Nothing that the thread and a persistent target have done can keep a round
from being done in time, without a death and without a signal, as long as the
target lives and was not sent one. -/
theorem targetRun_canFinish {final : TargetRun} {actions : List TargetAction} (now : Int)
    (persistent : config.persistent = true) (unedited : config.inPlaceEdit = false)
    (reached : runFrom (TargetRun.step config) start actions = some final)
    (offered : final.phase = .launching ∨ final.phase.Reaps)
    (lives : ∀ target, final.target = some target → target.life = .alive)
    (inTime : config.tmOut = 0 ∨ now - final.timeStartedUSecs ≤ config.tmOut * 1000000) :
    ∃ more, .die ∉ more ∧
      (∀ clock terminating, .check clock terminating ∈ more → clock = now ∧ terminating = false) ∧
      ∃ later, runFrom (TargetRun.step config) final more = some later ∧
        later.phase = .verifying ∧ later.log.getLast? = some .done ∧
        later.signals = final.signals := by
  obtain ⟨offer, _, coupled⟩ := exists_coupled (fun _ => unedited) reached
  rcases offered with here | reaps
  · have launched := coupled.launch here (fun _ => unedited) false
    have engaged := (coupled_iff_engaged (by exact trivial)).mp launched
    exact CanFinish.after (.launch false) (if_pos here) (by rintro ⟨⟩) (by rintro _ _ ⟨⟩)
      (subprocNew_quiet final _).2.2 (canFinish_machine persistent rfl engaged (alive_subprocNew _ lives))
  · have engaged := (coupled_iff_engaged reaps).mp coupled
    cases here : final.phase with
    | machine => exact canFinish_machine persistent here engaged lives
    | checking => exact canFinish_checking persistent here engaged lives inTime
    | sleeping => exact canFinish_sleeping persistent here engaged lives
    | idle | fetching | launching | verifying =>
        rw [here] at reaps
        cases reaps

end Progress

/-- The target is in the run of an input, with half a second left. -/
theorem targetRun_canFinish_early :
    ∃ final, runFrom (TargetRun.step ⟨true, 1, true, false, false⟩) start
        [.beginRound 0, .write [1, 2], .fetched, .launch true, .ready, .machine true, .machine true,
          .receive, .machine true] = some final ∧
      ∃ more, .die ∉ more ∧
        (∀ clock terminating, .check clock terminating ∈ more →
          clock = 500000 ∧ terminating = false) ∧
        ∃ later, runFrom (TargetRun.step ⟨true, 1, true, false, false⟩) final more = some later ∧
          later.phase = .verifying ∧ later.log.getLast? = some .done ∧
          later.signals = final.signals :=
  ⟨_, rfl, @targetRun_canFinish ⟨true, 1, true, false, false⟩ _
    [.beginRound 0, .write [1, 2], .fetched, .launch true, .ready, .machine true, .machine true,
      .receive, .machine true] 500000 rfl rfl rfl (.inr trivial)
    (by rintro _ ⟨⟩; rfl) (.inr (by decide))⟩

/-! ## The time limit -/

section Limit

variable {config : TargetConfig} {s next : TargetRun}

def offers (log : List RoundEvent) : Nat :=
  log.countP fun event => match event with
    | .fetched _ => true
    | _ => false

/-- What the time limit has done: a timeout is counted once for the input on offer. -/
structure Limited (config : TargetConfig) (s : TargetRun) : Prop where
  counted : s.timeoutedCnt ≤ offers s.log
  pending : s.phase.Offers → s.tmOutSignaled = false → s.timeoutedCnt < offers s.log
  quiet : s.phase = .fetching → s.tmOutSignaled = false
  once : s.signals.count .sigvtalrm ≤ if s.tmOutSignaled then 1 else 0
  unlimited : config.tmOut = 0 → s.timeoutedCnt = 0 ∧ s.signals.count .sigvtalrm = 0

theorem Limited.congr (limited : Limited config s)
    (phase : next.phase = s.phase ∨ (s.phase.Offers ∧ next.phase.Offers))
    (timeoutedCnt : next.timeoutedCnt = s.timeoutedCnt)
    (tmOutSignaled : next.tmOutSignaled = s.tmOutSignaled)
    (signals : next.signals.count .sigvtalrm = s.signals.count .sigvtalrm)
    (log : offers next.log = offers s.log) : Limited config next := by
  refine ⟨?_, ?_, ?_, ?_, ?_⟩
  · rw [timeoutedCnt, log]
    exact limited.counted
  · rw [timeoutedCnt, tmOutSignaled, log]
    intro later
    rcases phase with same | ⟨before, _⟩
    · exact limited.pending (same ▸ later)
    · exact limited.pending before
  · rw [tmOutSignaled]
    intro early
    rcases phase with same | ⟨_, later⟩
    · exact limited.quiet (same ▸ early)
    · rw [early] at later
      cases later
  · rw [signals, tmOutSignaled]
    exact limited.once
  · rw [timeoutedCnt, signals]
    exact limited.unlimited

theorem offers_append (log : List RoundEvent) (event : RoundEvent)
    (other : ∀ input, event ≠ .fetched input) : offers (log ++ [event]) = offers log := by
  cases event with
  | fetched input => exact absurd rfl (other input)
  | started | looked | edited | overwritten | finished | done | died | verifying => simp [offers]

theorem Limited.note (limited : Limited config s) {event : RoundEvent}
    (other : ∀ input, event ≠ .fetched input) (phase : next.phase = s.phase)
    (timeoutedCnt : next.timeoutedCnt = s.timeoutedCnt)
    (tmOutSignaled : next.tmOutSignaled = s.tmOutSignaled) (signals : next.signals = s.signals)
    (appended : next.log = s.log ++ [event]) : Limited config next :=
  limited.congr (.inl phase) timeoutedCnt tmOutSignaled (by rw [signals])
    (by rw [appended, offers_append _ _ other])

theorem Limited.phase (limited : Limited config s) (before : s.phase.Offers) {phase : LoopPhase}
    (after : phase.Offers) : Limited config { s with phase } :=
  limited.congr (.inr ⟨before, after⟩) rfl rfl rfl rfl

theorem Limited.kill (limited : Limited config s) : Limited config (s.kill .sigkill) := by
  refine limited.congr (.inl rfl) rfl rfl ?_ rfl
  change (s.signals ++ [Signal.sigkill]).count Signal.sigvtalrm = _
  simp

/-- The one timeout of an input, whatever it is signaled with. -/
theorem Limited.timeout (limited : Limited config s) (here : s.phase = .checking)
    (hasLimit : config.tmOut ≠ 0) (signaled : s.tmOutSignaled = false) (signal : Signal) :
    Limited config
      (TargetRun.kill { s with tmOutSignaled := true, timeoutedCnt := s.timeoutedCnt + 1 } signal) := by
  have unsent : s.signals.count .sigvtalrm = 0 := by
    have once := limited.once
    rw [signaled] at once
    exact Nat.le_zero.mp once
  have room : s.timeoutedCnt < offers s.log := limited.pending (by rw [here]; trivial) signaled
  refine ⟨room, fun _ => by rintro ⟨⟩, ?_, ?_, fun unlimited => absurd unlimited hasLimit⟩
  · intro early
    cases here.symm.trans early
  · change (s.signals ++ [signal]).count Signal.sigvtalrm ≤ 1
    rw [List.count_append, unsent, Nat.zero_add]
    exact List.count_le_length

theorem Limited.checkTimeLimit (limited : Limited config s) (here : s.phase = .checking) (now : Int) :
    Limited config (s.checkTimeLimit config now) := by
  unfold TargetRun.checkTimeLimit
  dsimp only
  split
  · exact limited
  · next hasLimit =>
    split
    · exact limited.kill
    · split
      · next late =>
        have signaled : s.tmOutSignaled = false := by simpa using late.2
        split
        · exact limited.timeout here hasLimit signaled .sigvtalrm
        · exact limited.timeout here hasLimit signaled .sigkill
      · exact limited

theorem Limited.checkTermination (limited : Limited config s) (terminating : Bool) :
    Limited config (s.checkTermination terminating) := by
  unfold TargetRun.checkTermination
  split
  · exact limited.kill
  · exact limited

theorem persistentGetReady_cases (s : TargetRun) :
    ∃ got toFuzzer, s.persistentGetReady = (got, { s with toFuzzer }) := by
  unfold persistentGetReady
  split
  · exact ⟨false, s.toFuzzer, rfl⟩
  · exact ⟨_, _, rfl⟩

theorem Limited.machine (limited : Limited config s) (here : s.phase = .machine) (sent : Bool) :
    Limited config (s.persistentModeStateMachine config sent) := by
  have before : s.phase.Offers := by
    rw [here]
    trivial
  obtain ⟨got, toFuzzer, answer⟩ := s.persistentGetReady_cases
  unfold persistentModeStateMachine
  split
  · exact limited.phase before trivial
  · split
    · rw [answer]
      cases got with
      | false => exact limited.congr (.inr ⟨before, trivial⟩) rfl rfl rfl rfl
      | true => exact limited.congr (.inl rfl) rfl rfl rfl rfl
    · unfold persistentSendFileIndicator
      cases sent with
      | false => exact limited.kill.phase before trivial
      | true => exact limited.congr (.inl rfl) rfl rfl rfl rfl
    · rw [answer]
      cases got with
      | false => exact limited.congr (.inr ⟨before, trivial⟩) rfl rfl rfl rfl
      | true =>
          exact limited.congr (.inr ⟨before, trivial⟩) rfl rfl rfl
            (offers_append _ _ (by rintro _ ⟨⟩))

theorem Limited.reap (limited : Limited config s) (here : s.phase = .sleeping) (sigio : Bool) :
    Limited config (s.reap sigio) := by
  have before : s.phase.Offers := by
    rw [here]
    trivial
  unfold TargetRun.reap
  split
  · split
    · exact limited.phase before trivial
    · exact limited.congr (.inr ⟨before, trivial⟩) rfl rfl rfl (offers_append _ _ (by rintro _ ⟨⟩))
  · exact limited.phase before trivial

theorem Limited.fetched (limited : Limited config s) (here : s.phase = .fetching) :
    Limited config { s.note (.fetched s.file) with phase := .launching, iterations := 0 } := by
  have grown : offers (s.log ++ [.fetched s.file]) = offers s.log + 1 := by simp [offers]
  refine ⟨?_, fun _ _ => ?_, fun _ => limited.quiet here, limited.once, limited.unlimited⟩
  · exact Nat.le_trans limited.counted (grown ▸ Nat.le_succ _)
  · exact Nat.lt_of_le_of_lt limited.counted (grown ▸ Nat.lt_succ_self _)

theorem Limited.subprocNew (limited : Limited config s) (copy : Option Bytes) :
    Limited config (s.subprocNew config copy) := by
  unfold TargetRun.subprocNew
  split
  · exact limited
  · dsimp only
    split <;> exact limited.congr (.inl rfl) rfl rfl rfl rfl

theorem Limited.stepThread {action : TargetAction} (limited : Limited config s)
    (taken : s.step config action = some next) (own : action.ofTarget = false) :
    Limited config next := by
  cases action <;> simp only [TargetRun.step] at taken
  case beginRound now =>
    obtain ⟨here, taken⟩ := Option.ite_none_right_eq_some.mp taken
    cases taken
    exact ⟨limited.counted, by rintro ⟨⟩, fun _ => rfl, Nat.le_refl 0,
      fun unlimited => ⟨(limited.unlimited unlimited).1, rfl⟩⟩
  case verify now =>
    obtain ⟨⟨here, _⟩, taken⟩ := Option.ite_none_right_eq_some.mp taken
    cases taken
    exact limited.congr (.inr ⟨by rw [here]; trivial, trivial⟩) rfl rfl rfl
      (offers_append _ _ (by rintro _ ⟨⟩))
  case write file =>
    obtain ⟨here, taken⟩ := Option.ite_none_right_eq_some.mp taken
    cases taken
    exact limited.congr (.inl rfl) rfl rfl rfl rfl
  case fetched =>
    obtain ⟨here, taken⟩ := Option.ite_none_right_eq_some.mp taken
    cases taken
    exact limited.fetched here
  case launch copied =>
    obtain ⟨here, taken⟩ := Option.ite_none_right_eq_some.mp taken
    cases taken
    refine (limited.subprocNew _).phase ?_ trivial
    rw [(subprocNew_quiet s _).2.1, here]
    trivial
  case machine sent =>
    obtain ⟨here, taken⟩ := Option.ite_none_right_eq_some.mp taken
    cases taken
    exact limited.machine here sent
  case check now terminating =>
    obtain ⟨here, taken⟩ := Option.ite_none_right_eq_some.mp taken
    cases taken
    refine ((limited.checkTimeLimit here now).checkTermination terminating).phase ?_ trivial
    rw [(checks_quiet s now terminating).2, here]
    trivial
  case wait sigio =>
    obtain ⟨here, taken⟩ := Option.ite_none_right_eq_some.mp taken
    cases taken
    exact limited.reap here sigio
  all_goals cases own

theorem Limited.stepTarget {action : TargetAction} (limited : Limited config s)
    (taken : s.step config action = some next) (own : action.ofTarget = true) :
    Limited config next := by
  cases action <;> simp only [TargetRun.step] at taken
  case ready =>
    split at taken
    · obtain ⟨_, taken⟩ := Option.ite_none_right_eq_some.mp taken
      cases taken
      exact limited.congr (.inl rfl) rfl rfl rfl rfl
    · cases taken
  case receive =>
    split at taken
    · cases taken
      exact limited.note (by rintro _ ⟨⟩) rfl rfl rfl rfl rfl
    · cases taken
  case begin =>
    split at taken
    · split at taken
      · cases taken
      · cases taken
        exact limited.note (by rintro _ ⟨⟩) rfl rfl rfl rfl rfl
    · cases taken
  case look =>
    split at taken
    · cases taken
      exact limited.note (by rintro _ ⟨⟩) rfl rfl rfl rfl rfl
    · cases taken
  case edit bytes =>
    split at taken
    · cases taken
      exact limited.note (by rintro _ ⟨⟩) rfl rfl rfl rfl rfl
    · obtain ⟨_, taken⟩ := Option.ite_none_right_eq_some.mp taken
      cases taken
      exact limited.note (by rintro _ ⟨⟩) rfl rfl rfl rfl rfl
    · cases taken
  case finish =>
    split at taken
    · cases taken
      exact limited.note (by rintro _ ⟨⟩) rfl rfl rfl rfl rfl
    · cases taken
  case die =>
    split at taken
    · cases taken
      exact limited.congr (.inl rfl) rfl rfl rfl rfl
    · cases taken
  all_goals cases own

theorem Limited.step {action : TargetAction} (limited : Limited config s)
    (taken : s.step config action = some next) : Limited config next := by
  cases own : action.ofTarget with
  | true => exact limited.stepTarget taken own
  | false => exact limited.stepThread taken own

/-- Over all rounds no more timeouts are counted than inputs were offered, in one
round the target gets `SIGVTALRM` at most once, and without a limit never. -/
theorem timeouts_limited {final : TargetRun} {actions : List TargetAction}
    (reached : runFrom (TargetRun.step config) start actions = some final) :
    final.timeoutedCnt ≤ offers final.log ∧ final.signals.count .sigvtalrm ≤ 1 ∧
      (config.tmOut = 0 → final.timeoutedCnt = 0 ∧ final.signals.count .sigvtalrm = 0) := by
  have limited : Limited config start :=
    ⟨Nat.le_refl 0, by rintro ⟨⟩, fun _ => rfl, Nat.le_refl 0, fun _ => ⟨rfl, rfl⟩⟩
  have kept := runFrom_invariant (fun _ _ _ limited taken => Limited.step limited taken) limited reached
  refine ⟨kept.counted, Nat.le_trans kept.once ?_, kept.unlimited⟩
  split
  · exact Nat.le_refl 1
  · exact Nat.zero_le 1

end Limit

/-- A target that runs into the limit of a second, twice. -/
theorem timeouts_limited_late :
    ∃ final, runFrom (TargetRun.step ⟨false, 1, true, false, false⟩) start
        [.beginRound 0, .fetched, .launch true, .machine true, .check 1000001 false, .wait false,
          .machine true, .check 2000001 false] = some final ∧
      final.timeoutedCnt ≤ offers final.log ∧ final.signals.count .sigvtalrm ≤ 1 ∧
      ((1 : Int) = 0 → final.timeoutedCnt = 0 ∧ final.signals.count .sigvtalrm = 0) :=
  ⟨_, rfl, @timeouts_limited ⟨false, 1, true, false, false⟩ _
    [.beginRound 0, .fetched, .launch true, .machine true, .check 1000001 false, .wait false,
      .machine true, .check 2000001 false] rfl⟩

end TargetRun

end GraphDissect.Fuzzing
