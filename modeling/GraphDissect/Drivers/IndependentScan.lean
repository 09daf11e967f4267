import GraphDissect.Drivers.InputQueue

/-!
# When the independent queue gives up

The loop of `input_prepareDynamicInput` with all its ends.  With the independent
queue it counts the inputs of other drivers that it passes, over several rounds
of the queue, and gives up when they are as many as inputs were ever queued.  An
own input that loses the lottery does not reset the count.
-/

namespace GraphDissect.Drivers

open Library

section SkipFactor

/-- What `input_skipFactor` reads of an input. -/
structure InputMeasure where
  timedout : Bool
  timeExecUSecs : Nat
  cov0 : Nat
  mainPhase : Bool
  idx : Nat
  refs : Nat
  size : Nat

/-- What `input_skipFactor` reads of the fuzzer. -/
structure FuzzerMeasure where
  avgUSecsPerInput : Nat
  maxCov0 : Nat
  dynfileqCnt : Nat

def hfCap (v x y : Int) : Int := max x (min y v)

def inputSpeedFactor (fuzzer : FuzzerMeasure) (input : InputMeasure) : Int :=
  let avg := max 1 (min 1000000 fuzzer.avgUSecsPerInput)
  let sample := max 1 (min 1000000 input.timeExecUSecs)
  if avg ≤ sample then (sample / avg : Nat) else -(avg / sample : Nat)

def coverageScale (percentile : Nat) : Int :=
  if 95 ≤ percentile then -10
  else if 80 ≤ percentile then -2
  else if 50 ≤ percentile then 0
  else if 11 ≤ percentile then 1
  else 2

def ageScale (percentile : Nat) : Int :=
  if 98 ≤ percentile then -20
  else if 91 ≤ percentile then -2
  else if 81 ≤ percentile then -1
  else if 71 ≤ percentile then 0
  else if 41 ≤ percentile then 1
  else 2

def inputSkipFactor (fuzzer : FuzzerMeasure) (input : InputMeasure) : Int :=
  (if input.timedout then 50 else 0) - hfCap (inputSpeedFactor fuzzer input) (-10) 10 +
    (if fuzzer.maxCov0 ≠ 0 then coverageScale (input.cov0 * 100 / fuzzer.maxCov0) else 0) +
    (if input.mainPhase then ageScale (input.idx * 100 / fuzzer.dynfileqCnt) else 0) +
    hfCap (2 - input.refs) (-10) 2 +
    (if 0 < input.size then hfCap (Nat.log2 input.size - 10) (-5) 5 else 0)

end SkipFactor

/-- How `input_prepareDynamicInput` ends; `looping` when the lots are used up. -/
inductive Prepared where
  | handedOut (file : Dynfile) (triesLeft : Nat) (queue : DynfileQueue)
  | noInput
  | emptyCorpus
  | nullPointer
  | looping

namespace DynfileQueue

/-- The loop of `input_prepareDynamicInput` once no tries are left. -/
def selectFrom (independent : Bool) (active : Option Nat) (count : Nat) :
    Nat → DynfileQueue → List Lot → Prepared
  | _, _, [] => .looping
  | scans, queue, lot :: lots =>
      match queue.next with
      | none => .nullPointer
      | some (file, queue) =>
          if independent ∧ ∃ driverId ∈ active, file.driverId ≠ driverId then
            if count ≤ scans + 1 then .noInput
            else selectFrom independent active count (scans + 1) queue lots
          else if file.imported then .handedOut file 0 queue
          else if lot.skipFactor ≤ 0 then .handedOut file (-lot.skipFactor).toNat queue
          else if lot.rnd.toNat % lot.skipFactor.toNat = 0 then .handedOut file 0 queue
          else selectFrom independent active count scans queue lots

/-- The queue in the order in which the cursor goes around. -/
def cycle (queue : DynfileQueue) : List Dynfile := queue.rest ++ queue.before

/-- The inputs of other drivers between the cursor and the first imported input
of the driver. -/
def foreignAhead (queue : DynfileQueue) (driverId : Nat) : Nat :=
  (queue.cycle.takeWhile fun file => !(file.driverId = driverId && file.imported)).countP
    (·.driverId ≠ driverId)

end DynfileQueue

namespace QueueState

/-- `input_prepareDynamicInput` up to the end of its loop. -/
def prepare (s : QueueState) (lots : List Lot) : Prepared :=
  if s.seeds.dynfileqCnt = 0 then .emptyCorpus
  else if s.triesLeft ≠ 0 then
    match s.current with
    | some file => .handedOut file (s.triesLeft - 1) s.seeds.queue
    | none => .nullPointer
  else s.seeds.queue.selectFrom s.independentQueue s.seeds.active s.seeds.dynfileqCnt 0 lots

end QueueState

section Outcomes

variable {queue moved : DynfileQueue} {file : Dynfile} {lots : List Lot}

/-- The inputs that are handed out are those of `select`. -/
theorem selectFrom_eq_handedOut_iff {independent : Bool} {active : Option Nat}
    {count scans tries : Nat} :
    queue.selectFrom independent active count scans lots = .handedOut file tries moved ↔
      queue.select independent active count scans lots = some (file, tries, moved) := by
  induction lots generalizing queue scans with
  | nil => simp [DynfileQueue.selectFrom, DynfileQueue.select]
  | cons lot lots inductionHypothesis =>
      rw [DynfileQueue.selectFrom, DynfileQueue.select]
      cases queue.next with
      | none => simp
      | some found =>
          dsimp only
          split
          · split
            · simp
            · exact inductionHypothesis
          · split
            · simp
            · split
              · simp
              · split
                · simp
                · exact inductionHypothesis

theorem prepare_eq_handedOut_iff {s : QueueState} {tries : Nat} (counted : s.seeds.dynfileqCnt ≠ 0) :
    s.prepare lots = .handedOut file tries moved ↔
      s.selectInput lots = some (file, tries, moved) := by
  rw [QueueState.prepare, QueueState.selectInput, if_neg counted]
  split
  · cases s.current <;> simp
  · exact selectFrom_eq_handedOut_iff

/-- The cursor takes the first element of the cycle and leaves it behind the last. -/
theorem next_of_cycle {behind : List Dynfile} (cycle : queue.cycle = file :: behind) :
    ∃ moved, queue.next = some (file, moved) ∧ moved.cycle = behind ++ [file] := by
  rcases queue with ⟨before, rest⟩
  cases rest with
  | cons other rest =>
      obtain ⟨rfl, rfl⟩ := List.cons.inj cycle
      exact ⟨_, rfl, by simp [DynfileQueue.cycle]⟩
  | nil =>
      cases before with
      | nil => cases cycle
      | cons other before =>
          obtain ⟨rfl, rfl⟩ := List.cons.inj cycle
          exact ⟨_, rfl, rfl⟩

end Outcomes

section Rounds

variable {queue : DynfileQueue} {driverId count scans : Nat} {file : Dynfile}
  {before behind : List Dynfile} {lots : List Lot}

theorem selectFrom_foreign (cycle : queue.cycle = file :: behind)
    (foreign : file.driverId ≠ driverId) (count scans : Nat) :
    ∃ moved : DynfileQueue, moved.cycle = behind ++ [file] ∧ ∀ lot lots,
      queue.selectFrom true (some driverId) count scans (lot :: lots) =
        if count ≤ scans + 1 then .noInput
        else moved.selectFrom true (some driverId) count (scans + 1) lots := by
  rcases next_of_cycle cycle with ⟨moved, found, rotated⟩
  refine ⟨moved, rotated, fun lot lots => ?_⟩
  rw [DynfileQueue.selectFrom, found]
  simp [foreign]

theorem selectFrom_own (cycle : queue.cycle = file :: behind) (own : file.driverId = driverId)
    (count scans : Nat) (lot : Lot) (lots : List Lot) :
    ∃ moved : DynfileQueue, moved.cycle = behind ++ [file] ∧
      ((∃ tries, queue.selectFrom true (some driverId) count scans (lot :: lots) =
          .handedOut file tries moved) ∨
        file.imported = false ∧
          queue.selectFrom true (some driverId) count scans (lot :: lots) =
            moved.selectFrom true (some driverId) count scans lots) := by
  rcases next_of_cycle cycle with ⟨moved, found, rotated⟩
  refine ⟨moved, rotated, ?_⟩
  have passes : ¬ (true = true ∧ ∃ other ∈ some driverId, file.driverId ≠ other) := by simp [own]
  rw [DynfileQueue.selectFrom, found]
  dsimp only
  rw [if_neg passes]
  split
  · exact .inl ⟨_, rfl⟩
  · next measured =>
    split
    · exact .inl ⟨_, rfl⟩
    · split
      · exact .inl ⟨_, rfl⟩
      · exact .inr ⟨by simpa using measured, rfl⟩

theorem selectFrom_ne_noInput_of_own (own : ∀ file ∈ queue.cycle, file.driverId = driverId) :
    queue.selectFrom true (some driverId) count scans lots ≠ .noInput := by
  induction lots generalizing queue with
  | nil => simp [DynfileQueue.selectFrom]
  | cons lot lots inductionHypothesis =>
      cases cycle : queue.cycle with
      | nil =>
          have empty : queue.all = [] := by
            simp only [DynfileQueue.cycle, List.append_eq_nil_iff] at cycle
            simp [DynfileQueue.all, cycle]
          rw [DynfileQueue.selectFrom, next_eq_none_iff.mpr empty]
          simp
      | cons file behind =>
          rw [cycle] at own
          rcases selectFrom_own cycle (own file List.mem_cons_self) count scans lot lots with
            ⟨moved, rotated, ⟨tries, handed⟩ | ⟨-, passed⟩⟩
          · rw [handed]
            simp
          · rw [passed]
            apply inductionHypothesis
            rw [rotated]
            intro other member
            exact own other (by simpa [or_comm] using member)

theorem selectFrom_ne_noInput_of_imported
    (cycle : queue.cycle = before ++ file :: behind) (own : file.driverId = driverId)
    (imported : file.imported = true)
    (few : scans + before.countP (·.driverId ≠ driverId) < count) :
    queue.selectFrom true (some driverId) count scans lots ≠ .noInput := by
  induction lots generalizing queue scans before behind with
  | nil => simp [DynfileQueue.selectFrom]
  | cons lot lots inductionHypothesis =>
      cases before with
      | nil =>
          rcases selectFrom_own cycle own count scans lot lots with
            ⟨moved, -, ⟨tries, handed⟩ | ⟨measured, -⟩⟩
          · rw [handed]
            simp
          · rw [imported] at measured
            cases measured
      | cons other before =>
          by_cases passed : other.driverId = driverId
          · rw [List.countP_cons_of_neg (by simp [passed])] at few
            rcases selectFrom_own cycle passed count scans lot lots with
              ⟨moved, rotated, ⟨tries, handed⟩ | ⟨-, same⟩⟩
            · rw [handed]
              simp
            · rw [same]
              exact inductionHypothesis (by simpa using rotated) few
          · rw [List.countP_cons_of_pos (by simp [passed])] at few
            rcases selectFrom_foreign cycle passed count scans with ⟨moved, rotated, counted⟩
            rw [counted, if_neg (by omega)]
            exact inductionHypothesis (by simpa using rotated) (by omega)

/-- Without an own input the scan ends after as many rounds as inputs were ever
queued. -/
theorem selectFrom_eq_noInput (foreign : ∀ file ∈ queue.cycle, file.driverId ≠ driverId)
    (nonempty : queue.cycle ≠ []) (below : scans < count) (enough : count ≤ scans + lots.length) :
    queue.selectFrom true (some driverId) count scans lots = .noInput := by
  induction lots generalizing queue scans with
  | nil =>
      simp only [List.length_nil] at enough
      omega
  | cons lot lots inductionHypothesis =>
      rcases List.exists_cons_of_ne_nil nonempty with ⟨file, behind, cycle⟩
      rw [cycle] at foreign
      rcases selectFrom_foreign cycle (foreign file List.mem_cons_self) count scans with
        ⟨moved, rotated, passed⟩
      rw [passed]
      split
      · rfl
      · next more =>
        rw [List.length_cons] at enough
        refine inductionHypothesis ?_ (by simp [rotated]) (by omega) (by omega)
        rw [rotated]
        intro other member
        exact foreign other (by simpa [or_comm] using member)

def losingLot : Lot := ⟨2, 1⟩

def CanGiveUp (queue : DynfileQueue) (driverId count scans : Nat) : Prop :=
  ∃ lots, queue.selectFrom true (some driverId) count scans lots = .noInput

theorem canGiveUp_of_own (cycle : queue.cycle = file :: behind) (own : file.driverId = driverId)
    (measured : file.imported = false)
    (later : ∀ moved : DynfileQueue, moved.cycle = behind ++ [file] →
      CanGiveUp moved driverId count scans) :
    CanGiveUp queue driverId count scans := by
  rcases next_of_cycle cycle with ⟨moved, found, rotated⟩
  rcases later moved rotated with ⟨lots, ended⟩
  refine ⟨losingLot :: lots, ?_⟩
  rw [DynfileQueue.selectFrom, found]
  simpa [own, measured, losingLot] using ended

theorem canGiveUp_of_foreign (cycle : queue.cycle = file :: behind)
    (foreign : file.driverId ≠ driverId)
    (later : scans + 1 < count → ∀ moved : DynfileQueue, moved.cycle = behind ++ [file] →
      CanGiveUp moved driverId count (scans + 1)) :
    CanGiveUp queue driverId count scans := by
  rcases selectFrom_foreign cycle foreign count scans with ⟨moved, rotated, passed⟩
  by_cases last : count ≤ scans + 1
  · exact ⟨[losingLot], by rw [passed, if_pos last]⟩
  · rcases later (not_le.mp last) moved rotated with ⟨lots, ended⟩
    exact ⟨losingLot :: lots, by rw [passed, if_neg last, ended]⟩

/-- Losing lots lead past measured inputs, and every input of another driver is
counted. -/
theorem canGiveUp_of_past (cycle : queue.cycle = before ++ behind)
    (measured : ∀ file ∈ before, file.driverId = driverId → file.imported = false)
    (ends : 0 < before.countP (·.driverId ≠ driverId) ∧
        count ≤ scans + before.countP (·.driverId ≠ driverId) ∨
      ∀ moved : DynfileQueue, moved.cycle = behind ++ before →
        CanGiveUp moved driverId count (scans + before.countP (·.driverId ≠ driverId))) :
    CanGiveUp queue driverId count scans := by
  induction before generalizing queue scans behind with
  | nil =>
      rcases ends with ⟨positive, -⟩ | later
      · cases positive
      · exact later queue (by simpa using cycle)
  | cons file before inductionHypothesis =>
      have rest : ∀ other ∈ before, other.driverId = driverId → other.imported = false :=
        fun other member => measured other (List.mem_cons_of_mem file member)
      by_cases own : file.driverId = driverId
      · rw [List.countP_cons_of_neg (by simp [own])] at ends
        refine canGiveUp_of_own cycle own (measured file List.mem_cons_self own) ?_
        intro moved rotated
        refine inductionHypothesis (by simpa using rotated) rest (ends.imp_right ?_)
        intro later last around
        exact later last (by simpa using around)
      · rw [List.countP_cons_of_pos (by simp [own])] at ends
        refine canGiveUp_of_foreign cycle own fun below moved rotated => ?_
        refine inductionHypothesis (by simpa using rotated) rest (ends.imp ?_ ?_)
        · rintro ⟨-, enough⟩
          omega
        · intro later last around
          have given := later last (by simpa using around)
          rwa [Nat.add_comm _ 1, ← Nat.add_assoc] at given

theorem canGiveUp_of_measured
    (measured : ∀ file ∈ queue.cycle, file.driverId = driverId → file.imported = false)
    (foreign : ∃ file ∈ queue.cycle, file.driverId ≠ driverId) :
    CanGiveUp queue driverId count scans := by
  have positive : 0 < queue.cycle.countP (·.driverId ≠ driverId) := by
    rw [List.countP_pos_iff]
    simpa using foreign
  induction missing : count - scans using Nat.strong_induction_on generalizing queue scans with
  | _ left inductionHypothesis =>
      refine canGiveUp_of_past (List.append_nil _).symm measured ?_
      by_cases enough : count ≤ scans + queue.cycle.countP (·.driverId ≠ driverId)
      · exact .inl ⟨positive, enough⟩
      · refine .inr fun moved around => ?_
        rw [List.nil_append] at around
        refine inductionHypothesis _ ?_ ?_ ?_ ?_ rfl
        · omega
        · rwa [around]
        · rwa [around]
        · rwa [around]

end Rounds

section Ahead

variable {queue : DynfileQueue} {driverId : Nat}

theorem mem_cycle {file : Dynfile} : file ∈ queue.cycle ↔ file ∈ queue.all := by
  simp only [DynfileQueue.cycle, DynfileQueue.all, List.mem_append, or_comm]

theorem cycle_eq_nil_iff : queue.cycle = [] ↔ queue.all = [] := by
  simp only [DynfileQueue.cycle, DynfileQueue.all, List.append_eq_nil_iff, and_comm]

theorem cycle_eq_ahead (imported : ∃ file ∈ queue.all, file.driverId = driverId ∧
    file.imported = true) :
    ∃ before file behind, queue.cycle = before ++ file :: behind ∧ file.driverId = driverId ∧
      file.imported = true ∧
      (∀ other ∈ before, other.driverId = driverId → other.imported = false) ∧
      queue.foreignAhead driverId = before.countP (·.driverId ≠ driverId) := by
  rcases imported with ⟨file, member, own, isImported⟩
  have found : queue.cycle.dropWhile (fun file => !(file.driverId = driverId && file.imported)) ≠ [] := by
    rw [Ne, List.dropWhile_eq_nil_iff]
    intro all
    simpa [own, isImported] using all file (mem_cycle.mpr member)
  rcases List.exists_cons_of_ne_nil found with ⟨first, behind, split⟩
  have head := List.head_dropWhile_not _ found
  simp only [split, List.head_cons, Bool.not_eq_false', Bool.and_eq_true,
    decide_eq_true_eq] at head
  refine ⟨_, first, behind, ?_, head.1, head.2, ?_, rfl⟩
  · rw [← split, List.takeWhile_append_dropWhile]
  · intro other earlier isOwn
    simpa [isOwn] using List.mem_takeWhile_imp earlier

/-- The counter is never below the number of inputs that the scan can pass. -/
theorem foreignAhead_lt_of_accounted {s : QueueState} (accounted : s.Accounted)
    (imported : ∃ file ∈ s.seeds.queue.all, file.driverId = driverId ∧ file.imported = true) :
    s.seeds.queue.foreignAhead driverId < s.seeds.dynfileqCnt := by
  rcases cycle_eq_ahead imported with ⟨before, file, behind, cycle, -, -, -, ahead⟩
  have passed := @List.countP_le_length _ (fun other : Dynfile => decide (other.driverId ≠ driverId))
    before
  have length := congrArg List.length cycle
  have total := accounted.length
  simp only [DynfileQueue.cycle, DynfileQueue.all, List.length_append, List.length_cons] at length total
  omega

end Ahead

namespace QueueState

variable {s : QueueState} {driverId : Nat}

/-- The scan gives up only when the driver has no input in the queue, and then
it does. -/
def Justified (s : QueueState) (driverId : Nat) : Prop :=
  (∀ lots, s.prepare lots = .noInput → ∀ file ∈ s.seeds.queue.all, file.driverId ≠ driverId) ∧
    ((∀ file ∈ s.seeds.queue.all, file.driverId ≠ driverId) →
      ∃ rounds, ∀ lots : List Lot, rounds ≤ lots.length → s.prepare lots = .noInput)

/-- With an own input in the queue: the loop is not entered, or no other input is
in the queue, or an imported own input stops the scan in time.  Without one: the
loop is entered and the queue is not empty. -/
structure Decided (s : QueueState) (driverId : Nat) : Prop where
  own : (∃ file ∈ s.seeds.queue.all, file.driverId = driverId) →
    (s.seeds.dynfileqCnt = 0 ∨ s.triesLeft ≠ 0) ∨
      (∀ file ∈ s.seeds.queue.all, file.driverId = driverId) ∨
      (∃ file ∈ s.seeds.queue.all, file.driverId = driverId ∧ file.imported = true) ∧
        s.seeds.queue.foreignAhead driverId < s.seeds.dynfileqCnt
  none : (∀ file ∈ s.seeds.queue.all, file.driverId ≠ driverId) →
    s.seeds.dynfileqCnt ≠ 0 ∧ s.triesLeft = 0 ∧ s.seeds.queue.all ≠ []

theorem prepare_ne_noInput (unscanned : s.seeds.dynfileqCnt = 0 ∨ s.triesLeft ≠ 0)
    (lots : List Lot) : s.prepare lots ≠ .noInput := by
  rw [prepare]
  split
  · simp
  · next counted =>
    rw [if_pos (unscanned.resolve_left counted)]
    cases s.current <;> simp

theorem prepare_eq_selectFrom (independent : s.independentQueue = true)
    (active : s.seeds.active = some driverId)
    (scanned : ¬ (s.seeds.dynfileqCnt = 0 ∨ s.triesLeft ≠ 0)) (lots : List Lot) :
    s.prepare lots =
      s.seeds.queue.selectFrom true (some driverId) s.seeds.dynfileqCnt 0 lots := by
  rw [not_or] at scanned
  rw [prepare, if_neg scanned.1, if_neg scanned.2, independent, active]

theorem canGiveUp_of_not_decided
    (scanned : ¬ (s.seeds.dynfileqCnt = 0 ∨ s.triesLeft ≠ 0))
    (foreign : ∃ file ∈ s.seeds.queue.all, file.driverId ≠ driverId)
    (unstopped : ¬ ((∃ file ∈ s.seeds.queue.all, file.driverId = driverId ∧ file.imported = true) ∧
      s.seeds.queue.foreignAhead driverId < s.seeds.dynfileqCnt)) :
    CanGiveUp s.seeds.queue driverId s.seeds.dynfileqCnt 0 := by
  by_cases imported : ∃ file ∈ s.seeds.queue.all, file.driverId = driverId ∧ file.imported = true
  · -- the first imported own input comes too late
    rcases cycle_eq_ahead imported with ⟨before, file, behind, cycle, -, -, measured, ahead⟩
    have late : s.seeds.dynfileqCnt ≤ before.countP (·.driverId ≠ driverId) := by
      rw [← ahead]
      exact not_lt.mp fun soon => unstopped ⟨imported, soon⟩
    have counted := (not_or.mp scanned).1
    exact canGiveUp_of_past cycle measured (.inl ⟨by omega, by omega⟩)
  · refine canGiveUp_of_measured ?_ ?_
    · intro file member own
      by_contra isImported
      exact imported ⟨file, mem_cycle.mp member, own, by simpa using isImported⟩
    · rcases foreign with ⟨file, member, other⟩
      exact ⟨file, mem_cycle.mpr member, other⟩

/-- The independent queue gives up for the right reason exactly in a decided
state: neither the lottery nor the remaining tries come in between. -/
theorem justified_iff_decided (independent : s.independentQueue = true)
    (active : s.seeds.active = some driverId) :
    s.Justified driverId ↔ s.Decided driverId := by
  constructor
  · rintro ⟨onlyIf, does⟩
    refine ⟨fun own => ?_, fun none => ?_⟩
    · by_contra undecided
      simp only [not_or] at undecided
      rcases undecided with ⟨scanned, mixed, unstopped⟩
      push Not at mixed
      rcases canGiveUp_of_not_decided (not_or.mpr scanned) mixed unstopped with ⟨lots, ended⟩
      rw [← prepare_eq_selectFrom independent active (not_or.mpr scanned)] at ended
      rcases own with ⟨file, member, isOwn⟩
      exact onlyIf lots ended file member isOwn
    · rcases does none with ⟨rounds, ends⟩
      have ended := ends (List.replicate (rounds + 1) losingLot) (by simp)
      by_cases scanned : s.seeds.dynfileqCnt = 0 ∨ s.triesLeft ≠ 0
      · exact absurd ended (prepare_ne_noInput scanned _)
      · refine ⟨(not_or.mp scanned).1, by simpa using (not_or.mp scanned).2, fun empty => ?_⟩
        rw [prepare_eq_selectFrom independent active scanned, List.replicate_succ,
          DynfileQueue.selectFrom, next_eq_none_iff.mpr empty] at ended
        cases ended
  · rintro ⟨own, none⟩
    refine ⟨fun lots ended => ?_, fun foreign => ?_⟩
    · by_contra present
      push Not at present
      by_cases scanned : s.seeds.dynfileqCnt = 0 ∨ s.triesLeft ≠ 0
      · exact prepare_ne_noInput scanned lots ended
      · rw [prepare_eq_selectFrom independent active scanned] at ended
        rcases own present with unscanned | all | ⟨imported, soon⟩
        · exact scanned unscanned
        · exact selectFrom_ne_noInput_of_own (fun file member => all file (mem_cycle.mp member)) ended
        · rcases cycle_eq_ahead imported with
            ⟨before, file, behind, cycle, isOwn, isImported, -, ahead⟩
          refine selectFrom_ne_noInput_of_imported cycle isOwn isImported ?_ ended
          omega
    · rcases none foreign with ⟨counted, tries, nonempty⟩
      refine ⟨s.seeds.dynfileqCnt, fun lots enough => ?_⟩
      rw [prepare_eq_selectFrom independent active (by simp [counted, tries])]
      exact selectFrom_eq_noInput (fun file member => foreign file (mem_cycle.mp member))
        (fun empty => nonempty (cycle_eq_nil_iff.mp empty)) (by omega) (by omega)

theorem justified_ownSeed :
    ∃ s, runFrom step (start true false) [.switchDriver (SeedState.oneSeed 1 [65])] = some s ∧
      s.Justified 1 := by
  refine ⟨_, rfl, (justified_iff_decided rfl rfl).mpr ⟨fun _ => ?_, fun none => ?_⟩⟩
  · exact .inr (.inl (by decide))
  · exact absurd none (by decide)

/-- Drivers 1 and 2 each have a measured input, and driver 1 is active again. -/
def twoMeasured : List QueueAction :=
  [.switchDriver (SeedState.oneSeed 1 [65]), .setDynamicMainState, .prepareInput [⟨0, 0⟩],
    .perfFeedback true 0 [65], .switchDriver (SeedState.oneSeed 2 [66]), .prepareInput [⟨0, 0⟩],
    .perfFeedback true 1 [66], .switchDriver (SeedState.oneSeed 1 [65])]

def quickLot : Lot where
  skipFactor := inputSkipFactor
    { avgUSecsPerInput := 1000
      maxCov0 := 100
      dynfileqCnt := 4 }
    { timedout := false
      timeExecUSecs := 100
      cov0 := 10
      mainPhase := true
      idx := 2
      refs := 0
      size := 1024 }
  rnd := 1

/-- The input of driver 1 loses four times, and the one of driver 2 is counted
four times. -/
theorem twoMeasured_givesUp :
    (∃ s, runFrom step (start true false) twoMeasured = some s ∧ s.independentQueue = true ∧
      s.seeds.active = some 1 ∧ (∃ file ∈ s.seeds.queue.all, file.driverId = 1) ∧
      s.prepare (List.replicate 8 quickLot) = .noInput) ∧
    ¬ ∀ (s : QueueState) (driverId : Nat), s.independentQueue = true →
      s.seeds.active = some driverId → s.Justified driverId := by
  have givesUp : ∃ s, runFrom step (start true false) twoMeasured = some s ∧
      s.independentQueue = true ∧ s.seeds.active = some 1 ∧
      (∃ file ∈ s.seeds.queue.all, file.driverId = 1) ∧
      s.prepare (List.replicate 8 quickLot) = .noInput :=
    ⟨_, rfl, rfl, rfl, by decide, rfl⟩
  refine ⟨givesUp, fun justified => ?_⟩
  rcases givesUp with ⟨s, -, independent, active, ⟨file, member, own⟩, ended⟩
  exact (justified s 1 independent active).1 _ ended file member own

end QueueState

end GraphDissect.Drivers
