import GraphDissect.Library.ProbeRun
import GraphDissect.Library.Runs

/-!
# Coverage feedback

The instrumentation of every target marks guards and code addresses in maps that
all targets share, and reports a mark in the counters of its own thread; the
best comparisons are kept in a map of their own.  `fuzz_perfFeedback` reads and
clears these counters, adds them to the totals and puts the input into the
corpus when there was something new.  Every atomic access is a step of its own,
and the steps interleave freely.
-/

namespace GraphDissect.Fuzzing

open Library

/-- The counters that a thread has in `feedback_t`. -/
inductive FeedbackCounter where
  | newPC
  | totalPC
  | newEdge
  | totalEdge
  | newCmp
  | totalCmp
deriving DecidableEq

/-- The counters in the order in which `fuzz_perfFeedback` reads them. -/
def perfCounters : List FeedbackCounter :=
  [.newPC, .totalPC, .newEdge, .totalEdge, .newCmp, .totalCmp]

/-- The counters whose sums over all inputs are kept. -/
def FeedbackCounter.isNew : FeedbackCounter → Bool
  | .newPC | .newEdge | .newCmp => true
  | .totalPC | .totalEdge | .totalCmp => false

/-- The counters with one report for each place. -/
def FeedbackCounter.isPlace : FeedbackCounter → Bool
  | .newPC | .newEdge => true
  | .newCmp | .totalPC | .totalEdge | .totalCmp => false

/-- `hwcnt_t` without the counters of the instrumentation. -/
structure HwCnt where
  cpuInstrCnt : UInt64
  cpuBranchCnt : UInt64
  bbCnt : UInt64
  newBBCnt : UInt64

def instrumentCntMap (v : UInt8) : UInt8 :=
  if v = 0 then 0
  else if v = 1 then 1
  else if v = 2 then 2
  else if v = 3 then 4
  else if v ≤ 5 then 8
  else if v ≤ 10 then 16
  else if v ≤ 32 then 32
  else if v ≤ 64 then 64
  else 128

/-- Where a call of the instrumentation stands, in front of its next access. -/
inductive Hook where
  | idle
  | entered (guard : Nat)
  | counting (guard : Nat)
  | totalling (guard : Nat) (v : UInt8)
  | peeking (guard : Nat) (newval : UInt8)
  | marking (guard : Nat) (newval : UInt8)
  | setting (pos : Nat)
  | reporting (counter : FeedbackCounter)
  | comparing (pos : Nat) (v : UInt32) (narrow : Bool)
  | raising (pos : Nat) (v prev : UInt32)
  | adding (diff : UInt32)
deriving DecidableEq

/-- Where `fuzz_perfFeedback` stands: outside, in front of the read of the next
counter, or in front of the clearing of the counter it has read. -/
inductive Collector where
  | idle
  | loading (todo : List FeedbackCounter) (got : FeedbackCounter → Nat)
  | clearing (counter : FeedbackCounter) (todo : List FeedbackCounter) (got : FeedbackCounter → Nat)

/-- What belongs to a fuzzing thread and its target: the local guard map, the
guards whose variable in the target has been cleared, the counters and the
collector.  `copied` remembers how much of a counter has been read but not
cleared. -/
structure FeedbackThread where
  localMap : Nat → UInt8
  maxed : Nat → Bool
  pid : FeedbackCounter → Nat
  collector : Collector
  copied : FeedbackCounter → Nat

/-- `softCnt` stands for `softCntPc`, `softCntEdge` and `softCntCmp`, and the
corpus shows the first three coverage values of its inputs.  `marks` and `lost`
remember what was marked and which marks will never be counted. -/
structure Feedback (Thread Caller : Type) where
  pcGuardMap : Nat → UInt8
  bbMapPc : Nat → Bool
  bbMapCmp : Nat → UInt32
  threads : Thread → FeedbackThread
  hooks : Caller → Hook
  mutex : Option Thread
  softCnt : FeedbackCounter → Nat
  hwCnts : HwCnt
  corpus : List (Nat × Nat × Nat)
  marks : List (FeedbackCounter × Nat)
  lost : FeedbackCounter → Nat

/-- `advance` is the next access of a call; a call can also be over at any time,
when its process dies.  `counter8` is one counter of
`instrument8BitCountersCount`, `addTotal` one of the two sums behind its loop,
and `clearNewCov` one of the stores of `instrumentClearNewCov`.  `traceCmp` is a
comparison with its value, `narrow` if not from `instrumentUpdateCmpMap`, and
`addDynamicInput` an input that was added without feedback. -/
inductive FeedbackAction (Thread Caller : Type) where
  | tracePcGuard (caller : Caller) (guard : Nat)
  | counter8 (caller : Caller) (guard : Nat) (v : UInt8)
  | tracePc (caller : Caller) (pos : Nat)
  | traceCmp (caller : Caller) (pos : Nat) (v : UInt32) (narrow : Bool)
  | advance (caller : Caller)
  | die (caller : Caller)
  | addTotal (thread : Thread) (counter : FeedbackCounter) (sum : Nat)
  | resetLocal (thread : Thread)
  | newProcess (thread : Thread)
  | clearNewCov (thread : Thread) (counter : FeedbackCounter)
  | acquire (thread : Thread) (soft : Bool)
  | load (thread : Thread)
  | clear (thread : Thread)
  | commit (thread : Thread) (hwCnts : HwCnt)
  | addDynamicInput (cov : Nat × Nat × Nat)

namespace FeedbackThread

def add (thread : FeedbackThread) (counter : FeedbackCounter) (sum : Nat) : FeedbackThread :=
  { thread with pid := Function.update thread.pid counter (thread.pid counter + sum) }

/-- `ATOMIC_CLEAR`. -/
def clear (thread : FeedbackThread) (counter : FeedbackCounter) : FeedbackThread :=
  { thread with
    pid := Function.update thread.pid counter 0
    copied := Function.update thread.copied counter 0 }

/-- What a cleared counter had not been read for. -/
def unread (thread : FeedbackThread) (counter : FeedbackCounter) : Nat :=
  thread.pid counter - thread.copied counter

end FeedbackThread

namespace Feedback

variable {Thread Caller : Type} [DecidableEq Thread] [DecidableEq Caller]

def start : Feedback Thread Caller where
  pcGuardMap := fun _ => 0
  bbMapPc := fun _ => false
  bbMapCmp := fun _ => 0
  threads := fun _ => ⟨fun _ => 0, fun _ => false, fun _ => 0, .idle, fun _ => 0⟩
  hooks := fun _ => .idle
  mutex := none
  softCnt := fun _ => 0
  hwCnts := ⟨0, 0, 0, 0⟩
  corpus := []
  marks := []
  lost := fun _ => 0

def setHook (s : Feedback Thread Caller) (caller : Caller) (hook : Hook) : Feedback Thread Caller :=
  { s with hooks := Function.update s.hooks caller hook }

def setThread (s : Feedback Thread Caller) (t : Thread) (thread : FeedbackThread) :
    Feedback Thread Caller :=
  { s with threads := Function.update s.threads t thread }

def setCollector (s : Feedback Thread Caller) (t : Thread) (collector : Collector) :
    Feedback Thread Caller :=
  s.setThread t { s.threads t with collector }

def lose (s : Feedback Thread Caller) (counter : FeedbackCounter) (sum : Nat) :
    Feedback Thread Caller :=
  { s with lost := Function.update s.lost counter (s.lost counter + sum) }

/-- `ATOMIC_POST_OR` on the map of the guards. -/
def orGuard (s : Feedback Thread Caller) (guard : Nat) (newval : UInt8) : Feedback Thread Caller :=
  { s with pcGuardMap := Function.update s.pcGuardMap guard (s.pcGuardMap guard ||| newval) }

/-- `ATOMIC_BITMAP_SET` on the map of the addresses. -/
def setAddress (s : Feedback Thread Caller) (pos : Nat) : Feedback Thread Caller :=
  { s with bbMapPc := Function.update s.bbMapPc pos true }

/-- The old value of a comparison, which the hooks of the compiler keep in a byte. -/
def prevCmp (s : Feedback Thread Caller) (pos : Nat) (narrow : Bool) : UInt32 :=
  if narrow then (s.bbMapCmp pos).toUInt8.toUInt32 else s.bbMapCmp pos

/-- A mark that its caller has still to report. -/
def mark (s : Feedback Thread Caller) (caller : Caller) (counter : FeedbackCounter) (place : Nat) :
    Feedback Thread Caller :=
  { s.setHook caller (.reporting counter) with marks := s.marks ++ [(counter, place)] }

/-- The next access of `__sanitizer_cov_trace_pc_guard`, whose end
`instrument8BitCountersCount` shares, of `hfuzz_trace_pc_internal` and of
`instrumentUpdateCmpMap`. -/
def advance (threadNo : Caller → Thread) (s : Feedback Thread Caller) (caller : Caller) :
    Option (Feedback Thread Caller) :=
  let t := threadNo caller
  let thread := s.threads t
  match s.hooks caller with
  | .idle => none
  | .entered guard =>
      let s := s.setHook caller (.counting guard)
      if 100 < thread.localMap guard then
        some (s.setThread t { thread with maxed := Function.update thread.maxed guard true })
      else some s
  | .counting guard =>
      let v := thread.localMap guard + 1
      some ((s.setHook caller (.totalling guard v)).setThread t
        { thread with localMap := Function.update thread.localMap guard v })
  | .totalling guard v =>
      some ((s.setHook caller (.peeking guard (instrumentCntMap v))).setThread t
        (thread.add (if v = 1 then .totalEdge else .totalCmp) 1))
  | .peeking guard newval =>
      if s.pcGuardMap guard < newval then some (s.setHook caller (.marking guard newval))
      else some (s.setHook caller .idle)
  | .marking guard newval =>
      let oldval := s.pcGuardMap guard
      let s := s.orGuard guard newval
      if oldval = 0 then some (s.mark caller .newEdge guard)
      else if oldval < newval then some (s.mark caller .newCmp guard)
      else some (s.setHook caller .idle)
  | .setting pos =>
      let old := s.bbMapPc pos
      let s := s.setAddress pos
      if old then some (s.setHook caller .idle) else some (s.mark caller .newPC pos)
  | .reporting counter =>
      some ((s.setHook caller .idle).setThread t (thread.add counter 1))
  | .comparing pos v narrow =>
      let prev := s.prevCmp pos narrow
      if prev < v then some (s.setHook caller (.raising pos v prev))
      else some (s.setHook caller .idle)
  | .raising pos v prev =>
      some { s.setHook caller (.adding (v - prev)) with
        bbMapCmp := Function.update s.bbMapCmp pos v }
  | .adding diff =>
      some ((s.setHook caller .idle).setThread t (thread.add .newCmp diff.toNat))

/-- The end of `fuzz_perfFeedback`, with the hardware counters of the run. -/
def perfFeedback (s : Feedback Thread Caller) (got : FeedbackCounter → Nat) (run : HwCnt) :
    Feedback Thread Caller :=
  let diff0 := (s.hwCnts.cpuInstrCnt - run.cpuInstrCnt).toInt64
  let diff1 := (s.hwCnts.cpuBranchCnt - run.cpuBranchCnt).toInt64
  if 0 < run.newBBCnt ∨ 0 < got .newPC ∨ 0 < got .newEdge ∨ 0 < got .newCmp ∨ diff0 < 0 ∨
      diff1 < 0 then
    { s with
      softCnt := fun counter => s.softCnt counter + if counter.isNew then got counter else 0
      hwCnts :=
        { cpuInstrCnt := if diff0 < 0 then run.cpuInstrCnt else s.hwCnts.cpuInstrCnt
          cpuBranchCnt := if diff1 < 0 then run.cpuBranchCnt else s.hwCnts.cpuBranchCnt
          bbCnt := s.hwCnts.bbCnt + run.newBBCnt
          newBBCnt := s.hwCnts.newBBCnt }
      corpus := s.corpus ++
        [(got .totalEdge + got .totalPC + run.bbCnt.toNat, got .totalCmp,
          (run.cpuInstrCnt + run.cpuBranchCnt).toNat)] }
  else s

def step (threadNo : Caller → Thread) (s : Feedback Thread Caller) :
    FeedbackAction Thread Caller → Option (Feedback Thread Caller)
  | .tracePcGuard caller guard =>
      -- a cleared guard reads as zero
      if s.hooks caller = .idle ∧ guard ≠ 0 ∧ (s.threads (threadNo caller)).maxed guard = false then
        some (s.setHook caller (.entered guard))
      else none
  | .counter8 caller guard v =>
      if s.hooks caller = .idle ∧ v ≠ 0 then
        some (s.setHook caller (.peeking guard (instrumentCntMap v)))
      else none
  | .tracePc caller pos =>
      if s.hooks caller = .idle then
        if s.bbMapPc pos then some s else some (s.setHook caller (.setting pos))
      else none
  | .traceCmp caller pos v narrow =>
      if s.hooks caller = .idle then some (s.setHook caller (.comparing pos v narrow)) else none
  | .advance caller => s.advance threadNo caller
  | .die caller =>
      match s.hooks caller with
      | .reporting counter => some ((s.setHook caller .idle).lose counter 1)
      | _ => some (s.setHook caller .idle)
  | .addTotal t counter sum =>
      if counter = .totalEdge ∨ counter = .totalCmp then
        some (s.setThread t ((s.threads t).add counter sum))
      else none
  | .resetLocal t => some (s.setThread t { s.threads t with localMap := fun _ => 0 })
  | .newProcess t => some (s.setThread t { s.threads t with maxed := fun _ => false })
  | .clearNewCov t counter =>
      some ((s.setThread t ((s.threads t).clear counter)).lose counter ((s.threads t).unread counter))
  | .acquire t soft =>
      match s.mutex, (s.threads t).collector with
      | none, .idle =>
          let counters := if soft then perfCounters else []
          some { s.setCollector t (.loading counters fun _ => 0) with mutex := some t }
      | _, _ => none
  | .load t =>
      let thread := s.threads t
      match thread.collector with
      | .loading (counter :: todo) got =>
          some (s.setThread t { thread with
            collector := .clearing counter todo (Function.update got counter (thread.pid counter))
            copied := Function.update thread.copied counter (thread.pid counter) })
      | _ => none
  | .clear t =>
      let thread := s.threads t
      match thread.collector with
      | .clearing counter todo got =>
          some ((s.setThread t { thread.clear counter with collector := .loading todo got }).lose
            counter (thread.unread counter))
      | _ => none
  | .commit t hwCnts =>
      match (s.threads t).collector with
      | .loading [] got =>
          some { (s.perfFeedback got hwCnts).setCollector t .idle with mutex := none }
      | _ => none
  | .addDynamicInput cov => some { s with corpus := s.corpus ++ [cov] }

end Feedback

end GraphDissect.Fuzzing
