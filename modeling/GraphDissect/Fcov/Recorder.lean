import GraphDissect.Fcov.Table
import GraphDissect.Library.ProbeRun
import GraphDissect.Library.Runs

/-!
# Concurrent recorders and the block flag

Any number of threads of the target call `fcov_record`, `fcov_record_edge` and
`fcov_record_func` while MFuzz sets and clears `block_writes`.  Every read of
the flag and every atomic load, compare-and-swap and add is a step of its own,
and steps of different threads interleave arbitrarily.
-/

namespace GraphDissect.Fcov

open Library

universe u

/-- Where a thread stands.  `rest` is the callee that `fcov_record` still has
to record after the edge; `edgeTried` remembers whether the edge half of the
same event got past its flag test. -/
inductive RecorderPc where
  | idle
  | enter (caller callee : UInt64)
  | edgeEnter (edgeKey : UInt64) (rest : Option UInt64)
  | inEdge (rest : Option UInt64)
  | funcEnter (faddr : UInt64) (edgeTried : Bool)
  | inFunc
  deriving DecidableEq

structure RecorderState (Tid : Type u) where
  blockWrites : Bool
  edges : ProbeRun Tid UInt64
  funcs : ProbeRun Tid UInt32
  pc : Tid → RecorderPc

/-- Calls of the recording functions, atomic steps of a thread, and the two
writes of the flag by MFuzz. -/
inductive RecorderAction (Tid : Type u) where
  | fcovRecord (tid : Tid) (caller callee : UInt64)
  | fcovRecordEdge (tid : Tid) (edgeKey : UInt64)
  | fcovRecordFunc (tid : Tid) (faddr : UInt64)
  | step (tid : Tid)
  | setCovBlock
  | setCovNonBlock
  deriving DecidableEq

namespace RecorderState

variable {Tid : Type u} [DecidableEq Tid]

/-- The state `fcov_initBitmap` sets up. -/
def zeroed : RecorderState Tid where
  blockWrites := false
  edges := ProbeRun.zeroed edgeLayout
  funcs := ProbeRun.zeroed funcLayout
  pc _ := .idle

def goto (state : RecorderState Tid) (tid : Tid) (pc : RecorderPc) : RecorderState Tid :=
  { state with pc := Function.update state.pc tid pc }

def afterEdge (edgeTried : Bool) : Option UInt64 → RecorderPc
  | none => .idle
  | some callee => .funcEnter callee edgeTried

/-- One atomic step of a thread inside a recording function. -/
def stepThread (dladdr : UInt64 → Option UInt64) (state : RecorderState Tid) (tid : Tid) :
    Option (RecorderState Tid) :=
  match state.pc tid with
  | .idle => none
  | .enter caller callee =>
      if state.blockWrites ∨ callee = 0 then some (state.goto tid .idle)
      else some (state.goto tid
        (.edgeEnter (fcovMakeEdgeKey (pcToFuncEntry dladdr caller) callee) (some callee)))
  | .edgeEnter edgeKey rest =>
      if state.blockWrites ∨ edgeKey = 0 then some (state.goto tid (afterEdge false rest))
      else some { state.goto tid (.inEdge rest) with edges := state.edges.begin tid edgeKey }
  | .inEdge rest =>
      match state.edges.pc tid with
      | none => none
      | some pc =>
          let edges := state.edges.advance edgeLayout tid pc
          some { state.goto tid
            (if edges.pc tid = none then afterEdge true rest else .inEdge rest) with edges }
  | .funcEnter faddr _ =>
      if state.blockWrites ∨ faddr.toUInt32 = 0 then some (state.goto tid .idle)
      else some
        { state.goto tid .inFunc with funcs := state.funcs.begin tid faddr.toUInt32 }
  | .inFunc =>
      match state.funcs.pc tid with
      | none => none
      | some pc =>
          let funcs := state.funcs.advance funcLayout tid pc
          some { state.goto tid (if funcs.pc tid = none then .idle else .inFunc) with funcs }

/-- A thread that is not recording calls a recording function. -/
def call (state : RecorderState Tid) (tid : Tid) (pc : RecorderPc) :
    Option (RecorderState Tid) :=
  if state.pc tid = .idle then some (state.goto tid pc) else none

def step (dladdr : UInt64 → Option UInt64) (state : RecorderState Tid) :
    RecorderAction Tid → Option (RecorderState Tid)
  | .fcovRecord tid caller callee => state.call tid (.enter caller callee)
  | .fcovRecordEdge tid edgeKey => state.call tid (.edgeEnter edgeKey none)
  | .fcovRecordFunc tid faddr => state.call tid (.funcEnter faddr false)
  | .step tid => state.stepThread dladdr tid
  | .setCovBlock => some { state with blockWrites := true }
  | .setCovNonBlock => some { state with blockWrites := false }

def fcov (state : RecorderState Tid) : FuncCoverage :=
  ⟨state.blockWrites, state.edges.table, state.funcs.table⟩

def Quiet (state : RecorderState Tid) : Prop := ∀ tid, state.pc tid = .idle

end RecorderState

end GraphDissect.Fcov
