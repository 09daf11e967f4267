import GraphDissect.Fcov.Events
import GraphDissect.Scheduler.Sync
import Mathlib

/-!
# The coverage log of one MFuzz process

A process starts from a coverage map that `fcov_initBitmap` has just created
and from no log, since the constructor of `MFuzz` removes it.  The target
records calls, and now and then `getCoveredFuncs` reads the count of one node
after the other and `logCoverage` appends the number of nodes it found.  What is
logged is therefore about this process only.
-/

namespace GraphDissect.Scheduler

open CallGraph Fcov Library

structure FuzzTarget where
  graph : CGGraph
  dladdr : UInt64 → Option UInt64

/-- The functions of the graph whose key is among the called addresses. -/
def FuzzTarget.functions (target : FuzzTarget) (called : List UInt64) : Finset Nat :=
  ((target.graph.nodeRefs.map fun ref => (target.graph.nodes ref).id).filter fun nodeId =>
    (target.graph.getGNode nodeId).any fun ref =>
      (called.map UInt64.toUInt32).contains (target.graph.nodes ref).key).toFinset

/-- `scan` holds the nodes that `getCoveredFuncs` has still to read, `called`
every callee so far.  A line of the log is kept with the set it counts. -/
structure FuzzProcess where
  fcov : FuncCoverage
  scan : Option (List NodeRef)
  covFuncs : Finset Nat
  log : List (Int × Finset Nat)
  called : List UInt64

inductive FuzzAction where
  | fcovRecord (caller callee : UInt64)
  | setCovBlock
  | setCovNonBlock
  | getCoveredFuncs
  | readNode
  | logCoverage (timestamp : Int)

namespace FuzzProcess

def start : FuzzProcess where
  fcov := FuncCoverage.zeroed
  scan := none
  covFuncs := ∅
  log := []
  called := []

/-- An action that is not possible changes nothing. -/
def step (target : FuzzTarget) (process : FuzzProcess) : FuzzAction → FuzzProcess
  | .fcovRecord caller callee =>
      { process with
        fcov := Fcov.fcovRecord target.dladdr process.fcov caller callee
        called := process.called ++ [callee] }
  | .setCovBlock => { process with fcov := { process.fcov with blockWrites := true } }
  | .setCovNonBlock => { process with fcov := { process.fcov with blockWrites := false } }
  | .getCoveredFuncs =>
      match process.scan with
      | none => { process with scan := some target.graph.nodeRefs, covFuncs := ∅ }
      | some _ => process
  | .readNode =>
      match process.scan with
      | some (ref :: rest) =>
          let nodeId := (target.graph.nodes ref).id
          { process with
            scan := some rest
            covFuncs :=
              if getNodeHitNum target.graph process.fcov nodeId = 0 then process.covFuncs
              else insert nodeId process.covFuncs }
      | _ => process
  | .logCoverage timestamp =>
      match process.scan with
      | some [] =>
          { process with scan := none, log := process.log ++ [(timestamp, process.covFuncs)] }
      | _ => process

def run (target : FuzzTarget) (actions : List FuzzAction) : FuzzProcess :=
  actions.foldl (step target) start

end FuzzProcess

section Visited

variable {fcov : FuncCoverage}

/-- A call can change the count of its callee only, whether or not it is counted. -/
theorem fcovRecord_visited_of_ne (consistent : fcov.Consistent)
    (dladdr : UInt64 → Option UInt64) (caller callee : UInt64) :
    (Fcov.fcovRecord dladdr fcov caller callee).Consistent ∧
      ∀ key, key ≠ callee.toUInt32 →
        fcovIsNodeVisited (Fcov.fcovRecord dladdr fcov caller callee) key =
          fcovIsNodeVisited fcov key := by
  unfold Fcov.fcovRecord
  split_ifs
  · exact ⟨consistent, fun _ _ => rfl⟩
  · rcases recordOne_visited consistent
      (.edge (fcovMakeEdgeKey (pcToFuncEntry dladdr caller) callee)) with ⟨kept, -, edgeCounts⟩
    rcases recordOne_visited kept (.func callee) with ⟨keptFunc, -, funcCounts⟩
    refine ⟨keptFunc, fun key other => ?_⟩
    apply (funcCounts key).trans
    rw [edgeCounts key]
    simp [funcIncrement, CoverageRecord.funcKey, other.symm]

end Visited

section Reported

variable {target : FuzzTarget}

theorem mem_functions {called : List UInt64} {nodeId : Nat} :
    nodeId ∈ target.functions called ↔
      (∃ ref ∈ target.graph.nodeRefs, (target.graph.nodes ref).id = nodeId) ∧
        ∃ ref, target.graph.getGNode nodeId = some ref ∧
          ∃ callee ∈ called, callee.toUInt32 = (target.graph.nodes ref).key := by
  simp [FuzzTarget.functions, Option.any_eq_true]

theorem functions_mono {called later : List UInt64} (grows : called ⊆ later) :
    target.functions called ⊆ target.functions later := by
  intro nodeId
  rw [mem_functions, mem_functions]
  rintro ⟨member, ref, found, callee, wasCalled, same⟩
  exact ⟨member, ref, found, callee, grows wasCalled, same⟩

/-- Whatever the process has counted, found or logged was called in it. -/
structure Reported (target : FuzzTarget) (process : FuzzProcess) : Prop where
  consistent : process.fcov.Consistent
  visited : ∀ key, fcovIsNodeVisited process.fcov key ≠ 0 →
    ∃ callee ∈ process.called, callee.toUInt32 = key
  scan : ∀ refs ∈ process.scan, refs ⊆ target.graph.nodeRefs
  covFuncs : process.covFuncs ⊆ target.functions process.called
  log : ∀ line ∈ process.log, line.2 ⊆ target.functions process.called

theorem reported_start : Reported target FuzzProcess.start where
  consistent := consistent_zeroed
  visited := fun key counted => absurd (fcovIsNodeVisited_zeroed key) counted
  scan := nofun
  covFuncs := Finset.empty_subset _
  log := nofun

namespace Reported

variable {process : FuzzProcess}

theorem record (reported : Reported target process) (caller callee : UInt64) :
    Reported target (process.step target (.fcovRecord caller callee)) := by
  rcases fcovRecord_visited_of_ne reported.consistent target.dladdr caller callee with
    ⟨consistent, unchanged⟩
  have grows : process.called ⊆ process.called ++ [callee] := List.subset_append_left _ _
  refine ⟨consistent, ?_, reported.scan, reported.covFuncs.trans (functions_mono grows), ?_⟩
  · intro key counted
    by_cases same : callee.toUInt32 = key
    · exact ⟨callee, List.mem_append_right _ List.mem_cons_self, same⟩
    · have before : fcovIsNodeVisited process.fcov key ≠ 0 := by
        rwa [← unchanged key (Ne.symm same)]
      rcases reported.visited key before with ⟨earlier, member, isKey⟩
      exact ⟨earlier, grows member, isKey⟩
  · exact fun line member => (reported.log line member).trans (functions_mono grows)

/-- The loop of `getCoveredFuncs` inserts called functions only. -/
theorem called_of_hit (reported : Reported target process) {ref : NodeRef}
    (member : ref ∈ target.graph.nodeRefs)
    (hit : getNodeHitNum target.graph process.fcov (target.graph.nodes ref).id ≠ 0) :
    (target.graph.nodes ref).id ∈ target.functions process.called := by
  unfold getNodeHitNum at hit
  split_ifs at hit with zero
  · exact absurd rfl hit
  · cases found : target.graph.getGNode (target.graph.nodes ref).id with
    | none =>
        rw [found] at hit
        exact absurd rfl hit
    | some other =>
        rw [found] at hit
        exact mem_functions.mpr ⟨⟨ref, member, rfl⟩, other, found, reported.visited _ hit⟩

theorem readNode (reported : Reported target process) :
    Reported target (process.step target .readNode) := by
  simp only [FuzzProcess.step]
  split
  next ref rest scanning =>
    have inside := reported.scan _ scanning
    refine ⟨reported.consistent, reported.visited, ?_, ?_, reported.log⟩
    · intro refs isRest
      cases isRest
      exact fun other member => inside (List.mem_cons_of_mem ref member)
    · dsimp only
      split_ifs with hit
      · exact reported.covFuncs
      · exact Finset.insert_subset (reported.called_of_hit (inside List.mem_cons_self) hit)
          reported.covFuncs
  next => exact reported

theorem logCoverage (reported : Reported target process) (timestamp : Int) :
    Reported target (process.step target (.logCoverage timestamp)) := by
  simp only [FuzzProcess.step]
  split
  next =>
    refine ⟨reported.consistent, reported.visited, nofun, reported.covFuncs, ?_⟩
    intro line member
    rcases List.mem_append.mp member with earlier | appended
    · exact reported.log line earlier
    · cases List.mem_singleton.mp appended
      exact reported.covFuncs
  next => exact reported

theorem step (reported : Reported target process) (action : FuzzAction) :
    Reported target (process.step target action) := by
  cases action with
  | fcovRecord caller callee => exact reported.record caller callee
  | setCovBlock =>
      exact ⟨⟨reported.consistent.edges, reported.consistent.funcs⟩, reported.visited,
        reported.scan, reported.covFuncs, reported.log⟩
  | setCovNonBlock =>
      exact ⟨⟨reported.consistent.edges, reported.consistent.funcs⟩, reported.visited,
        reported.scan, reported.covFuncs, reported.log⟩
  | getCoveredFuncs =>
      simp only [FuzzProcess.step]
      split
      · refine ⟨reported.consistent, reported.visited, ?_, Finset.empty_subset _, reported.log⟩
        intro refs started
        cases started
        exact List.Subset.refl _
      · exact reported
  | readNode => exact reported.readNode
  | logCoverage timestamp => exact reported.logCoverage timestamp

end Reported

theorem reported_run (actions : List FuzzAction) :
    Reported target (FuzzProcess.run target actions) := by
  apply List.foldlRecOn
  · exact reported_start
  · exact fun process reported action _ => reported.step action

end Reported

end GraphDissect.Scheduler
