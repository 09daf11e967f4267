import GraphDissect.Library.Runs
import Mathlib

/-!
# Programs that can be killed

A program is the list of its operations on a disk, computed from the disk and
its arguments when it is called.  It can be killed between any two operations,
and events outside the program can change the disk at any time.  A property of
the disk and the operations still to come holds in every reachable state when
every call establishes it throughout its operations and a kill and an event
leave it intact.
-/

namespace Library

variable {Disk Op Call Event : Type}

def applyAll (apply : Op → Disk → Disk) (ops : List Op) (disk : Disk) : Disk :=
  ops.foldl (fun disk op => apply op disk) disk

/-- A property before every operation and after the last. -/
def Throughout (apply : Op → Disk → Disk) (Holds : Disk → List Op → Prop) :
    Disk → List Op → Prop
  | disk, [] => Holds disk []
  | disk, op :: rest => Holds disk (op :: rest) ∧ Throughout apply Holds (apply op disk) rest

/-- The disk and what the running program has still to do. -/
structure Execution (Disk Op : Type) where
  disk : Disk
  pending : List Op
deriving DecidableEq

inductive ExecutionAction (Call Event : Type) where
  | call (call : Call)
  | operate
  | kill
  | event (event : Event)

def executionStep (apply : Op → Disk → Disk) (program : Disk → Call → List Op)
    (occur : Event → Disk → Disk) (s : Execution Disk Op) :
    ExecutionAction Call Event → Option (Execution Disk Op)
  | .call call => if s.pending.isEmpty then some { s with pending := program s.disk call } else none
  | .operate =>
      match s.pending with
      | [] => none
      | op :: rest => some ⟨apply op s.disk, rest⟩
  | .kill => some { s with pending := [] }
  | .event event => some { s with disk := occur event s.disk }

section Rules

variable {apply : Op → Disk → Disk} {Holds : Disk → List Op → Prop}

theorem applyAll_append (first second : List Op) (disk : Disk) :
    applyAll apply (first ++ second) disk = applyAll apply second (applyAll apply first disk) :=
  List.foldl_append

theorem applyAll_frame {ops : List Op} (keeps : ∀ op ∈ ops, ∀ disk, apply op disk = disk)
    (disk : Disk) : applyAll apply ops disk = disk := by
  induction ops generalizing disk with
  | nil => rfl
  | cons op rest inductionHypothesis =>
      rw [applyAll, List.foldl_cons, keeps op List.mem_cons_self]
      exact inductionHypothesis (fun other member => keeps other (List.mem_cons_of_mem op member)) disk

theorem applyAll_project {Part : Type} {applyPart : Op → Part → Part} (project : Disk → Part)
    (commutes : ∀ op disk, project (apply op disk) = applyPart op (project disk))
    (ops : List Op) (disk : Disk) :
    project (applyAll apply ops disk) = applyAll applyPart ops (project disk) := by
  induction ops generalizing disk with
  | nil => rfl
  | cons op rest inductionHypothesis =>
      refine (inductionHypothesis (apply op disk)).trans ?_
      rw [commutes]
      rfl

theorem Throughout.here {disk : Disk} {ops : List Op} (throughout : Throughout apply Holds disk ops) :
    Holds disk ops := by
  cases ops with
  | nil => exact throughout
  | cons op rest => exact throughout.1

/-- The rule for a block of operations that all keep a condition `Kept`. -/
theorem throughout_frame {Kept : Disk → Prop} {first second : List Op} {disk : Disk}
    (keeps : ∀ op ∈ first, ∀ disk, Kept disk → Kept (apply op disk))
    (holds : ∀ op ∈ first, ∀ disk rest, Kept disk → Holds disk (op :: rest))
    (start : Kept disk)
    (later : ∀ disk, Kept disk → Throughout apply Holds disk second) :
    Throughout apply Holds disk (first ++ second) := by
  induction first generalizing disk with
  | nil => exact later disk start
  | cons op rest inductionHypothesis =>
      refine ⟨holds op List.mem_cons_self disk _ start, ?_⟩
      apply inductionHypothesis
      · intro other member
        exact keeps other (List.mem_cons_of_mem op member)
      · intro other member
        exact holds other (List.mem_cons_of_mem op member)
      · exact keeps op List.mem_cons_self disk start

/-- A difference between disks that the operations keep and the property does
not see. -/
theorem Throughout.transfer {Related : Disk → Disk → Prop}
    (keeps : ∀ op disk other, Related disk other → Related (apply op disk) (apply op other))
    (respects : ∀ disk other ops, Related disk other → Holds disk ops → Holds other ops)
    {disk other : Disk} {ops : List Op} (related : Related disk other)
    (throughout : Throughout apply Holds disk ops) : Throughout apply Holds other ops := by
  induction ops generalizing disk other with
  | nil => exact respects disk other [] related throughout
  | cons op rest inductionHypothesis =>
      refine ⟨respects disk other _ related throughout.1, ?_⟩
      exact inductionHypothesis (keeps op disk other related) throughout.2

theorem throughout_map {Inner : Type} {embed : Inner → Op} {disk : Disk} {ops : List Inner} :
    Throughout apply Holds disk (ops.map embed) ↔
      Throughout (fun op => apply (embed op)) (fun disk ops => Holds disk (ops.map embed)) disk
        ops := by
  induction ops generalizing disk with
  | nil => exact Iff.rfl
  | cons op rest inductionHypothesis => exact and_congr_right fun _ => inductionHypothesis

variable {program : Disk → Call → List Op} {occur : Event → Disk → Disk}
  {allowed : Execution Disk Op → ExecutionAction Call Event → Prop}

theorem Along.throughout
    (calls : ∀ s call, Throughout apply Holds s.disk [] → s.pending = [] →
      allowed s (.call call) → Throughout apply Holds s.disk (program s.disk call))
    (kills : ∀ s, Throughout apply Holds s.disk s.pending → allowed s .kill → Holds s.disk [])
    (events : ∀ s event, Throughout apply Holds s.disk s.pending → allowed s (.event event) →
      Throughout apply Holds (occur event s.disk) s.pending)
    {s final : Execution Disk Op} {actions : List (ExecutionAction Call Event)}
    (along : Along (executionStep apply program occur) allowed s actions)
    (start : Throughout apply Holds s.disk s.pending)
    (reached : runFrom (executionStep apply program occur) s actions = some final) :
    Throughout apply Holds final.disk final.pending := by
  refine @Along.invariant _ _ _ _ (fun s => Throughout apply Holds s.disk s.pending) ?_
    _ _ _ along start reached
  intro s action next throughout allows taken
  cases action with
  | call call =>
      simp only [executionStep] at taken
      split at taken
      · next idle =>
        cases taken
        have idle : s.pending = [] := List.isEmpty_iff.mp idle
        rw [idle] at throughout
        exact calls s call throughout idle allows
      · cases taken
  | operate =>
      simp only [executionStep] at taken
      split at taken
      · cases taken
      · next op rest pending =>
        cases taken
        rw [pending] at throughout
        exact throughout.2
  | kill =>
      cases taken
      exact kills s throughout allows
  | event event =>
      cases taken
      exact events s event throughout allows

end Rules

end Library
