import Mathlib

/-!
# Worklists

A worklist holds the nodes that were found and still have to be expanded.
Expanding a node finds those of its successors that were not found before.  In
a finite graph the list runs empty, and what was found is what can be reached.
-/

namespace Library

universe u

/-- Nodes to be expanded, first in first out, and the nodes found so far. -/
structure Worklist (Node : Type u) where
  pending : List Node
  found : List Node

def Reaches {Node : Type u} (successors : Node → List Node) : Node → Node → Prop :=
  Relation.ReflTransGen fun node next => next ∈ successors node

namespace Worklist

variable {Node : Type u} [DecidableEq Node]

def discover (work : Worklist Node) (node : Node) : Worklist Node :=
  if node ∈ work.found then work
  else { pending := work.pending ++ [node], found := work.found ++ [node] }

def expand (successors : Node → List Node) (node : Node) (work : Worklist Node) : Worklist Node :=
  (successors node).foldl discover { work with found := work.found.insert node }

/-- Expand nodes until the list is empty; `none` when the fuel runs out. -/
def run (successors : Node → List Node) : Nat → Worklist Node → Option (List Node)
  | _, ⟨[], found⟩ => some found
  | 0, ⟨_ :: _, _⟩ => none
  | fuel + 1, ⟨node :: rest, found⟩ => run successors fuel (expand successors node ⟨rest, found⟩)

theorem foldl_discover (nodes : List Node) (work : Worklist Node) :
    ∃ fresh : List Node, fresh.Nodup ∧ (∀ node, node ∈ fresh ↔ node ∈ nodes ∧ node ∉ work.found) ∧
      nodes.foldl discover work = ⟨work.pending ++ fresh, work.found ++ fresh⟩ := by
  induction nodes generalizing work with
  | nil => exact ⟨[], .nil, by simp, by simp⟩
  | cons first rest inductionHypothesis =>
      rw [List.foldl_cons]
      by_cases old : first ∈ work.found
      · rw [discover, if_pos old]
        rcases inductionHypothesis work with ⟨fresh, nodup, mem, result⟩
        refine ⟨fresh, nodup, fun node => ?_, result⟩
        rw [mem node, List.mem_cons]
        constructor
        · exact fun ⟨later, new⟩ => ⟨.inr later, new⟩
        · rintro ⟨rfl | later, new⟩
          · exact absurd old new
          · exact ⟨later, new⟩
      · rw [discover, if_neg old]
        rcases inductionHypothesis ⟨work.pending ++ [first], work.found ++ [first]⟩ with
          ⟨fresh, nodup, mem, result⟩
        refine ⟨first :: fresh, ?_, fun node => ?_, ?_⟩
        · refine List.nodup_cons.mpr ⟨fun again => ?_, nodup⟩
          exact ((mem first).mp again).2 (by simp)
        · rw [List.mem_cons, mem node, List.mem_cons]
          by_cases same : node = first
          · subst same
            simp [old]
          · simp [same]
        · rw [result]
          simp

/-- What a worklist has found is reached, and what was expanded has its
successors found. -/
structure Explores (successors : Node → List Node) (entry : Node) (work : Worklist Node) : Prop where
  nodup : work.found.Nodup
  begun : entry ∈ work.pending ∨ entry ∈ work.found
  reached : ∀ node, node ∈ work.pending ∨ node ∈ work.found → Reaches successors entry node
  expanded : ∀ node ∈ work.found,
    node ∈ work.pending ∨ ∀ next ∈ successors node, next ∈ work.found

section Exploration

variable {successors : Node → List Node} {entry node : Node} {rest found : List Node}

omit [DecidableEq Node] in
theorem explores_start (successors : Node → List Node) (entry : Node) :
    Explores successors entry ⟨[entry], []⟩ where
  nodup := .nil
  begun := .inl (by simp)
  reached node member := by
    rcases member with pending | found
    · rw [List.mem_singleton.mp pending]
      exact .refl
    · cases found
  expanded node member := by cases member

theorem expand_eq (successors : Node → List Node) (node : Node) (rest found : List Node) :
    ∃ fresh : List Node, fresh.Nodup ∧
      (∀ next, next ∈ fresh ↔ next ∈ successors node ∧ next ∉ found.insert node) ∧
      expand successors node ⟨rest, found⟩ = ⟨rest ++ fresh, found.insert node ++ fresh⟩ :=
  foldl_discover (successors node) ⟨rest, found.insert node⟩

theorem Explores.expand (explores : Explores successors entry ⟨node :: rest, found⟩) :
    Explores successors entry (Worklist.expand successors node ⟨rest, found⟩) := by
  rcases expand_eq successors node rest found with ⟨fresh, nodup, mem, result⟩
  have reachedNode : Reaches successors entry node := explores.reached node (.inl List.mem_cons_self)
  -- every successor of the expanded node has been found
  have complete : ∀ next ∈ successors node, next ∈ found.insert node ++ fresh := by
    intro next isNext
    rw [List.mem_append, mem next]
    by_cases old : next ∈ found.insert node
    · exact .inl old
    · exact .inr ⟨isNext, old⟩
  rw [result]
  exact {
    nodup := by
      refine List.nodup_append.mpr ⟨explores.nodup.insert, nodup, ?_⟩
      rintro old oldIn new newIn rfl
      exact ((mem old).mp newIn).2 oldIn
    begun := by
      simp only [List.mem_append, List.mem_insert_iff]
      rcases explores.begun with pending | old
      · rcases List.mem_cons.mp pending with rfl | later
        · exact .inr (.inl (.inl rfl))
        · exact .inl (.inl later)
      · exact .inr (.inl (.inr old))
    reached := by
      intro other member
      simp only [List.mem_append, List.mem_insert_iff] at member
      by_cases new : other ∈ fresh
      · exact reachedNode.tail ((mem other).mp new).1
      · apply explores.reached
        rw [List.mem_cons]
        tauto
    expanded := by
      intro other member
      simp only [List.mem_append, List.mem_insert_iff] at member
      rcases member with (rfl | old) | new
      · exact .inr complete
      · rcases explores.expanded other old with pending | done
        · rcases List.mem_cons.mp pending with rfl | later
          · exact .inr complete
          · exact .inl (List.mem_append_left fresh later)
        · refine .inr fun next isNext => List.mem_append_left fresh ?_
          exact List.mem_insert_of_mem (done next isNext)
      · exact .inl (List.mem_append_right rest new) }

omit [DecidableEq Node] in
/-- When nothing is pending, exactly the reachable nodes were found. -/
theorem Explores.mem_iff (explores : Explores successors entry ⟨[], found⟩) :
    node ∈ found ↔ Reaches successors entry node := by
  constructor
  · exact fun member => explores.reached node (.inr member)
  · intro reaches
    induction reaches with
    | refl => exact explores.begun.resolve_left List.not_mem_nil
    | tail _ isNext inductionHypothesis =>
        exact (explores.expanded _ inductionHypothesis).resolve_left List.not_mem_nil _ isNext

/-- New nodes leave the nodes that are still to be found. -/
theorem card_sdiff_append_le {nodes : Finset Node} {fresh known : List Node} (nodup : fresh.Nodup)
    (new : ∀ node ∈ fresh, node ∈ nodes ∧ node ∉ found) (grows : found ⊆ known) :
    (nodes \ (known ++ fresh).toFinset).card + fresh.length ≤ (nodes \ found.toFinset).card := by
  have disjoint : Disjoint (nodes \ (known ++ fresh).toFinset) fresh.toFinset := by
    rw [Finset.disjoint_right]
    intro node isFresh
    simp [List.mem_toFinset.mp isFresh]
  have left : (nodes \ (known ++ fresh).toFinset) ∪ fresh.toFinset ⊆ nodes \ found.toFinset := by
    intro node member
    rw [Finset.mem_sdiff, List.mem_toFinset]
    rcases Finset.mem_union.mp member with unknown | isFresh
    · rcases Finset.mem_sdiff.mp unknown with ⟨inside, absent⟩
      refine ⟨inside, fun old => absent ?_⟩
      exact List.mem_toFinset.mpr (List.mem_append_left fresh (grows old))
    · exact new node (List.mem_toFinset.mp isFresh)
  have fewer := Finset.card_le_card left
  rwa [Finset.card_union_of_disjoint disjoint, List.toFinset_card_of_nodup nodup] at fewer

theorem expand_decreases {nodes : Finset Node} (found : List Node)
    (closed : ∀ node ∈ nodes, ∀ next ∈ successors node, next ∈ nodes)
    (inside : ∀ other ∈ node :: rest, other ∈ nodes) :
    (∀ other ∈ (expand successors node ⟨rest, found⟩).pending, other ∈ nodes) ∧
      (expand successors node ⟨rest, found⟩).pending.length +
          (nodes \ (expand successors node ⟨rest, found⟩).found.toFinset).card ≤
        rest.length + (nodes \ found.toFinset).card := by
  rcases expand_eq successors node rest found with ⟨fresh, nodup, mem, result⟩
  have nodeIn := inside node List.mem_cons_self
  have new : ∀ other ∈ fresh, other ∈ nodes ∧ other ∉ found := by
    intro other isFresh
    rcases (mem other).mp isFresh with ⟨isNext, unknown⟩
    exact ⟨closed node nodeIn other isNext, fun old => unknown (List.mem_insert_of_mem old)⟩
  have grows : found ⊆ found.insert node := fun _ => List.mem_insert_of_mem
  have fewer := card_sdiff_append_le nodup new grows
  rw [result]
  constructor
  · intro other member
    rcases List.mem_append.mp member with later | isFresh
    · exact inside other (List.mem_cons_of_mem node later)
    · exact (new other isFresh).1
  · dsimp only
    rw [List.length_append]
    omega

theorem Explores.run {nodes : Finset Node}
    (closed : ∀ node ∈ nodes, ∀ next ∈ successors node, next ∈ nodes) {fuel : Nat}
    {work : Worklist Node} (explores : Explores successors entry work)
    (inside : ∀ node ∈ work.pending, node ∈ nodes)
    (enough : work.pending.length + (nodes \ work.found.toFinset).card ≤ fuel) :
    ∃ found, Worklist.run successors fuel work = some found ∧ found.Nodup ∧
      ∀ node, node ∈ found ↔ Reaches successors entry node := by
  induction fuel generalizing work with
  | zero =>
      rcases work with ⟨_ | ⟨node, rest⟩, found⟩
      · exact ⟨found, by rw [Worklist.run], explores.nodup, fun node => explores.mem_iff⟩
      · exact absurd enough (by simp)
  | succ fuel inductionHypothesis =>
      rcases work with ⟨_ | ⟨node, rest⟩, found⟩
      · exact ⟨found, by rw [Worklist.run], explores.nodup, fun node => explores.mem_iff⟩
      · rw [Worklist.run]
        rcases expand_decreases found closed inside with ⟨stays, fewer⟩
        refine inductionHypothesis explores.expand stays ?_
        dsimp only at enough
        rw [List.length_cons] at enough
        omega

theorem run_eq_some {nodes : Finset Node}
    (closed : ∀ node ∈ nodes, ∀ next ∈ successors node, next ∈ nodes) (entryIn : entry ∈ nodes) :
    ∃ found, run successors (nodes.card + 1) ⟨[entry], []⟩ = some found ∧ found.Nodup ∧
      ∀ node, node ∈ found ↔ Reaches successors entry node := by
  refine (explores_start successors entry).run closed ?_ ?_
  · intro node member
    rwa [List.mem_singleton.mp member]
  · simp [Nat.add_comm]

end Exploration

end Worklist

end Library
