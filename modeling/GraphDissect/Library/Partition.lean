import Mathlib

/-!
# Partitions as lists of sets

A list of finite sets partitions a set when its members are disjoint and cover
it.  Members may be empty.  A partition can be refined member by member,
reordered and freed of its empty members, and a sum over the whole set is the
sum of the sums over its members.
-/

namespace Library

universe u

variable {Node : Type u}

/-- The parts are disjoint and cover the whole. -/
structure Partitions (parts : List (Finset Node)) (whole : Finset Node) : Prop where
  disjoint : parts.Pairwise Disjoint
  covers : ∀ node, node ∈ whole ↔ ∃ part ∈ parts, node ∈ part

namespace Partitions

variable {parts : List (Finset Node)} {part whole : Finset Node}

theorem nil : Partitions [] (∅ : Finset Node) where
  disjoint := List.Pairwise.nil
  covers node := by simp

theorem singleton (whole : Finset Node) : Partitions [whole] whole where
  disjoint := List.pairwise_singleton _ _
  covers node := by simp

theorem subset (partitions : Partitions parts whole) (member : part ∈ parts) : part ⊆ whole :=
  fun node inside => (partitions.covers node).mpr ⟨part, member, inside⟩

theorem perm {other : List (Finset Node)} (partitions : Partitions parts whole)
    (reordered : other.Perm parts) : Partitions other whole where
  disjoint := partitions.disjoint.perm reordered.symm fun apart => apart.symm
  covers node := by
    rw [partitions.covers node]
    simp only [reordered.mem_iff]

theorem filter_nonempty [DecidableEq Node] (partitions : Partitions parts whole) :
    Partitions (parts.filter (· ≠ ∅)) whole where
  disjoint := partitions.disjoint.filter _
  covers node := by
    rw [partitions.covers node]
    constructor
    · rintro ⟨part, member, inside⟩
      have nonempty : part ≠ ∅ := Finset.ne_empty_of_mem inside
      exact ⟨part, List.mem_filter.mpr ⟨member, decide_eq_true nonempty⟩, inside⟩
    · rintro ⟨part, member, inside⟩
      exact ⟨part, (List.mem_filter.mp member).1, inside⟩

theorem flatMap (partitions : Partitions parts whole)
    {refine : Finset Node → List (Finset Node)}
    (refines : ∀ part ∈ parts, Partitions (refine part) part) :
    Partitions (parts.flatMap refine) whole where
  disjoint := by
    rw [List.pairwise_flatMap]
    refine ⟨fun part member => (refines part member).disjoint, ?_⟩
    apply partitions.disjoint.imp_of_mem
    intro first second firstMember secondMember disjoint piece pieceMember other otherMember
    exact disjoint.mono ((refines first firstMember).subset pieceMember)
      ((refines second secondMember).subset otherMember)
  covers node := by
    rw [partitions.covers node]
    constructor
    · rintro ⟨part, member, inside⟩
      rcases ((refines part member).covers node).mp inside with ⟨piece, pieceMember, insidePiece⟩
      exact ⟨piece, List.mem_flatMap.mpr ⟨part, member, pieceMember⟩, insidePiece⟩
    · rintro ⟨piece, pieceMember, inside⟩
      rcases List.mem_flatMap.mp pieceMember with ⟨part, member, refined⟩
      exact ⟨part, member, (refines part member).subset refined inside⟩

theorem sum_eq [DecidableEq Node] (partitions : Partitions parts whole) (weight : Node → Nat) :
    (parts.map fun part => ∑ node ∈ part, weight node).sum = ∑ node ∈ whole, weight node := by
  induction parts generalizing whole with
  | nil =>
      have empty : whole = ∅ := by
        apply Finset.eq_empty_of_forall_notMem
        intro node inside
        rcases (partitions.covers node).mp inside with ⟨part, member, -⟩
        cases member
      rw [empty]
      rfl
  | cons first rest inductionHypothesis =>
      rcases List.pairwise_cons.mp partitions.disjoint with ⟨apart, disjoint⟩
      have remaining : Partitions rest (whole \ first) := by
        refine ⟨disjoint, ?_⟩
        intro node
        rw [Finset.mem_sdiff, partitions.covers node]
        constructor
        · rintro ⟨⟨part, member, inside⟩, outside⟩
          rcases List.mem_cons.mp member with rfl | member
          · exact absurd inside outside
          · exact ⟨part, member, inside⟩
        · rintro ⟨part, member, inside⟩
          refine ⟨⟨part, List.mem_cons_of_mem first member, inside⟩, ?_⟩
          exact Finset.disjoint_right.mp (apart part member) inside
      rw [List.map_cons, List.sum_cons, inductionHypothesis remaining, add_comm]
      exact Finset.sum_sdiff (partitions.subset List.mem_cons_self)

end Partitions

theorem card_filter_key [DecidableEq Node] {Item : Type*} (items : Finset Item)
    (key : Item → Node) (part : Finset Node) :
    (items.filter fun item => key item ∈ part).card =
      ∑ node ∈ part, (items.filter fun item => key item = node).card := by
  have maps : ∀ item ∈ items.filter fun item => key item ∈ part, key item ∈ part :=
    fun item member => (Finset.mem_filter.mp member).2
  rw [Finset.card_eq_sum_card_fiberwise maps]
  apply Finset.sum_congr rfl
  intro node inside
  congr 1
  ext item
  simp only [Finset.mem_filter]
  constructor
  · rintro ⟨⟨member, -⟩, equal⟩
    exact ⟨member, equal⟩
  · rintro ⟨member, equal⟩
    exact ⟨⟨member, equal ▸ inside⟩, equal⟩

theorem Partitions.sum_card_eq [DecidableEq Node] {Item : Type*} {parts : List (Finset Node)}
    {whole : Finset Node} (partitions : Partitions parts whole) (items : Finset Item)
    (key : Item → Node) :
    (parts.map fun part => (items.filter fun item => key item ∈ part).card).sum =
      (items.filter fun item => key item ∈ whole).card := by
  simp only [card_filter_key]
  exact partitions.sum_eq _

end Library
