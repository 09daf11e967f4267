import GraphDissect.Library.Worklist
import Mathlib

/-!
# Breadth-first search

A first-in-first-out worklist finds the nodes of a graph in the order of their
distance from the entry.  `Layered` is the invariant that carries this: a label
of every node that was seen is its distance, the labels of the pending nodes
ascend and span at most two layers, and the successors of what was expanded were
seen.
-/

namespace Library

universe u

variable {Node : Type u} {successors : Node → List Node} {entry : Node}

/-- A path of a given length from the entry. -/
inductive StepsTo (successors : Node → List Node) (entry : Node) : Nat → Node → Prop where
  | here : StepsTo successors entry 0 entry
  | step {length : Nat} {node next : Node} : StepsTo successors entry length node →
      next ∈ successors node → StepsTo successors entry (length + 1) next

/-- The length of a shortest path. -/
structure IsDistance (successors : Node → List Node) (entry : Node) (distance : Nat) (node : Node) :
    Prop where
  path : StepsTo successors entry distance node
  least : ∀ length, StepsTo successors entry length node → distance ≤ length

section Distance

theorem reaches_iff_stepsTo {node : Node} :
    Reaches successors entry node ↔ ∃ length, StepsTo successors entry length node := by
  constructor
  · intro reaches
    induction reaches with
    | refl => exact ⟨0, .here⟩
    | tail _ isNext inductionHypothesis =>
        rcases inductionHypothesis with ⟨length, path⟩
        exact ⟨length + 1, path.step isNext⟩
  · rintro ⟨length, path⟩
    induction path with
    | here => exact .refl
    | step _ isNext inductionHypothesis => exact inductionHypothesis.tail isNext

theorem isDistance_entry : IsDistance successors entry 0 entry where
  path := .here
  least length _ := Nat.zero_le length

theorem IsDistance.unique {first second : Nat} {node : Node}
    (isFirst : IsDistance successors entry first node)
    (isSecond : IsDistance successors entry second node) : first = second :=
  le_antisymm (isFirst.least second isSecond.path) (isSecond.least first isFirst.path)

theorem reaches_iff_isDistance {node : Node} :
    Reaches successors entry node ↔ ∃ distance, IsDistance successors entry distance node := by
  classical
  constructor
  · intro reaches
    have some := reaches_iff_stepsTo.mp reaches
    exact ⟨Nat.find some, Nat.find_spec some, fun length path => Nat.find_min' some path⟩
  · rintro ⟨distance, isDistance⟩
    exact reaches_iff_stepsTo.mpr ⟨distance, isDistance.path⟩

theorem IsDistance.exists_of_le {distance smaller : Nat} {node : Node}
    (isDistance : IsDistance successors entry distance node) (le : smaller ≤ distance) :
    ∃ other, IsDistance successors entry smaller other := by
  induction distance generalizing node with
  | zero =>
      cases Nat.le_zero.mp le
      exact ⟨node, isDistance⟩
  | succ distance inductionHypothesis =>
      rcases Nat.lt_or_ge distance smaller with equal | below
      · cases le_antisymm le equal
        exact ⟨node, isDistance⟩
      · rcases isDistance with ⟨_ | ⟨path, isNext⟩, least⟩
        next before =>
        refine inductionHypothesis ⟨path, ?_⟩ below
        intro length shorter
        exact Nat.le_of_succ_le_succ (least (length + 1) (shorter.step isNext))

theorem IsDistance.lt_card {nodes : Finset Node}
    (closed : ∀ node ∈ nodes, ∀ next ∈ successors node, next ∈ nodes) (entryIn : entry ∈ nodes)
    {distance : Nat} {node : Node} (isDistance : IsDistance successors entry distance node) :
    distance < nodes.card := by
  classical
  have inside : ∀ {length other}, StepsTo successors entry length other → other ∈ nodes := by
    intro length other path
    induction path with
    | here => exact entryIn
    | step _ isNext inductionHypothesis => exact closed _ inductionHypothesis _ isNext
  have layer : ∀ smaller : Fin (distance + 1),
      ∃ other, IsDistance successors entry smaller other :=
    fun smaller => isDistance.exists_of_le (Nat.le_of_lt_succ smaller.isLt)
  choose witness isWitness using layer
  have injective : Function.Injective witness := by
    intro first second same
    have sameDistance := (isWitness first).unique (same ▸ isWitness second)
    exact Fin.ext sameDistance
  have fits := Finset.card_le_card_of_injOn (s := Finset.univ) (t := nodes) witness
    (fun smaller _ => inside (isWitness smaller).path) injective.injOn
  simpa using fits

end Distance

namespace Worklist

def Seen (work : Worklist Node) (node : Node) : Prop :=
  node ∈ work.pending ∨ node ∈ work.found

/-- What holds between two expansions of a breadth-first search. -/
structure Layered (successors : Node → List Node) (entry : Node) (label : Node → Nat)
    (work : Worklist Node) : Prop where
  begun : work.Seen entry
  queued : ∀ node ∈ work.pending.tail, node ∈ work.found
  exact : ∀ node, work.Seen node → IsDistance successors entry (label node) node
  sorted : work.pending.Pairwise fun first second => label first ≤ label second
  span : ∀ first ∈ work.pending, ∀ second ∈ work.pending, label second ≤ label first + 1
  expanded : ∀ node ∈ work.found, node ∉ work.pending → ∀ next ∈ successors node, work.Seen next

section Search

variable {label : Node → Nat} {node : Node} {rest found : List Node}

theorem layered_start {found : List Node} (marked : ∀ node ∈ found, node = entry)
    (isZero : label entry = 0) : Layered successors entry label ⟨[entry], found⟩ where
  begun := .inl List.mem_cons_self
  queued node member := absurd member List.not_mem_nil
  exact node seen := by
    have isEntry : node = entry := by
      rcases seen with pending | member
      · exact List.mem_singleton.mp pending
      · exact marked node member
    rw [isEntry, isZero]
    exact isDistance_entry
  sorted := List.pairwise_singleton _ _
  span first firstIn second secondIn := by
    rw [List.mem_singleton.mp firstIn, List.mem_singleton.mp secondIn]
    exact Nat.le_succ _
  expanded node member absent := by
    rw [marked node member] at absent
    exact absurd List.mem_cons_self absent

theorem Layered.seen_of_stepsTo (layered : Layered successors entry label ⟨node :: rest, found⟩)
    {length : Nat} {other : Node} (path : StepsTo successors entry length other)
    (near : length ≤ label node) : Seen ⟨node :: rest, found⟩ other := by
  induction path with
  | here => exact layered.begun
  | @step length before other path isNext inductionHypothesis =>
      have seen := inductionHypothesis (Nat.le_of_succ_le near)
      have close : label before < label node :=
        lt_of_le_of_lt ((layered.exact before seen).least length path) near
      have absent : before ∉ node :: rest := by
        intro pending
        rcases List.mem_cons.mp pending with rfl | later
        · exact lt_irrefl _ close
        · have ordered := (List.pairwise_cons.mp layered.sorted).1 before later
          exact absurd close (Nat.not_lt.mpr ordered)
      exact layered.expanded before (seen.resolve_left absent) absent other isNext

/-- When nothing is pending, everything that can be reached was found. -/
theorem Layered.mem_iff (layered : Layered successors entry label ⟨[], found⟩) {node : Node} :
    node ∈ found ↔ Reaches successors entry node := by
  constructor
  · intro member
    exact reaches_iff_isDistance.mpr ⟨_, layered.exact node (.inr member)⟩
  · intro reaches
    induction reaches with
    | refl => exact layered.begun.resolve_left List.not_mem_nil
    | tail _ isNext inductionHypothesis =>
        exact (layered.expanded _ inductionHypothesis List.not_mem_nil _ isNext).resolve_left
          List.not_mem_nil

/-- The label of the nodes that an expansion finds. -/
def relabel [DecidableEq Node] (label : Node → Nat) (fresh : List Node) (depth : Nat) : Node → Nat :=
  fun node => if node ∈ fresh then depth else label node

section Expansion

variable [DecidableEq Node] {fresh : List Node} {other : Node}

theorem seen_expand_iff :
    Seen ⟨rest ++ fresh, found.insert node ++ fresh⟩ other ↔
      Seen ⟨node :: rest, found⟩ other ∨ other ∈ fresh := by
  unfold Seen
  simp only [List.mem_append, List.mem_cons, List.mem_insert_iff]
  tauto

/-- What an expansion leaves found and not pending is its node or was so before. -/
theorem expanded_cases (member : other ∈ found.insert node ++ fresh)
    (absent : other ∉ rest ++ fresh) :
    other = node ∨ other ∈ found ∧ other ∉ node :: rest := by
  rcases List.mem_append.mp member with old | isFresh
  · rcases List.mem_insert_iff.mp old with same | before
    · exact .inl same
    · by_cases same : other = node
      · exact .inl same
      · refine .inr ⟨before, fun listed => ?_⟩
        rcases List.mem_cons.mp listed with equal | later
        · exact same equal
        · exact absent (List.mem_append_left fresh later)
  · exact absurd (List.mem_append_right rest isFresh) absent

theorem Layered.mem_insert_of_seen
    (layered : Layered successors entry label ⟨node :: rest, found⟩)
    (seen : Seen ⟨node :: rest, found⟩ other) : other ∈ found.insert node := by
  rcases seen with pending | old
  · rcases List.mem_cons.mp pending with rfl | later
    · exact List.mem_insert_self
    · exact List.mem_insert_of_mem (layered.queued other later)
  · exact List.mem_insert_of_mem old

theorem Layered.notMem_fresh (layered : Layered successors entry label ⟨node :: rest, found⟩)
    (mem : ∀ next, next ∈ fresh ↔ next ∈ successors node ∧ next ∉ found.insert node)
    (seen : Seen ⟨node :: rest, found⟩ other) : other ∉ fresh :=
  fun isFresh => ((mem other).mp isFresh).2 (layered.mem_insert_of_seen seen)

theorem Layered.isDistance_fresh (layered : Layered successors entry label ⟨node :: rest, found⟩)
    (mem : ∀ next, next ∈ fresh ↔ next ∈ successors node ∧ next ∉ found.insert node)
    (isFresh : other ∈ fresh) : IsDistance successors entry (label node + 1) other := by
  have isNext := (mem other).mp isFresh
  refine ⟨(layered.exact node (.inl List.mem_cons_self)).path.step isNext.1, ?_⟩
  intro length path
  by_contra shorter
  have near : length ≤ label node := Nat.le_of_lt_succ (Nat.not_le.mp shorter)
  exact isNext.2 (layered.mem_insert_of_seen (layered.seen_of_stepsTo path near))

theorem Layered.expand (layered : Layered successors entry label ⟨node :: rest, found⟩)
    (mem : ∀ next, next ∈ fresh ↔ next ∈ successors node ∧ next ∉ found.insert node) :
    Layered successors entry (relabel label fresh (label node + 1))
      ⟨rest ++ fresh, found.insert node ++ fresh⟩ := by
  have kept : ∀ other, Seen ⟨node :: rest, found⟩ other →
      relabel label fresh (label node + 1) other = label other :=
    fun other seen => if_neg (layered.notMem_fresh mem seen)
  have deeper : ∀ other ∈ fresh,
      relabel label fresh (label node + 1) other = label node + 1 :=
    fun other isFresh => if_pos isFresh
  have seenRest : ∀ other ∈ rest, Seen ⟨node :: rest, found⟩ other :=
    fun other later => .inl (List.mem_cons_of_mem node later)
  -- the labels of the pending nodes lie in the layer of `node` and the next
  have ascending := List.pairwise_cons.mp layered.sorted
  have bounds : ∀ other ∈ rest ++ fresh,
      label node ≤ relabel label fresh (label node + 1) other ∧
        relabel label fresh (label node + 1) other ≤ label node + 1 := by
    intro other member
    rcases List.mem_append.mp member with later | isFresh
    · rw [kept other (seenRest other later)]
      exact ⟨ascending.1 other later,
        layered.span node List.mem_cons_self other (List.mem_cons_of_mem node later)⟩
    · rw [deeper other isFresh]
      exact ⟨Nat.le_succ _, le_rfl⟩
  exact {
    begun := seen_expand_iff.mpr (.inl layered.begun)
    queued := by
      intro other member
      rcases List.mem_append.mp (List.mem_of_mem_tail member) with later | isFresh
      · exact List.mem_append_left fresh (layered.mem_insert_of_seen (seenRest other later))
      · exact List.mem_append_right _ isFresh
    exact := by
      intro other seen
      rcases seen_expand_iff.mp seen with old | isFresh
      · rw [kept other old]
        exact layered.exact other old
      · rw [deeper other isFresh]
        exact layered.isDistance_fresh mem isFresh
    sorted := by
      refine List.pairwise_append.mpr ⟨?_, ?_, ?_⟩
      · refine ascending.2.imp_of_mem ?_
        intro first second firstIn secondIn ordered
        rw [kept first (seenRest first firstIn), kept second (seenRest second secondIn)]
        exact ordered
      · refine List.pairwise_of_forall_mem_list ?_
        intro first firstIn second secondIn
        rw [deeper first firstIn, deeper second secondIn]
      · intro first firstIn second secondIn
        rw [deeper second secondIn]
        exact (bounds first (List.mem_append_left fresh firstIn)).2
    span := by
      intro first firstIn second secondIn
      have low := (bounds first firstIn).1
      have high := (bounds second secondIn).2
      omega
    expanded := by
      intro other member absent next isNext
      rcases expanded_cases member absent with same | ⟨before, notPending⟩
      · rw [same] at isNext
        by_cases old : next ∈ found.insert node
        · exact .inr (List.mem_append_left fresh old)
        · exact .inr (List.mem_append_right _ ((mem next).mpr ⟨isNext, old⟩))
      · exact seen_expand_iff.mpr (.inl (layered.expanded other before notPending next isNext)) }

end Expansion

end Search

end Worklist

end Library
