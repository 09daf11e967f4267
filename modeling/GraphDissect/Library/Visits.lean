import Mathlib

/-!
# Visiting cells of a store

A visit overwrites one cell by a function of its content and counts the cell
when its old content satisfies a predicate.  When a second visit changes and
counts nothing, the outcome of visiting a list of cells depends only on which
cells occur in the list.
-/

namespace Library

universe u v w

section Visits

variable {Ref : Type u} {Cell : Type v} [DecidableEq Ref]

def visit (update : Cell → Cell) (counts : Cell → Prop) [DecidablePred counts]
    (store : (Ref → Cell) × Nat) (ref : Ref) : (Ref → Cell) × Nat :=
  (Function.update store.1 ref (update (store.1 ref)),
    store.2 + if counts (store.1 ref) then 1 else 0)

variable {update : Cell → Cell} {counts : Cell → Prop} [DecidablePred counts]

theorem foldl_visit_fst (settled : ∀ cell, update (update cell) = update cell)
    (refs : List Ref) (store : (Ref → Cell) × Nat) (ref : Ref) :
    (refs.foldl (visit update counts) store).1 ref =
      if ref ∈ refs then update (store.1 ref) else store.1 ref := by
  induction refs generalizing store with
  | nil => rfl
  | cons head rest inductionHypothesis =>
      rw [List.foldl_cons, inductionHypothesis]
      by_cases here : ref = head
      · subst here
        simp [visit, settled]
      · simp [visit, here]

/-- Each cell is counted at its first visit only. -/
theorem foldl_visit_snd (quiet : ∀ cell, ¬counts (update cell))
    (refs : List Ref) (store : (Ref → Cell) × Nat) :
    (refs.foldl (visit update counts) store).2 =
      store.2 + (refs.toFinset.filter fun ref => counts (store.1 ref)).card := by
  induction refs generalizing store with
  | nil => simp
  | cons head rest inductionHypothesis =>
      have later : (rest.toFinset.filter fun ref => counts ((visit update counts store head).1 ref)) =
          (rest.toFinset.filter fun ref => counts (store.1 ref)).erase head := by
        ext ref
        rw [Finset.mem_erase, Finset.mem_filter, Finset.mem_filter]
        by_cases here : ref = head
        · subst here
          simp [visit, quiet]
        · simp [visit, here]
      rw [List.foldl_cons, inductionHypothesis, later, List.toFinset_cons, Finset.filter_insert]
      by_cases counted : counts (store.1 head)
      · rw [if_pos counted, Finset.card_insert_eq_ite]
        by_cases again : head ∈ rest.toFinset.filter fun ref => counts (store.1 ref)
        · have positive := Finset.card_pos.mpr ⟨head, again⟩
          rw [if_pos again, Finset.card_erase_of_mem again]
          simp only [visit, counted, if_true]
          omega
        · rw [if_neg again, Finset.erase_eq_of_notMem again]
          simp only [visit, counted, if_true]
          omega
      · rw [if_neg counted, Finset.erase_eq_of_notMem (by simp [counted])]
        simp [visit, counted]

end Visits

theorem countP_eq_add {Item : Type u} {whole left right : Item → Prop} [DecidablePred whole]
    [DecidablePred left] [DecidablePred right] {items : List Item}
    (splits : ∀ item ∈ items, (whole item ↔ left item ∨ right item) ∧ ¬(left item ∧ right item)) :
    items.countP (fun item => whole item) =
      items.countP (fun item => left item) + items.countP (fun item => right item) := by
  induction items with
  | nil => rfl
  | cons item rest inductionHypothesis =>
      have later := inductionHypothesis fun other member =>
        splits other (List.mem_cons_of_mem item member)
      rcases splits item List.mem_cons_self with ⟨either, exclusive⟩
      simp only [List.countP_cons, decide_eq_true_eq, later]
      by_cases first : left item
      · have second : ¬right item := fun both => exclusive ⟨first, both⟩
        rw [if_pos (either.mpr (.inl first)), if_pos first, if_neg second]
        omega
      · by_cases second : right item
        · rw [if_pos (either.mpr (.inr second)), if_neg first, if_pos second]
          omega
        · have neither : ¬whole item := fun holds => (either.mp holds).elim first second
          rw [if_neg neither, if_neg first, if_neg second]
          omega

/-- A loop in a loop whose inner list never changes is one loop over the
concatenation. -/
theorem foldl_inner_eq {State : Type u} {Outer : Type v} {Inner : Type w}
    {body : State → Inner → State} {inner : State → Outer → List Inner}
    {list : Outer → List Inner} {Holds : State → Prop}
    (keeps : ∀ state item, Holds state → Holds (body state item))
    (reads : ∀ state outer, Holds state → inner state outer = list outer)
    (outers : List Outer) {state : State} (start : Holds state) :
    outers.foldl (fun state outer => (inner state outer).foldl body state) state =
      (outers.flatMap list).foldl body state := by
  have keepsAll : ∀ (items : List Inner) {state}, Holds state →
      Holds (items.foldl body state) := by
    intro items
    induction items with
    | nil => exact fun holds => holds
    | cons item rest inductionHypothesis =>
        exact fun holds => inductionHypothesis (keeps _ item holds)
  induction outers generalizing state with
  | nil => rfl
  | cons outer rest inductionHypothesis =>
      rw [List.foldl_cons, reads state outer start, inductionHypothesis (keepsAll _ start),
        List.flatMap_cons, List.foldl_append]

end Library
