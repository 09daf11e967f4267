import Mathlib

/-!
# Marked codes

Items print code words one behind the other.  An item without a mark prints
nothing, and the words of an item with a mark start with it and have one length.
The marks can then be read off the text.
-/

namespace Library

variable {Item Symbol : Type*}

/-- The words of the known items can be told apart by their marks. -/
structure MarkedCode (words : Item → List (List Symbol)) (mark : Item → Option Symbol)
    (Known : Item → Prop) : Prop where
  blank : ∀ item, Known item → mark item = none → ∀ word ∈ words item, word = []
  marked : ∀ item, Known item → ∀ symbol, mark item = some symbol →
    ∀ word ∈ words item, word.head? = some symbol
  same : ∀ first second, Known first → Known second → mark first ≠ none →
    mark first = mark second → words first = words second
  uniform : ∀ item, Known item → ∀ first ∈ words item, ∀ second ∈ words item,
    first.length = second.length

abbrev Prints (words : Item → List (List Symbol)) : List Item → List (List Symbol) → Prop :=
  List.Forall₂ fun item word => word ∈ words item

namespace MarkedCode

variable {words : Item → List (List Symbol)} {mark : Item → Option Symbol} {Known : Item → Prop}
  {items others : List Item} {row other : List (List Symbol)}

theorem flatten_eq_nil (code : MarkedCode words mark Known) (known : ∀ item ∈ items, Known item)
    (prints : Prints words items row) (none : items.filterMap mark = []) : row.flatten = [] := by
  induction prints with
  | nil => rfl
  | @cons item word items row isWord prints inductionHypothesis =>
      cases isMark : mark item with
      | none =>
          rw [List.filterMap_cons_none isMark] at none
          rw [List.flatten_cons, code.blank item (known item List.mem_cons_self) isMark word isWord,
            List.nil_append]
          exact inductionHypothesis (fun item member => known item (List.mem_cons_of_mem _ member)) none
      | some symbol =>
          rw [List.filterMap_cons_some isMark] at none
          cases none

theorem exists_first (code : MarkedCode words mark Known) (known : ∀ item ∈ items, Known item)
    (prints : Prints words items row) {symbol : Symbol} {marks : List Symbol}
    (isFirst : items.filterMap mark = symbol :: marks) :
    ∃ item word rest later, Known item ∧ mark item = some symbol ∧ word ∈ words item ∧
      (∀ item ∈ rest, Known item) ∧ Prints words rest later ∧
      row.flatten = word ++ later.flatten ∧ rest.filterMap mark = marks := by
  induction prints with
  | nil => cases isFirst
  | @cons item word items row isWord prints inductionHypothesis =>
      have isKnown := known item List.mem_cons_self
      have later : ∀ item ∈ items, Known item :=
        fun item member => known item (List.mem_cons_of_mem _ member)
      rw [List.flatten_cons]
      cases isMark : mark item with
      | none =>
          rw [List.filterMap_cons_none isMark] at isFirst
          rw [code.blank item isKnown isMark word isWord, List.nil_append]
          exact inductionHypothesis later isFirst
      | some front =>
          rw [List.filterMap_cons_some isMark] at isFirst
          rcases List.cons.inj isFirst with ⟨rfl, isRest⟩
          exact ⟨item, word, items, row, isKnown, isMark, isWord, later, prints, rfl, isRest⟩

theorem filterMap_eq (code : MarkedCode words mark Known) (known : ∀ item ∈ items, Known item)
    (otherKnown : ∀ item ∈ others, Known item) (prints : Prints words items row)
    (otherPrints : Prints words others other) (flat : row.flatten = other.flatten) :
    items.filterMap mark = others.filterMap mark := by
  -- The text shrinks by the word of the first item with a mark.
  induction marks : items.filterMap mark generalizing items row others other with
  | nil =>
      have empty := code.flatten_eq_nil known prints marks
      cases otherMarks : others.filterMap mark with
      | nil => rfl
      | cons symbol rest =>
          rcases code.exists_first otherKnown otherPrints otherMarks with
            ⟨item, word, -, later, isKnown, isMark, isWord, -, -, split, -⟩
          have starts := code.marked item isKnown symbol isMark word isWord
          rw [← flat, empty, eq_comm, List.append_eq_nil_iff] at split
          rw [split.1] at starts
          cases starts
  | cons symbol rest inductionHypothesis =>
      rcases code.exists_first known prints marks with
        ⟨item, word, items, row, isKnown, isMark, isWord, known, prints, split, isRest⟩
      have starts := code.marked item isKnown symbol isMark word isWord
      rcases List.head?_eq_some_iff.mp starts with ⟨tail, rfl⟩
      cases otherMarks : others.filterMap mark with
      | nil =>
          rw [flat, code.flatten_eq_nil otherKnown otherPrints otherMarks] at split
          cases split
      | cons front otherRest =>
          rcases code.exists_first otherKnown otherPrints otherMarks with
            ⟨second, found, others, other, secondKnown, secondMark, isFound, otherKnown, otherPrints,
              otherSplit, isOtherRest⟩
          have otherStarts := code.marked second secondKnown front secondMark found isFound
          rcases List.head?_eq_some_iff.mp otherStarts with ⟨otherTail, rfl⟩
          rw [split, otherSplit] at flat
          rcases List.cons.inj flat with ⟨rfl, -⟩
          have sameWords := code.same item second isKnown secondKnown (by simp [isMark])
            (by rw [isMark, secondMark])
          rw [← sameWords] at isFound
          have lengths := code.uniform item isKnown _ isWord _ isFound
          have tails := (List.append_inj flat lengths).2
          rw [← isOtherRest, inductionHypothesis known otherKnown prints otherPrints tails isRest]

theorem row_eq (code : MarkedCode words mark Known) (known : ∀ item ∈ items, Known item)
    (prints : Prints words items row) (otherPrints : Prints words items other)
    (flat : row.flatten = other.flatten) : row = other := by
  induction prints generalizing other with
  | nil =>
      cases otherPrints
      rfl
  | @cons item word items row isWord prints inductionHypothesis =>
      cases otherPrints with
      | @cons _ second _ others isSecond otherPrints =>
          rw [List.flatten_cons, List.flatten_cons] at flat
          have lengths := code.uniform item (known item List.mem_cons_self) _ isWord _ isSecond
          rcases List.append_inj flat lengths with ⟨rfl, tails⟩
          rw [inductionHypothesis (fun item member => known item (List.mem_cons_of_mem _ member))
            otherPrints tails]

theorem exists_prints (code : MarkedCode words mark Known) (known : ∀ item ∈ items, Known item)
    (otherKnown : ∀ item ∈ others, Known item) (speaks : ∀ item ∈ others, words item ≠ [])
    (prints : Prints words items row) (marks : items.filterMap mark = others.filterMap mark) :
    ∃ other, Prints words others other ∧ row.flatten = other.flatten := by
  induction others generalizing items row with
  | nil => exact ⟨[], .nil, code.flatten_eq_nil known prints marks⟩
  | cons item others inductionHypothesis =>
      have isKnown := otherKnown item List.mem_cons_self
      have later : ∀ item ∈ others, Known item :=
        fun item member => otherKnown item (List.mem_cons_of_mem _ member)
      have speak : ∀ item ∈ others, words item ≠ [] :=
        fun item member => speaks item (List.mem_cons_of_mem _ member)
      cases isMark : mark item with
      | none =>
          rcases List.exists_mem_of_ne_nil _ (speaks item List.mem_cons_self) with ⟨word, isWord⟩
          rw [List.filterMap_cons_none isMark] at marks
          rcases inductionHypothesis known later speak prints marks with ⟨other, printed, flat⟩
          refine ⟨word :: other, .cons isWord printed, ?_⟩
          rw [flat, List.flatten_cons, code.blank item isKnown isMark word isWord, List.nil_append]
      | some symbol =>
          rw [List.filterMap_cons_some isMark] at marks
          rcases code.exists_first known prints marks with
            ⟨first, word, items, row, firstKnown, firstMark, isWord, known, prints, split, isRest⟩
          rcases inductionHypothesis known later speak prints isRest with ⟨other, printed, flat⟩
          rw [code.same first item firstKnown isKnown (by simp [firstMark])
            (by rw [firstMark, isMark])] at isWord
          refine ⟨word :: other, .cons isWord printed, ?_⟩
          rw [split, flat, List.flatten_cons]

end MarkedCode

end Library
