import Mathlib

/-!
# Selections from a list

The selections of a given size, in the order in which `itertools.combinations`
gives them.
-/

namespace Library

variable {α : Type*}

/-- `itertools.combinations`. -/
def combinations : Nat → List α → List (List α)
  | 0, _ => [[]]
  | _ + 1, [] => []
  | size + 1, first :: rest =>
      (combinations size rest).map (first :: ·) ++ combinations (size + 1) rest

theorem mem_combinations {size : Nat} {items selection : List α} :
    selection ∈ combinations size items ↔ selection.Sublist items ∧ selection.length = size := by
  induction items generalizing size selection with
  | nil =>
      cases size with
      | zero => simp [combinations]
      | succ size =>
          simp only [combinations, List.not_mem_nil, List.sublist_nil, false_iff, not_and]
          rintro rfl
          simp
  | cons first rest inductionHypothesis =>
      cases size with
      | zero =>
          simp only [combinations, List.mem_singleton, List.length_eq_zero_iff]
          constructor
          · rintro rfl
            exact ⟨List.nil_sublist _, rfl⟩
          · exact fun empty => empty.2
      | succ size =>
          rw [combinations, List.mem_append, List.mem_map, inductionHypothesis]
          constructor
          · rintro (⟨tail, member, rfl⟩ | ⟨sublist, length⟩)
            · rcases inductionHypothesis.mp member with ⟨sublist, length⟩
              exact ⟨sublist.cons_cons first, by simp [length]⟩
            · exact ⟨sublist.cons first, length⟩
          · rintro ⟨sublist, length⟩
            cases sublist with
            | cons _ sublist => exact .inr ⟨sublist, length⟩
            | cons_cons _ sublist =>
                exact .inl ⟨_, inductionHypothesis.mpr ⟨sublist, by simpa using length⟩, rfl⟩

theorem exists_sublist_with {selection items : List α} {item : α}
    (sublist : selection.Sublist items) (member : item ∈ items) :
    ∃ larger : List α, larger.Sublist items ∧ selection.Sublist larger ∧ item ∈ larger ∧
      larger.length ≤ selection.length + 1 := by
  induction sublist with
  | slnil => cases member
  | @cons selection items first sublist inductionHypothesis =>
      rcases List.mem_cons.mp member with rfl | later
      · exact ⟨item :: selection, sublist.cons_cons item, List.sublist_cons_self _ _,
          List.mem_cons_self, by simp⟩
      · rcases inductionHypothesis later with ⟨larger, inside, contains, has, short⟩
        exact ⟨larger, inside.cons first, contains, has, short⟩
  | @cons_cons selection items first sublist inductionHypothesis =>
      rcases List.mem_cons.mp member with rfl | later
      · exact ⟨item :: selection, sublist.cons_cons item, List.Sublist.refl _,
          List.mem_cons_self, by simp⟩
      · rcases inductionHypothesis later with ⟨larger, inside, contains, has, short⟩
        exact ⟨first :: larger, inside.cons_cons first, contains.cons_cons first,
          List.mem_cons_of_mem first has, by simpa using short⟩

theorem two_le_countP_iff {test : α → Bool} {items : List α} :
    2 ≤ items.countP test ↔
      ∃ first second, [first, second].Sublist items ∧ test first = true ∧ test second = true := by
  constructor
  · intro two
    rw [List.countP_eq_length_filter] at two
    cases kept : items.filter test with
    | nil => simp [kept] at two
    | cons first rest =>
        cases rest with
        | nil => simp [kept] at two
        | cons second rest =>
            have pair : [first, second].Sublist (items.filter test) := by
              rw [kept]
              exact ((List.nil_sublist rest).cons_cons second).cons_cons first
            have tested : ∀ item ∈ [first, second], test item = true :=
              fun item member => List.of_mem_filter (pair.subset member)
            exact ⟨first, second, pair.trans List.filter_sublist, tested first (by simp),
              tested second (by simp)⟩
  · rintro ⟨first, second, pair, isFirst, isSecond⟩
    have fewer : [first, second].countP test ≤ items.countP test := pair.countP_le
    simpa [isFirst, isSecond] using fewer

section Bounded

variable {β Key : Type*} {items : List α} {size : Nat}

theorem combinations_map (source : β → α) (size : Nat) (items : List β) :
    combinations size (items.map source) = (combinations size items).map (List.map source) := by
  induction items generalizing size with
  | nil => cases size <;> rfl
  | cons first rest inductionHypothesis =>
      cases size with
      | zero => rfl
      | succ size =>
          rw [List.map_cons, combinations, combinations, inductionHypothesis, inductionHypothesis,
            List.map_append, List.map_map, List.map_map]
          rfl

theorem nodup_combinations (nodup : items.Nodup) (size : Nat) : (combinations size items).Nodup := by
  induction items generalizing size with
  | nil => cases size <;> simp [combinations]
  | cons first rest inductionHypothesis =>
      cases size with
      | zero => simp [combinations]
      | succ size =>
          rw [List.nodup_cons] at nodup
          rw [combinations]
          refine ((inductionHypothesis nodup.2 size).map List.cons_injective).append
            (inductionHypothesis nodup.2 (size + 1)) ?_
          intro selection isFirst isLater
          rcases List.mem_map.mp isFirst with ⟨tail, -, rfl⟩
          exact nodup.1 ((mem_combinations.mp isLater).1.subset List.mem_cons_self)

/-- The selections of at most a given size. -/
def selectionsUpTo (size : Nat) (items : List α) : List (List α) :=
  (List.range (size + 1)).flatMap fun k => combinations k items

theorem mem_selectionsUpTo {selection : List α} :
    selection ∈ selectionsUpTo size items ↔ selection.Sublist items ∧ selection.length ≤ size := by
  simp only [selectionsUpTo, List.mem_flatMap, mem_combinations, List.mem_range, Nat.lt_succ_iff]
  constructor
  · rintro ⟨k, short, inside, rfl⟩
    exact ⟨inside, short⟩
  · rintro ⟨inside, short⟩
    exact ⟨_, short, inside, rfl⟩

theorem nodup_selectionsUpTo (nodup : items.Nodup) : (selectionsUpTo size items).Nodup := by
  rw [selectionsUpTo, List.nodup_flatMap]
  refine ⟨fun k _ => nodup_combinations nodup k, ?_⟩
  refine List.nodup_range.imp fun {k other} apart selection isFirst isSecond => ?_
  exact apart ((mem_combinations.mp isFirst).2.symm.trans (mem_combinations.mp isSecond).2)

theorem nodup_zipIdx (items : List α) : items.zipIdx.Nodup := by
  refine List.Nodup.of_map Prod.snd ?_
  rw [List.zipIdx_map_snd]
  exact List.nodup_range'

/-- A key tells the selections apart when it tells apart the sets of positions
that they come from. -/
theorem nodup_map_selectionsUpTo_iff {key : List α → Key} :
    ((selectionsUpTo size items).map key).Nodup ↔
      ∀ first second : List (α × Nat), first.Sublist items.zipIdx → second.Sublist items.zipIdx →
        first.length ≤ size → second.length ≤ size →
        key (first.map Prod.fst) = key (second.map Prod.fst) → first = second := by
  have positions : (selectionsUpTo size items.zipIdx).map (fun places => key (places.map Prod.fst)) =
      (selectionsUpTo size items).map key := by
    conv_rhs => rw [← List.zipIdx_map_fst 0 items]
    simp only [selectionsUpTo, combinations_map, List.map_flatMap, List.map_map]
    rfl
  rw [← positions, List.nodup_map_iff_inj_on (nodup_selectionsUpTo (nodup_zipIdx items))]
  simp only [mem_selectionsUpTo]
  constructor
  · intro apart first second isFirst isSecond firstShort secondShort same
    exact apart first ⟨isFirst, firstShort⟩ second ⟨isSecond, secondShort⟩ same
  · intro apart first isFirst second isSecond same
    exact apart first second isFirst.1 isSecond.1 isFirst.2 isSecond.2 same

end Bounded

end Library
