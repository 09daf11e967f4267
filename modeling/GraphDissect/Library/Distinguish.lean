import Mathlib

/-!
# Telling selections apart

A selection from a list of items is read by the marks of its items, and by the
first output among them.  Items without a mark and items with a common mark are
what two selections can be confused by.
-/

namespace Library

variable {Item Mark Out : Type*} {items first second : List Item} {mark : Item → Option Mark}

section Marks

/-- Every item has a mark, and no two have the same. -/
def OwnMarks (mark : Item → Option Mark) (items : List Item) : Prop :=
  (none :: items.map mark).Nodup

theorem ownMarks_iff : OwnMarks mark items ↔
    (∀ item ∈ items, mark item ≠ none) ∧
      ∀ item other, [item, other].Sublist items → mark item ≠ mark other := by
  rw [OwnMarks, List.nodup_cons, List.nodup_iff_pairwise_ne, List.pairwise_map,
    List.pairwise_iff_forall_sublist]
  simp only [List.mem_map, not_exists, not_and]

theorem map_some_filterMap (marked : ∀ item ∈ first, mark item ≠ none) :
    (first.filterMap mark).map some = first.map mark := by
  induction first with
  | nil => rfl
  | cons item rest inductionHypothesis =>
      rcases Option.ne_none_iff_exists'.mp (marked item List.mem_cons_self) with ⟨symbol, isMark⟩
      rw [List.filterMap_cons_some isMark, List.map_cons, List.map_cons, isMark,
        inductionHypothesis fun item member => marked item (List.mem_cons_of_mem _ member)]

theorem eq_of_map_eq {Key : Type*} {key : Item → Key} (nodup : (items.map key).Nodup)
    (isFirst : first ⊆ items) (isSecond : second ⊆ items)
    (same : first.map key = second.map key) : first = second := by
  induction first generalizing second with
  | nil =>
      rw [List.map_nil, eq_comm, List.map_eq_nil_iff] at same
      exact same.symm
  | cons item rest inductionHypothesis =>
      cases second with
      | nil => cases same
      | cons other others =>
          rcases List.cons.inj same with ⟨here, later⟩
          rcases List.cons_subset.mp isFirst with ⟨itemIn, restIn⟩
          rcases List.cons_subset.mp isSecond with ⟨otherIn, othersIn⟩
          rw [List.inj_on_of_nodup_map nodup itemIn otherIn here,
            inductionHypothesis restIn othersIn later]

theorem OwnMarks.eq_of_filterMap_eq (own : OwnMarks mark items) (isFirst : first.Sublist items)
    (isSecond : second.Sublist items) (same : first.filterMap mark = second.filterMap mark) :
    first = second := by
  have marked {selection : List Item} (inside : selection.Sublist items) :
      ∀ item ∈ selection, mark item ≠ none :=
    fun item member => (ownMarks_iff.mp own).1 item (inside.subset member)
  refine eq_of_map_eq own.of_cons isFirst.subset isSecond.subset ?_
  rw [← map_some_filterMap (marked isFirst), ← map_some_filterMap (marked isSecond), same]

/-- The marks tell selections of a bounded size apart exactly when every item
has its own, or only the empty selection is allowed. -/
theorem marks_tell_apart_iff (nodup : items.Nodup) {size : Nat} :
    (∀ first second : List Item, first.Sublist items → second.Sublist items →
        first.length ≤ size → second.length ≤ size →
        first.filterMap mark = second.filterMap mark → first = second) ↔
      (1 ≤ size → OwnMarks mark items) := by
  constructor
  · intro apart room
    refine ownMarks_iff.mpr ⟨fun item member none => ?_, fun item other pair same => ?_⟩
    · have equal := apart [] [item] (List.nil_sublist _) (List.singleton_sublist.mpr member)
        (Nat.zero_le _) room (by simp [none])
      cases equal
    · have isItem : [item].Sublist items := (List.singleton_sublist.mpr (by simp)).trans pair
      have isOther : [other].Sublist items := (List.singleton_sublist.mpr (by simp)).trans pair
      have equal := apart [item] [other] isItem isOther room room (by simp [List.filterMap, same])
      exact nodup.forall_sublist pair (List.cons.inj equal).1
  · intro own first second isFirst isSecond firstShort secondShort same
    by_cases room : 1 ≤ size
    · exact (own room).eq_of_filterMap_eq isFirst isSecond same
    · rw [List.eq_nil_of_length_eq_zero (by omega : first.length = 0),
        List.eq_nil_of_length_eq_zero (by omega : second.length = 0)]

end Marks

section Outputs

variable [DecidableEq Out] {out : Item → Out} {quiet : Out}

/-- The first output that is not the quiet one. -/
def firstOut (out : Item → Out) (quiet : Out) : List Item → Out
  | [] => quiet
  | item :: rest => if out item = quiet then firstOut out quiet rest else out item

theorem firstOut_append_of_quiet (silent : ∀ item ∈ first, out item = quiet) :
    firstOut out quiet (first ++ second) = firstOut out quiet second := by
  induction first with
  | nil => rfl
  | cons item rest inductionHypothesis =>
      rw [List.cons_append, firstOut, if_pos (silent item List.mem_cons_self),
        inductionHypothesis fun item member => silent item (List.mem_cons_of_mem _ member)]

theorem firstOut_eq_quiet_or (selection : List Item) : firstOut out quiet selection = quiet ∨
    ∃ item ∈ selection, out item ≠ quiet ∧ firstOut out quiet selection = out item := by
  induction selection with
  | nil => exact .inl rfl
  | cons item rest inductionHypothesis =>
      rw [firstOut]
      split
      · rcases inductionHypothesis with none | ⟨other, member, loud, isFirst⟩
        · exact .inl none
        · exact .inr ⟨other, List.mem_cons_of_mem _ member, loud, isFirst⟩
      · next loud => exact .inr ⟨item, List.mem_cons_self, loud, rfl⟩

theorem firstOut_singleton (item : Item) : firstOut out quiet [item] = out item := by
  by_cases silent : out item = quiet <;> simp [firstOut, silent]

/-- What tells selections of a bounded size apart by their marks and their first
outputs: no item looks like another one or like no item, behind an item with an
output the marks alone decide, and an item without a mark does not repeat the
output of a later one. -/
structure ToldApart (mark : Item → Option Mark) (out : Item → Out) (quiet : Out)
    (items : List Item) (size : Nat) : Prop where
  single : 1 ≤ size → ((none, quiet) :: items.map fun item => (mark item, out item)).Nodup
  behind : 2 ≤ size → ∀ front item rest, items = front ++ item :: rest → out item ≠ quiet →
    OwnMarks mark rest
  before : 2 ≤ size → ∀ item other, [item, other].Sublist items → mark item = none →
    out other ≠ quiet → out item ≠ out other

theorem append_inj_of_forall {Symbol : Type*} {Early : Symbol → Prop} {front back front' back' : List Symbol}
    (same : front ++ back = front' ++ back') (isFront : ∀ symbol ∈ front, Early symbol)
    (isFront' : ∀ symbol ∈ front', Early symbol) (isBack : ∀ symbol ∈ back, ¬ Early symbol)
    (isBack' : ∀ symbol ∈ back', ¬ Early symbol) : front = front' ∧ back = back' := by
  rcases List.append_eq_append_iff.mp same with ⟨middle, rfl, rfl⟩ | ⟨middle, rfl, rfl⟩
  · cases middle with
    | nil => simp
    | cons symbol middle => exact absurd (isFront' symbol (by simp)) (isBack symbol (by simp))
  · cases middle with
    | nil => simp
    | cons symbol middle => exact absurd (isFront symbol (by simp)) (isBack' symbol (by simp))

theorem exists_toList (inside : first.Sublist items) (short : first.length ≤ 1) :
    ∃ choice ∈ none :: items.map some, first = choice.toList := by
  cases first with
  | nil => exact ⟨none, by simp, rfl⟩
  | cons item rest =>
      have alone : rest = [] := List.eq_nil_of_length_eq_zero (by simpa using short)
      subst alone
      exact ⟨some item, by simpa using List.singleton_sublist.mp inside, rfl⟩

theorem eq_of_single
    (single : ((none, quiet) :: items.map fun item => (mark item, out item)).Nodup)
    (isFirst : first.Sublist items) (isSecond : second.Sublist items) (firstShort : first.length ≤ 1)
    (secondShort : second.length ≤ 1) (marks : first.filterMap mark = second.filterMap mark)
    (outs : firstOut out quiet first = firstOut out quiet second) : first = second := by
  rcases exists_toList isFirst firstShort with ⟨choice, isChoice, rfl⟩
  rcases exists_toList isSecond secondShort with ⟨other, isOther, rfl⟩
  have keys : ((none :: items.map some).map fun choice : Option Item =>
      (choice.bind mark, choice.elim quiet out)).Nodup := by
    simpa [Function.comp_def] using single
  refine congrArg Option.toList (List.inj_on_of_nodup_map keys isChoice isOther ?_)
  have readMark (choice : Option Item) : choice.toList.filterMap mark = (choice.bind mark).toList := by
    cases choice with
    | none => rfl
    | some item => cases isMark : mark item <;> simp [isMark]
  have readOut (choice : Option Item) : firstOut out quiet choice.toList = choice.elim quiet out := by
    cases choice with
    | none => rfl
    | some item => exact firstOut_singleton item
  rw [readMark, readMark] at marks
  rw [readOut, readOut] at outs
  have sameMark : choice.bind mark = other.bind mark := by
    simpa using congrArg List.head? marks
  rw [sameMark, outs]

/-- Two selections behind the items before the first output: with the first item
that has an output or without it. -/
theorem ToldApart.eq_of_from_first {size : Nat} (told : ToldApart mark out quiet items size)
    (room : 2 ≤ size) {front rest : List Item} {loud : Item} (split : items = front ++ loud :: rest)
    (isLoud : out loud ≠ quiet)
    (clones : ∀ item other, [item, other].Sublist items → mark item ≠ none →
      mark item = mark other → out other ≠ quiet)
    (isSecond : second.Sublist rest) (marks : (loud :: first).filterMap mark = second.filterMap mark)
    (outs : out loud = firstOut out quiet second) : False := by
  have inside : (loud :: second).Sublist items := by
    rw [split]
    exact (isSecond.cons_cons loud).trans (List.sublist_append_right _ _)
  have own := told.behind room front loud rest split isLoud
  cases isMark : mark loud with
  | none =>
      rcases @firstOut_eq_quiet_or _ _ _ out quiet second with none | ⟨other, member, otherLoud, isOut⟩
      · exact isLoud (outs.trans none)
      · have pair : [loud, other].Sublist items :=
          ((List.singleton_sublist.mpr member).cons_cons loud).trans inside
        exact told.before room loud other pair isMark otherLoud (outs.trans isOut)
  | some symbol =>
      rw [List.filterMap_cons_some isMark] at marks
      cases second with
      | nil => cases marks
      | cons other second =>
          have otherMarked := (ownMarks_iff.mp own).1 other (isSecond.subset List.mem_cons_self)
          rcases Option.ne_none_iff_exists'.mp otherMarked with ⟨front, isOther⟩
          rw [List.filterMap_cons_some isOther] at marks
          rcases List.cons.inj marks with ⟨rfl, -⟩
          have pair : [loud, other].Sublist items :=
            ((List.singleton_sublist.mpr List.mem_cons_self).cons_cons loud).trans inside
          have otherLoud := clones loud other pair (by simp [isMark]) (by rw [isMark, isOther])
          rw [firstOut, if_neg otherLoud] at outs
          have single := (told.single (by omega)).of_cons
          rw [List.nodup_iff_pairwise_ne, List.pairwise_map] at single
          exact single.forall_sublist pair (by rw [isMark, isOther, outs])

omit [DecidableEq Out] in
theorem ToldApart.ownMarks_of_quiet {size : Nat} (told : ToldApart mark out quiet items size)
    (room : 1 ≤ size) {front : List Item} (inside : front.Sublist items)
    (silent : ∀ item ∈ front, out item = quiet) : OwnMarks mark front := by
  have single := told.single room
  rw [List.nodup_cons, List.nodup_iff_pairwise_ne, List.pairwise_map] at single
  refine ownMarks_iff.mpr ⟨fun item member none => ?_, fun item other pair same => ?_⟩
  · refine single.1 (List.mem_map.mpr ⟨item, inside.subset member, ?_⟩)
    rw [none, silent item member]
  · refine single.2.forall_sublist (pair.trans inside) ?_
    rw [same, silent item (pair.subset (by simp)), silent other (pair.subset (by simp))]

/-- Where two items fit in, the marks and the first output tell selections
apart. -/
theorem ToldApart.eq_of_room {size : Nat} (told : ToldApart mark out quiet items size)
    (room : 2 ≤ size)
    (clones : ∀ item other, [item, other].Sublist items → mark item ≠ none →
      mark item = mark other → out item ≠ quiet ∧ out other ≠ quiet)
    (isFirst : first.Sublist items) (isSecond : second.Sublist items)
    (marks : first.filterMap mark = second.filterMap mark)
    (outs : firstOut out quiet first = firstOut out quiet second) : first = second := by
  cases found : items.find? fun item => out item ≠ quiet with
  | none =>
      have silent : ∀ item ∈ items, out item = quiet := by
        simpa using List.find?_eq_none.mp found
      exact (told.ownMarks_of_quiet (by omega) (List.Sublist.refl _) silent).eq_of_filterMap_eq
        isFirst isSecond marks
  | some loud =>
      rcases List.find?_eq_some_iff_append.mp found with ⟨isLoud, front, rest, split, silent⟩
      have isLoud : out loud ≠ quiet := by simpa using isLoud
      have silent : ∀ item ∈ front, out item = quiet := by simpa using silent
      have early : front.Sublist items := split ▸ List.sublist_append_left _ _
      have frontOwn := told.ownMarks_of_quiet (by omega) early silent
      have restOwn := told.behind room front loud rest split isLoud
      rw [split, List.sublist_append_iff] at isFirst isSecond
      rcases isFirst with ⟨firstFront, firstBack, rfl, inFront, inBack⟩
      rcases isSecond with ⟨secondFront, secondBack, rfl, otherInFront, otherInBack⟩
      -- An item before the first output shares its mark with no later one.
      have isEarly {selection : List Item} (inside : selection.Sublist front) :
          ∀ symbol ∈ selection.filterMap mark, ∃ item ∈ front, mark item = some symbol := by
        intro symbol member
        rcases List.mem_filterMap.mp member with ⟨item, among, isMark⟩
        exact ⟨item, inside.subset among, isMark⟩
      have isLate {selection : List Item} (inside : selection.Sublist (loud :: rest)) :
          ∀ symbol ∈ selection.filterMap mark, ¬ ∃ item ∈ front, mark item = some symbol := by
        rintro symbol member ⟨item, among, isMark⟩
        rcases List.mem_filterMap.mp member with ⟨other, later, otherMark⟩
        have pair : [item, other].Sublist items := by
          rw [split]
          exact (List.singleton_sublist.mpr among).append
            (List.singleton_sublist.mpr (inside.subset later))
        exact (clones item other pair (by simp [isMark]) (by rw [isMark, otherMark])).1
          (silent item among)
      rw [List.filterMap_append, List.filterMap_append] at marks
      rcases append_inj_of_forall marks (isEarly inFront) (isEarly otherInFront) (isLate inBack)
        (isLate otherInBack) with ⟨fronts, backs⟩
      rw [firstOut_append_of_quiet fun item member => silent item (inFront.subset member),
        firstOut_append_of_quiet fun item member => silent item (otherInFront.subset member)] at outs
      rw [frontOwn.eq_of_filterMap_eq inFront otherInFront fronts]
      have clones' : ∀ item other, [item, other].Sublist items → mark item ≠ none →
          mark item = mark other → out other ≠ quiet :=
        fun item other pair marked same => (clones item other pair marked same).2
      rcases List.sublist_cons_iff.mp inBack with without | ⟨firstRest, rfl, inRest⟩
      · rcases List.sublist_cons_iff.mp otherInBack with otherWithout | ⟨secondRest, rfl, otherInRest⟩
        · rw [restOwn.eq_of_filterMap_eq without otherWithout backs]
        · rw [@firstOut.eq_2 _ _ _ out quiet loud, if_neg isLoud] at outs
          exact (told.eq_of_from_first room split isLoud clones' without backs.symm outs.symm).elim
      · rw [@firstOut.eq_2 _ _ _ out quiet loud, if_neg isLoud] at outs
        rcases List.sublist_cons_iff.mp otherInBack with otherWithout | ⟨secondRest, rfl, otherInRest⟩
        · exact (told.eq_of_from_first room split isLoud clones' otherWithout backs outs).elim
        · rw [List.filterMap_cons, List.filterMap_cons] at backs
          have rests : firstRest.filterMap mark = secondRest.filterMap mark := by
            cases isMark : mark loud <;> simpa [isMark] using backs
          rw [restOwn.eq_of_filterMap_eq inRest otherInRest rests]

/-- The marks and the first output tell selections of a bounded size apart
exactly when the items are told apart, provided that items with a common mark
have outputs. -/
theorem toldApart_iff (nodup : items.Nodup) {size : Nat}
    (clones : ∀ item other, [item, other].Sublist items → mark item ≠ none →
      mark item = mark other → out item ≠ quiet ∧ out other ≠ quiet) :
    (∀ first second : List Item, first.Sublist items → second.Sublist items →
        first.length ≤ size → second.length ≤ size →
        first.filterMap mark = second.filterMap mark →
        firstOut out quiet first = firstOut out quiet second → first = second) ↔
      ToldApart mark out quiet items size := by
  constructor
  · intro apart
    have alone {item : Item} (member : item ∈ items) : [item].Sublist items :=
      List.singleton_sublist.mpr member
    refine ⟨fun room => ?_, fun room front loud rest split isLoud => ?_, ?_⟩
    · rw [List.nodup_cons, List.nodup_iff_pairwise_ne, List.pairwise_map,
        List.pairwise_iff_forall_sublist]
      refine ⟨fun member => ?_, fun {item other} pair same => ?_⟩
      · rcases List.mem_map.mp member with ⟨item, among, same⟩
        rcases Prod.mk.inj same with ⟨isMark, isOut⟩
        have equal := apart [] [item] (List.nil_sublist _) (alone among) (Nat.zero_le _) room
          (by simp [isMark]) (by rw [firstOut_singleton, isOut, firstOut])
        cases equal
      · rcases Prod.mk.inj same with ⟨isMark, isOut⟩
        have equal := apart [item] [other] (alone (pair.subset (by simp)))
          (alone (pair.subset (by simp))) room room (by simp [List.filterMap, isMark])
          (by rw [firstOut_singleton, firstOut_singleton, isOut])
        exact nodup.forall_sublist pair (List.cons.inj equal).1
    · -- Behind an item with an output nothing else is seen of the outputs.
      have inside {selection : List Item} (later : selection.Sublist rest) :
          (loud :: selection).Sublist items := by
        rw [split]
        exact (later.cons_cons loud).trans (List.sublist_append_right _ _)
      have isOut (selection : List Item) : firstOut out quiet (loud :: selection) = out loud := by
        rw [firstOut, if_neg isLoud]
      refine ownMarks_iff.mpr ⟨fun item member none => ?_, fun item other pair same => ?_⟩
      · have equal := apart [loud] [loud, item] (inside (List.nil_sublist _))
          (inside (List.singleton_sublist.mpr member)) (by simp; omega) room
          (by simp [List.filterMap_cons, none]) (by rw [isOut, isOut])
        cases equal
      · have isItem : [item].Sublist rest := (List.singleton_sublist.mpr (by simp)).trans pair
        have isOther : [other].Sublist rest := (List.singleton_sublist.mpr (by simp)).trans pair
        have equal := apart [loud, item] [loud, other] (inside isItem) (inside isOther) room room
          (by simp [List.filterMap_cons, same]) (by rw [isOut, isOut])
        have later : rest.Sublist items :=
          (List.sublist_cons_self loud rest).trans (split ▸ List.sublist_append_right _ _)
        refine nodup.forall_sublist (pair.trans later) ?_
        simpa using equal
    · intro room item other pair none isLoud same
      have equal := apart [item, other] [other] pair (alone (pair.subset (by simp))) room
        (by simp; omega) (by simp [List.filterMap_cons, none])
        (by rw [firstOut, if_neg (same ▸ isLoud), firstOut_singleton, same])
      cases equal
  · intro told first second isFirst isSecond firstShort secondShort marks outs
    rcases Nat.lt_or_ge size 2 with small | room
    · rcases Nat.eq_zero_or_pos size with rfl | positive
      · rw [List.eq_nil_of_length_eq_zero (Nat.le_zero.mp firstShort),
          List.eq_nil_of_length_eq_zero (Nat.le_zero.mp secondShort)]
      · exact eq_of_single (told.single positive) isFirst isSecond (by omega) (by omega) marks outs
    · exact told.eq_of_room room clones isFirst isSecond marks outs

omit [DecidableEq Out] in
theorem toldApart_map_iff {Source : Type*} {source : Source → Item} {sources : List Source}
    {size : Nat} :
    ToldApart (fun item => mark (source item)) (fun item => out (source item)) quiet sources size ↔
      ToldApart mark out quiet (sources.map source) size := by
  have own (list : List Source) :
      OwnMarks (fun item => mark (source item)) list ↔ OwnMarks mark (list.map source) := by
    rw [OwnMarks, OwnMarks, List.map_map]
    rfl
  constructor
  · rintro ⟨single, behind, before⟩
    refine ⟨fun room => ?_, fun room front item rest split isLoud => ?_, ?_⟩
    · rw [List.map_map]
      exact single room
    · rcases List.map_eq_append_iff.mp split with ⟨front, back, isSources, rfl, isBack⟩
      rcases List.map_eq_cons_iff.mp isBack with ⟨item, rest, rfl, rfl, rfl⟩
      exact (own rest).mp (behind room front item rest isSources isLoud)
    · intro room item other pair
      rcases List.sublist_map_iff.mp pair with ⟨list, inside, same⟩
      rcases List.map_eq_cons_iff.mp same.symm with ⟨item, rest, rfl, rfl, isRest⟩
      rcases List.map_eq_cons_iff.mp isRest with ⟨other, none, rfl, rfl, isNone⟩
      cases List.map_eq_nil_iff.mp isNone
      exact before room item other inside
  · rintro ⟨single, behind, before⟩
    refine ⟨fun room => ?_, fun room front item rest split isLoud => ?_, ?_⟩
    · have single := single room
      rwa [List.map_map] at single
    · refine (own rest).mpr (behind room (front.map source) (source item) (rest.map source) ?_ isLoud)
      rw [split, List.map_append, List.map_cons]
    · exact fun room item other pair => before room _ _ (pair.map source)

end Outputs

end Library
