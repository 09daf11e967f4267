import GraphDissect.Drivers.Drivergen
import GraphDissect.Library.Numerals
import GraphDissect.Library.Text
import Mathlib

/-!
# The functions of a region

RQ5 packs the ids and the names of the functions of a region into parallel CSV
columns, each with a bound of its own on the number of items, and `region_study`
unpacks the columns and pairs them by position.  A name that is empty once its
whitespace is normalised leaves an empty item, which the parser drops, so that
the names behind it move up by one id.
-/

namespace GraphDissect.Analysis

open Library Drivergen

section Names

def occursAt (needle s : PyStr) (position : Nat) : Bool := needle.isPrefixOf (s.drop position)

/-- `rfind`: the last occurrence that starts at or before a position. -/
def rfind (needle s : PyStr) (position : Nat) : Option Nat :=
  (List.range (min position s.length + 1)).reverse.find? (occursAt needle s)

/-- `getClassFunctionName` for what the demangler answers, if it answers.  A
length of `size_t` that would be negative is larger than the text. -/
def getClassFunctionName (demangled : Option PyStr) (name : PyStr) : PyStr :=
  let s := (demangled.getD name).takeWhile (· ≠ '(')
  match rfind "::".toList s s.length with
  | none => s
  | some last =>
      let cls :=
        match rfind "::".toList s (if last = 0 then s.length else last - 1) with
        | some prev =>
            (s.drop (prev + 2)).take (if prev + 2 ≤ last then last - (prev + 2) else s.length)
        | none => s.take last
      cls ++ '_' :: s.drop (last + 2)

/-- `str(id)`. -/
def idText (id : Nat) : PyStr := Nat.toDigits 10 id

/-- `_get_node_name`: `none` stands for `None` and for an exception. -/
def nodeName (getNodeName : Nat → Option PyStr) (id : Nat) : PyStr :=
  (getNodeName id).getD (idText id)

end Names

section Packing

/-- The four `replace` calls of `_clean_csv_text`. -/
def spaceBreaks : PyStr → PyStr
  | '\r' :: '\n' :: rest => ' ' :: spaceBreaks rest
  | c :: rest => (if c = '\n' ∨ c = '\r' ∨ c = '\t' then ' ' else c) :: spaceBreaks rest
  | [] => []

def cleanCsvText (s : PyStr) : PyStr := List.intercalate [' '] (split (spaceBreaks s))

def packedItem (s : PyStr) : PyStr := (cleanCsvText s).map fun c => if c = ';' then '/' else c

def joinLimited (values : List PyStr) (limit : Nat) : PyStr :=
  List.intercalate [';'] ((values.take limit).map packedItem)

def storeLimit : Nat := 1500

def idLimit : Nat := 10000

/-- The packed columns of a row of the table of region functions. -/
structure PackedColumns where
  functionIds : PyStr
  functionNames : PyStr
  coveredFunctionIds : PyStr
  coveredFunctionNames : PyStr
  uncoveredFunctionIds : PyStr
  uncoveredFunctionNames : PyStr

/-- The row of a region in `_build_region_functions_table`. -/
def packRegion (getNodeName : Nat → Option PyStr) (unionCov region : Finset Nat) : PackedColumns :=
  let sortedNodes := region.sort (· ≤ ·)
  let coveredIds := sortedNodes.filter (· ∈ unionCov)
  let uncoveredIds := sortedNodes.filter (· ∉ unionCov)
  let ids (nodes : List Nat) : PyStr := joinLimited (nodes.map idText) idLimit
  let names (nodes : List Nat) : PyStr :=
    joinLimited (nodes.map (nodeName getNodeName)) storeLimit
  { functionIds := ids sortedNodes
    functionNames := names sortedNodes
    coveredFunctionIds := ids coveredIds
    coveredFunctionNames := names coveredIds
    uncoveredFunctionIds := ids uncoveredIds
    uncoveredFunctionNames := names uncoveredIds }

end Packing

section Parsing

/-- The items of a column, stripped, without the empty ones. -/
def columnItems (v : PyStr) : List PyStr :=
  ((v.splitOn ';').map (trim isSpace)).filter (· ≠ [])

def parseStrList (v : PyStr) : List PyStr := columnItems v

def isDecimal (c : Char) : Bool := '0' ≤ c && c ≤ '9'

/-- `int(x)` of a stripped text; `none` is `ValueError`. -/
def pyInt (s : PyStr) : Option Int :=
  let digits := match s with
    | '-' :: rest => rest
    | '+' :: rest => rest
    | _ => s
  let groups := digits.splitOn '_'
  if groups.all fun group => !group.isEmpty && group.all isDecimal then
    (readNat 10 groups.flatten).map fun n : Nat => if s.head? = some '-' then -(n : Int) else (n : Int)
  else none

def parseIntList (v : PyStr) : List Int := (columnItems v).filterMap pyInt

/-- The pairs that `_rank_function_names` ranks. -/
def rankedPairs (ids names : PyStr) : List (Int × PyStr) :=
  (parseIntList ids).zip (parseStrList names)

end Parsing

/-- Every ranked function has the name of its own id, and no id of the region is
lost. -/
structure KeepsAligned (getNodeName : Nat → Option PyStr) (unionCov region : Finset Nat) : Prop where
  covered : ∀ pair ∈ rankedPairs (packRegion getNodeName unionCov region).coveredFunctionIds
      (packRegion getNodeName unionCov region).coveredFunctionNames,
    ∃ id ∈ region ∩ unionCov, pair = ((id : Int), packedItem (nodeName getNodeName id))
  uncovered : ∀ pair ∈ rankedPairs (packRegion getNodeName unionCov region).uncoveredFunctionIds
      (packRegion getNodeName unionCov region).uncoveredFunctionNames,
    ∃ id ∈ region \ unionCov, pair = ((id : Int), packedItem (nodeName getNodeName id))
  complete : ∀ id ∈ region,
    (id : Int) ∈ parseIntList (packRegion getNodeName unionCov region).functionIds

/-- Of the names that are stored, the empty ones come last. -/
def EmptyLast (getNodeName : Nat → Option PyStr) (ids : List Nat) : Prop :=
  (ids.take storeLimit).Pairwise fun first second =>
    cleanCsvText (nodeName getNodeName first) = [] → cleanCsvText (nodeName getNodeName second) = []

section Items

theorem intercalate_ends {isSep : Char → Bool} (pieces : List PyStr)
    (areWords : ∀ piece ∈ pieces, IsWord isSep piece) :
    (∀ c ∈ (List.intercalate [' '] pieces).head?, isSep c = false) ∧
      ∀ c ∈ (List.intercalate [' '] pieces).getLast?, isSep c = false := by
  induction pieces with
  | nil => exact ⟨fun c none => absurd none (by simp), fun c none => absurd none (by simp)⟩
  | cons first rest inductionHypothesis =>
      have firstWord := areWords first List.mem_cons_self
      have restEnds := inductionHypothesis fun piece member =>
        areWords piece (List.mem_cons_of_mem first member)
      have firstEnds : ∀ c ∈ first, isSep c = false := firstWord.2
      by_cases last : rest = []
      · subst last
        rw [List.intercalate_singleton]
        exact ⟨fun c here => firstEnds c (List.mem_of_mem_head? here),
          fun c here => firstEnds c (List.mem_of_mem_getLast? here)⟩
      · have nonempty : List.intercalate [' '] rest ≠ [] := by
          intro nil
          rcases List.exists_mem_of_ne_nil rest last with ⟨piece, member⟩
          rcases List.exists_mem_of_ne_nil piece
            (areWords piece (List.mem_cons_of_mem first member)).1 with ⟨c, here⟩
          have inside : c ∈ List.intercalate [' '] rest := mem_intercalate_of_mem member here
          rw [nil] at inside
          cases inside
        rw [List.intercalate_cons_of_ne_nil last]
        constructor
        · intro c here
          rw [List.append_assoc, List.head?_append_of_ne_nil _ firstWord.1] at here
          exact firstEnds c (List.mem_of_mem_head? here)
        · intro c here
          rw [List.getLast?_append_of_ne_nil _ nonempty] at here
          exact restEnds.2 c here

theorem trim_packedItem (s : PyStr) : trim isSpace (packedItem s) = packedItem s := by
  have ends := intercalate_ends (split (spaceBreaks s)) fun piece member =>
    isWord_of_mem_words member
  have slash : ∀ c, isSpace c = false → isSpace (if c = ';' then '/' else c) = false := by
    intro c visible
    split_ifs
    · rfl
    · exact visible
  apply trim_of_ends
  · intro c here
    rw [packedItem, List.head?_map, Option.mem_map] at here
    rcases here with ⟨original, first, rfl⟩
    exact slash original (ends.1 original first)
  · intro c here
    rw [packedItem, List.getLast?_map, Option.mem_map] at here
    rcases here with ⟨original, last, rfl⟩
    exact slash original (ends.2 original last)

theorem semicolon_notMem_packedItem (s : PyStr) : ';' ∉ packedItem s := by
  intro member
  rcases List.mem_map.mp member with ⟨c, -, replaced⟩
  split_ifs at replaced with isSemicolon
  · exact absurd replaced (by decide)
  · exact isSemicolon replaced

theorem packedItem_eq_nil_iff {s : PyStr} : packedItem s = [] ↔ cleanCsvText s = [] :=
  List.map_eq_nil_iff

theorem columnItems_joinLimited (values : List PyStr) (limit : Nat) :
    columnItems (joinLimited values limit) =
      ((values.take limit).map packedItem).filter (· ≠ []) := by
  unfold columnItems joinLimited
  generalize values.take limit = stored
  have plain : ∀ item ∈ stored.map packedItem, ';' ∉ item := by
    intro item member
    rcases List.mem_map.mp member with ⟨value, -, rfl⟩
    exact semicolon_notMem_packedItem value
  have trimmed : (stored.map packedItem).map (trim isSpace) = stored.map packedItem := by
    rw [List.map_map]
    exact List.map_congr_left fun value _ => trim_packedItem value
  by_cases empty : stored = []
  · subst empty
    rfl
  · rw [List.splitOn_intercalate ';' plain (by simpa using empty), trimmed]

end Items

section Ids

theorem idText_visible (id : Nat) : ∀ c ∈ idText id, isDecimal c = true ∧ isSpace c = false := by
  have digits : ∀ d < 10, isDecimal d.digitChar = true ∧ isSpace d.digitChar = false := by decide
  intro c member
  rcases mem_toDigits (by decide) member with ⟨d, small, rfl⟩
  exact digits d small

theorem idText_ne_nil (id : Nat) : idText id ≠ [] := Nat.toDigits_ne_nil

theorem spaceBreaks_of_visible {s : PyStr} (visible : ∀ c ∈ s, isSpace c = false) :
    spaceBreaks s = s := by
  induction s using spaceBreaks.induct with
  | case1 rest inductionHypothesis =>
      exact absurd (visible '\r' List.mem_cons_self) (by decide)
  | case2 c rest notBreak inductionHypothesis =>
      have plain : ¬ (c = '\n' ∨ c = '\r' ∨ c = '\t') := by
        rintro (rfl | rfl | rfl)
        all_goals exact absurd (visible _ List.mem_cons_self) (by decide)
      rw [spaceBreaks, if_neg plain,
        inductionHypothesis fun other member => visible other (List.mem_cons_of_mem c member)]
      exact notBreak
  | case3 => rw [spaceBreaks]

theorem packedItem_idText (id : Nat) : packedItem (idText id) = idText id := by
  have visible : ∀ c ∈ idText id, isSpace c = false := fun c member => (idText_visible id c member).2
  have isWord : IsWord isSpace (idText id) := ⟨idText_ne_nil id, visible⟩
  have plain : ∀ c ∈ idText id, (if c = ';' then '/' else c) = c := by
    intro c member
    rw [if_neg]
    rintro rfl
    exact absurd (idText_visible id ';' member).1 (by decide)
  unfold packedItem cleanCsvText split
  rw [spaceBreaks_of_visible visible, isWord.words_eq, List.intercalate_singleton]
  exact (List.map_congr_left plain).trans (List.map_id _)

theorem pyInt_idText (id : Nat) : pyInt (idText id) = some (id : Int) := by
  have decimal : ∀ c ∈ idText id, isDecimal c = true := fun c member => (idText_visible id c member).1
  have unsigned : ∀ sign, isDecimal sign = false → (idText id).head? ≠ some sign := by
    intro sign isSign here
    have digit := decimal sign (List.mem_of_mem_head? here)
    rw [isSign] at digit
    cases digit
  have digits : (match idText id with
      | '-' :: rest => rest
      | '+' :: rest => rest
      | _ => idText id) = idText id := by
    split
    · next rest equal => exact absurd (by rw [equal]; rfl) (unsigned '-' rfl)
    · next rest equal => exact absurd (by rw [equal]; rfl) (unsigned '+' rfl)
    · rfl
  have groups : (idText id).splitOn '_' = [idText id] := by
    apply List.splitOn_eq_singleton
    intro member
    exact absurd (decimal '_' member) (by decide)
  have valid : ([idText id].all fun group => !group.isEmpty && group.all isDecimal) = true := by
    simpa [idText_ne_nil] using decimal
  unfold pyInt
  rw [digits]
  dsimp only
  rw [groups, if_pos valid, List.flatten_singleton, idText, readNat_toDigits (by decide) (by decide),
    Option.map_some, ← idText, if_neg (unsigned '-' rfl)]

theorem parseIntList_joinLimited (ids : List Nat) (limit : Nat) :
    parseIntList (joinLimited (ids.map idText) limit) = (ids.take limit).map fun id : Nat => (id : Int) := by
  unfold parseIntList
  rw [columnItems_joinLimited, ← List.map_take]
  generalize ids.take limit = stored
  have packed : (stored.map idText).map packedItem = stored.map idText := by
    rw [List.map_map]
    exact List.map_congr_left fun id _ => packedItem_idText id
  have kept : (stored.map idText).filter (· ≠ []) = stored.map idText := by
    apply List.filter_eq_self.mpr
    intro text member
    rcases List.mem_map.mp member with ⟨id, -, rfl⟩
    exact decide_eq_true (idText_ne_nil id)
  rw [packed, kept, List.filterMap_map]
  have parsed : ∀ id ∈ stored, (pyInt ∘ idText) id = some (id : Int) := fun id _ => pyInt_idText id
  rw [List.filterMap_congr parsed]
  exact congrFun List.filterMap_eq_map stored

end Ids

theorem zip_filter_aligned {name : Nat → PyStr} {ids stored rest : List Nat}
    (same : ids = stored ++ rest) :
    (∀ pair ∈ ids.zip ((stored.map name).filter (· ≠ [])), pair.2 = name pair.1) ↔
      stored.Pairwise fun first second => name first = [] → name second = [] := by
  subst same
  induction stored with
  | nil => simp
  | cons id stored inductionHypothesis =>
      rw [List.cons_append, List.map_cons, List.pairwise_cons]
      by_cases empty : name id = []
      · rw [List.filter_cons_of_neg (by simp [empty])]
        constructor
        · intro aligned
          have none : (stored.map name).filter (· ≠ []) = [] := by
            by_contra some
            rcases List.exists_cons_of_ne_nil some with ⟨first, later, names⟩
            have pair := aligned (id, first) (by rw [names]; exact List.mem_cons_self)
            have member : first ∈ (stored.map name).filter (· ≠ []) :=
              names ▸ List.mem_cons_self
            have nonempty := of_decide_eq_true (List.mem_filter.mp member).2
            exact nonempty (pair.trans empty)
          have allEmpty : ∀ other ∈ stored, name other = [] := by
            intro other member
            have dropped := List.filter_eq_nil_iff.mp none (name other)
              (List.mem_map.mpr ⟨other, member, rfl⟩)
            simpa using dropped
          exact ⟨fun other member _ => allEmpty other member,
            List.pairwise_of_forall_mem_list fun first _ second member _ => allEmpty second member⟩
        · rintro ⟨allEmpty, -⟩
          have none : (stored.map name).filter (· ≠ []) = [] := by
            rw [List.filter_eq_nil_iff]
            intro text member
            rcases List.mem_map.mp member with ⟨other, inside, rfl⟩
            simp [allEmpty other inside empty]
          rw [none]
          simp
      · rw [List.filter_cons_of_pos (by simp [empty]), List.zip_cons_cons, List.forall_mem_cons,
          inductionHypothesis]
        simp [empty]

section Alignment

variable (getNodeName : Nat → Option PyStr)

theorem rankedPairs_pack (ids : List Nat) :
    rankedPairs (joinLimited (ids.map idText) idLimit)
        (joinLimited (ids.map (nodeName getNodeName)) storeLimit) =
      ((ids.take idLimit).zip
        (((ids.take storeLimit).map fun id => packedItem (nodeName getNodeName id)).filter
          (· ≠ []))).map fun pair => ((pair.1 : Int), pair.2) := by
  unfold rankedPairs parseStrList
  rw [parseIntList_joinLimited, columnItems_joinLimited, ← List.map_take, List.map_map]
  exact List.zip_map_left

/-- The pairs of one list of functions are right just when its empty names come
last. -/
theorem rankedPairs_aligned_iff (ids : List Nat) (members : Finset Nat)
    (listed : ∀ id, id ∈ ids ↔ id ∈ members) :
    (∀ pair ∈ rankedPairs (joinLimited (ids.map idText) idLimit)
          (joinLimited (ids.map (nodeName getNodeName)) storeLimit),
        ∃ id ∈ members, pair = ((id : Int), packedItem (nodeName getNodeName id))) ↔
      EmptyLast getNodeName ids := by
  have stored : ids.take idLimit =
      ids.take storeLimit ++ (ids.take idLimit).drop storeLimit := by
    have prefixed : (ids.take idLimit).take storeLimit = ids.take storeLimit := by
      rw [List.take_take]
      rfl
    rw [← prefixed, List.take_append_drop]
  unfold EmptyLast
  simp only [← packedItem_eq_nil_iff]
  rw [← zip_filter_aligned stored, rankedPairs_pack, List.forall_mem_map]
  apply forall₂_congr
  intro pair member
  constructor
  · rintro ⟨id, inside, equal⟩
    rcases Prod.mk.inj equal with ⟨sameId, sameName⟩
    rw [sameName, Int.ofNat.inj sameId]
  · intro named
    have isId : pair.1 ∈ ids := List.mem_of_mem_take (List.of_mem_zip member).1
    exact ⟨pair.1, (listed pair.1).mp isId, by rw [← named]⟩

theorem complete_iff (region : Finset Nat) :
    (∀ id ∈ region, (id : Int) ∈
        parseIntList (joinLimited ((region.sort (· ≤ ·)).map idText) idLimit)) ↔
      region.card ≤ idLimit := by
  have cast : ∀ {id : Nat} {ids : List Nat},
      (id : Int) ∈ ids.map (fun id : Nat => (id : Int)) ↔ id ∈ ids := by
    intro id ids
    exact List.mem_map_of_injective Nat.cast_injective
  rw [parseIntList_joinLimited]
  simp only [cast]
  constructor
  · intro complete
    have inside : region ⊆ ((region.sort (· ≤ ·)).take idLimit).toFinset :=
      fun id member => List.mem_toFinset.mpr (complete id member)
    calc
      region.card ≤ ((region.sort (· ≤ ·)).take idLimit).toFinset.card := Finset.card_le_card inside
      _ ≤ ((region.sort (· ≤ ·)).take idLimit).length := List.toFinset_card_le _
      _ ≤ idLimit := List.length_take_le _ _
  · intro small id member
    rw [List.take_of_length_le (by rw [Finset.length_sort]; exact small)]
    exact (Finset.mem_sort _).mpr member

end Alignment

/-- The lists of a region stay aligned and complete exactly when the region has at
most 10000 functions and, in either list, the names that are empty come last. -/
theorem keepsAligned_iff (getNodeName : Nat → Option PyStr) (unionCov region : Finset Nat) :
    KeepsAligned getNodeName unionCov region ↔
      region.card ≤ idLimit ∧
        EmptyLast getNodeName ((region.sort (· ≤ ·)).filter (· ∈ unionCov)) ∧
        EmptyLast getNodeName ((region.sort (· ≤ ·)).filter (· ∉ unionCov)) := by
  have covered := rankedPairs_aligned_iff getNodeName
    ((region.sort (· ≤ ·)).filter (· ∈ unionCov)) (region ∩ unionCov)
    fun id => by simp
  have uncovered := rankedPairs_aligned_iff getNodeName
    ((region.sort (· ≤ ·)).filter (· ∉ unionCov)) (region \ unionCov)
    fun id => by simp
  rw [← covered, ← uncovered, ← complete_iff]
  constructor
  · rintro ⟨coveredPairs, uncoveredPairs, complete⟩
    exact ⟨complete, coveredPairs, uncoveredPairs⟩
  · rintro ⟨complete, coveredPairs, uncoveredPairs⟩
    exact ⟨coveredPairs, uncoveredPairs, complete⟩

/-- The id column holds the first 10000 ids, and the pairs of a list whose empty
names come last are right. -/
theorem region_lists_aligned (getNodeName : Nat → Option PyStr) (unionCov region : Finset Nat) :
    parseIntList (packRegion getNodeName unionCov region).functionIds =
        ((region.sort (· ≤ ·)).take idLimit).map (fun id : Nat => (id : Int)) ∧
      (EmptyLast getNodeName ((region.sort (· ≤ ·)).filter (· ∈ unionCov)) →
        ∀ pair ∈ rankedPairs (packRegion getNodeName unionCov region).coveredFunctionIds
            (packRegion getNodeName unionCov region).coveredFunctionNames,
          ∃ id ∈ region ∩ unionCov, pair = ((id : Int), packedItem (nodeName getNodeName id))) ∧
      (EmptyLast getNodeName ((region.sort (· ≤ ·)).filter (· ∉ unionCov)) →
        ∀ pair ∈ rankedPairs (packRegion getNodeName unionCov region).uncoveredFunctionIds
            (packRegion getNodeName unionCov region).uncoveredFunctionNames,
          ∃ id ∈ region \ unionCov, pair = ((id : Int), packedItem (nodeName getNodeName id))) := by
  have covered := rankedPairs_aligned_iff getNodeName
    ((region.sort (· ≤ ·)).filter (· ∈ unionCov)) (region ∩ unionCov) fun id => by simp
  have uncovered := rankedPairs_aligned_iff getNodeName
    ((region.sort (· ≤ ·)).filter (· ∉ unionCov)) (region \ unionCov) fun id => by simp
  exact ⟨parseIntList_joinLimited _ idLimit, covered.mpr, uncovered.mpr⟩

/-- A function in an anonymous namespace, whose shortened name is empty, and a
function of C. -/
def anonymousNames : Nat → Option PyStr
  | 1 => some (getClassFunctionName (some "(anonymous namespace)::helper()".toList)
      "_ZN12_GLOBAL__N_16helperEv".toList)
  | _ => some (getClassFunctionName none "run".toList)

/-- The function of C on its own. -/
theorem region_lists_aligned_single :
    ∀ pair ∈ rankedPairs (packRegion anonymousNames ∅ {2}).uncoveredFunctionIds
        (packRegion anonymousNames ∅ {2}).uncoveredFunctionNames,
      ∃ id ∈ ({2} : Finset Nat) \ ∅, pair = ((id : Int), packedItem (nodeName anonymousNames id)) := by
  apply (region_lists_aligned anonymousNames ∅ {2}).2.2
  unfold EmptyLast
  rw [Finset.sort_singleton]
  decide

/-- The name of the second function is ranked under the id of the first, and a
region of 10001 functions loses an id. -/
theorem region_lists_shift :
    ¬ KeepsAligned anonymousNames ∅ {1, 2} ∧
      ¬ KeepsAligned anonymousNames ∅ (Finset.range 10001) := by
  constructor
  · intro aligned
    have shifted : ((1 : Int), "run".toList) ∈
        rankedPairs (packRegion anonymousNames ∅ {1, 2}).uncoveredFunctionIds
          (packRegion anonymousNames ∅ {1, 2}).uncoveredFunctionNames := by
      have sorted : ({1, 2} : Finset Nat).sort (· ≤ ·) = [1, 2] := by
        rw [Finset.sort_insert (· ≤ ·) (a := 1) (s := {2}) (by simp) (by simp),
          Finset.sort_singleton]
      unfold packRegion
      rw [sorted]
      decide +kernel
    rcases aligned.uncovered _ shifted with ⟨id, -, equal⟩
    rcases Prod.mk.inj equal with ⟨sameId, sameName⟩
    cases Int.ofNat.inj sameId
    exact absurd sameName (by decide +kernel)
  · intro aligned
    have small := (complete_iff (Finset.range 10001)).mp aligned.complete
    rw [Finset.card_range] at small
    exact absurd small (by decide)

end GraphDissect.Analysis
