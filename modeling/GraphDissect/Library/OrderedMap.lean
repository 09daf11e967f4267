import Mathlib

/-!
# Ordered maps

A finite map as the list of its entries in increasing order of their keys,
which is also the order in which the map is walked.
-/

namespace Library

universe u v

/-- Entries in strictly increasing order of their keys. -/
structure OrderedMap (Key : Type u) (Value : Type v) [LinearOrder Key] where
  entries : List (Key × Value)
  sorted : entries.Pairwise (fun first second => first.1 < second.1)

namespace OrderedMap

variable {Key : Type u} {Value : Type v} [LinearOrder Key]

def empty : OrderedMap Key Value := ⟨[], .nil⟩

def findIn (key : Key) : List (Key × Value) → Option Value
  | [] => none
  | (other, value) :: rest => if key = other then some value else findIn key rest

/-- Put an entry in its place, over an entry of the same key. -/
def insertIn (key : Key) (value : Value) : List (Key × Value) → List (Key × Value)
  | [] => [(key, value)]
  | (other, old) :: rest =>
      if key < other then (key, value) :: (other, old) :: rest
      else if key = other then (key, value) :: rest
      else (other, old) :: insertIn key value rest

def find (map : OrderedMap Key Value) (key : Key) : Option Value := findIn key map.entries

/-- The values in the order of their keys. -/
def values (map : OrderedMap Key Value) : List Value := map.entries.map Prod.snd

theorem mem_insertIn {key : Key} {value : Value} {entries : List (Key × Value)}
    {entry : Key × Value} (member : entry ∈ insertIn key value entries) :
    entry = (key, value) ∨ entry ∈ entries := by
  induction entries with
  | nil => exact .inl (by simpa [insertIn] using member)
  | cons head rest inductionHypothesis =>
      simp only [insertIn] at member
      split at member
      next => simpa using member
      next =>
        split at member
        next =>
          rcases List.mem_cons.mp member with here | later
          · exact .inl here
          · exact .inr (List.mem_cons_of_mem head later)
        next =>
          rcases List.mem_cons.mp member with here | later
          · exact .inr (by rw [here]; exact List.mem_cons_self)
          · rcases inductionHypothesis later with fresh | old
            · exact .inl fresh
            · exact .inr (List.mem_cons_of_mem head old)

theorem sorted_insertIn (key : Key) (value : Value) {entries : List (Key × Value)}
    (sorted : entries.Pairwise (fun first second => first.1 < second.1)) :
    (insertIn key value entries).Pairwise (fun first second => first.1 < second.1) := by
  induction entries with
  | nil => exact List.pairwise_singleton _ _
  | cons head rest inductionHypothesis =>
      rw [List.pairwise_cons] at sorted
      simp only [insertIn]
      split
      next before =>
        refine List.pairwise_cons.mpr ⟨?_, List.pairwise_cons.mpr sorted⟩
        intro entry member
        rcases List.mem_cons.mp member with here | later
        · rwa [here]
        · exact lt_trans before (sorted.1 entry later)
      next notBefore =>
        split
        next same =>
          subst same
          exact List.pairwise_cons.mpr ⟨sorted.1, sorted.2⟩
        next different =>
          refine List.pairwise_cons.mpr ⟨?_, inductionHypothesis sorted.2⟩
          intro entry member
          rcases mem_insertIn member with rfl | old
          · exact lt_of_le_of_ne (not_lt.mp notBefore) (Ne.symm different)
          · exact sorted.1 entry old

def insert (map : OrderedMap Key Value) (key : Key) (value : Value) : OrderedMap Key Value :=
  ⟨insertIn key value map.entries, sorted_insertIn key value map.sorted⟩

def erase (map : OrderedMap Key Value) (key : Key) : OrderedMap Key Value :=
  ⟨map.entries.filter fun entry => entry.1 ≠ key, map.sorted.filter _⟩

theorem entries_insert_last {map : OrderedMap Key Value} {key : Key} (value : Value)
    (above : ∀ entry ∈ map.entries, entry.1 < key) :
    (map.insert key value).entries = map.entries ++ [(key, value)] := by
  change insertIn key value map.entries = map.entries ++ [(key, value)]
  generalize map.entries = entries at above
  induction entries with
  | nil => rfl
  | cons head rest inductionHypothesis =>
      have below := above head List.mem_cons_self
      rw [insertIn, if_neg (lt_asymm below), if_neg (ne_of_gt below),
        inductionHypothesis fun entry member => above entry (List.mem_cons_of_mem head member)]
      rfl

@[simp]
theorem find_empty (key : Key) : (empty : OrderedMap Key Value).find key = none := rfl

theorem find_insert (map : OrderedMap Key Value) (key other : Key) (value : Value) :
    (map.insert key value).find other = if other = key then some value else map.find other := by
  change findIn other (insertIn key value map.entries) =
    if other = key then some value else findIn other map.entries
  generalize map.entries = entries
  induction entries with
  | nil => rfl
  | cons head rest inductionHypothesis =>
      simp only [insertIn]
      split
      next => rfl
      next =>
        split
        next same =>
          subst same
          by_cases here : other = head.1 <;> simp [findIn, here]
        next different =>
          simp only [findIn]
          split
          next here =>
            rw [if_neg]
            rintro rfl
            exact different here
          next => exact inductionHypothesis

theorem find_eq_some_iff {map : OrderedMap Key Value} {key : Key} {value : Value} :
    map.find key = some value ↔ (key, value) ∈ map.entries := by
  rcases map with ⟨entries, sorted⟩
  change findIn key entries = some value ↔ (key, value) ∈ entries
  induction entries with
  | nil => simp [findIn]
  | cons head rest inductionHypothesis =>
      rw [List.pairwise_cons] at sorted
      simp only [findIn]
      split
      next here =>
        subst here
        constructor
        · intro found
          cases found
          exact List.mem_cons_self
        · intro member
          rcases List.mem_cons.mp member with here | later
          · rw [← here]
          · exact absurd (sorted.1 _ later) (lt_irrefl _)
      next different =>
        rw [inductionHypothesis sorted.2]
        constructor
        · exact List.mem_cons_of_mem head
        · intro member
          rcases List.mem_cons.mp member with here | later
          · exact absurd (congrArg Prod.fst here) different
          · exact later

theorem find_erase (map : OrderedMap Key Value) (key other : Key) :
    (map.erase key).find other = if other = key then none else map.find other := by
  apply Option.ext
  intro value
  rw [find_eq_some_iff, erase, List.mem_filter, ← find_eq_some_iff]
  by_cases same : other = key
  · simp [same]
  · simp [same]

theorem perm_insert {map : OrderedMap Key Value} {key : Key} (value : Value)
    (absent : map.find key = none) :
    (map.insert key value).entries.Perm ((key, value) :: map.entries) := by
  change findIn key map.entries = none at absent
  change (insertIn key value map.entries).Perm ((key, value) :: map.entries)
  generalize map.entries = entries at absent
  induction entries with
  | nil => exact .refl _
  | cons head rest inductionHypothesis =>
      rw [findIn] at absent
      split at absent
      next => cases absent
      next different =>
        simp only [insertIn, if_neg different]
        split
        next => exact .refl _
        next => exact ((inductionHypothesis absent).cons head).trans (.swap _ _ _)

theorem perm_erase {map : OrderedMap Key Value} {key : Key} {value : Value}
    (found : map.find key = some value) :
    map.entries.Perm ((key, value) :: (map.erase key).entries) := by
  rcases List.mem_iff_append.mp (find_eq_some_iff.mp found) with ⟨before, after, split⟩
  have sorted := map.sorted
  rw [split, List.pairwise_append, List.pairwise_cons] at sorted
  rcases sorted with ⟨-, ⟨above, -⟩, below⟩
  have kept : (map.erase key).entries = before ++ after := by
    change map.entries.filter _ = _
    rw [split, List.filter_append, List.filter_cons_of_neg (by simp)]
    rw [List.filter_eq_self.mpr, List.filter_eq_self.mpr]
    · exact fun entry member => decide_eq_true (ne_of_gt (above entry member))
    · exact fun entry member => decide_eq_true (ne_of_lt (below entry member _ List.mem_cons_self))
  rw [kept, split]
  exact List.perm_middle

theorem mem_values {map : OrderedMap Key Value} {value : Value} :
    value ∈ map.values ↔ ∃ key, map.find key = some value := by
  simp only [values, List.mem_map, find_eq_some_iff]
  constructor
  · rintro ⟨⟨key, other⟩, member, rfl⟩
    exact ⟨key, member⟩
  · rintro ⟨key, member⟩
    exact ⟨(key, value), member, rfl⟩

end OrderedMap

end Library
