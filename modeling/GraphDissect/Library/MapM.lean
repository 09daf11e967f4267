import Mathlib.Data.List.Forall2

/-!
# Lists of fallible results

A list is read item by item, and the reading fails with the first item that does.
-/

namespace Library

variable {Item Text Value : Type} {load : Item → Option Value} {items : List Item}
  {values : List Value}

theorem mapM_eq_some_iff :
    items.mapM load = some values ↔
      List.Forall₂ (fun item value => load item = some value) items values := by
  induction items generalizing values with
  | nil => simp [eq_comm]
  | cons item items inductionHypothesis =>
      rw [List.mapM_cons]
      constructor
      · intro loaded
        obtain ⟨first, here, loaded⟩ := Option.bind_eq_some_iff.mp loaded
        obtain ⟨rest, later, ended⟩ := Option.bind_eq_some_iff.mp loaded
        cases ended
        exact .cons here (inductionHypothesis.mp later)
      · intro related
        cases related with
        | cons here later =>
            rw [here, inductionHypothesis.mpr later]
            rfl

theorem mapM_isSome_iff :
    (items.mapM load).isSome = true ↔ ∀ item ∈ items, (load item).isSome = true := by
  induction items with
  | nil => simp
  | cons item items inductionHypothesis =>
      rw [List.mapM_cons, List.forall_mem_cons, ← inductionHypothesis]
      cases load item with
      | none => simp
      | some value => cases items.mapM load <;> simp

theorem length_of_mapM (loaded : items.mapM load = some values) : values.length = items.length :=
  (mapM_eq_some_iff.mp loaded).length_eq.symm

theorem mem_of_mapM (loaded : items.mapM load = some values) {value : Value}
    (member : value ∈ values) : ∃ item ∈ items, load item = some value := by
  have related := mapM_eq_some_iff.mp loaded
  clear loaded
  induction related with
  | nil => cases member
  | @cons item first items rest here _ inductionHypothesis =>
      rcases List.mem_cons.mp member with rfl | behind
      · exact ⟨item, List.mem_cons_self, here⟩
      · obtain ⟨other, among, loads⟩ := inductionHypothesis behind
        exact ⟨other, List.mem_cons_of_mem item among, loads⟩

theorem map_of_mapM {back : Value → Item}
    (inverse : ∀ item value, load item = some value → back value = item)
    (loaded : items.mapM load = some values) : values.map back = items := by
  have related := mapM_eq_some_iff.mp loaded
  clear loaded
  induction related with
  | nil => rfl
  | cons here _ inductionHypothesis => rw [List.map_cons, inverse _ _ here, inductionHypothesis]

theorem mapM_map_eq_some {write : Item → Text} {read : Text → Option Value} {value : Item → Value}
    (reads : ∀ item ∈ items, read (write item) = some (value item)) :
    (items.map write).mapM read = some (items.map value) := by
  rw [mapM_eq_some_iff, List.forall₂_map_left_iff, List.forall₂_map_right_iff, List.forall₂_same]
  exact reads

end Library
