import Mathlib

/-!
# Lists of adjacent intervals

Items with a start and a stop tile an interval when the first one starts where
the interval does, each starts where the one before stops, and the last one
stops where the interval does.
-/

namespace Library

variable {Item Time : Type*} [LinearOrder Time] (start stop : Item → Time)

def Tiles : Time → List Item → Time → Prop
  | low, [], high => low = high
  | low, item :: rest, high =>
      start item = low ∧ start item < stop item ∧ Tiles (stop item) rest high

variable {start stop} {low high : Time} {items : List Item}

theorem Tiles.snoc {item : Item} (tiles : Tiles start stop low items high)
    (adjacent : start item = high) (proper : start item < stop item) :
    Tiles start stop low (items ++ [item]) (stop item) := by
  induction items generalizing low with
  | nil => exact ⟨adjacent.trans tiles.symm, proper, rfl⟩
  | cons first rest inductionHypothesis =>
      rcases tiles with ⟨begins, before, later⟩
      exact ⟨begins, before, inductionHypothesis later⟩

theorem Tiles.le (tiles : Tiles start stop low items high) : low ≤ high := by
  induction items generalizing low with
  | nil => exact le_of_eq tiles
  | cons first rest inductionHypothesis =>
      rcases tiles with ⟨rfl, before, later⟩
      exact before.le.trans (inductionHypothesis later)

theorem Tiles.within {item : Item} (tiles : Tiles start stop low items high)
    (member : item ∈ items) : low ≤ start item ∧ stop item ≤ high := by
  induction items generalizing low with
  | nil => cases member
  | cons first rest inductionHypothesis =>
      rcases tiles with ⟨rfl, before, later⟩
      rcases List.mem_cons.mp member with rfl | member
      · exact ⟨le_rfl, later.le⟩
      · rcases inductionHypothesis later member with ⟨above, below⟩
        exact ⟨before.le.trans above, below⟩

theorem Tiles.pairwise (tiles : Tiles start stop low items high) :
    items.Pairwise fun first second => stop first ≤ start second := by
  induction items generalizing low with
  | nil => exact List.Pairwise.nil
  | cons first rest inductionHypothesis =>
      rcases tiles with ⟨-, -, later⟩
      refine List.Pairwise.cons ?_ (inductionHypothesis later)
      intro second member
      exact (later.within member).1

end Library
