import Mathlib

/-!
# Shares of a growing value

A log of hand-overs: who takes over, and the value of a counter at that moment.
The share of an owner is the growth of the counter between the moments at which
the owner took over and those at which the next one did.  The shares of all
owners add up to the whole growth, in every commutative group.
-/

namespace Library

variable {Owner Value : Type*} [DecidableEq Owner] [AddCommGroup Value]

/-- The growth while this owner was in charge. -/
def share (owner : Owner) : List (Owner × Value) → Value
  | (holder, before) :: (next, after) :: rest =>
      (if owner = holder then after - before else 0) + share owner ((next, after) :: rest)
  | _ => 0

@[simp]
theorem share_nil (owner : Owner) : share owner ([] : List (Owner × Value)) = 0 := rfl

@[simp]
theorem share_singleton (owner : Owner) (entry : Owner × Value) : share owner [entry] = 0 := rfl

theorem share_concat (owner : Owner) (log : List (Owner × Value)) (last entry : Owner × Value) :
    share owner (log ++ [last, entry]) =
      share owner (log ++ [last]) + if owner = last.1 then entry.2 - last.2 else 0 := by
  induction log with
  | nil => simp [share]
  | cons first rest inductionHypothesis =>
      cases rest with
      | nil => simp [share]
      | cons second tail =>
          simp only [List.cons_append, share] at inductionHypothesis ⊢
          rw [inductionHypothesis, add_assoc]

/-- Who was never in charge has no share. -/
theorem share_eq_zero {owner : Owner} {log : List (Owner × Value)}
    (never : ∀ entry ∈ log, entry.1 ≠ owner) : share owner log = 0 := by
  induction log with
  | nil => rfl
  | cons first rest inductionHypothesis =>
      cases rest with
      | nil => rfl
      | cons second tail =>
          rw [share, if_neg (never first List.mem_cons_self).symm, zero_add]
          exact inductionHypothesis fun entry member => never entry (List.mem_cons_of_mem first member)

/-- The shares of all owners are the growth from the first hand-over to the last. -/
theorem sum_share {owners : List Owner} (distinct : owners.Nodup) {log : List (Owner × Value)}
    (known : ∀ entry ∈ log, entry.1 ∈ owners) {first last : Owner × Value}
    (isFirst : log.head? = some first) (isLast : log.getLast? = some last) :
    (owners.map fun owner => share owner log).sum = last.2 - first.2 := by
  induction log generalizing first with
  | nil => cases isFirst
  | cons entry rest inductionHypothesis =>
      cases isFirst
      cases rest with
      | nil =>
          cases isLast
          simp
      | cons second tail =>
          rw [List.getLast?_cons_cons] at isLast
          have later := inductionHypothesis
            (fun other member => known other (List.mem_cons_of_mem entry member)) rfl isLast
          have once := List.count_eq_one_of_mem distinct (known entry List.mem_cons_self)
          simp only [share, List.sum_map_add, later, List.sum_map_ite_eq, once, List.sum_map_zero]
          abel

end Library
