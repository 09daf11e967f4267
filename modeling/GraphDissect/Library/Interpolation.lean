import Mathlib

/-!
# Linear interpolation

Between two neighbours of a monotone sequence the interpolated value lies between
them, so interpolation is monotone across the break points too.
-/

namespace Library

variable {K : Type*} [Field K] [LinearOrder K] [IsStrictOrderedRing K] [FloorSemiring K]
  {points : ℕ → K} {position other : K}

/-- The value between the two points around a position. -/
def interpolate (points : ℕ → K) (position : K) : K :=
  points ⌊position⌋₊ * (1 - (position - ⌊position⌋₊)) +
    points (⌊position⌋₊ + 1) * (position - ⌊position⌋₊)

omit [IsStrictOrderedRing K] in
theorem interpolate_eq (points : ℕ → K) (position : K) :
    interpolate points position = points ⌊position⌋₊ +
      (points (⌊position⌋₊ + 1) - points ⌊position⌋₊) * (position - ⌊position⌋₊) := by
  rw [interpolate]
  ring

theorem interpolate_natCast (points : ℕ → K) (index : ℕ) :
    interpolate points (index : K) = points index := by
  rw [interpolate_eq, Nat.floor_natCast, sub_self, mul_zero, add_zero]

theorem le_interpolate (ascends : Monotone points) (inside : 0 ≤ position) :
    points ⌊position⌋₊ ≤ interpolate points position := by
  have step : 0 ≤ points (⌊position⌋₊ + 1) - points ⌊position⌋₊ :=
    sub_nonneg.mpr (ascends (Nat.le_succ _))
  have fraction : 0 ≤ position - ⌊position⌋₊ := sub_nonneg.mpr (Nat.floor_le inside)
  rw [interpolate_eq]
  exact le_add_of_nonneg_right (mul_nonneg step fraction)

theorem interpolate_le (ascends : Monotone points) :
    interpolate points position ≤ points (⌊position⌋₊ + 1) := by
  have step : 0 ≤ points (⌊position⌋₊ + 1) - points ⌊position⌋₊ :=
    sub_nonneg.mpr (ascends (Nat.le_succ _))
  have fraction : position - ⌊position⌋₊ ≤ 1 := by
    have below := Nat.lt_floor_add_one position
    linarith
  rw [interpolate_eq]
  have part := mul_le_mul_of_nonneg_left fraction step
  linarith

theorem interpolate_mono (ascends : Monotone points) (inside : 0 ≤ position)
    (before : position ≤ other) : interpolate points position ≤ interpolate points other := by
  rcases (Nat.floor_mono before).eq_or_lt with same | apart
  · -- between the same two points
    have step : 0 ≤ points (⌊position⌋₊ + 1) - points ⌊position⌋₊ :=
      sub_nonneg.mpr (ascends (Nat.le_succ _))
    rw [interpolate_eq, interpolate_eq, ← same]
    have part := mul_le_mul_of_nonneg_left (sub_le_sub_right before (⌊position⌋₊ : K)) step
    linarith
  · -- a point lies in between
    calc interpolate points position
        ≤ points (⌊position⌋₊ + 1) := interpolate_le ascends
      _ ≤ points ⌊other⌋₊ := ascends apart
      _ ≤ interpolate points other := le_interpolate ascends (inside.trans before)

end Library
