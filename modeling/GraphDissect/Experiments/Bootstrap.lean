import GraphDissect.Library.MapM
import GraphDissect.Library.Interpolation

/-!
# Bootstrap intervals

`percentile` and `bootstrap_median_ci` of `summarize_coverage.py`, with rational
numbers for the floats.  The resamples that the generator draws are given.
-/

namespace GraphDissect.Experiments

open Library

def sorted (values : List ℚ) : List ℚ := values.mergeSort

/-- `int` of a fraction truncates towards zero. -/
def truncated (position : ℚ) : ℤ := if 0 ≤ position then ⌊position⌋ else ⌈position⌉

/-- An index of Python counts from the end when it is negative. -/
def pyIndex (list : List ℚ) (index : ℤ) : Option ℚ :=
  if 0 ≤ index then list[index.toNat]?
  else if 0 ≤ list.length + index then list[(list.length + index).toNat]?
  else none

/-- `lower` and `upper` of `percentile`. -/
def percentileIndices (length : ℕ) (probability : ℚ) : ℤ × ℤ :=
  let position := ((length : ℚ) - 1) * probability
  let lower := truncated position
  (lower, min (lower + 1) (length - 1))

/-- `percentile`; `none` when an index is outside the list. -/
def percentile (values : List ℚ) (probability : ℚ) : Option ℚ :=
  let ordered := sorted values
  let position := ((ordered.length : ℚ) - 1) * probability
  let indices := percentileIndices ordered.length probability
  let fraction := position - indices.1
  (pyIndex ordered indices.1).bind fun low =>
    (pyIndex ordered indices.2).map fun high => low * (1 - fraction) + high * fraction

/-- `statistics.median`; `none` for the error on no data. -/
def median (data : List ℚ) : Option ℚ :=
  let data := sorted data
  let n := data.length
  if n = 0 then none
  else if n % 2 = 1 then data[n / 2]?
  else (data[n / 2 - 1]?).bind fun low => data[n / 2]?.map fun high => (low + high) / 2

/-- `bootstrap_median_ci` over the resamples. -/
def bootstrapMedianCi (values : List ℚ) (resamples : List (List ℚ)) : Option (ℚ × ℚ) :=
  if values = [] then none
  else
    (resamples.mapM median).bind fun samples =>
      (percentile samples (25 / 1000)).bind fun low =>
        (percentile samples (975 / 1000)).map fun high => (low, high)

/-- What `generator.choices(values, k=len(values))` can return. -/
def DrawnFrom (values resample : List ℚ) : Prop :=
  resample.length = values.length ∧ resample ⊆ values

section Percentile

variable {values : List ℚ} {probability : ℚ}

theorem length_sorted (values : List ℚ) : (sorted values).length = values.length :=
  List.length_mergeSort values

theorem mem_sorted {value : ℚ} : value ∈ sorted values ↔ value ∈ values := List.mem_mergeSort

theorem sortedLE_sorted (values : List ℚ) : (sorted values).SortedLE := by
  have pairwise : (sorted values).Pairwise fun first second => decide (first ≤ second) = true :=
    List.pairwise_mergeSort (by simpa using fun _ _ _ => le_trans) (by simpa using le_total) values
  exact (pairwise.imp fun before => by simpa using before).sortedLE

/-- The order statistics; behind the last one it is repeated. -/
def orderStatistic (values : List ℚ) (index : ℕ) : ℚ :=
  (sorted values).getD (min index (values.length - 1)) 0

theorem getElem?_sorted {index : ℕ} (inside : index < values.length) :
    (sorted values)[index]? = some (orderStatistic values index) := by
  rw [orderStatistic, Nat.min_eq_left (by omega), List.getD_eq_getElem?_getD,
    List.getElem?_eq_getElem (by rwa [length_sorted])]
  rfl

theorem orderStatistic_mem (nonempty : values ≠ []) (index : ℕ) : orderStatistic values index ∈ values := by
  have positive := List.length_pos_iff.mpr nonempty
  have inside : min index (values.length - 1) < (sorted values).length := by
    rw [length_sorted]
    omega
  rw [← mem_sorted, orderStatistic, List.getD_eq_getElem _ _ inside]
  exact List.getElem_mem inside

theorem monotone_orderStatistic (nonempty : values ≠ []) : Monotone (orderStatistic values) := by
  intro first second before
  have positive := List.length_pos_iff.mpr nonempty
  have inside (index : ℕ) : min index (values.length - 1) < (sorted values).length := by
    rw [length_sorted]
    omega
  rw [orderStatistic, orderStatistic, List.getD_eq_getElem _ _ (inside first),
    List.getD_eq_getElem _ _ (inside second)]
  exact (sortedLE_sorted values).getElem_le_getElem_of_le (by omega)

/-- The position of a probability, which lies between the first and the last
index. -/
theorem position_bounds {length : ℕ} (nonempty : 0 < length) (low : 0 ≤ probability)
    (high : probability ≤ 1) : 0 ≤ ((length : ℚ) - 1) * probability ∧
      ⌊((length : ℚ) - 1) * probability⌋₊ < length := by
  have last : (0 : ℚ) ≤ length - 1 := by
    have one : (1 : ℚ) ≤ length := by exact_mod_cast nonempty
    linarith
  have inside : 0 ≤ ((length : ℚ) - 1) * probability := mul_nonneg last low
  refine ⟨inside, (Nat.floor_lt inside).mpr ?_⟩
  have below := mul_le_mul_of_nonneg_left high last
  linarith

theorem percentileIndices_eq {length : ℕ} (nonempty : 0 < length) (low : 0 ≤ probability)
    (high : probability ≤ 1) : percentileIndices length probability =
      ((⌊((length : ℚ) - 1) * probability⌋₊ : ℤ),
        ((min (⌊((length : ℚ) - 1) * probability⌋₊ + 1) (length - 1) : ℕ) : ℤ)) := by
  have inside := (position_bounds nonempty low high).1
  rw [percentileIndices, truncated, if_pos inside, ← Int.natCast_floor_eq_floor inside]
  refine Prod.ext rfl ?_
  dsimp only
  omega

theorem pyIndex_natCast (list : List ℚ) (index : ℕ) : pyIndex list (index : ℤ) = list[index]? := by
  rw [pyIndex, if_pos (Int.natCast_nonneg index), Int.toNat_natCast]

theorem percentile_eq (nonempty : values ≠ []) (low : 0 ≤ probability) (high : probability ≤ 1) :
    percentile values probability =
      some (interpolate (orderStatistic values) (((values.length : ℚ) - 1) * probability)) := by
  have positive := List.length_pos_iff.mpr nonempty
  have inside := (position_bounds positive low high).2
  have last : orderStatistic values (min (⌊((values.length : ℚ) - 1) * probability⌋₊ + 1)
      (values.length - 1)) =
      orderStatistic values (⌊((values.length : ℚ) - 1) * probability⌋₊ + 1) := by
    rw [orderStatistic, orderStatistic, Nat.min_assoc, Nat.min_self]
  rw [percentile, length_sorted, percentileIndices_eq positive low high]
  dsimp only
  rw [pyIndex_natCast, pyIndex_natCast, getElem?_sorted inside, getElem?_sorted (by omega), last]
  rfl

theorem percentile_bounds (nonempty : values ≠ []) (low : 0 ≤ probability) (high : probability ≤ 1)
    {result lower upper : ℚ} (returned : percentile values probability = some result)
    (above : ∀ value ∈ values, lower ≤ value) (below : ∀ value ∈ values, value ≤ upper) :
    lower ≤ result ∧ result ≤ upper := by
  rw [percentile_eq nonempty low high, Option.some.injEq] at returned
  have inside := (position_bounds (List.length_pos_iff.mpr nonempty) low high).1
  have ascends := monotone_orderStatistic nonempty
  rw [← returned]
  exact ⟨(above _ (orderStatistic_mem nonempty _)).trans (le_interpolate ascends inside),
    (interpolate_le ascends).trans (below _ (orderStatistic_mem nonempty _))⟩

theorem percentile_mono (nonempty : values ≠ []) {other first second : ℚ} (low : 0 ≤ probability)
    (before : probability ≤ other) (high : other ≤ 1)
    (isFirst : percentile values probability = some first)
    (isSecond : percentile values other = some second) : first ≤ second := by
  rw [percentile_eq nonempty low (before.trans high), Option.some.injEq] at isFirst
  rw [percentile_eq nonempty (low.trans before) high, Option.some.injEq] at isSecond
  have positive := List.length_pos_iff.mpr nonempty
  have last : (0 : ℚ) ≤ values.length - 1 := by
    have one : (1 : ℚ) ≤ values.length := by exact_mod_cast positive
    linarith
  rw [← isFirst, ← isSecond]
  exact interpolate_mono (monotone_orderStatistic nonempty)
    (position_bounds positive low (before.trans high)).1 (mul_le_mul_of_nonneg_left before last)

theorem exists_orderStatistic {value : ℚ} (member : value ∈ values) :
    ∃ index < values.length, orderStatistic values index = value := by
  rcases List.mem_iff_getElem?.mp (mem_sorted.mpr member) with ⟨index, isValue⟩
  have inside := (List.getElem?_eq_some_iff.mp isValue).1
  rw [length_sorted] at inside
  rw [getElem?_sorted inside, Option.some.injEq] at isValue
  exact ⟨index, inside, isValue⟩

theorem orderStatistic_zero_le (nonempty : values ≠ []) {value : ℚ} (member : value ∈ values) :
    orderStatistic values 0 ≤ value := by
  rcases exists_orderStatistic member with ⟨index, -, rfl⟩
  exact monotone_orderStatistic nonempty (Nat.zero_le index)

theorem le_orderStatistic_last (nonempty : values ≠ []) {value : ℚ} (member : value ∈ values) :
    value ≤ orderStatistic values (values.length - 1) := by
  rcases exists_orderStatistic member with ⟨index, inside, rfl⟩
  exact monotone_orderStatistic nonempty (by omega)

theorem percentile_zero (nonempty : values ≠ []) : percentile values 0 = values.min? := by
  rw [percentile_eq nonempty le_rfl zero_le_one, mul_zero, ← Nat.cast_zero, interpolate_natCast,
    eq_comm, List.min?_eq_some_iff]
  exact ⟨orderStatistic_mem nonempty 0, fun value member => orderStatistic_zero_le nonempty member⟩

theorem percentile_one (nonempty : values ≠ []) : percentile values 1 = values.max? := by
  have positive := List.length_pos_iff.mpr nonempty
  have last : (values.length : ℚ) - 1 = ((values.length - 1 : ℕ) : ℚ) := by
    rw [Nat.cast_sub positive, Nat.cast_one]
  rw [percentile_eq nonempty zero_le_one le_rfl, mul_one, last, interpolate_natCast, eq_comm,
    List.max?_eq_some_iff]
  exact ⟨orderStatistic_mem nonempty _, fun value member => le_orderStatistic_last nonempty member⟩

end Percentile

section Bootstrap

variable {values : List ℚ} {resamples : List (List ℚ)}

theorem median_bounds {data : List ℚ} (nonempty : data ≠ []) {lower upper : ℚ}
    (above : ∀ value ∈ data, lower ≤ value) (below : ∀ value ∈ data, value ≤ upper) :
    ∃ middle, median data = some middle ∧ lower ≤ middle ∧ middle ≤ upper := by
  have positive := List.length_pos_iff.mpr nonempty
  have bounds (index : ℕ) : lower ≤ orderStatistic data index ∧ orderStatistic data index ≤ upper :=
    ⟨above _ (orderStatistic_mem nonempty index), below _ (orderStatistic_mem nonempty index)⟩
  rw [median, length_sorted, if_neg positive.ne']
  split
  · rw [getElem?_sorted (by omega)]
    exact ⟨_, rfl, bounds _⟩
  · rw [getElem?_sorted (by omega), getElem?_sorted (by omega)]
    refine ⟨_, rfl, ?_, ?_⟩
    · have first := (bounds (data.length / 2 - 1)).1
      have second := (bounds (data.length / 2)).1
      linarith
    · have first := (bounds (data.length / 2 - 1)).2
      have second := (bounds (data.length / 2)).2
      linarith

theorem medians_bounds (nonempty : values ≠ [])
    (drawn : ∀ resample ∈ resamples, DrawnFrom values resample) {lower upper : ℚ}
    (above : ∀ value ∈ values, lower ≤ value) (below : ∀ value ∈ values, value ≤ upper) :
    ∃ samples, resamples.mapM median = some samples ∧ samples.length = resamples.length ∧
      ∀ sample ∈ samples, lower ≤ sample ∧ sample ≤ upper := by
  have bounded (resample : List ℚ) (member : resample ∈ resamples) :
      ∃ middle, median resample = some middle ∧ lower ≤ middle ∧ middle ≤ upper := by
    rcases drawn resample member with ⟨size, among⟩
    have some : resample ≠ [] := by
      rw [← List.length_pos_iff, size]
      exact List.length_pos_iff.mpr nonempty
    exact median_bounds some (fun value member => above value (among member))
      (fun value member => below value (among member))
  have defined : (resamples.mapM median).isSome = true := by
    refine mapM_isSome_iff.mpr fun resample member => ?_
    rcases bounded resample member with ⟨middle, isMiddle, -⟩
    rw [isMiddle]
    rfl
  rcases Option.isSome_iff_exists.mp defined with ⟨samples, isSamples⟩
  refine ⟨samples, isSamples, length_of_mapM isSamples, fun sample member => ?_⟩
  rcases mem_of_mapM isSamples member with ⟨resample, isResample, isMiddle⟩
  rcases bounded resample isResample with ⟨middle, same, bounds⟩
  cases isMiddle.symm.trans same
  exact bounds

theorem bootstrapMedianCi_bounds (nonempty : values ≠ []) (resampled : resamples ≠ [])
    (drawn : ∀ resample ∈ resamples, DrawnFrom values resample) {lower upper : ℚ}
    (above : ∀ value ∈ values, lower ≤ value) (below : ∀ value ∈ values, value ≤ upper) :
    ∃ low high, bootstrapMedianCi values resamples = some (low, high) ∧
      lower ≤ low ∧ low ≤ high ∧ high ≤ upper := by
  rcases medians_bounds nonempty drawn above below with ⟨samples, isSamples, length, inside⟩
  have sampled : samples ≠ [] := by
    rw [← List.length_pos_iff, length]
    exact List.length_pos_iff.mpr resampled
  have isLow := @percentile_eq samples (25 / 1000) sampled (by norm_num) (by norm_num)
  have isHigh := @percentile_eq samples (975 / 1000) sampled (by norm_num) (by norm_num)
  have returned : bootstrapMedianCi values resamples =
      some (interpolate (orderStatistic samples) (((samples.length : ℚ) - 1) * (25 / 1000)),
        interpolate (orderStatistic samples) (((samples.length : ℚ) - 1) * (975 / 1000))) := by
    rw [bootstrapMedianCi, if_neg nonempty, isSamples, Option.bind_some, isLow, Option.bind_some,
      isHigh]
    rfl
  have lowBounds := percentile_bounds sampled (by norm_num) (by norm_num) isLow
    (fun sample member => (inside sample member).1) (fun sample member => (inside sample member).2)
  have highBounds := percentile_bounds sampled (by norm_num) (by norm_num) isHigh
    (fun sample member => (inside sample member).1) (fun sample member => (inside sample member).2)
  have ordered := percentile_mono sampled (by norm_num) (by norm_num) (by norm_num) isLow isHigh
  exact ⟨_, _, returned, lowBounds.1, ordered, highBounds.2⟩

/-- Percentiles and bootstrap intervals are sound over exact numbers. -/
theorem bootstrap_sound (nonempty : values ≠ []) :
    (∀ probability, 0 ≤ probability → probability ≤ 1 →
      (0 ≤ (percentileIndices values.length probability).1 ∧
        (percentileIndices values.length probability).1 < values.length ∧
        0 ≤ (percentileIndices values.length probability).2 ∧
        (percentileIndices values.length probability).2 < values.length) ∧
      ∃ result, percentile values probability = some result) ∧
    (∀ probability other first second, 0 ≤ probability → probability ≤ other → other ≤ 1 →
      percentile values probability = some first → percentile values other = some second →
        first ≤ second) ∧
    percentile values 0 = values.min? ∧ percentile values 1 = values.max? ∧
    ∀ resamples, resamples ≠ [] → (∀ resample ∈ resamples, DrawnFrom values resample) →
      ∃ smallest low high largest, values.min? = some smallest ∧ values.max? = some largest ∧
        bootstrapMedianCi values resamples = some (low, high) ∧
          smallest ≤ low ∧ low ≤ high ∧ high ≤ largest := by
  have positive := List.length_pos_iff.mpr nonempty
  refine ⟨fun probability low high => ⟨?_, _, percentile_eq nonempty low high⟩,
    fun _ _ _ _ low before high => percentile_mono nonempty low before high,
    percentile_zero nonempty, percentile_one nonempty, fun resamples resampled drawn => ?_⟩
  · rw [percentileIndices_eq positive low high]
    have inside := (position_bounds positive low high).2
    dsimp only
    omega
  · have isSmallest := percentile_zero nonempty
    have isLargest := percentile_one nonempty
    rw [percentile_eq nonempty le_rfl zero_le_one] at isSmallest
    rw [percentile_eq nonempty zero_le_one le_rfl] at isLargest
    rcases bootstrapMedianCi_bounds nonempty resampled drawn
      (List.min?_eq_some_iff.mp isSmallest.symm).2 (List.max?_eq_some_iff.mp isLargest.symm).2 with
      ⟨low, high, returned, bounds⟩
    exact ⟨_, low, high, _, isSmallest.symm, isLargest.symm, returned, bounds⟩

/-- Two values, and both resamples that repeat one of them. -/
theorem bootstrap_sound_pair : ∃ low high,
    bootstrapMedianCi [1, 2] [[1, 1], [2, 2]] = some (low, high) ∧ 1 ≤ low ∧ low ≤ high ∧ high ≤ 2 := by
  have sound := (bootstrap_sound (show [(1 : ℚ), 2] ≠ [] by decide)).2.2.2.2 [[1, 1], [2, 2]]
    (by decide) (by simp [DrawnFrom])
  rcases sound with ⟨smallest, low, high, largest, isSmallest, isLargest, returned, bounds⟩
  have one : smallest = 1 := by
    simpa [List.min?_cons] using isSmallest.symm
  have two : largest = 2 := by
    simpa [List.max?_cons] using isLargest.symm
  exact ⟨low, high, returned, one ▸ bounds.1, bounds.2.1, two ▸ bounds.2.2⟩

end Bootstrap

end GraphDissect.Experiments
