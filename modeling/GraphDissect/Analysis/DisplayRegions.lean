import GraphDissect.Analysis.Annotations
import Mathlib

/-!
# The displayed regions

Which regions a region study hands to its annotation sheet: the selected gaps,
their strongest neighbours, and no more than fit into the figure.  A sheet with
notes on more regions than that loses one in the next call that writes it.
-/

namespace GraphDissect.Analysis

open Library Drivergen

/-- The graph of regions; an edge has its source, its destination and its weight. -/
structure RegionGraph where
  nodes : List Int
  edges : List (Int × Int × Int)

/-- The class attributes of `RegionStudyGenerator` that choose regions. -/
structure DisplaySettings where
  includeContextNeighbors : Bool
  maxContextNeighbors : Nat
  maxRegionsInFigure : Nat

def displaySettings : DisplaySettings := ⟨true, 8, 12⟩

section Choosing

/-- `int(region_graph[u][v].get("weight", 1))` where the edge exists, and 0 elsewhere. -/
def RegionGraph.weight (graph : RegionGraph) (u v : Int) : Int :=
  ((graph.edges.find? fun edge => edge.1 = u ∧ edge.2.1 = v).map fun edge => edge.2.2).getD 0

/-- The predecessors and the successors of a region, with the weights of the edges. -/
def RegionGraph.neighbors (graph : RegionGraph) (rid : Int) : List (Int × Int) :=
  if rid ∈ graph.nodes then
    ((graph.edges.filter fun edge => edge.2.1 = rid).map fun edge => (edge.1, edge.2.2)) ++
      (graph.edges.filter fun edge => edge.1 = rid).map fun edge => edge.2
  else []

/-- The order of the key `(-x[1], x[0])`. -/
def strongerFirst (first second : Int × Int) : Prop :=
  second.2 < first.2 ∨ (first.2 = second.2 ∧ first.1 ≤ second.1)

instance (first second : Int × Int) : Decidable (strongerFirst first second) :=
  inferInstanceAs (Decidable (_ ∨ _))

/-- `sorted` of a set. -/
def sortedSet (regions : List Int) : List Int := regions.dedup.insertionSort (· ≤ ·)

/-- The loop of `_expand_display_regions` over the ranked neighbours. -/
def addNeighbors (limit : Nat) : Nat → List Int → List (Int × Int) → List Int
  | _, regions, [] => regions
  | added, regions, (nid, _) :: rest =>
      if nid ∈ regions then addNeighbors limit added regions rest
      else if limit ≤ added + 1 then nid :: regions
      else addNeighbors limit (added + 1) (nid :: regions) rest

def expandDisplayRegions (settings : DisplaySettings) (graph : RegionGraph)
    (selectedGapIds : List Int) : List Int :=
  if settings.includeContextNeighbors then
    sortedSet (addNeighbors settings.maxContextNeighbors 0 selectedGapIds
      ((selectedGapIds.flatMap graph.neighbors).insertionSort strongerFirst))
  else sortedSet selectedGapIds

/-- The score of a region in `_trim_display_regions`. -/
def linkScore (graph : RegionGraph) (selectedGapIds : List Int) (rid : Int) : Int :=
  (selectedGapIds.map fun x => graph.weight rid x + graph.weight x rid).sum

def trimDisplayRegions (settings : DisplaySettings) (graph : RegionGraph)
    (selectedGapIds displayRegionIds : List Int) : List Int :=
  let keep := selectedGapIds.dedup
  let extras := displayRegionIds.filter fun rid => rid ∉ keep
  let scored := (extras.map fun rid => (rid, linkScore graph selectedGapIds rid)).insertionSort
    strongerFirst
  sortedSet (keep ++ (scored.take (settings.maxRegionsInFigure - keep.length)).map Prod.fst)

/-- The regions that `run` hands to the annotation sheet. -/
def displayRegions (settings : DisplaySettings) (graph : RegionGraph) (selectedGapIds : List Int) :
    List Int :=
  let displayed := expandDisplayRegions settings graph selectedGapIds
  if settings.maxRegionsInFigure < displayed.length then
    trimDisplayRegions settings graph selectedGapIds displayed
  else displayed

end Choosing

section Limits

variable {settings : DisplaySettings} {graph : RegionGraph} {selectedGapIds : List Int}

theorem mem_sortedSet {regions : List Int} {rid : Int} : rid ∈ sortedSet regions ↔ rid ∈ regions := by
  rw [sortedSet, List.mem_insertionSort, List.mem_dedup]

theorem length_sortedSet_le (regions : List Int) : (sortedSet regions).length ≤ regions.length := by
  rw [sortedSet, List.length_insertionSort]
  exact (List.dedup_sublist regions).length_le

theorem mem_addNeighbors {limit added : Nat} {regions : List Int} {ranked : List (Int × Int)}
    {rid : Int} (member : rid ∈ regions) : rid ∈ addNeighbors limit added regions ranked := by
  induction ranked generalizing added regions with
  | nil => exact member
  | cons first rest inductionHypothesis =>
      rw [addNeighbors]
      split
      · exact inductionHypothesis member
      · split
        · exact List.mem_cons_of_mem _ member
        · exact inductionHypothesis (List.mem_cons_of_mem _ member)

theorem mem_displayRegions {rid : Int} (selected : rid ∈ selectedGapIds) :
    rid ∈ displayRegions settings graph selectedGapIds := by
  unfold displayRegions
  dsimp only
  split
  · refine mem_sortedSet.mpr (List.mem_append_left _ ?_)
    exact List.mem_dedup.mpr selected
  · unfold expandDisplayRegions
    split
    · exact mem_sortedSet.mpr (mem_addNeighbors selected)
    · exact mem_sortedSet.mpr selected

theorem length_trimDisplayRegions_le (displayRegionIds : List Int) :
    (trimDisplayRegions settings graph selectedGapIds displayRegionIds).length ≤
      max settings.maxRegionsInFigure selectedGapIds.dedup.length := by
  unfold trimDisplayRegions
  refine le_trans (length_sortedSet_le _) ?_
  rw [List.length_append, List.length_map, List.length_take]
  omega

theorem length_displayRegions_le :
    (displayRegions settings graph selectedGapIds).length ≤
      max settings.maxRegionsInFigure selectedGapIds.dedup.length := by
  unfold displayRegions
  dsimp only
  split
  · exact length_trimDisplayRegions_le _
  · exact le_trans (not_lt.mp ‹_›) (le_max_left _ _)

-- a neighbour of the selected gap is shown with it, a region further away is not
example : displayRegions displaySettings ⟨[1, 2, 3], [(1, 2, 4), (2, 3, 1)]⟩ [1] = [1, 2] := by
  decide

/-- The regions that a sheet has rows for. -/
def Sheet.regionIds (sheet : Sheet) : List Int := sheet.keyed.filterMap SheetRow.regionId

/-- A sheet with rows for more regions than are displayed loses a row to every
call that writes it. -/
theorem not_survives_of_many {pandas : Pandas} {study : Study} {sheet : Sheet}
    {call : AnnotationCall} (benchNamed : pandas.missing study.bench = false)
    (exeNamed : pandas.missing study.exe = false) (writes : ¬Refuses pandas sheet call)
    (displayed : call.regionIds = displayRegions settings graph selectedGapIds)
    (many : max settings.maxRegionsInFigure selectedGapIds.dedup.length <
      sheet.regionIds.dedup.length) :
    ¬Survives study sheet (sheetAfter pandas study sheet call) := by
  rw [survives_iff benchNamed exeNamed]
  rintro (refuses | retained)
  · exact writes refuses
  · have inside : sheet.regionIds.dedup ⊆ call.regionIds := by
      intro rid member
      rcases List.mem_filterMap.mp (List.mem_dedup.mp member) with ⟨row, keyed, number⟩
      rcases retained row keyed with ⟨-, -, shown, shownIn, sameNumber, -⟩
      cases number.symm.trans sameNumber
      exact List.mem_dedup.mp ((List.mem_insertionSort _).mp shownIn)
    have fewer := ((List.nodup_dedup _).subperm inside).length_le
    rw [displayed] at fewer
    exact absurd (le_trans fewer length_displayRegions_le) (not_le.mpr many)

/-- Notes on two regions of which neither is selected, and a figure for one. -/
def crowdedSheet : Sheet where
  columns := baseCols
  rows := [1, 3].map fun rid =>
    { bench := luaStudy.bench
      exe := luaStudy.exe
      regionId := some rid
      cells := fun c => if c = "manual_notes".toList then "needs a script".toList else [] }
  distinct := baseCols_nodup

theorem not_survives_of_many_crowded :
    ¬Survives luaStudy crowdedSheet
      (sheetAfter textPandas luaStudy crowdedSheet (displayCall [2])) := by
  refine @not_survives_of_many ⟨true, 8, 1⟩ ⟨[1, 2, 3], [(1, 2, 4), (2, 3, 1)]⟩ [2] textPandas
    luaStudy crowdedSheet (displayCall [2]) (by decide) (by decide) ?_ (by decide) (by decide)
  intro refuses
  have joined := (refuses _ rfl).2
  revert joined
  decide +kernel

end Limits

end GraphDissect.Analysis
