import GraphDissect.Analysis.Projection
import GraphDissect.Library.Partition
import Mathlib

/-!
# Under-explored regions

RQ5 splits the backbone into regions and counts nodes and edges in each.  The
regions come from the weakly connected components: a small component is a
region, a medium one is split by Louvain, and a large one, or one on which
Louvain raises, by label propagation; if that raises too the component stays
whole.  The detectors belong to `networkx` and are parameters, which answer with
a list of communities or raise.
-/

namespace GraphDissect.Analysis

open Library

/-- The nodes and edges of an undirected `nx.Graph`. -/
structure UndirectedGraph where
  nodes : Finset Nat
  edges : Finset (Sym2 Nat)

namespace DiGraph

/-- `G.subgraph(nodes)`. -/
def subgraph (graph : DiGraph) (nodes : Finset Nat) : DiGraph where
  nodes := graph.nodes ∩ nodes
  edges := graph.edges.filter fun edge => edge.1 ∈ nodes ∧ edge.2 ∈ nodes

def toUndirected (graph : DiGraph) : UndirectedGraph where
  nodes := graph.nodes
  edges := graph.edges.image fun edge => s(edge.1, edge.2)

def successors (graph : DiGraph) (node : Nat) : Finset Nat :=
  (graph.edges.filter fun edge => edge.1 = node).image Prod.snd

def predecessors (graph : DiGraph) (node : Nat) : Finset Nat :=
  (graph.edges.filter fun edge => edge.2 = node).image Prod.fst

end DiGraph

/-- The functions of `networkx`; a detector that raises answers `none`. -/
structure Detectors where
  weaklyConnectedComponents : DiGraph → List (Finset Nat)
  louvainCommunities : UndirectedGraph → Option (List (Finset Nat))
  asynLpaCommunities : UndirectedGraph → Option (List (Finset Nat))

/-- What the analysis relies on. -/
structure Detectors.Partition (detectors : Detectors) : Prop where
  components : ∀ graph, Partitions (detectors.weaklyConnectedComponents graph) graph.nodes
  louvain : ∀ graph communities, detectors.louvainCommunities graph = some communities →
    Partitions communities graph.nodes
  asynLpa : ∀ graph communities, detectors.asynLpaCommunities graph = some communities →
    Partitions communities graph.nodes

/-- The settings of `RQ5UnderExploredRegions` that the regions depend on. -/
structure RegionSettings where
  lowCovThreshold : ℚ
  minComponentSizeForLouvain : Nat
  maxComponentSizeForLouvain : Nat

def buildDirectedGraph (backbone : Finset Nat × Finset (Nat × Nat)) : DiGraph where
  nodes := backbone.1 ∪ backbone.2.image Prod.fst ∪ backbone.2.image Prod.snd
  edges := backbone.2

/-- The communities of a component that are not empty. -/
def communityRegions (communities : List (Finset Nat)) : List (Finset Nat) :=
  communities.filter (· ≠ ∅)

def componentRegions (settings : RegionSettings) (detectors : Detectors) (graph : DiGraph)
    (component : Finset Nat) : List (Finset Nat) :=
  if component.card = 0 then []
  else if component.card < settings.minComponentSizeForLouvain then [component]
  else
    let subU := (graph.subgraph component).toUndirected
    let louvain :=
      if component.card ≤ settings.maxComponentSizeForLouvain then
        detectors.louvainCommunities subU
      else none
    match louvain with
    | some communities => communityRegions communities
    | none =>
        match detectors.asynLpaCommunities subU with
        | some communities => communityRegions communities
        | none => [component]

/-- The key `(-len(s), min(s) if s else -1)` by which the regions are sorted. -/
def regionKey (region : Finset Nat) : Int × Int :=
  (-region.card, (region.min.map Int.ofNat).untopD (-1))

def regionLE (first second : Finset Nat) : Bool :=
  decide (toLex (regionKey first) ≤ toLex (regionKey second))

def detectRegionsFast (settings : RegionSettings) (detectors : Detectors) (graph : DiGraph) :
    List (Finset Nat) :=
  if graph.nodes.card = 0 then []
  else
    ((detectors.weaklyConnectedComponents graph).flatMap
      (componentRegions settings detectors graph)).mergeSort regionLE

structure RegionRow where
  regionId : Nat
  regionSize : Nat
  coveredNodes : Nat
  uncoveredNodes : Nat
  regionCoverage : ℚ
  internalCgEdges : Nat
  boundaryOutEdges : Nat
  boundaryInEdges : Nat
  isLowCoverage : Bool

def regionRow (settings : RegionSettings) (graph : DiGraph) (unionCov : Finset Nat)
    (region : Finset Nat × Nat) : RegionRow :=
  let nodes := region.1
  let size := nodes.card
  let covered := (nodes ∩ unionCov).card
  let rc : ℚ := if 0 < size then covered / size else 0
  { regionId := region.2 + 1
    regionSize := size
    coveredNodes := covered
    uncoveredNodes := (nodes \ unionCov).card
    regionCoverage := rc
    internalCgEdges := (graph.subgraph nodes).edges.card
    boundaryOutEdges := ∑ u ∈ nodes, ((graph.successors u).filter (· ∉ nodes)).card
    boundaryInEdges := ∑ u ∈ nodes, ((graph.predecessors u).filter (· ∉ nodes)).card
    isLowCoverage := decide (rc ≤ settings.lowCovThreshold) }

/-- The order of `sort_values`: coverage ascending, then uncovered nodes and size
descending. -/
def RegionRow.le (first second : RegionRow) : Bool :=
  decide (toLex (first.regionCoverage, toLex (-(first.uncoveredNodes : Int), -(first.regionSize : Int))) ≤
    toLex (second.regionCoverage, toLex (-(second.uncoveredNodes : Int), -(second.regionSize : Int))))

def buildRegionTable (settings : RegionSettings) (graph : DiGraph) (unionCov : Finset Nat)
    (regions : List (Finset Nat)) : List RegionRow :=
  (regions.zipIdx.map (regionRow settings graph unionCov)).mergeSort RegionRow.le

section Detection

variable {settings : RegionSettings} {detectors : Detectors} {graph : DiGraph}

theorem mem_communityRegions {communities : List (Finset Nat)} {region : Finset Nat}
    (member : region ∈ communityRegions communities) : region.Nonempty :=
  Finset.nonempty_iff_ne_empty.mpr (of_decide_eq_true (List.mem_filter.mp member).2)

/-- The regions of a component, whatever the detectors answer. -/
theorem componentRegions_partitions (partition : detectors.Partition) {component : Finset Nat}
    (inside : component ⊆ graph.nodes) :
    Partitions (componentRegions settings detectors graph component) component ∧
      ∀ region ∈ componentRegions settings detectors graph component, region.Nonempty := by
  have nodes : (graph.subgraph component).toUndirected.nodes = component :=
    Finset.inter_eq_right.mpr inside
  have split : ∀ communities,
      Partitions communities (graph.subgraph component).toUndirected.nodes →
      Partitions (communityRegions communities) component ∧
        ∀ region ∈ communityRegions communities, region.Nonempty := by
    intro communities partitions
    rw [nodes] at partitions
    exact ⟨partitions.filter_nonempty, fun region => mem_communityRegions⟩
  have whole : component.card ≠ 0 →
      Partitions [component] component ∧ ∀ region ∈ [component], region.Nonempty := by
    intro some
    refine ⟨.singleton component, ?_⟩
    intro region member
    rw [List.mem_singleton.mp member]
    exact Finset.card_ne_zero.mp some
  unfold componentRegions
  split_ifs with empty small medium
  · rw [Finset.card_eq_zero.mp empty]
    exact ⟨.nil, fun region member => absurd member List.not_mem_nil⟩
  · exact whole empty
  all_goals dsimp only
  · cases louvain : detectors.louvainCommunities (graph.subgraph component).toUndirected with
    | some communities => exact split communities (partition.louvain _ communities louvain)
    | none =>
        cases asynLpa : detectors.asynLpaCommunities (graph.subgraph component).toUndirected with
        | some communities => exact split communities (partition.asynLpa _ communities asynLpa)
        | none => exact whole empty
  · cases asynLpa : detectors.asynLpaCommunities (graph.subgraph component).toUndirected with
    | some communities => exact split communities (partition.asynLpa _ communities asynLpa)
    | none => exact whole empty

theorem detectRegionsFast_partitions (partition : detectors.Partition) :
    Partitions (detectRegionsFast settings detectors graph) graph.nodes ∧
      ∀ region ∈ detectRegionsFast settings detectors graph, region.Nonempty := by
  have components := partition.components graph
  unfold detectRegionsFast
  split_ifs with empty
  · rw [Finset.card_eq_zero.mp empty]
    exact ⟨.nil, fun region member => absurd member List.not_mem_nil⟩
  · constructor
    · refine Partitions.perm ?_ (List.mergeSort_perm _ _)
      apply components.flatMap
      intro component member
      exact (componentRegions_partitions partition (components.subset member)).1
    · intro region member
      rw [List.mem_mergeSort] at member
      rcases List.mem_flatMap.mp member with ⟨component, found, split⟩
      exact (componentRegions_partitions partition (components.subset found)).2 region split

end Detection

section Metrics

variable {graph : DiGraph}

theorem card_successors_filter (node : Nat) (keeps : Nat → Prop) [DecidablePred keeps] :
    ((graph.successors node).filter keeps).card =
      (graph.edges.filter fun edge => edge.1 = node ∧ keeps edge.2).card := by
  unfold DiGraph.successors
  rw [Finset.filter_image, Finset.filter_filter]
  apply Finset.card_image_of_injOn
  intro first firstMember second secondMember equal
  have firstStarts := (Finset.mem_filter.mp firstMember).2.1
  have secondStarts := (Finset.mem_filter.mp secondMember).2.1
  exact Prod.ext (firstStarts.trans secondStarts.symm) equal

theorem card_predecessors_filter (node : Nat) (keeps : Nat → Prop) [DecidablePred keeps] :
    ((graph.predecessors node).filter keeps).card =
      (graph.edges.filter fun edge => edge.2 = node ∧ keeps edge.1).card := by
  unfold DiGraph.predecessors
  rw [Finset.filter_image, Finset.filter_filter]
  apply Finset.card_image_of_injOn
  intro first firstMember second secondMember equal
  have firstEnds := (Finset.mem_filter.mp firstMember).2.1
  have secondEnds := (Finset.mem_filter.mp secondMember).2.1
  exact Prod.ext equal (firstEnds.trans secondEnds.symm)

theorem internal_add_boundaryOut (graph : DiGraph) (region : Finset Nat) :
    (graph.subgraph region).edges.card +
        ∑ u ∈ region, ((graph.successors u).filter (· ∉ region)).card =
      (graph.edges.filter fun edge => edge.1 ∈ region).card := by
  simp only [card_successors_filter]
  have leaves := card_filter_key (graph.edges.filter fun edge => edge.2 ∉ region) Prod.fst region
  simp only [Finset.filter_filter, and_comm (a := _ ∉ region)] at leaves
  rw [← leaves]
  have split := Finset.card_filter_add_card_filter_not (s := graph.edges.filter fun edge => edge.1 ∈ region)
    (fun edge => edge.2 ∈ region)
  rw [Finset.filter_filter, Finset.filter_filter] at split
  exact split

theorem internal_add_boundaryIn (graph : DiGraph) (region : Finset Nat) :
    (graph.subgraph region).edges.card +
        ∑ u ∈ region, ((graph.predecessors u).filter (· ∉ region)).card =
      (graph.edges.filter fun edge => edge.2 ∈ region).card := by
  simp only [card_predecessors_filter]
  have enters := card_filter_key (graph.edges.filter fun edge => edge.1 ∉ region) Prod.snd region
  simp only [Finset.filter_filter, and_comm (a := _ ∉ region)] at enters
  rw [← enters]
  have split := Finset.card_filter_add_card_filter_not
    (s := graph.edges.filter fun edge => edge.2 ∈ region) (fun edge => edge.1 ∈ region)
  rw [Finset.filter_filter, Finset.filter_filter] at split
  have internal : (graph.subgraph region).edges =
      graph.edges.filter fun edge => edge.2 ∈ region ∧ edge.1 ∈ region := by
    unfold DiGraph.subgraph
    simp only [and_comm]
  rw [internal]
  exact split

theorem sum_buildRegionTable (settings : RegionSettings) (unionCov : Finset Nat)
    (regions : List (Finset Nat)) (column : RegionRow → Nat) (value : Finset Nat → Nat)
    (reads : ∀ region, column (regionRow settings graph unionCov region) = value region.1) :
    ((buildRegionTable settings graph unionCov regions).map column).sum =
      (regions.map value).sum := by
  unfold buildRegionTable
  have sorted := List.mergeSort_perm (regions.zipIdx.map (regionRow settings graph unionCov))
    RegionRow.le
  rw [(sorted.map column).sum_eq, List.map_map]
  calc
    (regions.zipIdx.map (column ∘ regionRow settings graph unionCov)).sum =
        ((regions.zipIdx.map Prod.fst).map value).sum := by
      rw [List.map_map]
      exact congrArg List.sum (List.map_congr_left fun region _ => reads region)
    _ = (regions.map value).sum := by rw [List.zipIdx_map_fst]

end Metrics

section Conservation

theorem loadBackbone_edges {whole : GraphLists} {edge : Nat × Nat}
    (member : edge ∈ (loadBackbone whole).2) :
    edge.1 ∈ (loadBackbone whole).1 ∧ edge.2 ∈ (loadBackbone whole).1 := by
  unfold loadBackbone at member ⊢
  simp only [List.mem_toFinset, List.mem_filter, decide_eq_true_eq] at member ⊢
  exact member.2.2

theorem buildDirectedGraph_nodes (whole : GraphLists) :
    (buildDirectedGraph (loadBackbone whole)).nodes = (loadBackbone whole).1 := by
  unfold buildDirectedGraph
  dsimp only
  rw [Finset.union_eq_left.mpr, Finset.union_eq_left.mpr]
  · intro node member
    rcases Finset.mem_image.mp member with ⟨edge, inside, rfl⟩
    exact (loadBackbone_edges inside).1
  · intro node member
    rcases Finset.mem_image.mp member with ⟨edge, inside, rfl⟩
    exact Finset.mem_union_left _ (loadBackbone_edges inside).2

theorem computeUnionNodeCoverage_subset (drivers : List (List Nat)) (backboneNodes : Finset Nat) :
    computeUnionNodeCoverage drivers backboneNodes ⊆ backboneNodes := by
  unfold computeUnionNodeCoverage
  refine List.foldlRecOn (motive := fun covered => covered ⊆ backboneNodes) drivers _
    (Finset.empty_subset _) ?_
  intro covered inside nodes _
  rw [coverNodes_eq]
  exact Finset.union_subset inside Finset.inter_subset_right

/-- The regions partition the backbone, and the region table conserves its nodes,
its coverage and its edges. -/
theorem region_metrics_conserve {detectors : Detectors} (partition : detectors.Partition)
    (settings : RegionSettings) (whole : GraphLists) (drivers : List (List Nat)) :
    let backbone := loadBackbone whole
    let unionCov := computeUnionNodeCoverage drivers backbone.1
    let graph := buildDirectedGraph backbone
    let regions := detectRegionsFast settings detectors graph
    let rows := buildRegionTable settings graph unionCov regions
    Partitions regions backbone.1 ∧
      (∀ region ∈ regions, region.Nonempty) ∧
      (rows.map RegionRow.regionSize).sum = backbone.1.card ∧
      (rows.map RegionRow.coveredNodes).sum = unionCov.card ∧
      (rows.map RegionRow.internalCgEdges).sum + (rows.map RegionRow.boundaryOutEdges).sum =
        backbone.2.card ∧
      (rows.map RegionRow.boundaryOutEdges).sum = (rows.map RegionRow.boundaryInEdges).sum := by
  intro backbone unionCov graph regions rows
  have detected : Partitions regions graph.nodes ∧ ∀ region ∈ regions, region.Nonempty :=
    detectRegionsFast_partitions partition
  have partitions : Partitions regions backbone.1 := by
    have nodes : graph.nodes = backbone.1 := buildDirectedGraph_nodes whole
    rw [← nodes]
    exact detected.1
  have sizes : (rows.map RegionRow.regionSize).sum = backbone.1.card := by
    rw [sum_buildRegionTable settings unionCov regions RegionRow.regionSize Finset.card
      fun _ => rfl]
    simpa using partitions.sum_eq fun _ => 1
  have covered : (rows.map RegionRow.coveredNodes).sum = unionCov.card := by
    rw [sum_buildRegionTable settings unionCov regions RegionRow.coveredNodes
      (fun region => (region ∩ unionCov).card) fun _ => rfl]
    have counted := partitions.sum_card_eq unionCov id
    simp only [id_eq, Finset.filter_mem_eq_inter] at counted
    simp only [Finset.inter_comm _ unionCov]
    rw [counted, Finset.inter_eq_left.mpr (computeUnionNodeCoverage_subset drivers backbone.1)]
  have counts : ∀ key : Nat × Nat → Nat, (∀ edge ∈ backbone.2, key edge ∈ backbone.1) →
      (regions.map fun region => (graph.edges.filter fun edge => key edge ∈ region).card).sum =
        backbone.2.card := by
    intro key inside
    rw [partitions.sum_card_eq]
    exact congrArg Finset.card (Finset.filter_true_of_mem inside)
  have outgoing : (rows.map RegionRow.internalCgEdges).sum +
      (rows.map RegionRow.boundaryOutEdges).sum = backbone.2.card := by
    rw [← List.sum_map_add, sum_buildRegionTable settings unionCov regions _
      (fun region => (graph.edges.filter fun edge => edge.1 ∈ region).card)
      fun region => internal_add_boundaryOut graph region.1]
    exact counts Prod.fst fun edge member => (loadBackbone_edges member).1
  have incoming : (rows.map RegionRow.internalCgEdges).sum +
      (rows.map RegionRow.boundaryInEdges).sum = backbone.2.card := by
    rw [← List.sum_map_add, sum_buildRegionTable settings unionCov regions _
      (fun region => (graph.edges.filter fun edge => edge.2 ∈ region).card)
      fun region => internal_add_boundaryIn graph region.1]
    exact counts Prod.snd fun edge member => (loadBackbone_edges member).2
  exact ⟨partitions, detected.2, sizes, covered, outgoing, by omega⟩

/-- Detectors that keep every component whole. -/
def wholeDetectors : Detectors where
  weaklyConnectedComponents := fun graph => [graph.nodes]
  louvainCommunities := fun graph => some [graph.nodes]
  asynLpaCommunities := fun _ => none

theorem wholeDetectors_partition : wholeDetectors.Partition where
  components := fun graph => .singleton graph.nodes
  louvain := by
    rintro graph communities ⟨⟩
    exact .singleton graph.nodes
  asynLpa := by
    rintro graph communities ⟨⟩

/-- A triangle, of which one driver covers two nodes. -/
theorem region_metrics_conserve_triangle :
    wholeDetectors.Partition ∧
      ((buildRegionTable ⟨1 / 5, 2, 10⟩
          (buildDirectedGraph (loadBackbone ([0, 1, 2], [(0, 1), (1, 2), (2, 0)])))
          (computeUnionNodeCoverage [[0, 1]]
            (loadBackbone ([0, 1, 2], [(0, 1), (1, 2), (2, 0)])).1)
          (detectRegionsFast ⟨1 / 5, 2, 10⟩ wholeDetectors
            (buildDirectedGraph (loadBackbone ([0, 1, 2], [(0, 1), (1, 2), (2, 0)]))))).map
        RegionRow.coveredNodes).sum = 2 :=
  ⟨wholeDetectors_partition, (region_metrics_conserve wholeDetectors_partition ⟨1 / 5, 2, 10⟩
    ([0, 1, 2], [(0, 1), (1, 2), (2, 0)]) [[0, 1]]).2.2.2.1⟩

end Conservation

end GraphDissect.Analysis
