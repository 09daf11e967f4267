import GraphDissect.Cgx.EdgeKeys
import GraphDissect.CallGraph.Loaded

/-!
# Node keys and functions

After `parse_functions` the key of a node is the address of the last text symbol
whose name is the node's name without suffix.  Nodes that are looked up under one
name share a key, also when the binary has several functions of that name.
-/

namespace GraphDissect.Cgx

open CallGraph Library

/-- The symbol types that `parse_functions` keeps. -/
def NmSymbol.IsText (symbol : NmSymbol) : Prop := symbol.symType ∈ [['T'], ['t'], ['W'], ['w']]

instance (symbol : NmSymbol) : Decidable symbol.IsText := inferInstanceAs (Decidable (_ ∈ _))

/-- A node stands for the text symbols of its name, or, when there is none, for
those of the name without suffix: a static function that the compiler renamed. -/
def StandsFor (nm : List NmSymbol) (fn : FName) (symbol : NmSymbol) : Prop :=
  symbol ∈ nm ∧ symbol.IsText ∧
    (symbol.name = fn ∨
      (∀ other ∈ nm, other.IsText → other.name ≠ fn) ∧ symbol.name = stripSuffix fn)

/-- A call graph as SVF's dot gives it: every name has one node, and no node has
a key. -/
structure Unkeyed (graph : CGGraph) : Prop where
  named : graph.Named
  keys : ∀ ref ∈ graph.nodeRefs, (graph.nodes ref).key = 0

/-- The graph of a list of function names. -/
def functionGraph (names : List FName) : CGGraph :=
  names.foldl (fun graph name => (graph.addNode name).1) CGGraph.empty

theorem unkeyed_functionGraph (names : List FName) : Unkeyed (functionGraph names) := by
  have grows : Loaded (functionGraph names) ∧ ∀ ref < (functionGraph names).nodeAllocs,
      ((functionGraph names).nodes ref).key = 0 := by
    have begins : Loaded CGGraph.empty ∧ ∀ ref < CGGraph.empty.nodeAllocs,
        (CGGraph.empty.nodes ref).key = 0 := ⟨loaded_empty, by simp [CGGraph.empty]⟩
    refine List.foldlRecOn (motive := fun graph : CGGraph => Loaded graph ∧
      ∀ ref < graph.nodeAllocs, (graph.nodes ref).key = 0) names _ begins ?_
    rintro graph ⟨loaded, zero⟩ name -
    refine ⟨(loaded.addNode name).1, fun ref inside => ?_⟩
    unfold CGGraph.addNode at inside ⊢
    split at inside
    · exact zero ref inside
    · dsimp only at inside ⊢
      by_cases fresh : ref = graph.nodeAllocs
      · rw [fresh, Function.update_self]
        rfl
      · rw [Function.update_of_ne fresh]
        exact zero ref (lt_of_le_of_ne (Nat.lt_succ_iff.mp inside) fresh)
  exact ⟨grows.1.named, fun ref member => grows.2 ref (grows.1.mem_nodeRefs.mp member)⟩

/-- Two nodes of functions with different addresses have different keys. -/
def Attributed (nm : List NmSymbol) (graph : CGGraph) : Prop :=
  ∀ first ∈ graph.nodeRefs, ∀ second ∈ graph.nodeRefs, first ≠ second →
    (graph.nodes first).key ≠ 0 → (graph.nodes second).key ≠ 0 →
    ∀ left right, StandsFor nm (graph.nodes first).funcName left →
      StandsFor nm (graph.nodes second).funcName right → left.addr ≠ right.addr →
      (graph.nodes first).key ≠ (graph.nodes second).key

/-- All functions that two nodes stand for are at one address whenever the two
are looked up at the same address. -/
def Unmixed (nm : List NmSymbol) (functions : List FName) : Prop :=
  ∀ f ∈ functions, ∀ g ∈ functions, f ≠ g → ∀ addr ≠ 0,
    name2addr nm (stripSuffix f) = some addr → name2addr nm (stripSuffix g) = some addr →
    ∃ only, ∀ symbol, StandsFor nm f symbol ∨ StandsFor nm g symbol → symbol.addr = only

section Lookup

variable {nm : List NmSymbol} {fn : FName} {addr : Nat}

theorem exists_standsFor (found : name2addr nm (stripSuffix fn) = some addr) :
    ∃ symbol, StandsFor nm fn symbol := by
  rcases Option.map_eq_some_iff.mp found with ⟨symbol, last, -⟩
  have member := List.mem_reverse.mp (List.mem_of_find?_eq_some last)
  have matching := List.find?_some last
  simp only [decide_eq_true_eq] at matching
  by_cases named : ∃ other ∈ nm, other.IsText ∧ other.name = fn
  · rcases named with ⟨other, inside, text, name⟩
    exact ⟨other, inside, text, .inl name⟩
  · push Not at named
    exact ⟨symbol, member, matching.2, .inr ⟨named, matching.1⟩⟩

end Lookup

section Keys

variable {binary : Binary} {functions : List FName} {base graph next : CGGraph} {g : FName}
  {dst : NodeRef}

/-- An address that `parse_functions` passes on fits an `int`. -/
theorem fitsInt_of_parseFunctions {addr : Nat} (listed : g ∈ functions)
    (address : name2addr binary.nm (stripSuffix g) = some addr)
    (set : parseFunctions binary functions graph = some next) : fitsInt addr := by
  induction functions generalizing graph with
  | nil => cases listed
  | cons fn rest inductionHypothesis =>
      rcases runFrom_cons_eq_some.mp set with ⟨middle, taken, remaining⟩
      rcases List.mem_cons.mp listed with rfl | later
      · rw [address] at taken
        dsimp only at taken
        by_contra large
        rw [setNodeKey, if_neg large] at taken
        cases taken
      · exact inductionHypothesis later remaining

theorem nodeRefs_parseFunctions (set : parseFunctions binary functions graph = some next) :
    next.nodeRefs = graph.nodeRefs := by
  refine @runFrom_relates CGGraph FName _ (fun before after => after.nodeRefs = before.nodeRefs)
    (fun _ => rfl) (fun first second => second.trans first) ?_ _ _ _ set
  intro state fn after taken
  split at taken
  next =>
    cases taken
    rfl
  next =>
    unfold setNodeKey at taken
    split at taken
    next =>
      split at taken
      all_goals
        cases taken
        rfl
    next => cases taken

theorem key_parseFunctions_of_none (rekeyed : Rekeyed base graph) (named : base.Named)
    (dstNode : base.getNode g = some dst) (absent : name2addr binary.nm (stripSuffix g) = none)
    (set : parseFunctions binary functions graph = some next) :
    Rekeyed base next ∧ (next.nodes dst).key = (graph.nodes dst).key := by
  induction functions generalizing graph with
  | nil =>
      cases set
      exact ⟨rekeyed, rfl⟩
  | cons fn rest inductionHypothesis =>
      rcases runFrom_cons_eq_some.mp set with ⟨middle, taken, remaining⟩
      have one : Rekeyed base middle ∧ (middle.nodes dst).key = (graph.nodes dst).key := by
        split at taken
        next =>
          cases taken
          exact ⟨rekeyed, rfl⟩
        next faddr found =>
          rcases rekeyed.setNodeKey named dstNode taken with ⟨kept, key⟩
          refine ⟨kept, key.trans (if_neg ?_)⟩
          rintro rfl
          cases absent.symm.trans found
      rcases inductionHypothesis one.1 remaining with ⟨kept, key⟩
      exact ⟨kept, key.trans one.2⟩

end Keys

section Attribution

variable {binary : Binary} {graph updated : CGGraph}

/-- What `parse_functions` leaves in a node of an unkeyed graph. -/
theorem key_updated (unkeyed : Unkeyed graph)
    (ran : parseFunctions binary (getAllFunctions graph) graph = some updated) {ref : NodeRef}
    (member : ref ∈ graph.nodeRefs) :
    (updated.nodes ref).funcName = (graph.nodes ref).funcName ∧
      ((∃ addr, name2addr binary.nm (stripSuffix (graph.nodes ref).funcName) = some addr ∧
          fitsInt addr ∧ (updated.nodes ref).key = UInt32.ofNat addr) ∨
        name2addr binary.nm (stripSuffix (graph.nodes ref).funcName) = none ∧
          (updated.nodes ref).key = 0) := by
  have node := unkeyed.named.listed ref member
  have listed := mem_getAllFunctions unkeyed.named node
  have same : Rekeyed graph graph := ⟨rfl, rfl, rfl, fun _ => rfl⟩
  cases found : name2addr binary.nm (stripSuffix (graph.nodes ref).funcName) with
  | some addr =>
      rcases same.parseFunctions unkeyed.named node found ran with ⟨rekeyed, key⟩
      rw [if_pos listed] at key
      refine ⟨by rw [rekeyed.nodes ref], .inl ⟨addr, rfl, ?_, key⟩⟩
      exact fitsInt_of_parseFunctions listed found ran
  | none =>
      rcases key_parseFunctions_of_none same unkeyed.named node found ran with ⟨rekeyed, key⟩
      rw [unkeyed.keys ref member] at key
      exact ⟨by rw [rekeyed.nodes ref], .inr ⟨rfl, key⟩⟩

theorem ofNat_eq_iff {left right : Nat} (leftFits : fitsInt left) (rightFits : fitsInt right) :
    UInt32.ofNat left = UInt32.ofNat right ↔ left = right := by
  unfold fitsInt at leftFits rightFits
  rw [← UInt32.toNat_inj, UInt32.toNat_ofNat', UInt32.toNat_ofNat', Nat.mod_eq_of_lt (by omega),
    Nat.mod_eq_of_lt (by omega)]

theorem ofNat_eq_zero_iff {addr : Nat} (fits : fitsInt addr) :
    UInt32.ofNat addr = 0 ↔ addr = 0 :=
  ofNat_eq_iff fits (by decide : fitsInt 0)

/-- Keys tell functions apart exactly when no two nodes that are looked up at one
address can stand for functions at different addresses. -/
theorem attributed_iff_unmixed (unkeyed : Unkeyed graph)
    (ran : parseFunctions binary (getAllFunctions graph) graph = some updated) :
    Attributed binary.nm updated ↔ Unmixed binary.nm (getAllFunctions graph) := by
  have refs := nodeRefs_parseFunctions ran
  constructor
  · intro attributed f fListed g gListed different addr nonzero fFound gFound
    rcases List.mem_map.mp fListed with ⟨first, firstIn, rfl⟩
    rcases List.mem_map.mp gListed with ⟨second, secondIn, rfl⟩
    rcases key_updated unkeyed ran firstIn with ⟨firstName, firstKey⟩
    rcases key_updated unkeyed ran secondIn with ⟨secondName, secondKey⟩
    rw [fFound] at firstKey
    rw [gFound] at secondKey
    rcases firstKey with ⟨_, ⟨⟩, fits, firstKey⟩ | ⟨⟨⟩, -⟩
    rcases secondKey with ⟨_, ⟨⟩, -, secondKey⟩ | ⟨⟨⟩, -⟩
    -- every function of the one node is at the address of every function of the other
    have same : ∀ left right, StandsFor binary.nm (graph.nodes first).funcName left →
        StandsFor binary.nm (graph.nodes second).funcName right → left.addr = right.addr := by
      intro left right standsLeft standsRight
      by_contra apart
      refine attributed first (refs ▸ firstIn) second (refs ▸ secondIn)
        (fun equal => different (by rw [equal])) ?_ ?_ left right ?_ ?_ apart
        (firstKey.trans secondKey.symm)
      · rw [firstKey, Ne, ofNat_eq_zero_iff fits]
        exact nonzero
      · rw [secondKey, Ne, ofNat_eq_zero_iff fits]
        exact nonzero
      · rwa [firstName]
      · rwa [secondName]
    rcases exists_standsFor fFound with ⟨left, standsLeft⟩
    rcases exists_standsFor gFound with ⟨right, standsRight⟩
    refine ⟨left.addr, fun symbol stands => ?_⟩
    rcases stands with ofFirst | ofSecond
    · exact (same symbol right ofFirst standsRight).trans (same left right standsLeft standsRight).symm
    · exact (same left symbol standsLeft ofSecond).symm
  · intro unmixed first firstIn second secondIn different firstNonzero secondNonzero left right
      standsLeft standsRight apart equal
    rw [refs] at firstIn secondIn
    rcases key_updated unkeyed ran firstIn with ⟨firstName, ⟨addr, fFound, fits, firstKey⟩ | ⟨-, zero⟩⟩
    · rcases key_updated unkeyed ran secondIn with
        ⟨secondName, ⟨other, gFound, otherFits, secondKey⟩ | ⟨-, zero⟩⟩
      · rw [firstKey, secondKey, ofNat_eq_iff fits otherFits] at equal
        subst equal
        rw [firstKey, Ne, ofNat_eq_zero_iff fits] at firstNonzero
        rw [firstName] at standsLeft
        rw [secondName] at standsRight
        have names : (graph.nodes first).funcName ≠ (graph.nodes second).funcName := by
          intro sameName
          have here := unkeyed.named.listed first firstIn
          rw [sameName, unkeyed.named.listed second secondIn] at here
          exact different (Option.some.inj here).symm
        rcases unmixed _ (List.mem_map_of_mem firstIn) _ (List.mem_map_of_mem secondIn) names addr
          firstNonzero fFound gFound with ⟨only, located⟩
        exact apart ((located left (.inl standsLeft)).trans (located right (.inr standsRight)).symm)
      · exact secondNonzero zero
    · exact firstNonzero zero

end Attribution

section Example

theorem unkeyed_bareGraph : Unkeyed bareGraph := ⟨by decide, by decide⟩

theorem attributed_small :
    ∃ updated, parseFunctions smallBinary (getAllFunctions bareGraph) bareGraph = some updated ∧
      Attributed smallBinary.nm updated := by
  have ran : (parseFunctions smallBinary (getAllFunctions bareGraph) bareGraph).isSome = true := by
    decide
  refine ⟨_, (Option.some_get ran).symm,
    (attributed_iff_unmixed unkeyed_bareGraph (Option.some_get ran).symm).mpr ?_⟩
  have apart : ∀ f ∈ getAllFunctions bareGraph, ∀ g ∈ getAllFunctions bareGraph, f ≠ g →
      name2addr smallBinary.nm (stripSuffix f) ≠ name2addr smallBinary.nm (stripSuffix g) := by
    decide
  intro f fListed g gListed different addr nonzero fFound gFound
  exact absurd (fFound.trans gFound.symm) (apart f fListed g gListed different)

/-- Two source files have a static function `helper`; the second was renamed. -/
def helperGraph : CGGraph :=
  ((CGGraph.empty.addNode "helper".toList).1.addNode "helper.1".toList).1

def helperBinary : Binary where
  nm := [⟨0x401000, ['t'], "helper".toList⟩, ⟨0x402000, ['t'], "helper".toList⟩]
  disasmFunction _ := none

/-- Both nodes get the address of the second function, so that a call of it counts
for both and a call of the first for none. -/
theorem helper_credited_twice :
    (∃ updated, parseFunctions helperBinary (getAllFunctions helperGraph) helperGraph =
        some updated ∧
      (updated.nodes 0).funcName = "helper".toList ∧
      (updated.nodes 1).funcName = "helper.1".toList ∧
      (updated.nodes 0).key = 0x402000 ∧ (updated.nodes 1).key = 0x402000) ∧
    ¬ ∀ (binary : Binary) (graph updated : CGGraph), Unkeyed graph →
      parseFunctions binary (getAllFunctions graph) graph = some updated →
        Attributed binary.nm updated := by
  have keyed : parseFunctions helperBinary (getAllFunctions helperGraph) helperGraph = some _ := rfl
  refine ⟨⟨_, keyed, rfl, rfl, rfl, rfl⟩, fun attributed => ?_⟩
  have unkeyed : Unkeyed helperGraph := ⟨by decide, by decide⟩
  exact attributed helperBinary helperGraph _ unkeyed keyed 0 (by decide) 1 (by decide) (by decide)
    (by decide) (by decide) ⟨0x401000, ['t'], "helper".toList⟩ ⟨0x402000, ['t'], "helper".toList⟩
    ⟨by simp [helperBinary], by decide, .inl rfl⟩
    ⟨by simp [helperBinary], by decide, .inr ⟨by decide, rfl⟩⟩ (by decide) rfl

end Example

end GraphDissect.Cgx
