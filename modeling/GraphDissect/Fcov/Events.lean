import GraphDissect.Fcov.Soundness

/-!
# Uninterrupted records and what a reader sees of them

Between two reads of the coverage map the target may have recorded anything.
A record that is neither refused nor dropped adds one to the count of its key,
and changes no other count.
-/

namespace GraphDissect.Fcov

open Library

/-- Both tables are as records leave them. -/
structure FuncCoverage.Consistent (fcov : FuncCoverage) : Prop where
  edges : edgeLayout.Consistent fcov.edgeHits
  funcs : funcLayout.Consistent fcov.funcHits

theorem consistent_zeroed : FuncCoverage.zeroed.Consistent :=
  ⟨ProbeLayout.consistent_zeroed, ProbeLayout.consistent_zeroed⟩

theorem RecorderState.Sound.consistent {Tid : Type} [Fintype Tid] {state : RecorderState Tid}
    (sound : state.Sound) : state.fcov.Consistent :=
  ⟨sound.edges.consistent, sound.funcs.consistent⟩

/-- A call of one of the two recording functions. -/
inductive CoverageRecord where
  | edge (edgeKey : UInt64)
  | func (faddr : UInt64)
  deriving DecidableEq

def recordOne (fcov : FuncCoverage) : CoverageRecord → FuncCoverage
  | .edge edgeKey => fcovRecordEdge fcov edgeKey
  | .func faddr => fcovRecordFunc fcov faddr

def recordAll (fcov : FuncCoverage) (batch : List CoverageRecord) : FuncCoverage :=
  batch.foldl recordOne fcov

/-- A record is counted in its table: writes are not blocked, the key is not
the empty one and the probe loop finds a slot. -/
def Counted (fcov : FuncCoverage) : CoverageRecord → Prop
  | .edge edgeKey => fcov.blockWrites = false ∧ edgeKey ≠ 0 ∧
      (edgeLayout.record fcov.edgeHits edgeKey).isSome
  | .func faddr => fcov.blockWrites = false ∧ faddr.toUInt32 ≠ 0 ∧
      (funcLayout.record fcov.funcHits faddr.toUInt32).isSome

instance (fcov : FuncCoverage) : DecidablePred (Counted fcov)
  | .edge _ => inferInstanceAs (Decidable (_ ∧ _ ∧ _))
  | .func _ => inferInstanceAs (Decidable (_ ∧ _ ∧ _))

/-- What a record adds to the count of an edge key. -/
def edgeIncrement (fcov : FuncCoverage) (key : UInt64) (record : CoverageRecord) : Nat :=
  if record = .edge key ∧ Counted fcov record then 1 else 0

def CoverageRecord.funcKey : CoverageRecord → Option UInt32
  | .edge _ => none
  | .func faddr => some faddr.toUInt32

/-- What a record adds to the count of a function key. -/
def funcIncrement (fcov : FuncCoverage) (key : UInt32) (record : CoverageRecord) : Nat :=
  if record.funcKey = some key ∧ Counted fcov record then 1 else 0

/-- What a batch adds to the count of an edge key. -/
def edgeIncrements (key : UInt64) : FuncCoverage → List CoverageRecord → Nat
  | _, [] => 0
  | fcov, record :: rest =>
      edgeIncrement fcov key record + edgeIncrements key (recordOne fcov record) rest

/-- What a batch adds to the count of a function key. -/
def funcIncrements (key : UInt32) : FuncCoverage → List CoverageRecord → Nat
  | _, [] => 0
  | fcov, record :: rest =>
      funcIncrement fcov key record + funcIncrements key (recordOne fcov record) rest

section Laws

variable {fcov : FuncCoverage}

theorem add_ofNat_zero (count : UInt32) : count + UInt32.ofNat 0 = count := UInt32.add_zero count

theorem toNat_add_ofNat {count : UInt32} {increments : Nat}
    (fits : count.toNat + increments < 2 ^ 32) :
    (count + UInt32.ofNat increments).toNat = count.toNat + increments := by
  rw [UInt32.toNat_add, UInt32.toNat_ofNat', Nat.add_mod_mod, Nat.mod_eq_of_lt fits]

theorem recordOne_visited (consistent : fcov.Consistent) (record : CoverageRecord) :
    (recordOne fcov record).Consistent ∧
      (∀ key, fcovIsEdgeVisited (recordOne fcov record) key =
        fcovIsEdgeVisited fcov key + UInt32.ofNat (edgeIncrement fcov key record)) ∧
      ∀ key, fcovIsNodeVisited (recordOne fcov record) key =
        fcovIsNodeVisited fcov key + UInt32.ofNat (funcIncrement fcov key record) := by
  cases record with
  | edge edgeKey =>
      simp only [recordOne, fcovRecordEdge, funcIncrement, CoverageRecord.funcKey, reduceCtorEq,
        false_and, if_false, add_ofNat_zero, edgeIncrement,
        CoverageRecord.edge.injEq]
      split
      next refused =>
        refine ⟨consistent, fun key => ?_, fun _ => rfl⟩
        rw [if_neg]
        · simp
        · rintro ⟨-, passed, nonzero, -⟩
          rcases refused with blocked | zero
          · simp [passed] at blocked
          · exact nonzero zero
      next passed =>
        simp only [not_or, Bool.not_eq_true] at passed
        cases recorded : edgeLayout.record fcov.edgeHits edgeKey with
        | none =>
            refine ⟨consistent, fun key => ?_, fun _ => rfl⟩
            simp [Counted, recorded]
        | some edgeHits =>
            rcases consistent.edges.record passed.2 recorded with ⟨kept, counted⟩
            refine ⟨⟨kept, consistent.funcs⟩, fun key => ?_, fun _ => rfl⟩
            refine (counted key).trans ?_
            by_cases same : key = edgeKey
            · simp [same, Counted, passed, recorded, fcovIsEdgeVisited]
            · simp [same, Ne.symm same, fcovIsEdgeVisited]
  | func faddr =>
      simp only [recordOne, fcovRecordFunc, edgeIncrement, reduceCtorEq, false_and, if_false,
        add_ofNat_zero, funcIncrement, CoverageRecord.funcKey,
        Option.some.injEq]
      split
      next blocked =>
        refine ⟨consistent, fun _ => rfl, fun key => ?_⟩
        simp [Counted, blocked]
      next passed =>
        split
        next zero =>
          refine ⟨consistent, fun _ => rfl, fun key => ?_⟩
          simp [Counted, zero]
        next nonzero =>
          cases recorded : funcLayout.record fcov.funcHits faddr.toUInt32 with
          | none =>
              refine ⟨consistent, fun _ => rfl, fun key => ?_⟩
              simp [Counted, recorded]
          | some funcHits =>
              rcases consistent.funcs.record nonzero recorded with ⟨kept, counted⟩
              refine ⟨⟨consistent.edges, kept⟩, fun _ => rfl, fun key => ?_⟩
              refine (counted key).trans ?_
              by_cases same : key = faddr.toUInt32
              · simp [same, Counted, passed, nonzero, recorded, fcovIsNodeVisited]
              · simp [same, Ne.symm same, fcovIsNodeVisited]

theorem recordAll_visited (consistent : fcov.Consistent) (batch : List CoverageRecord) :
    (recordAll fcov batch).Consistent ∧
      (∀ key, fcovIsEdgeVisited (recordAll fcov batch) key =
        fcovIsEdgeVisited fcov key + UInt32.ofNat (edgeIncrements key fcov batch)) ∧
      ∀ key, fcovIsNodeVisited (recordAll fcov batch) key =
        fcovIsNodeVisited fcov key + UInt32.ofNat (funcIncrements key fcov batch) := by
  induction batch generalizing fcov with
  | nil => exact ⟨consistent, fun _ => (UInt32.add_zero _).symm, fun _ => (UInt32.add_zero _).symm⟩
  | cons record rest inductionHypothesis =>
      rcases recordOne_visited consistent record with ⟨kept, edges, funcs⟩
      rcases inductionHypothesis kept with ⟨keptAll, edgesAll, funcsAll⟩
      refine ⟨keptAll, fun key => ?_, fun key => ?_⟩
      · rw [edgeIncrements, UInt32.ofNat_add, ← UInt32.add_assoc, ← edges]
        exact edgesAll key
      · rw [funcIncrements, UInt32.ofNat_add, ← UInt32.add_assoc, ← funcs]
        exact funcsAll key

theorem funcIncrements_le (key : UInt32) (fcov : FuncCoverage) (batch : List CoverageRecord) :
    funcIncrements key fcov batch ≤ batch.length := by
  induction batch generalizing fcov with
  | nil => exact Nat.zero_le 0
  | cons record rest inductionHypothesis =>
      have one : funcIncrement fcov key record ≤ 1 := by
        unfold funcIncrement
        split <;> omega
      have later := inductionHypothesis (recordOne fcov record)
      simp only [funcIncrements, List.length_cons]
      omega

@[simp]
theorem fcovIsNodeVisited_zeroed (key : UInt32) :
    fcovIsNodeVisited FuncCoverage.zeroed key = 0 := by
  by_cases zero : key = 0
  · subst zero
    rfl
  · exact ProbeLayout.lookup_eq_zero fun _ stored => zero stored.symm

@[simp]
theorem fcovIsEdgeVisited_zeroed (key : UInt64) :
    fcovIsEdgeVisited FuncCoverage.zeroed key = 0 := by
  by_cases zero : key = 0
  · subst zero
    rfl
  · exact ProbeLayout.lookup_eq_zero fun _ stored => zero stored.symm

end Laws

end GraphDissect.Fcov
