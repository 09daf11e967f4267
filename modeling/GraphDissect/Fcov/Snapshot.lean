import GraphDissect.Fcov.Soundness

/-!
# Blocked snapshots

`setCovBlock` is meant to freeze the map while MFuzz reads it.  The flag is
tested before a record and not during it, so the freeze works only when no
thread is committed: past the flag test of its edge and not yet through with
its function.
-/

namespace GraphDissect.Fcov

open Library

universe u

/-- The thread got past the flag test of an edge or function record and has not
finished the event. -/
def RecorderPc.Committed : RecorderPc → Prop
  | .inEdge _ => True
  | .funcEnter _ edgeTried => edgeTried = true
  | .inFunc => True
  | _ => False

/-- The function key a thread has still to record to complete its edge. -/
def RecorderPc.Owes (key : UInt32) : RecorderPc → Prop
  | .inEdge (some callee) => callee.toUInt32 = key
  | .funcEnter faddr true => faddr.toUInt32 = key
  | _ => False

/-- The target reports calls and MFuzz sets and clears the flag. -/
def RecorderAction.IsEvent {Tid : Type u} : RecorderAction Tid → Prop
  | .fcovRecordEdge _ _ | .fcovRecordFunc _ _ => False
  | _ => True

instance : DecidablePred RecorderPc.Committed
  | .inEdge _ | .inFunc => isTrue trivial
  | .funcEnter _ edgeTried => inferInstanceAs (Decidable (edgeTried = true))
  | .idle | .enter _ _ | .edgeEnter _ _ => isFalse id

instance {Tid : Type u} : DecidablePred (@RecorderAction.IsEvent Tid)
  | .fcovRecordEdge _ _ | .fcovRecordFunc _ _ => isFalse id
  | .fcovRecord _ _ _ | .step _ | .setCovBlock | .setCovNonBlock => isTrue trivial

namespace RecorderState

variable {Tid : Type u} [DecidableEq Tid]

/-- While the flag is set no step changes a table. -/
def Frozen (dladdr : UInt64 → Option UInt64) (state : RecorderState Tid) : Prop :=
  state.blockWrites = true → ∀ action next, state.step dladdr action = some next →
    next.fcov.edgeHits = state.fcov.edgeHits ∧ next.fcov.funcHits = state.fcov.funcHits

/-- While the flag is set and no thread records, the callee of every recorded
edge is recorded too, unless a record of it was dropped. -/
def Paired (state : RecorderState Tid) : Prop :=
  state.blockWrites = true → state.Quiet →
    ∀ position, (state.fcov.edgeHits.slot position).key ≠ 0 →
      (∃ place, (state.fcov.funcHits.slot place).key =
        calleeKey (state.fcov.edgeHits.slot position).key) ∨
      state.funcs.dropped (calleeKey (state.fcov.edgeHits.slot position).key) ≠ 0

/-- The flag is set only while no thread is committed, and no callee sits at a
non-zero multiple of `2 ^ 32`. -/
def SnapshotSafe (state : RecorderState Tid) : RecorderAction Tid → Prop
  | .fcovRecord _ _ callee => callee = 0 ∨ callee.toUInt32 ≠ 0
  | .setCovBlock => ∀ tid, ¬(state.pc tid).Committed
  | _ => True

instance [Fintype Tid] (state : RecorderState Tid) : DecidablePred state.SnapshotSafe
  | .fcovRecord _ _ callee => inferInstanceAs (Decidable (callee = 0 ∨ callee.toUInt32 ≠ 0))
  | .setCovBlock => inferInstanceAs (Decidable (∀ tid, ¬(state.pc tid).Committed))
  | .fcovRecordEdge _ _ | .fcovRecordFunc _ _ | .step _ | .setCovNonBlock => isTrue trivial

/-- What the steps of one event know about each other. -/
def Pairing (edge : Option (ProbePc UInt64)) : RecorderPc → Prop
  | .idle | .inFunc => True
  | .enter _ callee => callee = 0 ∨ callee.toUInt32 ≠ 0
  | .edgeEnter edgeKey rest => calleeKey edgeKey ≠ 0 ∧
      ∃ callee, rest = some callee ∧ callee.toUInt32 = calleeKey edgeKey
  | .inEdge rest => ∃ callee, rest = some callee ∧ callee.toUInt32 ≠ 0 ∧
      ∀ pc, edge = some pc → callee.toUInt32 = calleeKey pc.key
  | .funcEnter faddr _ => faddr.toUInt32 ≠ 0

/-- The invariant of runs that respect `SnapshotSafe`. -/
structure Snapshot [Fintype Tid] (state : RecorderState Tid) : Prop where
  sound : state.Sound
  blocked : state.blockWrites = true → ∀ tid, ¬(state.pc tid).Committed
  pairing : ∀ tid, Pairing (state.edges.pc tid) (state.pc tid)
  owed : ∀ position, (state.edges.table.slot position).key ≠ 0 →
    calleeKey (state.edges.table.slot position).key ≠ 0 ∧
    (state.funcs.started (calleeKey (state.edges.table.slot position).key) ≠ 0 ∨
      ∃ tid, (state.pc tid).Owes (calleeKey (state.edges.table.slot position).key))

section Invariant

variable [Fintype Tid]

omit [DecidableEq Tid] in
theorem snapshot_zeroed : (zeroed : RecorderState Tid).Snapshot where
  sound := sound_zeroed
  blocked flagged := by cases flagged
  pairing _ := trivial
  owed _ stored := absurd rfl stored

omit [Fintype Tid] in
theorem owes_goto {state : RecorderState Tid} {tid : Tid} {pc : RecorderPc} {key : UInt32}
    (keeps : (state.pc tid).Owes key → pc.Owes key)
    (owing : ∃ other, (state.pc other).Owes key) :
    ∃ other, ((state.goto tid pc).pc other).Owes key := by
  rcases owing with ⟨other, debt⟩
  refine ⟨other, ?_⟩
  by_cases same : other = tid
  · subst same
    rw [goto_pc_self]
    exact keeps debt
  · rw [goto_pc_of_ne pc same]
    exact debt

omit [Fintype Tid] in
theorem pairing_goto {state : RecorderState Tid} {tid : Tid} {pc : RecorderPc}
    {edges : Tid → Option (ProbePc UInt64)} (here : Pairing (edges tid) pc)
    (others : ∀ other ≠ tid, edges other = state.edges.pc other)
    (before : ∀ other, Pairing (state.edges.pc other) (state.pc other)) (other : Tid) :
    Pairing (edges other) ((state.goto tid pc).pc other) := by
  by_cases same : other = tid
  · subst same
    rw [goto_pc_self]
    exact here
  · rw [goto_pc_of_ne pc same, others other same]
    exact before other

theorem Snapshot.goto {state : RecorderState Tid} (snapshot : state.Snapshot) {tid : Tid}
    {pc : RecorderPc} (sound : (state.goto tid pc).Sound) (uncommitted : ¬pc.Committed)
    (pairing : Pairing (state.edges.pc tid) pc)
    (keeps : ∀ key, ¬(state.pc tid).Owes key) : (state.goto tid pc).Snapshot where
  sound := sound
  blocked := by
    intro flagged other
    by_cases same : other = tid
    · subst same
      rw [goto_pc_self]
      exact uncommitted
    · rw [goto_pc_of_ne pc same]
      exact snapshot.blocked flagged other
  pairing := pairing_goto pairing (fun _ _ => rfl) snapshot.pairing
  owed := by
    intro position stored
    rcases snapshot.owed position stored with ⟨nonzero, begun | owing⟩
    · exact ⟨nonzero, .inl begun⟩
    · exact ⟨nonzero, .inr (owes_goto (fun debt => absurd debt (keeps _)) owing)⟩

theorem Snapshot.edgeBegun {state : RecorderState Tid} (snapshot : state.Snapshot) {tid : Tid}
    {edgeKey : UInt64} {rest : Option UInt64} (at_ : state.pc tid = .edgeEnter edgeKey rest)
    (unblocked : state.blockWrites = false)
    (sound : { state.goto tid (.inEdge rest) with
      edges := state.edges.begin tid edgeKey }.Sound) :
    { state.goto tid (.inEdge rest) with
      edges := state.edges.begin tid edgeKey }.Snapshot where
  sound := sound
  blocked flagged := absurd flagged (by simp [unblocked])
  pairing := by
    refine pairing_goto ?_ (fun other different => ProbeRun.begin_pc_of_ne edgeKey different)
      snapshot.pairing
    have here := snapshot.pairing tid
    rw [at_] at here
    rcases here with ⟨nonzero, callee, present, low⟩
    rw [ProbeRun.begin_pc_self]
    refine ⟨callee, present, low ▸ nonzero, ?_⟩
    intro pc entered
    cases entered
    exact low
  owed := by
    intro position stored
    rcases snapshot.owed position stored with ⟨nonzero, begun | owing⟩
    · exact ⟨nonzero, .inl begun⟩
    · refine ⟨nonzero, .inr (owes_goto ?_ owing)⟩
      intro debt
      rw [at_] at debt
      cases debt

theorem Snapshot.edgeAdvanced {state : RecorderState Tid} (snapshot : state.Snapshot)
    {tid : Tid} {rest : Option UInt64} {pc : ProbePc UInt64}
    (at_ : state.pc tid = .inEdge rest) (held : state.edges.pc tid = some pc)
    (sound : { state.goto tid
        (if (state.edges.advance edgeLayout tid pc).pc tid = none then afterEdge true rest
          else .inEdge rest) with
      edges := state.edges.advance edgeLayout tid pc }.Sound) :
    { state.goto tid
        (if (state.edges.advance edgeLayout tid pc).pc tid = none then afterEdge true rest
          else .inEdge rest) with
      edges := state.edges.advance edgeLayout tid pc }.Snapshot := by
  have here := snapshot.pairing tid
  rw [at_, held] at here
  rcases here with ⟨callee, rfl, nonzero, low⟩
  have owing : ∀ key, callee.toUInt32 = key →
      (if (state.edges.advance edgeLayout tid pc).pc tid = none then afterEdge true (some callee)
        else .inEdge (some callee)).Owes key := by
    intro key same
    split <;> exact same
  refine ⟨sound, ?_, ?_, ?_⟩
  · intro flagged
    exact absurd (by rw [at_]; trivial) (snapshot.blocked flagged tid)
  · refine pairing_goto ?_ (fun other different => ProbeRun.advance_pc_of_ne pc different)
      snapshot.pairing
    split
    next => exact nonzero
    next =>
      refine ⟨callee, rfl, nonzero, ?_⟩
      intro next running
      rw [ProbeRun.advance_pc_key running]
      exact low pc rfl
  · intro position stored
    rcases @ProbeRun.advance_slot_key _ _ _ _ edgeLayout state.edges tid pc position with
      old | written
    · rw [old] at stored ⊢
      rcases snapshot.owed position stored with ⟨nonzeroKey, begun | debts⟩
      · exact ⟨nonzeroKey, .inl begun⟩
      · refine ⟨nonzeroKey, .inr (owes_goto ?_ debts)⟩
        intro debt
        rw [at_] at debt
        exact owing _ debt
    · rw [written, ← low pc rfl]
      refine ⟨nonzero, .inr ⟨tid, ?_⟩⟩
      rw [goto_pc_self]
      exact owing _ rfl

theorem Snapshot.funcBegun {state : RecorderState Tid} (snapshot : state.Snapshot) {tid : Tid}
    {faddr : UInt64} {edgeTried : Bool} (at_ : state.pc tid = .funcEnter faddr edgeTried)
    (unblocked : state.blockWrites = false)
    (sound : { state.goto tid .inFunc with
      funcs := state.funcs.begin tid faddr.toUInt32 }.Sound) :
    { state.goto tid .inFunc with
      funcs := state.funcs.begin tid faddr.toUInt32 }.Snapshot where
  sound := sound
  blocked flagged := absurd flagged (by simp [unblocked])
  pairing := pairing_goto trivial (fun _ _ => rfl) snapshot.pairing
  owed := by
    intro position stored
    rcases snapshot.owed position stored with ⟨nonzero, begun | ⟨other, debt⟩⟩
    · refine ⟨nonzero, .inl ?_⟩
      simp only [ProbeRun.begin_started, bump_apply]
      exact Nat.ne_of_gt (Nat.add_pos_left (Nat.pos_of_ne_zero begun) _)
    · by_cases same : other = tid
      · subst same
        rw [at_] at debt
        cases edgeTried with
        | false => cases debt
        | true =>
            refine ⟨nonzero, .inl ?_⟩
            rw [ProbeRun.begin_started, bump_apply, if_pos]
            · exact Nat.succ_ne_zero _
            · exact debt.symm
      · refine ⟨nonzero, .inr ⟨other, ?_⟩⟩
        rw [goto_pc_of_ne _ same]
        exact debt

theorem Snapshot.funcAdvanced {state : RecorderState Tid} (snapshot : state.Snapshot)
    {tid : Tid} {pc : ProbePc UInt32} (at_ : state.pc tid = .inFunc)
    (sound : { state.goto tid
        (if (state.funcs.advance funcLayout tid pc).pc tid = none then .idle else .inFunc) with
      funcs := state.funcs.advance funcLayout tid pc }.Sound) :
    { state.goto tid
        (if (state.funcs.advance funcLayout tid pc).pc tid = none then .idle else .inFunc) with
      funcs := state.funcs.advance funcLayout tid pc }.Snapshot where
  sound := sound
  blocked flagged := absurd (by rw [at_]; trivial) (snapshot.blocked flagged tid)
  pairing := by
    refine pairing_goto ?_ (fun _ _ => rfl) snapshot.pairing
    split <;> trivial
  owed := by
    intro position stored
    rcases snapshot.owed position stored with ⟨nonzero, begun | owing⟩
    · exact ⟨nonzero, .inl (by rwa [ProbeRun.advance_started])⟩
    · refine ⟨nonzero, .inr (owes_goto ?_ owing)⟩
      intro debt
      rw [at_] at debt
      cases debt

omit [DecidableEq Tid] in
/-- A thread refused at the function's flag test owes nothing. -/
theorem Snapshot.not_owes_of_skipped {state : RecorderState Tid} (snapshot : state.Snapshot)
    {tid : Tid} {faddr : UInt64} {edgeTried : Bool}
    (at_ : state.pc tid = .funcEnter faddr edgeTried)
    (guarded : state.blockWrites ∨ faddr.toUInt32 = 0) (key : UInt32) :
    ¬(state.pc tid).Owes key := by
  have nonzero := snapshot.pairing tid
  rw [at_] at nonzero ⊢
  have uncommitted := snapshot.blocked (guarded.resolve_right nonzero) tid
  rw [at_] at uncommitted
  cases edgeTried with
  | false => exact id
  | true => exact absurd rfl uncommitted

theorem Snapshot.threadStep {dladdr : UInt64 → Option UInt64} {state next : RecorderState Tid}
    {tid : Tid} (snapshot : state.Snapshot) (taken : ThreadStep dladdr state tid next) :
    next.Snapshot := by
  have sound := snapshot.sound.threadStep taken
  have here := snapshot.pairing tid
  cases taken with
  | refused at_ =>
      exact snapshot.goto sound id trivial fun key => by rw [at_]; exact id
  | entered at_ _ nonzero =>
      rw [at_] at here
      refine snapshot.goto sound id ?_ fun key => by rw [at_]; exact id
      rw [Pairing, calleeKey_makeEdgeKey]
      exact ⟨here.resolve_left nonzero, _, rfl, rfl⟩
  | edgeSkipped at_ =>
      rw [at_] at here
      rcases here with ⟨nonzero, callee, rfl, low⟩
      refine snapshot.goto sound Bool.false_ne_true ?_
        fun key => by rw [at_]; exact id
      change callee.toUInt32 ≠ 0
      rwa [low]
  | edgeBegun at_ unblocked => exact snapshot.edgeBegun at_ unblocked sound
  | edgeAdvanced at_ held => exact snapshot.edgeAdvanced at_ held sound
  | funcSkipped at_ guarded =>
      exact snapshot.goto sound id trivial (snapshot.not_owes_of_skipped at_ guarded)
  | funcBegun at_ unblocked => exact snapshot.funcBegun at_ unblocked sound
  | funcAdvanced at_ => exact snapshot.funcAdvanced at_ sound

theorem Snapshot.step {dladdr : UInt64 → Option UInt64} {state next : RecorderState Tid}
    {action : RecorderAction Tid} (snapshot : state.Snapshot)
    (safe : action.IsEvent ∧ state.SnapshotSafe action)
    (taken : state.step dladdr action = some next) : next.Snapshot := by
  have sound := snapshot.sound.step taken
  cases action with
  | fcovRecord tid caller callee =>
      rcases call_eq_some taken with ⟨idle, rfl⟩
      exact snapshot.goto sound id safe.2 fun key => by rw [idle]; exact id
  | fcovRecordEdge tid edgeKey => exact absurd safe.1 id
  | fcovRecordFunc tid faddr => exact absurd safe.1 id
  | step tid => exact snapshot.threadStep (threadStep_of_eq_some taken)
  | setCovBlock =>
      cases taken
      exact ⟨sound, fun _ => safe.2, snapshot.pairing, snapshot.owed⟩
  | setCovNonBlock =>
      cases taken
      exact ⟨sound, fun flagged => (by cases flagged), snapshot.pairing, snapshot.owed⟩

omit [Fintype Tid] in
theorem tables_of_uncommitted {dladdr : UInt64 → Option UInt64} {state next : RecorderState Tid}
    {action : RecorderAction Tid} (uncommitted : ∀ tid, ¬(state.pc tid).Committed)
    (taken : state.step dladdr action = some next) :
    next.fcov.edgeHits = state.fcov.edgeHits ∧ next.fcov.funcHits = state.fcov.funcHits := by
  cases action with
  | fcovRecord tid caller callee =>
      rcases call_eq_some taken with ⟨-, rfl⟩
      exact ⟨rfl, rfl⟩
  | fcovRecordEdge tid edgeKey =>
      rcases call_eq_some taken with ⟨-, rfl⟩
      exact ⟨rfl, rfl⟩
  | fcovRecordFunc tid faddr =>
      rcases call_eq_some taken with ⟨-, rfl⟩
      exact ⟨rfl, rfl⟩
  | step tid =>
      have free := uncommitted tid
      cases threadStep_of_eq_some taken with
      | edgeAdvanced at_ => exact absurd (by rw [at_]; trivial) free
      | funcAdvanced at_ => exact absurd (by rw [at_]; trivial) free
      | _ => exact ⟨rfl, rfl⟩
  | setCovBlock =>
      cases taken
      exact ⟨rfl, rfl⟩
  | setCovNonBlock =>
      cases taken
      exact ⟨rfl, rfl⟩

theorem Snapshot.frozen {dladdr : UInt64 → Option UInt64} {state : RecorderState Tid}
    (snapshot : state.Snapshot) : state.Frozen dladdr :=
  fun flagged _ _ taken => tables_of_uncommitted (snapshot.blocked flagged) taken

omit [DecidableEq Tid] in
theorem Snapshot.paired {state : RecorderState Tid} (snapshot : state.Snapshot) :
    state.Paired := by
  intro _ quiet position stored
  rcases snapshot.owed position stored with ⟨nonzero, begun | ⟨tid, debt⟩⟩
  · exact snapshot.sound.funcs.stored_or_dropped (snapshot.sound.funcs_quiet quiet) nonzero begun
  · rw [quiet tid] at debt
    cases debt

/-- When MFuzz sets the flag only while no thread is committed, every blocked
snapshot is frozen and paired. -/
theorem blocked_snapshot_consistent {dladdr : UInt64 → Option UInt64} {state : RecorderState Tid}
    {actions : List (RecorderAction Tid)}
    (safe : Along (step dladdr) (fun state action => action.IsEvent ∧ state.SnapshotSafe action)
      zeroed actions)
    (reached : runFrom (step dladdr) zeroed actions = some state) :
    state.Frozen dladdr ∧ state.Paired := by
  have snapshot : state.Snapshot :=
    safe.invariant (fun _ _ _ kept allowed taken => kept.step allowed taken)
      snapshot_zeroed reached
  exact ⟨snapshot.frozen, snapshot.paired⟩

end Invariant

section Races

/-- One call from `0x401000` to `0x402000`, up to its edge's flag test. -/
def eventBegun : List (RecorderAction (Fin 1)) :=
  [.fcovRecord 0 0x401000 0x402000, .step 0, .step 0]

def edgeRecorded : List (RecorderAction (Fin 1)) := [.step 0, .step 0, .step 0, .step 0]

/-- The rest of the event when the function's flag test passes. -/
def funcRecorded : List (RecorderAction (Fin 1)) :=
  [.step 0, .step 0, .step 0, .step 0, .step 0]

def ends (actions : List (RecorderAction (Fin 1)))
    (taken : (runFrom (step fun _ => none) zeroed actions).isSome = true) :
    RecorderState (Fin 1) :=
  (runFrom (step fun _ => none) zeroed actions).get taken

theorem runFrom_ends (actions : List (RecorderAction (Fin 1)))
    (taken : (runFrom (step fun _ => none) zeroed actions).isSome = true) :
    runFrom (step fun _ => none) zeroed actions = some (ends actions taken) :=
  (Option.some_get taken).symm

theorem blocked_snapshot_consistent_after_event : ∃ state,
    runFrom (step fun _ => none) (zeroed : RecorderState (Fin 1))
        (eventBegun ++ edgeRecorded ++ funcRecorded ++ [.setCovBlock]) = some state ∧
      state.Quiet ∧ state.blockWrites = true ∧ state.Frozen (fun _ => none) ∧ state.Paired := by
  refine ⟨_, runFrom_ends _ (by decide), ?_, rfl, ?_⟩
  · intro tid
    rw [Fin.fin_one_eq_zero tid]
    rfl
  · exact blocked_snapshot_consistent (by decide) (runFrom_ends _ (by decide))

/-- The flag does not stop a thread that is past its test: a count changes
under the flag, and a callee is missing for a recorded edge. -/
theorem blocked_snapshot_races :
    (∃ actions state, (∀ action ∈ actions, action.IsEvent) ∧
      runFrom (step fun _ => none) (zeroed : RecorderState (Fin 1)) actions = some state ∧
      ¬state.Frozen fun _ => none) ∧
    ∃ actions state, (∀ action ∈ actions, action.IsEvent) ∧
      runFrom (step fun _ => none) (zeroed : RecorderState (Fin 1)) actions = some state ∧
      ¬state.Paired := by
  constructor
  · refine ⟨eventBegun ++ [.setCovBlock, .step 0, .step 0], _, by decide,
      runFrom_ends _ (by decide), ?_⟩
    intro frozen
    have same := (frozen rfl (.step 0) _ rfl).1
    have counts := congrArg (fun table => (table.slot
      (edgeLayout.position (fcovMakeEdgeKey 0x401000 0x402000) 0)).count) same
    revert counts
    decide
  · refine ⟨eventBegun ++ edgeRecorded ++ [.setCovBlock, .step 0], _, by decide,
      runFrom_ends _ (by decide), ?_⟩
    intro paired
    rcases paired rfl (by intro tid; rw [Fin.fin_one_eq_zero tid]; rfl)
      (edgeLayout.position (fcovMakeEdgeKey 0x401000 0x402000) 0) (by decide) with
      ⟨place, stored⟩ | dropped
    · revert stored
      change (0 : UInt32) ≠ _
      decide
    · exact dropped rfl

end Races

end RecorderState

end GraphDissect.Fcov
