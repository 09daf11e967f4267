import GraphDissect.Fcov.Recorder

/-!
# Correctness of the coverage tables

Whatever the threads and MFuzz do, both tables stay sound probe runs and every
thread is inside at most one of them.  The statement about whole runs follows
by the invariant rule.
-/

namespace GraphDissect.Fcov

open Library

universe u

namespace RecorderState

variable {Tid : Type u} [DecidableEq Tid]

/-- Everything one atomic step of a thread can do. -/
inductive ThreadStep (dladdr : UInt64 → Option UInt64) (state : RecorderState Tid) (tid : Tid) :
    RecorderState Tid → Prop where
  | refused {caller callee} : state.pc tid = .enter caller callee →
      state.blockWrites ∨ callee = 0 →
      ThreadStep dladdr state tid (state.goto tid .idle)
  | entered {caller callee} : state.pc tid = .enter caller callee →
      state.blockWrites = false → callee ≠ 0 →
      ThreadStep dladdr state tid (state.goto tid
        (.edgeEnter (fcovMakeEdgeKey (pcToFuncEntry dladdr caller) callee) (some callee)))
  | edgeSkipped {edgeKey rest} : state.pc tid = .edgeEnter edgeKey rest →
      state.blockWrites ∨ edgeKey = 0 →
      ThreadStep dladdr state tid (state.goto tid (afterEdge false rest))
  | edgeBegun {edgeKey rest} : state.pc tid = .edgeEnter edgeKey rest →
      state.blockWrites = false → edgeKey ≠ 0 →
      ThreadStep dladdr state tid
        { state.goto tid (.inEdge rest) with edges := state.edges.begin tid edgeKey }
  | edgeAdvanced {rest pc} : state.pc tid = .inEdge rest → state.edges.pc tid = some pc →
      ThreadStep dladdr state tid
        { state.goto tid
            (if (state.edges.advance edgeLayout tid pc).pc tid = none then afterEdge true rest
              else .inEdge rest) with
          edges := state.edges.advance edgeLayout tid pc }
  | funcSkipped {faddr edgeTried} : state.pc tid = .funcEnter faddr edgeTried →
      state.blockWrites ∨ faddr.toUInt32 = 0 →
      ThreadStep dladdr state tid (state.goto tid .idle)
  | funcBegun {faddr edgeTried} : state.pc tid = .funcEnter faddr edgeTried →
      state.blockWrites = false → faddr.toUInt32 ≠ 0 →
      ThreadStep dladdr state tid
        { state.goto tid .inFunc with funcs := state.funcs.begin tid faddr.toUInt32 }
  | funcAdvanced {pc} : state.pc tid = .inFunc → state.funcs.pc tid = some pc →
      ThreadStep dladdr state tid
        { state.goto tid
            (if (state.funcs.advance funcLayout tid pc).pc tid = none then .idle
              else .inFunc) with
          funcs := state.funcs.advance funcLayout tid pc }

theorem threadStep_of_eq_some {dladdr : UInt64 → Option UInt64} {state next : RecorderState Tid}
    {tid : Tid} (taken : state.stepThread dladdr tid = some next) :
    ThreadStep dladdr state tid next := by
  unfold stepThread at taken
  split at taken
  next => cases taken
  next caller callee at_ =>
    split at taken
    next guarded =>
      cases taken
      exact .refused at_ guarded
    next passed =>
      cases taken
      simp only [not_or, Bool.not_eq_true] at passed
      exact .entered at_ passed.1 passed.2
  next edgeKey rest at_ =>
    split at taken
    next guarded =>
      cases taken
      exact .edgeSkipped at_ guarded
    next passed =>
      cases taken
      simp only [not_or, Bool.not_eq_true] at passed
      exact .edgeBegun at_ passed.1 passed.2
  next rest at_ =>
    split at taken
    next => cases taken
    next pc held =>
      cases taken
      exact .edgeAdvanced at_ held
  next faddr edgeTried at_ =>
    split at taken
    next guarded =>
      cases taken
      exact .funcSkipped at_ guarded
    next passed =>
      cases taken
      simp only [not_or, Bool.not_eq_true] at passed
      exact .funcBegun at_ passed.1 passed.2
  next at_ =>
    split at taken
    next => cases taken
    next pc held =>
      cases taken
      exact .funcAdvanced at_ held

/-- Which table a thread may be working on. -/
def Located : RecorderPc → Option (ProbePc UInt64) → Option (ProbePc UInt32) → Prop
  | .inEdge _, edge, func => edge ≠ none ∧ func = none
  | .inFunc, edge, func => edge = none ∧ func ≠ none
  | _, edge, func => edge = none ∧ func = none

/-- The invariant of the shared map. -/
structure Sound [Fintype Tid] (state : RecorderState Tid) : Prop where
  edges : state.edges.Sound edgeLayout
  funcs : state.funcs.Sound funcLayout
  located : ∀ tid, Located (state.pc tid) (state.edges.pc tid) (state.funcs.pc tid)

theorem goto_pc_of_ne {state : RecorderState Tid} {tid other : Tid} (pc : RecorderPc)
    (away : other ≠ tid) : (state.goto tid pc).pc other = state.pc other :=
  Function.update_of_ne away _ _

@[simp]
theorem goto_pc_self (state : RecorderState Tid) (tid : Tid) (pc : RecorderPc) :
    (state.goto tid pc).pc tid = pc :=
  Function.update_self _ _ _

@[simp]
theorem goto_edges (state : RecorderState Tid) (tid : Tid) (pc : RecorderPc) :
    (state.goto tid pc).edges = state.edges := rfl

@[simp]
theorem goto_funcs (state : RecorderState Tid) (tid : Tid) (pc : RecorderPc) :
    (state.goto tid pc).funcs = state.funcs := rfl

@[simp]
theorem goto_blockWrites (state : RecorderState Tid) (tid : Tid) (pc : RecorderPc) :
    (state.goto tid pc).blockWrites = state.blockWrites := rfl

theorem call_eq_some {state next : RecorderState Tid} {tid : Tid} {pc : RecorderPc}
    (taken : state.call tid pc = some next) :
    state.pc tid = .idle ∧ next = state.goto tid pc := by
  unfold call at taken
  split at taken
  next idle =>
    cases taken
    exact ⟨idle, rfl⟩
  next => cases taken

theorem located_afterEdge (edgeTried : Bool) (rest : Option UInt64) :
    Located (afterEdge edgeTried rest) none none := by
  cases rest <;> exact ⟨rfl, rfl⟩

section Invariant

variable [Fintype Tid]

omit [DecidableEq Tid] in
theorem sound_zeroed : (zeroed : RecorderState Tid).Sound where
  edges := ProbeRun.sound_zeroed
  funcs := ProbeRun.sound_zeroed
  located _ := ⟨rfl, rfl⟩

/-- A thread that touches neither table may go wherever it works on none. -/
theorem Sound.goto {state : RecorderState Tid} (sound : state.Sound) {tid : Tid}
    {pc : RecorderPc} (outside : state.edges.pc tid = none ∧ state.funcs.pc tid = none)
    (located : Located pc none none) : (state.goto tid pc).Sound where
  edges := sound.edges
  funcs := sound.funcs
  located := by
    intro other
    by_cases same : other = tid
    · subst same
      rw [goto_pc_self]
      simpa [RecorderState.goto, outside] using located
    · rw [goto_pc_of_ne pc same]
      exact sound.located other

theorem Sound.threadStep {dladdr : UInt64 → Option UInt64} {state next : RecorderState Tid}
    {tid : Tid} (sound : state.Sound) (taken : ThreadStep dladdr state tid next) :
    next.Sound := by
  have here := sound.located tid
  cases taken with
  | refused at_ =>
      rw [at_] at here
      exact sound.goto here ⟨rfl, rfl⟩
  | entered at_ =>
      rw [at_] at here
      exact sound.goto here ⟨rfl, rfl⟩
  | edgeSkipped at_ =>
      rw [at_] at here
      exact sound.goto here (located_afterEdge _ _)
  | @edgeBegun edgeKey rest at_ open_ nonzero =>
      rw [at_] at here
      refine ⟨sound.edges.begin here.1 nonzero, sound.funcs, ?_⟩
      intro other
      by_cases same : other = tid
      · subst same
        simp only [goto_pc_self, ProbeRun.begin_pc_self]
        exact ⟨Option.some_ne_none _, here.2⟩
      · simpa [goto_pc_of_ne _ same, ProbeRun.begin_pc_of_ne edgeKey same] using
          sound.located other
  | @edgeAdvanced rest pc at_ held =>
      rw [at_] at here
      refine ⟨sound.edges.advance held, sound.funcs, ?_⟩
      intro other
      by_cases same : other = tid
      · subst same
        rw [goto_pc_self]
        split
        next finished =>
          simpa [RecorderState.goto, finished, here.2] using located_afterEdge true rest
        next running => exact ⟨running, here.2⟩
      · simpa [goto_pc_of_ne _ same, ProbeRun.advance_pc_of_ne pc same] using
          sound.located other
  | funcSkipped at_ =>
      rw [at_] at here
      exact sound.goto here ⟨rfl, rfl⟩
  | @funcBegun faddr edgeTried at_ open_ nonzero =>
      rw [at_] at here
      refine ⟨sound.edges, sound.funcs.begin here.2 nonzero, ?_⟩
      intro other
      by_cases same : other = tid
      · subst same
        simp only [goto_pc_self, ProbeRun.begin_pc_self]
        exact ⟨here.1, Option.some_ne_none _⟩
      · simpa [goto_pc_of_ne _ same, ProbeRun.begin_pc_of_ne faddr.toUInt32 same] using
          sound.located other
  | @funcAdvanced pc at_ held =>
      rw [at_] at here
      refine ⟨sound.edges, sound.funcs.advance held, ?_⟩
      intro other
      by_cases same : other = tid
      · subst same
        rw [goto_pc_self]
        split
        next finished => exact ⟨here.1, finished⟩
        next running => exact ⟨here.1, running⟩
      · simpa [goto_pc_of_ne _ same, ProbeRun.advance_pc_of_ne pc same] using
          sound.located other

theorem Sound.call {state next : RecorderState Tid} {tid : Tid} {pc : RecorderPc}
    (sound : state.Sound) (taken : state.call tid pc = some next)
    (located : Located pc none none) : next.Sound := by
  rcases call_eq_some taken with ⟨idle, rfl⟩
  have here := sound.located tid
  rw [idle] at here
  exact sound.goto here located

theorem Sound.step {dladdr : UInt64 → Option UInt64} {state next : RecorderState Tid}
    {action : RecorderAction Tid} (sound : state.Sound)
    (taken : state.step dladdr action = some next) : next.Sound := by
  cases action with
  | fcovRecord tid caller callee => exact sound.call taken ⟨rfl, rfl⟩
  | fcovRecordEdge tid edgeKey => exact sound.call taken ⟨rfl, rfl⟩
  | fcovRecordFunc tid faddr => exact sound.call taken ⟨rfl, rfl⟩
  | step tid => exact sound.threadStep (threadStep_of_eq_some taken)
  | setCovBlock =>
      cases taken
      exact ⟨sound.edges, sound.funcs, sound.located⟩
  | setCovNonBlock =>
      cases taken
      exact ⟨sound.edges, sound.funcs, sound.located⟩

theorem sound_of_run {dladdr : UInt64 → Option UInt64} {state : RecorderState Tid}
    {actions : List (RecorderAction Tid)}
    (reached : runFrom (step dladdr) zeroed actions = some state) : state.Sound :=
  runFrom_invariant (fun _ _ _ sound taken => sound.step taken) sound_zeroed reached

end Invariant

section Accounting

/-- The records of an edge key that a call asks for. -/
def edgeRequests (dladdr : UInt64 → Option UInt64) (key : UInt64) : RecorderAction Tid → Nat
  | .fcovRecord _ caller callee =>
      if callee ≠ 0 ∧ fcovMakeEdgeKey (pcToFuncEntry dladdr caller) callee = key then 1 else 0
  | .fcovRecordEdge _ edgeKey => if edgeKey = key then 1 else 0
  | _ => 0

/-- The records of a function key that a call asks for. -/
def funcRequests (key : UInt32) : RecorderAction Tid → Nat
  | .fcovRecord _ _ callee => if callee ≠ 0 ∧ callee.toUInt32 = key then 1 else 0
  | .fcovRecordFunc _ faddr => if faddr.toUInt32 = key then 1 else 0
  | _ => 0

/-- The edge records a thread has still to begin. -/
def edgesOwed (dladdr : UInt64 → Option UInt64) (key : UInt64) : RecorderPc → Nat
  | .enter caller callee =>
      if callee ≠ 0 ∧ fcovMakeEdgeKey (pcToFuncEntry dladdr caller) callee = key then 1 else 0
  | .edgeEnter edgeKey _ => if edgeKey = key then 1 else 0
  | _ => 0

/-- The function records a thread has still to begin. -/
def funcsOwed (key : UInt32) : RecorderPc → Nat
  | .enter _ callee => if callee ≠ 0 ∧ callee.toUInt32 = key then 1 else 0
  | .edgeEnter _ (some callee) => if callee.toUInt32 = key then 1 else 0
  | .inEdge (some callee) => if callee.toUInt32 = key then 1 else 0
  | .funcEnter faddr _ => if faddr.toUInt32 = key then 1 else 0
  | _ => 0

@[simp]
theorem edgesOwed_afterEdge (dladdr : UInt64 → Option UInt64) (key : UInt64) (edgeTried : Bool)
    (rest : Option UInt64) : edgesOwed dladdr key (afterEdge edgeTried rest) = 0 := by
  cases rest <;> rfl

theorem funcsOwed_afterEdge (key : UInt32) (edgeTried : Bool) (edgeKey : UInt64)
    (rest : Option UInt64) :
    funcsOwed key (afterEdge edgeTried rest) = funcsOwed key (.edgeEnter edgeKey rest) := by
  cases rest <;> rfl

theorem funcsOwed_inEdge (key : UInt32) (edgeKey : UInt64) (rest : Option UInt64) :
    funcsOwed key (.inEdge rest) = funcsOwed key (.edgeEnter edgeKey rest) := by
  cases rest <;> rfl

variable [Fintype Tid]

def edgeLedger (dladdr : UInt64 → Option UInt64) (key : UInt64) (state : RecorderState Tid) :
    Nat :=
  state.edges.started key + ∑ tid, edgesOwed dladdr key (state.pc tid)

def funcLedger (key : UInt32) (state : RecorderState Tid) : Nat :=
  state.funcs.started key + ∑ tid, funcsOwed key (state.pc tid)

/-- With the flag clear a step of a thread neither loses nor invents an edge
record. -/
theorem edgeLedger_threadStep {dladdr : UInt64 → Option UInt64}
    {state next : RecorderState Tid} {tid : Tid} {key : UInt64} (nonzero : key ≠ 0)
    (unblocked : state.blockWrites = false) (taken : ThreadStep dladdr state tid next) :
    edgeLedger dladdr key next = edgeLedger dladdr key state := by
  cases taken with
  | refused at_ guarded =>
      have zeroCallee := guarded.resolve_left (by simp [unblocked])
      apply sum_update_balance
      simp [at_, edgesOwed, zeroCallee]
  | entered at_ _ nonzeroCallee =>
      apply sum_update_balance
      simp [at_, edgesOwed, nonzeroCallee]
  | edgeSkipped at_ guarded =>
      have zeroKey := guarded.resolve_left (by simp [unblocked])
      apply sum_update_balance
      rw [edgesOwed_afterEdge]
      simp [at_, edgesOwed, zeroKey, nonzero.symm]
  | edgeBegun at_ =>
      apply sum_update_balance
      simp [at_, edgesOwed, bump_apply, eq_comm]
  | edgeAdvanced at_ =>
      apply sum_update_balance
      split
      · rw [at_, edgesOwed_afterEdge, ProbeRun.advance_started]
        rfl
      · rw [at_, ProbeRun.advance_started]
  | funcSkipped at_ =>
      apply sum_update_balance
      simp [at_, edgesOwed]
  | funcBegun at_ =>
      apply sum_update_balance
      simp [at_, edgesOwed]
  | funcAdvanced at_ =>
      apply sum_update_balance
      split <;> simp [at_, edgesOwed]

theorem funcLedger_threadStep {dladdr : UInt64 → Option UInt64}
    {state next : RecorderState Tid} {tid : Tid} {key : UInt32} (nonzero : key ≠ 0)
    (unblocked : state.blockWrites = false) (taken : ThreadStep dladdr state tid next) :
    funcLedger key next = funcLedger key state := by
  cases taken with
  | refused at_ guarded =>
      have zeroCallee := guarded.resolve_left (by simp [unblocked])
      apply sum_update_balance
      simp [at_, funcsOwed, zeroCallee]
  | entered at_ _ nonzeroCallee =>
      apply sum_update_balance
      simp [at_, funcsOwed, nonzeroCallee]
  | @edgeSkipped edgeKey rest at_ =>
      apply sum_update_balance
      rw [at_, funcsOwed_afterEdge key false edgeKey]
      rfl
  | @edgeBegun edgeKey rest at_ =>
      apply sum_update_balance
      rw [at_, funcsOwed_inEdge key edgeKey]
      rfl
  | @edgeAdvanced rest pc at_ =>
      apply sum_update_balance
      split
      · rw [at_, funcsOwed_afterEdge key true 0, funcsOwed_inEdge key 0]
        rfl
      · rw [at_]
        rfl
  | funcSkipped at_ guarded =>
      have zeroKey := guarded.resolve_left (by simp [unblocked])
      apply sum_update_balance
      simp [at_, funcsOwed, zeroKey, nonzero.symm]
  | funcBegun at_ =>
      apply sum_update_balance
      simp [at_, funcsOwed, bump_apply, eq_comm]
  | funcAdvanced at_ =>
      apply sum_update_balance
      split <;> simp [at_, funcsOwed]

omit [Fintype Tid] in
theorem threadStep_blockWrites {dladdr : UInt64 → Option UInt64} {state next : RecorderState Tid}
    {tid : Tid} (taken : ThreadStep dladdr state tid next) :
    next.blockWrites = state.blockWrites := by
  cases taken <;> rfl

theorem sum_call {state next : RecorderState Tid} {tid : Tid} {pc : RecorderPc}
    (share : RecorderPc → Nat) (idle : share .idle = 0)
    (taken : state.call tid pc = some next) :
    next.blockWrites = state.blockWrites ∧ next.edges = state.edges ∧ next.funcs = state.funcs ∧
      ∑ other, share (next.pc other) = ∑ other, share (state.pc other) + share pc := by
  rcases call_eq_some taken with ⟨atIdle, rfl⟩
  have moved := sum_update_add share state.pc tid pc
  rw [atIdle, idle, Nat.add_zero] at moved
  exact ⟨rfl, rfl, rfl, moved⟩

theorem edgeLedger_step {dladdr : UInt64 → Option UInt64} {key : UInt64} (nonzero : key ≠ 0)
    (state : RecorderState Tid) (action : RecorderAction Tid) (next : RecorderState Tid)
    (unblocked : state.blockWrites = false) (allowed : action ≠ .setCovBlock)
    (taken : state.step dladdr action = some next) :
    next.blockWrites = false ∧
      edgeLedger dladdr key next = edgeLedger dladdr key state + edgeRequests dladdr key action := by
  unfold edgeLedger
  cases action with
  | fcovRecord tid caller callee =>
      rcases sum_call (edgesOwed dladdr key) rfl taken with ⟨flag, edges, -, total⟩
      rw [flag, edges, total, Nat.add_assoc]
      exact ⟨unblocked, rfl⟩
  | fcovRecordEdge tid edgeKey =>
      rcases sum_call (edgesOwed dladdr key) rfl taken with ⟨flag, edges, -, total⟩
      rw [flag, edges, total, Nat.add_assoc]
      exact ⟨unblocked, rfl⟩
  | fcovRecordFunc tid faddr =>
      rcases sum_call (edgesOwed dladdr key) rfl taken with ⟨flag, edges, -, total⟩
      rw [flag, edges, total, Nat.add_assoc]
      exact ⟨unblocked, rfl⟩
  | step tid =>
      have moved := threadStep_of_eq_some taken
      exact ⟨(threadStep_blockWrites moved).trans unblocked,
        edgeLedger_threadStep nonzero unblocked moved⟩
  | setCovBlock => exact absurd rfl allowed
  | setCovNonBlock =>
      cases taken
      exact ⟨rfl, rfl⟩

theorem funcLedger_step {dladdr : UInt64 → Option UInt64} {key : UInt32} (nonzero : key ≠ 0)
    (state : RecorderState Tid) (action : RecorderAction Tid) (next : RecorderState Tid)
    (unblocked : state.blockWrites = false) (allowed : action ≠ .setCovBlock)
    (taken : state.step dladdr action = some next) :
    next.blockWrites = false ∧
      funcLedger key next = funcLedger key state + funcRequests key action := by
  unfold funcLedger
  cases action with
  | fcovRecord tid caller callee =>
      rcases sum_call (funcsOwed key) rfl taken with ⟨flag, -, funcs, total⟩
      rw [flag, funcs, total, Nat.add_assoc]
      exact ⟨unblocked, rfl⟩
  | fcovRecordEdge tid edgeKey =>
      rcases sum_call (funcsOwed key) rfl taken with ⟨flag, -, funcs, total⟩
      rw [flag, funcs, total, Nat.add_assoc]
      exact ⟨unblocked, rfl⟩
  | fcovRecordFunc tid faddr =>
      rcases sum_call (funcsOwed key) rfl taken with ⟨flag, -, funcs, total⟩
      rw [flag, funcs, total, Nat.add_assoc]
      exact ⟨unblocked, rfl⟩
  | step tid =>
      have moved := threadStep_of_eq_some taken
      exact ⟨(threadStep_blockWrites moved).trans unblocked,
        funcLedger_threadStep nonzero unblocked moved⟩
  | setCovBlock => exact absurd rfl allowed
  | setCovNonBlock =>
      cases taken
      exact ⟨rfl, rfl⟩

/-- In a quiet state of an unblocked run every requested edge record was
begun. -/
theorem edges_started_eq {dladdr : UInt64 → Option UInt64} {state : RecorderState Tid}
    {actions : List (RecorderAction Tid)} (unblocked : ∀ action ∈ actions, action ≠ .setCovBlock)
    (reached : runFrom (step dladdr) zeroed actions = some state) (quiet : state.Quiet)
    {key : UInt64} (nonzero : key ≠ 0) :
    state.edges.started key = (actions.map (edgeRequests dladdr key)).sum := by
  have ledger := runFrom_account (edgeLedger dladdr key) (edgeRequests dladdr key)
    (edgeLedger_step nonzero) rfl unblocked reached
  simpa [edgeLedger, quiet _, edgesOwed, zeroed, ProbeRun.zeroed] using ledger

theorem funcs_started_eq {dladdr : UInt64 → Option UInt64} {state : RecorderState Tid}
    {actions : List (RecorderAction Tid)} (unblocked : ∀ action ∈ actions, action ≠ .setCovBlock)
    (reached : runFrom (step dladdr) zeroed actions = some state) (quiet : state.Quiet)
    {key : UInt32} (nonzero : key ≠ 0) :
    state.funcs.started key = (actions.map (funcRequests key)).sum := by
  have ledger := runFrom_account (funcLedger key) (funcRequests key)
    (funcLedger_step nonzero) rfl unblocked reached
  simpa [funcLedger, quiet _, funcsOwed, zeroed, ProbeRun.zeroed] using ledger

end Accounting

section Correctness

omit [DecidableEq Tid] in
theorem Sound.edges_quiet [Fintype Tid] {state : RecorderState Tid} (sound : state.Sound)
    (quiet : state.Quiet) (tid : Tid) : state.edges.pc tid = none := by
  have here := sound.located tid
  rw [quiet tid] at here
  exact here.1

omit [DecidableEq Tid] in
theorem Sound.funcs_quiet [Fintype Tid] {state : RecorderState Tid} (sound : state.Sound)
    (quiet : state.Quiet) (tid : Tid) : state.funcs.pc tid = none := by
  have here := sound.located tid
  rw [quiet tid] at here
  exact here.2

theorem extends_step {dladdr : UInt64 → Option UInt64} {state next : RecorderState Tid}
    {action : RecorderAction Tid} (taken : state.step dladdr action = some next) :
    edgeLayout.Extends state.edges.table next.edges.table ∧
      funcLayout.Extends state.funcs.table next.funcs.table := by
  have unchanged : next.edges.table = state.edges.table → next.funcs.table = state.funcs.table →
      edgeLayout.Extends state.edges.table next.edges.table ∧
        funcLayout.Extends state.funcs.table next.funcs.table := by
    intro edges funcs
    rw [edges, funcs]
    exact ⟨ProbeLayout.Extends.refl _, ProbeLayout.Extends.refl _⟩
  cases action with
  | fcovRecord tid caller callee =>
      rcases call_eq_some taken with ⟨-, rfl⟩
      exact unchanged rfl rfl
  | fcovRecordEdge tid edgeKey =>
      rcases call_eq_some taken with ⟨-, rfl⟩
      exact unchanged rfl rfl
  | fcovRecordFunc tid faddr =>
      rcases call_eq_some taken with ⟨-, rfl⟩
      exact unchanged rfl rfl
  | step tid =>
      cases threadStep_of_eq_some taken with
      | edgeAdvanced => exact ⟨ProbeRun.extends_advance _ _ _, ProbeLayout.Extends.refl _⟩
      | funcAdvanced => exact ⟨ProbeLayout.Extends.refl _, ProbeRun.extends_advance _ _ _⟩
      | _ => exact unchanged rfl rfl
  | setCovBlock =>
      cases taken
      exact unchanged rfl rfl
  | setCovNonBlock =>
      cases taken
      exact unchanged rfl rfl

theorem extends_run {dladdr : UInt64 → Option UInt64} {state final : RecorderState Tid}
    {actions : List (RecorderAction Tid)}
    (reached : runFrom (step dladdr) state actions = some final) :
    edgeLayout.Extends state.edges.table final.edges.table ∧
      funcLayout.Extends state.funcs.table final.funcs.table :=
  @runFrom_relates _ _ (step dladdr)
    (fun before after => edgeLayout.Extends before.edges.table after.edges.table ∧
      funcLayout.Extends before.funcs.table after.funcs.table)
    (fun _ => ⟨ProbeLayout.Extends.refl _, ProbeLayout.Extends.refl _⟩)
    (fun first second => ⟨first.1.trans second.1, first.2.trans second.2⟩)
    (fun _ _ _ taken => extends_step taken) _ _ _ reached

/-- What a coverage table promises in a state of a run, with respect to any
`later` state of the same run.  `requested` counts the calls that asked for a
record of a key and `visited` is the reader. -/
structure TableCorrect {Key : Type} (layout : ProbeLayout Key) (run later : ProbeRun Tid Key)
    (quiet : Prop) (requested : Key → Nat) (visited : Key → UInt32) : Prop where
  unique : ∀ first second, (run.table.slot first).key ≠ layout.empty →
    (run.table.slot first).key = (run.table.slot second).key → first = second
  chained : ∀ position, (run.table.slot position).key ≠ layout.empty →
    ∃ index, index < layout.limit ∧
      position = layout.position (run.table.slot position).key index ∧
      ∀ earlier, earlier < index →
        (run.table.slot (layout.position (run.table.slot position).key earlier)).key ≠
          layout.empty
  stable : ∀ position, (run.table.slot position).key ≠ layout.empty →
    (later.table.slot position).key = (run.table.slot position).key
  visited_eq : quiet → ∀ key, key ≠ layout.empty →
    visited key = UInt32.ofNat (requested key - run.dropped key)
  dropped_full : ∀ key, run.dropped key ≠ 0 → ∀ index, index < layout.limit →
    (run.table.slot (layout.position key index)).key ≠ layout.empty ∧
      (run.table.slot (layout.position key index)).key ≠ key
  none_counted : ∀ key, run.dropped key ≠ 0 → run.counted key = 0
  all_dropped : quiet → ∀ key, key ≠ layout.empty →
    run.dropped key = 0 ∨ run.dropped key = requested key

omit [DecidableEq Tid] in
theorem tableCorrect_of_sound {Key : Type} [DecidableEq Key] [Fintype Tid]
    {layout : ProbeLayout Key}
    {run later : ProbeRun Tid Key} {quiet : Prop} {requested : Key → Nat}
    (sound : run.Sound layout) (grown : layout.Extends run.table later.table)
    (idle : quiet → ∀ tid, run.pc tid = none)
    (started : quiet → ∀ key, key ≠ layout.empty → run.started key = requested key) :
    TableCorrect layout run later quiet requested (layout.lookup run.table) where
  unique _ _ stored same := sound.chained.unique stored same
  chained := by
    intro position stored
    rcases sound.chained position stored with ⟨index, bounded, here, before⟩
    exact ⟨index, bounded, here, fun earlier less => (before earlier less).1⟩
  stable := grown
  visited_eq := by
    intro still key nonempty
    rw [sound.lookup_eq (idle still) nonempty, started still key nonempty]
  dropped_full key lost := (sound.full key lost).2
  none_counted _ lost := sound.counted_eq_zero lost
  all_dropped := by
    intro still key nonempty
    by_cases lost : run.dropped key = 0
    · exact .inl lost
    · right
      have balance := sound.balanced key
      simp only [idle still, pending_none, Finset.sum_const_zero, Nat.add_zero] at balance
      rw [← started still key nonempty, balance, sound.counted_eq_zero lost, Nat.zero_add]

/-- Both coverage tables are correct in every state of every run in which
writes are not blocked. -/
theorem coverage_tables_correct [Fintype Tid] {dladdr : UInt64 → Option UInt64}
    {state final : RecorderState Tid} {actions rest : List (RecorderAction Tid)}
    (unblocked : ∀ action ∈ actions, action ≠ .setCovBlock)
    (reached : runFrom (step dladdr) zeroed actions = some state)
    (continued : runFrom (step dladdr) state rest = some final) :
    TableCorrect edgeLayout state.edges final.edges state.Quiet
        (fun key => (actions.map (edgeRequests dladdr key)).sum)
        (fcovIsEdgeVisited state.fcov) ∧
      TableCorrect funcLayout state.funcs final.funcs state.Quiet
        (fun key => (actions.map (funcRequests key)).sum)
        (fcovIsNodeVisited state.fcov) := by
  have sound := sound_of_run reached
  have grown := extends_run continued
  constructor
  · exact tableCorrect_of_sound sound.edges grown.1 sound.edges_quiet
      fun quiet _ nonzero => edges_started_eq unblocked reached quiet nonzero
  · exact tableCorrect_of_sound sound.funcs grown.2 sound.funcs_quiet
      fun quiet _ nonzero => funcs_started_eq unblocked reached quiet nonzero

/-- Two threads that race for the same empty slot. -/
def contendedRecords : List (RecorderAction (Fin 2)) :=
  [.fcovRecordFunc 0 0x401000, .fcovRecordFunc 1 0x401000, .step 0, .step 1, .step 0, .step 1,
    .step 0, .step 1, .step 0, .step 1, .step 0, .step 1]

theorem coverage_tables_correct_contended : ∃ state,
    runFrom (step fun _ => none) (zeroed : RecorderState (Fin 2)) contendedRecords =
        some state ∧
      fcovIsNodeVisited state.fcov 0x401000 = 2 := by
  have taken : (runFrom (step fun _ => none) zeroed contendedRecords).isSome = true := by decide
  have quiet : ((runFrom (step fun _ => none) zeroed contendedRecords).get taken).Quiet := by
    unfold Quiet
    decide +revert
  have correct := coverage_tables_correct (by decide) (Option.some_get taken).symm
    (runFrom_nil _)
  refine ⟨_, (Option.some_get taken).symm, ?_⟩
  rw [correct.2.visited_eq quiet _ (by decide)]
  rfl

end Correctness

end RecorderState

end GraphDissect.Fcov
