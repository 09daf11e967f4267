import Mathlib

/-!
# Runs of a partial step function

A system is a function from a state and an action to an optional next state;
an action without a successor is disabled.  `runFrom` performs a list of
actions, `Along` says that every performed action was taken in a state that
allows it, and the two invariant rules turn a one-step argument into a
statement about every run.
-/

namespace Library

universe u v

variable {State : Type u} {Action : Type v}

/-- The state after a list of actions, if none of them was disabled. -/
def runFrom (step : State → Action → Option State) : State → List Action → Option State
  | state, [] => some state
  | state, action :: rest => (step state action).bind fun next => runFrom step next rest

/-- Every action of a run is taken in a state that allows it. -/
def Along (step : State → Action → Option State) (allowed : State → Action → Prop) :
    State → List Action → Prop
  | _, [] => True
  | state, action :: rest =>
      allowed state action ∧
        ∀ next, step state action = some next → Along step allowed next rest

section Rules

variable {step : State → Action → Option State} {allowed : State → Action → Prop}

@[simp]
theorem runFrom_nil (state : State) : runFrom step state [] = some state := rfl

theorem runFrom_cons_eq_some {state final : State} {action : Action} {rest : List Action} :
    runFrom step state (action :: rest) = some final ↔
      ∃ next, step state action = some next ∧ runFrom step next rest = some final := by
  simp only [runFrom, Option.bind_eq_some_iff]

theorem foldlM_eq_runFrom (state : State) (actions : List Action) :
    actions.foldlM step state = runFrom step state actions := by
  induction actions generalizing state with
  | nil => rfl
  | cons action rest inductionHypothesis =>
      rw [List.foldlM_cons, runFrom]
      exact congrArg _ (funext inductionHypothesis)

theorem runFrom_append (state : State) (first second : List Action) :
    runFrom step state (first ++ second) =
      (runFrom step state first).bind fun middle => runFrom step middle second := by
  induction first generalizing state with
  | nil => rfl
  | cons action rest inductionHypothesis =>
      simp only [List.cons_append, runFrom]
      cases step state action with
      | none => rfl
      | some next => exact inductionHypothesis next

theorem along_cons_of_some {state next : State} {action : Action} {rest : List Action}
    (taken : step state action = some next) :
    Along step allowed state (action :: rest) ↔
      allowed state action ∧ Along step allowed next rest := by
  constructor
  · intro along
    exact ⟨along.1, along.2 next taken⟩
  · rintro ⟨here, along⟩
    refine ⟨here, ?_⟩
    intro other reached
    cases taken.symm.trans reached
    exact along

theorem along_cons_of_none {state : State} {action : Action} {rest : List Action}
    (disabled : step state action = none) :
    Along step allowed state (action :: rest) ↔ allowed state action := by
  constructor
  · exact fun along => along.1
  · intro here
    refine ⟨here, ?_⟩
    intro other reached
    cases disabled.symm.trans reached

instance Along.decidable [∀ state action, Decidable (allowed state action)] :
    ∀ state actions, Decidable (Along step allowed state actions)
  | _, [] => isTrue trivial
  | state, action :: rest =>
      match taken : step state action with
      | none => decidable_of_iff _ (along_cons_of_none taken).symm
      | some next =>
          have := Along.decidable next rest
          decidable_of_iff _ (along_cons_of_some taken).symm

theorem along_of_forall {actions : List Action}
    (allows : ∀ action ∈ actions, ∀ state, allowed state action) (state : State) :
    Along step allowed state actions := by
  induction actions generalizing state with
  | nil => trivial
  | cons action rest inductionHypothesis =>
      refine ⟨allows action List.mem_cons_self state, fun next _ => ?_⟩
      exact inductionHypothesis (fun other member => allows other (List.mem_cons_of_mem action member)) next

theorem Along.invariant {Holds : State → Prop}
    (keeps : ∀ state action next, Holds state → allowed state action →
      step state action = some next → Holds next)
    {state final : State} {actions : List Action}
    (along : Along step allowed state actions) (start : Holds state)
    (reached : runFrom step state actions = some final) : Holds final := by
  induction actions generalizing state with
  | nil =>
      cases reached
      exact start
  | cons action rest inductionHypothesis =>
      rcases runFrom_cons_eq_some.mp reached with ⟨next, taken, remaining⟩
      exact inductionHypothesis (along.2 next taken)
        (keeps state action next start along.1 taken) remaining

/-- Two conditions on the steps that agree under an invariant allow the same runs. -/
theorem along_iff_along {other : State → Action → Prop} {Holds : State → Prop}
    (same : ∀ state action, Holds state → (allowed state action ↔ other state action))
    (keeps : ∀ state action next, Holds state → allowed state action →
      step state action = some next → Holds next)
    {state : State} (start : Holds state) (actions : List Action) :
    Along step allowed state actions ↔ Along step other state actions := by
  induction actions generalizing state with
  | nil => exact Iff.rfl
  | cons action rest inductionHypothesis =>
      unfold Along
      rw [← same state action start]
      refine and_congr_right fun allows => forall₂_congr fun next taken => ?_
      exact inductionHypothesis (keeps state action next start allows taken)

theorem runFrom_invariant {Holds : State → Prop}
    (keeps : ∀ state action next, Holds state →
      step state action = some next → Holds next)
    {state final : State} {actions : List Action} (start : Holds state)
    (reached : runFrom step state actions = some final) : Holds final := by
  induction actions generalizing state with
  | nil =>
      cases reached
      exact start
  | cons action rest inductionHypothesis =>
      rcases runFrom_cons_eq_some.mp reached with ⟨next, taken, remaining⟩
      exact inductionHypothesis (keeps state action next start taken) remaining

/-- A transitive relation between a state and its successor relates the two
ends of a run. -/
theorem runFrom_relates {Related : State → State → Prop}
    (refl : ∀ state, Related state state)
    (trans : ∀ {a b c}, Related a b → Related b c → Related a c)
    (steps : ∀ state action next, step state action = some next → Related state next)
    {state final : State} {actions : List Action}
    (reached : runFrom step state actions = some final) : Related state final :=
  @runFrom_invariant _ _ step (Related state)
    (fun _ action next related taken => trans related (steps _ action next taken))
    _ _ _ (refl state) reached

/-- When every step adds the weight of its action to a measure, a run adds the
weights of all its actions. -/
theorem runFrom_account {Holds : State → Prop} {allows : Action → Prop}
    (measure : State → Nat) (weight : Action → Nat)
    (steps : ∀ state action next, Holds state → allows action →
      step state action = some next →
        Holds next ∧ measure next = measure state + weight action)
    {state final : State} {actions : List Action} (start : Holds state)
    (allowed : ∀ action ∈ actions, allows action)
    (reached : runFrom step state actions = some final) :
    measure final = measure state + (actions.map weight).sum := by
  induction actions generalizing state with
  | nil =>
      cases reached
      rfl
  | cons action rest inductionHypothesis =>
      rcases runFrom_cons_eq_some.mp reached with ⟨next, taken, remaining⟩
      rcases steps state action next start (allowed action (by simp)) taken with
        ⟨kept, counted⟩
      have later := inductionHypothesis kept
        (fun other member => allowed other (List.mem_cons_of_mem action member)) remaining
      rw [later, counted, List.map_cons, List.sum_cons, Nat.add_assoc]

/-- When every step appends the output of its action to a log, a run appends
the outputs of all its actions. -/
theorem runFrom_appends {Entry : Type*} {Holds : State → Prop}
    (log : State → List Entry) (output : Action → List Entry)
    (steps : ∀ state action next, Holds state → step state action = some next →
      Holds next ∧ log next = log state ++ output action)
    {state final : State} {actions : List Action} (start : Holds state)
    (reached : runFrom step state actions = some final) :
    Holds final ∧ log final = log state ++ actions.flatMap output := by
  induction actions generalizing state with
  | nil =>
      cases reached
      simpa using start
  | cons action rest inductionHypothesis =>
      rcases runFrom_cons_eq_some.mp reached with ⟨next, taken, remaining⟩
      rcases steps state action next start taken with ⟨kept, appended⟩
      rcases inductionHypothesis kept remaining with ⟨keptAll, later⟩
      refine ⟨keptAll, ?_⟩
      rw [later, appended, List.flatMap_cons, List.append_assoc]

/-- Where one action alone has an output, that is the log of a run through
different actions. -/
theorem flatMap_single {Item Output : Type*} [DecidableEq Item] {items : List Item}
    (distinct : items.Nodup) {item : Item} (member : item ∈ items) (output : List Output) :
    (items.flatMap fun other => if other = item then output else []) = output := by
  induction items with
  | nil => cases member
  | cons head rest inductionHypothesis =>
      rw [List.nodup_cons] at distinct
      rw [List.flatMap_cons]
      by_cases here : head = item
      · subst here
        have later : (rest.flatMap fun other => if other = head then output else []) = [] := by
          apply List.flatMap_eq_nil_iff.mpr
          intro other otherIn
          rw [if_neg]
          rintro rfl
          exact distinct.1 otherIn
        rw [if_pos rfl, later, List.append_nil]
      · rw [if_neg here, List.nil_append]
        exact inductionHypothesis distinct.2
          ((List.mem_cons.mp member).resolve_left (Ne.symm here))

theorem Along.suffix {state middle : State} {first second : List Action}
    (along : Along step allowed state (first ++ second))
    (reached : runFrom step state first = some middle) :
    Along step allowed middle second := by
  induction first generalizing state with
  | nil =>
      cases reached
      exact along
  | cons action rest inductionHypothesis =>
      rcases runFrom_cons_eq_some.mp reached with ⟨next, taken, remaining⟩
      exact inductionHypothesis (along.2 next taken) remaining

end Rules

section Raising

variable {Error : Type*} {raising : State → Action → Except Error State}

theorem foldlM_ok_invariant {Holds : State → Prop} {actions : List Action}
    (keeps : ∀ state, ∀ action ∈ actions, ∀ next, Holds state →
      raising state action = .ok next → Holds next)
    {state final : State} (start : Holds state)
    (returned : actions.foldlM raising state = .ok final) : Holds final := by
  induction actions generalizing state with
  | nil =>
      cases returned
      exact start
  | cons action rest inductionHypothesis =>
      rw [List.foldlM_cons] at returned
      cases taken : raising state action with
      | error error =>
          rw [taken] at returned
          cases returned
      | ok next =>
          rw [taken] at returned
          exact inductionHypothesis
            (fun state other member => keeps state other (List.mem_cons_of_mem action member))
            (keeps state action List.mem_cons_self next start taken) returned

theorem exists_ok_of_toOption_map {Value Seen : Type*} {result : Except Error Value}
    {see : Value → Seen} {seen : Seen} (read : result.toOption.map see = some seen) :
    ∃ value, result = .ok value ∧ see value = seen := by
  cases result with
  | error error => cases read
  | ok value => exact ⟨value, rfl, Option.some.inj read⟩

end Raising

end Library
