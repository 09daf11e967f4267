import GraphDissect.Library.Runs

/-!
# Refinement of an event automaton

A system that keeps a log of events refines an automaton on these events when
every step of the system is explained by a run of the automaton.
-/

namespace Library

variable {State Action Abstract Event : Type*} {step : State → Action → Option State}
  {spec : Abstract → Event → Option Abstract}

/-- What happened between two states is a run of the automaton over what was
appended to the log, and the states stay related. -/
inductive Explains (spec : Abstract → Event → Option Abstract) (log : State → List Event)
    (Related : State → Abstract → Prop) (state next : State) (abstract : Abstract) : Prop where
  | intro {events : List Event} {later : Abstract} (appended : log next = log state ++ events)
      (moved : runFrom spec abstract events = some later) (related : Related next later)

variable {log : State → List Event} {Related : State → Abstract → Prop}

theorem Explains.silent {state next : State} {abstract : Abstract} (same : log next = log state)
    (related : Related next abstract) : Explains spec log Related state next abstract :=
  .intro (by rw [same, List.append_nil]) rfl related

theorem Explains.emits {state next : State} {abstract later : Abstract} {event : Event}
    (appended : log next = log state ++ [event]) (taken : spec abstract event = some later)
    (related : Related next later) : Explains spec log Related state next abstract :=
  .intro appended (runFrom_cons_eq_some.mpr ⟨later, taken, rfl⟩) related

theorem runFrom_explained
    (steps : ∀ state action next abstract, Related state abstract → step state action = some next →
      Explains spec log Related state next abstract)
    {state final : State} {abstract : Abstract} {actions : List Action}
    (start : Related state abstract) (reached : runFrom step state actions = some final) :
    Explains spec log Related state final abstract := by
  induction actions generalizing state abstract with
  | nil =>
      cases reached
      exact .silent rfl start
  | cons action rest inductionHypothesis =>
      rcases runFrom_cons_eq_some.mp reached with ⟨next, taken, remaining⟩
      obtain ⟨appended, moved, related⟩ := steps state action next abstract start taken
      obtain ⟨further, went, ends⟩ := inductionHypothesis related remaining
      refine .intro (by rw [further, appended, List.append_assoc]) ?_ ends
      rw [runFrom_append, moved]
      exact went

end Library
