import Mathlib

/-!
# Programs that raise

A small semantics of sequential programs with exceptions: a program reads and
writes a state and returns, raises, or is still waiting for something outside
it.  `ensuring` is the `finally` clause and `rescuing` the `except` clause.
`Meets` is the weakest precondition of a postcondition with one clause for each
of the three endings; its rules follow the constructs of a program.
-/

namespace Library

inductive Ending (Error Value : Type) where
  | returned (value : Value)
  | raised (error : Error)
  | waiting
deriving DecidableEq, Repr

/-- A program over a state, which keeps the state it ends in however it ends. -/
def Attempt (State Error Value : Type) : Type :=
  State → Ending Error Value × State

namespace Attempt

variable {State Error Value Result : Type}

protected def pure (value : Value) : Attempt State Error Value :=
  fun state => (.returned value, state)

protected def bind (program : Attempt State Error Value)
    (next : Value → Attempt State Error Result) : Attempt State Error Result :=
  fun state =>
    match program state with
    | (.returned value, later) => next value later
    | (.raised error, later) => (.raised error, later)
    | (.waiting, later) => (.waiting, later)

instance : Monad (Attempt State Error) where
  pure := Attempt.pure
  bind := Attempt.bind

def raise (error : Error) : Attempt State Error Value :=
  fun state => (.raised error, state)

def wait : Attempt State Error Value :=
  fun state => (.waiting, state)

def read : Attempt State Error State :=
  fun state => (.returned state, state)

def modify (change : State → State) : Attempt State Error Unit :=
  fun state => (.returned (), change state)

/-- An error of the clean-up replaces the ending of the body. -/
def ensuring (body : Attempt State Error Value) (cleanup : Attempt State Error Unit) :
    Attempt State Error Value :=
  fun state =>
    match body state with
    | (.returned value, later) => (cleanup.bind fun _ => Attempt.pure value) later
    | (.raised error, later) => (cleanup.bind fun _ => raise error) later
    | (.waiting, later) => (.waiting, later)

def rescuing (body : Attempt State Error Value) (handler : Error → Attempt State Error Value) :
    Attempt State Error Value :=
  fun state =>
    match body state with
    | (.returned value, later) => (.returned value, later)
    | (.raised error, later) => handler error later
    | (.waiting, later) => (.waiting, later)

/-- What is to hold where a program ends. -/
structure Postcondition (State Error Value : Type) where
  returned : Value → State → Prop
  raised : Error → State → Prop
  waiting : State → Prop

def Postcondition.Holds (post : Postcondition State Error Value) :
    Ending Error Value × State → Prop
  | (.returned value, state) => post.returned value state
  | (.raised error, state) => post.raised error state
  | (.waiting, state) => post.waiting state

def Meets (program : Attempt State Error Value) (post : Postcondition State Error Value)
    (state : State) : Prop :=
  post.Holds (program state)

theorem bind_of_returned {program : Attempt State Error Value} {state later : State}
    {value : Value} (returned : program state = (.returned value, later))
    (next : Value → Attempt State Error Result) :
    (program >>= next) state = next value later := by
  change Attempt.bind program next state = next value later
  unfold Attempt.bind
  rw [returned]

theorem bind_of_raised {program : Attempt State Error Value} {state later : State}
    {error : Error} (raised : program state = (.raised error, later))
    (next : Value → Attempt State Error Result) :
    (program >>= next) state = (.raised error, later) := by
  change Attempt.bind program next state = _
  unfold Attempt.bind
  rw [raised]

section Rules

variable {post : Postcondition State Error Value} {state : State}

@[simp]
theorem meets_pure {value : Value} :
    Meets (pure value : Attempt State Error Value) post state ↔ post.returned value state :=
  Iff.rfl

@[simp]
theorem meets_raise {error : Error} :
    Meets (raise error : Attempt State Error Value) post state ↔ post.raised error state :=
  Iff.rfl

@[simp]
theorem meets_read {post : Postcondition State Error State} :
    Meets (read : Attempt State Error State) post state ↔ post.returned state state :=
  Iff.rfl

@[simp]
theorem meets_modify {post : Postcondition State Error Unit} {change : State → State} :
    Meets (modify change : Attempt State Error Unit) post state ↔
      post.returned () (change state) :=
  Iff.rfl

theorem meets_bind {post : Postcondition State Error Result}
    {program : Attempt State Error Value} {next : Value → Attempt State Error Result} :
    Meets (program >>= next) post state ↔
      Meets program
        { post with returned := fun value later => Meets (next value) post later } state := by
  change post.Holds (Attempt.bind program next state) ↔ _
  unfold Attempt.bind Meets
  rcases program state with ⟨ending, later⟩
  cases ending <;> rfl

theorem meets_ensuring {body : Attempt State Error Value}
    {cleanup : Attempt State Error Unit} :
    Meets (ensuring body cleanup) post state ↔
      Meets body
        { returned := fun value later => Meets (cleanup >>= fun _ => pure value) post later
          raised := fun error later => Meets (cleanup >>= fun _ => raise error) post later
          waiting := post.waiting } state := by
  unfold Meets ensuring
  rcases body state with ⟨ending, later⟩
  cases ending <;> rfl

theorem Meets.mono {program : Attempt State Error Value}
    {weaker : Postcondition State Error Value} (meets : Meets program post state)
    (returned : ∀ value later, post.returned value later → weaker.returned value later)
    (raised : ∀ error later, post.raised error later → weaker.raised error later)
    (waiting : ∀ later, post.waiting later → weaker.waiting later) :
    Meets program weaker state := by
  revert meets
  unfold Meets
  rcases program state with ⟨ending, later⟩
  cases ending with
  | returned value => exact returned value later
  | raised error => exact raised error later
  | waiting => exact waiting later

/-- A postcondition that holds everywhere needs nothing of the program. -/
theorem meets_of_holds (program : Attempt State Error Value)
    (returned : ∀ value later, post.returned value later)
    (raised : ∀ error later, post.raised error later)
    (waiting : ∀ later, post.waiting later) : Meets program post state := by
  unfold Meets
  rcases program state with ⟨ending, later⟩
  cases ending with
  | returned value => exact returned value later
  | raised error => exact raised error later
  | waiting => exact waiting later

end Rules

/-- The program returns, and the postcondition holds there. -/
def Returns (program : Attempt State Error Value) (holds : Value → State → Prop) (state : State) :
    Prop :=
  Meets program { returned := holds, raised := fun _ _ => False, waiting := fun _ => False } state

section Returning

variable {holds : Value → State → Prop} {state : State}

@[simp]
theorem returns_pure {value : Value} :
    Returns (pure value : Attempt State Error Value) holds state ↔ holds value state :=
  Iff.rfl

@[simp]
theorem returns_read {holds : State → State → Prop} :
    Returns (read : Attempt State Error State) holds state ↔ holds state state :=
  Iff.rfl

theorem returns_bind {holds : Result → State → Prop} {program : Attempt State Error Value}
    {next : Value → Attempt State Error Result} :
    Returns (program >>= next) holds state ↔
      Returns program (fun value later => Returns (next value) holds later) state :=
  meets_bind

theorem Returns.mono {program : Attempt State Error Value} {weaker : Value → State → Prop}
    (returns : Returns program holds state)
    (implies : ∀ value later, holds value later → weaker value later) :
    Returns program weaker state :=
  Meets.mono returns implies (fun _ _ => id) fun _ => id

theorem returns_iff {program : Attempt State Error Value} :
    Returns program holds state ↔
      ∃ value later, program state = (.returned value, later) ∧ holds value later := by
  unfold Returns Meets
  rcases program state with ⟨ending, later⟩
  cases ending with
  | returned value =>
      constructor
      · exact fun holding => ⟨value, later, rfl, holding⟩
      · rintro ⟨_, _, equal, holding⟩
        cases equal
        exact holding
  | raised error => simp [Postcondition.Holds]
  | waiting => simp [Postcondition.Holds]

end Returning

/-- The program ends, and what belongs to its ending holds there. -/
def ReturnsOr (program : Attempt State Error Value) (holds : Value → State → Prop)
    (fails : Error → State → Prop) (state : State) : Prop :=
  Meets program { returned := holds, raised := fails, waiting := fun _ => False } state

section Ending

variable {holds : Value → State → Prop} {fails : Error → State → Prop} {state : State}

theorem returnsOr_bind {holds : Result → State → Prop} {program : Attempt State Error Value}
    {next : Value → Attempt State Error Result} :
    ReturnsOr (program >>= next) holds fails state ↔
      ReturnsOr program (fun value later => ReturnsOr (next value) holds fails later) fails state :=
  meets_bind

theorem Returns.or {program : Attempt State Error Value} (returns : Returns program holds state) :
    ReturnsOr program holds fails state :=
  Meets.mono returns (fun _ _ => id) (fun _ _ => False.elim) fun _ => id

theorem ReturnsOr.mono {program : Attempt State Error Value} {weaker : Value → State → Prop}
    (ends : ReturnsOr program holds fails state)
    (implies : ∀ value later, holds value later → weaker value later) :
    ReturnsOr program weaker fails state :=
  Meets.mono ends implies (fun _ _ => id) fun _ => id

theorem returnsOr_iff {program : Attempt State Error Value} :
    ReturnsOr program holds fails state ↔
      (∃ value later, program state = (.returned value, later) ∧ holds value later) ∨
        ∃ error later, program state = (.raised error, later) ∧ fails error later := by
  unfold ReturnsOr Meets
  rcases program state with ⟨ending, later⟩
  cases ending <;> simp [Postcondition.Holds]

theorem returnsOr_forM {Item : Type} {invariant : State → Prop} {items : List Item}
    {body : Item → Attempt State Error Unit}
    (keeps : ∀ item ∈ items, ∀ state, invariant state →
      ReturnsOr (body item) (fun _ later => invariant later) fails state)
    (start : invariant state) :
    ReturnsOr (items.forM body) (fun _ later => invariant later) fails state := by
  induction items generalizing state with
  | nil => exact start
  | cons item rest inductionHypothesis =>
      refine returnsOr_bind.mpr ((keeps item List.mem_cons_self state start).mono ?_)
      intro _ later holding
      exact inductionHypothesis
        (fun other member => keeps other (List.mem_cons_of_mem item member)) holding

theorem returns_forM {Item : Type} {invariant : State → Prop} {items : List Item}
    {body : Item → Attempt State Error Unit}
    (keeps : ∀ item ∈ items, ∀ state, invariant state →
      Returns (body item) (fun _ later => invariant later) state)
    (start : invariant state) :
    Returns (items.forM body) (fun _ later => invariant later) state :=
  returnsOr_forM keeps start

end Ending

end Attempt

end Library
