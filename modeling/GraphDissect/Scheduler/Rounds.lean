import GraphDissect.Scheduler.Policy

/-!
# Rounds of the fixed and the random policy

The index walks through the driver vector, and the vector is permuted only when
the index is back at its start.  So the windows fall into rounds that use every
driver once, and no driver gets ahead of another by more than one window.
-/

namespace GraphDissect.Scheduler

open CallGraph Library

/-- The seconds that the windows of a driver had. -/
def seconds (driver : Nat) (windows : List Window) : Nat :=
  ((windows.filter (·.driver = driver)).map Window.slice).sum

theorem seconds_concat (driver : Nat) (windows : List Window) (window : Window) :
    seconds driver (windows ++ [window]) =
      seconds driver windows + if window.driver = driver then window.slice else 0 := by
  unfold seconds
  rw [List.filter_append, List.map_append, List.sum_append]
  by_cases same : window.driver = driver <;> simp [same]

theorem seconds_eq_mul {driver length : Nat} {windows : List Window}
    (full : ∀ window ∈ windows, window.slice = length) :
    seconds driver windows = length * (windows.map Window.driver).count driver := by
  induction windows using List.reverseRecOn with
  | nil => rfl
  | append_singleton front last inductionHypothesis =>
      rw [seconds_concat, inductionHypothesis fun window member => full window (by simp [member]),
        List.map_append, List.count_append, full last (by simp), Nat.mul_add]
      by_cases same : last.driver = driver <;> simp [same]

/-- Complete rounds, each with every driver once, and the part of the next one
that has been served. -/
def Served (ids served current : List Nat) : Prop :=
  ∃ rounds : List (List Nat), served = rounds.flatten ++ current ∧ ∀ round ∈ rounds, round.Perm ids

section Rounds

variable {ids served current : List Nat}

theorem served_nil : Served ids [] [] := ⟨[], rfl, by simp⟩

theorem Served.concat (before : Served ids served current) (driver : Nat) :
    Served ids (served ++ [driver]) (current ++ [driver]) := by
  rcases before with ⟨rounds, rfl, complete⟩
  exact ⟨rounds, by simp, complete⟩

theorem Served.complete (before : Served ids served current) (perm : current.Perm ids) :
    Served ids served [] := by
  rcases before with ⟨rounds, rfl, complete⟩
  refine ⟨rounds ++ [current], by simp, ?_⟩
  intro round member
  rcases List.mem_append.mp member with earlier | last
  · exact complete round earlier
  · rw [List.mem_singleton.mp last]
    exact perm

theorem Served.count_eq (before : Served ids served current) (nodup : ids.Nodup) :
    ∃ rounds, ∀ driver ∈ ids, served.count driver = rounds + current.count driver := by
  rcases before with ⟨rounds, rfl, complete⟩
  refine ⟨rounds.length, fun driver member => ?_⟩
  have once : ∀ round ∈ rounds, round.count driver = 1 := by
    intro round roundIn
    rw [(complete round roundIn).count_eq]
    exact List.count_eq_one_of_mem nodup member
  rw [List.count_append, List.count_flatten, List.map_congr_left once]
  simp

end Rounds

namespace PolicyState

/-- The invariant of the loop under the fixed and the random policy. -/
structure RoundRobin (config : PolicyConfig) (state : PolicyState) : Prop where
  perm : state.drivers.Perm config.drivers.ids
  index : state.index < state.drivers.length
  active : state.drivers[state.index]? = some state.scheduler.activeDriver
  served : Served config.drivers.ids (state.windows.map Window.driver)
    (state.drivers.take state.index)
  slept : (state.windows.map Window.slice).sum = state.elapsed
  bounded : state.elapsed ≤ config.maxTimeBudget
  full : state.elapsed < config.maxTimeBudget → ∀ window ∈ state.windows, window.slice = config.window
  fair : ∃ rounds, ∀ driver ∈ config.drivers.ids,
    config.window * rounds ≤ seconds driver state.windows ∧
      seconds driver state.windows ≤ config.window * (rounds + 1)

variable {config : PolicyConfig} {state next : PolicyState} {events : WindowEvents}

theorem roundRobin_start (config : PolicyConfig) (graph : CGGraph) :
    (start config graph).RoundRobin config where
  perm := .refl _
  index := List.length_pos_of_ne_nil config.drivers.nonempty
  active := start_active config graph
  served := served_nil
  slept := rfl
  bounded := Nat.zero_le _
  full _ := by simp [start]
  fair := ⟨0, by simp [start, seconds]⟩

theorem RoundRobin.take_succ (roundRobin : state.RoundRobin config) :
    state.drivers.take (state.index + 1) =
        state.drivers.take state.index ++ [state.scheduler.activeDriver] ∧
      state.scheduler.activeDriver ∉ state.drivers.take state.index := by
  have split : state.drivers.take (state.index + 1) =
      state.drivers.take state.index ++ [state.scheduler.activeDriver] := by
    rw [List.take_add_one, roundRobin.active]
    rfl
  have nodup : (state.drivers.take (state.index + 1)).Nodup :=
    (roundRobin.perm.nodup_iff.mpr config.drivers.nodup).sublist (List.take_sublist _ _)
  rw [split, List.nodup_append] at nodup
  exact ⟨split, fun member => nodup.2.2 _ member _ (by simp) rfl⟩

/-- The vector is permuted only between two rounds. -/
theorem RoundRobin.served_step (roundRobin : state.RoundRobin config) {slice : Nat}
    (rotates : (sleep config state events slice).Rotates next) :
    Served config.drivers.ids (state.windows.map Window.driver ++ [state.scheduler.activeDriver])
      (next.drivers.take next.index) := by
  have served := roundRobin.served.concat state.scheduler.activeDriver
  rw [← roundRobin.take_succ.1] at served
  have turned : next.index = (state.index + 1) % state.drivers.length := rotates.index
  have inside := roundRobin.index
  rcases Nat.lt_or_ge (state.index + 1) state.drivers.length with inner | wrapped
  · rw [Nat.mod_eq_of_lt inner] at turned
    have kept : next.drivers = state.drivers := rotates.kept (by omega)
    rw [turned, kept]
    exact served
  · have last : state.index + 1 = state.drivers.length := by omega
    rw [last, Nat.mod_self] at turned
    rw [last, List.take_length] at served
    rw [turned, List.take_zero]
    exact served.complete roundRobin.perm

/-- Before a window all drivers have had the same number of full windows, or one
more. -/
theorem RoundRobin.fair_step (roundRobin : state.RoundRobin config)
    (running : state.elapsed < config.maxTimeBudget) {window : Window}
    (driver : window.driver = state.scheduler.activeDriver) (short : window.slice ≤ config.window) :
    ∃ rounds, ∀ driver ∈ config.drivers.ids,
      config.window * rounds ≤ seconds driver (state.windows ++ [window]) ∧
        seconds driver (state.windows ++ [window]) ≤ config.window * (rounds + 1) := by
  rcases roundRobin.served.count_eq config.drivers.nodup with ⟨rounds, counts⟩
  refine ⟨rounds, fun other member => ?_⟩
  have nodup : (state.drivers.take state.index).Nodup :=
    (roundRobin.perm.nodup_iff.mpr config.drivers.nodup).sublist (List.take_sublist _ _)
  rw [seconds_concat, seconds_eq_mul (roundRobin.full running), counts other member, driver,
    Nat.mul_add, Nat.mul_add, Nat.mul_one]
  by_cases served : other ∈ state.drivers.take state.index
  · have different : state.scheduler.activeDriver ≠ other := by
      rintro rfl
      exact roundRobin.take_succ.2 served
    rw [List.count_eq_one_of_mem nodup served, if_neg different]
    omega
  · rw [List.count_eq_zero.mpr served]
    split <;> omega

theorem RoundRobin.step (rotating : config.policy ≠ .progress)
    (roundRobin : state.RoundRobin config) (taken : step config state events = some next) :
    next.RoundRobin config := by
  rcases step_eq_some rotating taken with ⟨slice, running, isSlice, rotates⟩
  have drivers : next.drivers.Perm state.drivers := rotates.drivers
  have elapsed : next.elapsed = state.elapsed + slice := rotates.elapsed
  have index : next.index = (state.index + 1) % state.drivers.length := rotates.index
  obtain ⟨window, windows, isDriver, isSliceOf⟩ : ∃ window : Window,
      next.windows = state.windows ++ [window] ∧ window.driver = state.scheduler.activeDriver ∧
        window.slice = slice := ⟨_, rotates.windows, rfl, rfl⟩
  have inside := roundRobin.index
  exact {
    perm := drivers.trans roundRobin.perm
    index := by
      rw [index, drivers.length_eq]
      exact Nat.mod_lt _ (by omega)
    active := rotates.active
    served := by
      rw [windows, List.map_append, List.map_singleton, isDriver]
      exact roundRobin.served_step rotates
    slept := by
      rw [windows, List.map_append, List.sum_append, roundRobin.slept, elapsed]
      simp [isSliceOf]
    bounded := by omega
    full := fun still other member => by
      rw [windows, List.mem_append, List.mem_singleton] at member
      rcases member with earlier | rfl
      · exact roundRobin.full running other earlier
      · omega
    fair := by
      rw [windows]
      exact roundRobin.fair_step running isDriver (by omega) }

theorem RoundRobin.runFrom (rotating : config.policy ≠ .progress)
    (roundRobin : state.RoundRobin config) {turns : List WindowEvents}
    (reached : Library.runFrom (PolicyState.step config) state turns = some next) :
    next.RoundRobin config :=
  runFrom_invariant (fun _ _ _ before taken => before.step rotating taken) roundRobin reached

theorem RoundRobin.terminates (rotating : config.policy ≠ .progress)
    (roundRobin : state.RoundRobin config) (events : Nat → WindowEvents) :
    ∃ turns final, Library.runFrom (PolicyState.step config) state ((List.range turns).map events) =
        some final ∧ final.elapsed = config.maxTimeBudget := by
  induction remaining : config.maxTimeBudget - state.elapsed using Nat.strong_induction_on
    generalizing state events with
  | _ remaining inductionHypothesis =>
      have bounded := roundRobin.bounded
      rcases Nat.lt_or_ge state.elapsed config.maxTimeBudget with running | ended
      · have nonempty : state.drivers ≠ [] := List.ne_nil_of_length_pos (by
          have inside := roundRobin.index
          omega)
        rcases @exists_step _ _ (events 0) rotating nonempty running with ⟨next, taken⟩
        rcases step_eq_some rotating taken with ⟨slice, -, isSlice, rotates⟩
        have elapsed : next.elapsed = state.elapsed + slice := rotates.elapsed
        have positive := config.one_le_window
        rcases inductionHypothesis (config.maxTimeBudget - next.elapsed) (by omega)
          (roundRobin.step rotating taken) (fun turn => events (turn + 1)) rfl with
          ⟨turns, final, reached, finished⟩
        refine ⟨turns + 1, final, ?_, finished⟩
        rw [List.range_succ_eq_map, List.map_cons, List.map_map]
        exact runFrom_cons_eq_some.mpr ⟨next, taken, reached⟩
      · exact ⟨0, state, rfl, by omega⟩

end PolicyState

/-- Under the fixed and the random policy the loop ends, has slept for the whole
budget, serves the drivers in rounds, keeps their times within one window of
each other, and starts every window with the driver at the index. -/
theorem runSchedulePolicy_fair (config : PolicyConfig) (rotating : config.policy ≠ .progress)
    (graph : CGGraph) (events : Nat → WindowEvents) :
    ∃ turns final,
      runFrom (PolicyState.step config) (.start config graph) ((List.range turns).map events) =
        some final ∧
      (∀ more, PolicyState.step config final more = none) ∧
      (final.windows.map Window.slice).sum = config.maxTimeBudget ∧
      (∃ (rounds : List (List Nat)) (last : List Nat), final.windows.map Window.driver = rounds.flatten ++ last ∧
        (∀ round ∈ rounds, round.Perm config.drivers.ids) ∧
        last.Nodup ∧ last ⊆ config.drivers.ids ∧ last.length < config.drivers.ids.length) ∧
      (∀ first ∈ config.drivers.ids, ∀ second ∈ config.drivers.ids,
        seconds first final.windows ≤ seconds second final.windows + config.window) ∧
      ∀ turn ≤ turns, ∃ state,
        runFrom (PolicyState.step config) (.start config graph) ((List.range turn).map events) =
          some state ∧
        state.drivers[state.index]? = some state.scheduler.activeDriver := by
  have starts := PolicyState.roundRobin_start config graph
  rcases starts.terminates rotating events with ⟨turns, final, reached, finished⟩
  have roundRobin := starts.runFrom rotating reached
  refine ⟨turns, final, reached, ?_, roundRobin.slept.trans finished, ?_, ?_, ?_⟩
  · intro more
    unfold PolicyState.step
    dsimp only
    rw [if_neg]
    omega
  · rcases roundRobin.served with ⟨rounds, windows, complete⟩
    refine ⟨rounds, _, windows, complete, ?_, ?_, ?_⟩
    · exact (roundRobin.perm.nodup_iff.mpr config.drivers.nodup).sublist (List.take_sublist _ _)
    · exact fun driver member => roundRobin.perm.mem_iff.mp (List.mem_of_mem_take member)
    · have inside := roundRobin.index
      rw [List.length_take, ← roundRobin.perm.length_eq]
      omega
  · intro first firstIn second secondIn
    rcases roundRobin.fair with ⟨rounds, bounds⟩
    have upper := (bounds first firstIn).2
    have lower := (bounds second secondIn).1
    rw [Nat.mul_add] at upper
    omega
  · intro turn early
    obtain ⟨later, rfl⟩ := Nat.exists_eq_add_of_le early
    rw [List.range_add, List.map_append, runFrom_append] at reached
    rcases Option.bind_eq_some_iff.mp reached with ⟨state, before, -⟩
    exact ⟨state, before, (starts.runFrom rotating before).active⟩

/-- Three drivers in random order, for a minute in windows of eight seconds. -/
def shuffledConfig : PolicyConfig where
  drivers := ⟨[1, 2, 3], by decide, by decide⟩
  policy := .random
  windowSeconds := 8
  maxTimeBudget := 60

/-- No call is recorded, and every shuffle reverses the vector. -/
def quietWindow : WindowEvents where
  atSync := .zeroed
  atSwitch := .zeroed
  atRead _ := .zeroed
  shuffle := ⟨List.reverse, List.reverse_perm⟩

theorem runSchedulePolicy_fair_shuffled :
    ∃ turns final,
      runFrom (PolicyState.step shuffledConfig) (.start shuffledConfig .empty)
        ((List.range turns).map fun _ => quietWindow) = some final ∧
      (∀ more, PolicyState.step shuffledConfig final more = none) ∧
      (final.windows.map Window.slice).sum = 60 ∧
      (∃ (rounds : List (List Nat)) (last : List Nat),
        final.windows.map Window.driver = rounds.flatten ++ last ∧
        (∀ round ∈ rounds, round.Perm [1, 2, 3]) ∧
        last.Nodup ∧ last ⊆ [1, 2, 3] ∧ last.length < 3) ∧
      (∀ first ∈ [1, 2, 3], ∀ second ∈ [1, 2, 3],
        seconds first final.windows ≤ seconds second final.windows + 8) ∧
      ∀ turn ≤ turns, ∃ state,
        runFrom (PolicyState.step shuffledConfig) (.start shuffledConfig .empty)
          ((List.range turn).map fun _ => quietWindow) = some state ∧
        state.drivers[state.index]? = some state.scheduler.activeDriver :=
  runSchedulePolicy_fair shuffledConfig (by decide) .empty fun _ => quietWindow

end GraphDissect.Scheduler
