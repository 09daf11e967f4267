import GraphDissect.Scheduler.Campaign

/-!
# Failed driver switches

`Scheduler::setActiveDriver` hands a driver over to `DriverMng::setActiveDriver`,
which writes the mailbox and waits for the fuzzer.  The result is not looked at.
What the system calls answer is a parameter of a switch.
-/

namespace GraphDissect.Scheduler

/-- What a switch meets: whether the mailbox can be opened and written, and
whether it is gone after so many milliseconds of the wait. -/
structure MailboxIo where
  opens : Bool
  writes : Bool
  gone : Nat → Bool

/-- `DriverMng`; `allDrivers` holds the ids of the configured drivers. -/
structure DriverMng where
  allDrivers : List Nat
  activeDrvId : Nat
  drvFailedNum : Nat
  deriving DecidableEq

/-- Whether a poll of `waitForDriverLoad` finds the mailbox gone: one every 50
milliseconds for 15 seconds. -/
def MailboxIo.loaded (io : MailboxIo) : Bool :=
  (List.range (15 * 1000 / 50)).any fun poll => io.gone (poll * 50)

namespace DriverMng

def exits (mng : DriverMng) : Bool := mng.drvFailedNum + 1 > 3

/-- `DriverMng::waitForDriverLoad`; `none` is `exit(1)`. -/
def waitForDriverLoad (mng : DriverMng) (io : MailboxIo) : Option (Bool × DriverMng) :=
  if io.loaded then some (true, { mng with drvFailedNum := 0 })
  else if mng.exits then none
  else some (false, { mng with drvFailedNum := mng.drvFailedNum + 1 })

/-- `DriverMng::setActiveDriver`, and whether it returns `true`. -/
def setActiveDriver (mng : DriverMng) (io : MailboxIo) (driverId : Nat) :
    Option (Bool × DriverMng) :=
  if driverId ∉ mng.allDrivers then some (false, mng)
  else if !io.opens then some (false, mng)
  else if !io.writes then some (false, mng)
  else if mng.activeDrvId ≠ 0 then
    (mng.waitForDriverLoad io).map fun (_, mng) => (true, { mng with activeDrvId := driverId })
  else some (true, { mng with activeDrvId := driverId })

/-- The four ways in which a switch does not reach the fuzzer. -/
inductive SwitchFailure where
  | unknownId
  | openFailed
  | writeFailed
  | timedOut
  deriving DecidableEq

def failure (mng : DriverMng) (io : MailboxIo) (driverId : Nat) : Option SwitchFailure :=
  if driverId ∉ mng.allDrivers then some .unknownId
  else if !io.opens then some .openFailed
  else if !io.writes then some .writeFailed
  else if mng.activeDrvId ≠ 0 ∧ !io.loaded then some .timedOut
  else none

end DriverMng

/-- The part of `Scheduler` that a switch works on. -/
structure SchedulerState where
  campaign : Campaign
  driverManger : DriverMng

namespace SchedulerState

/-- `Scheduler::setActiveDriver`; `none` is `exit(1)` in the wait. -/
def setActiveDriver (state : SchedulerState) (io : MailboxIo) (driverId : Nat) (init : Bool) :
    Option SchedulerState :=
  if init then
    (state.driverManger.setActiveDriver io driverId).map fun (_, driverManger) =>
      { campaign := { state.campaign with activeDriver := driverId, pc := .sleeping }
        driverManger }
  else
    (state.driverManger.setActiveDriver io driverId).map fun (_, driverManger) =>
      { campaign := state.campaign.setActiveDriver driverId
        driverManger }

def Names (state : SchedulerState) (running : Nat) : Prop :=
  state.campaign.activeDriver = running ∧ state.driverManger.activeDrvId = running

end SchedulerState

section Failures

variable {mng : DriverMng} {io : MailboxIo} {driverId : Nat}

/-- What a failed switch leaves of the driver manager: a timeout is taken for a
success. -/
theorem activeDrvId_of_failure {failure : DriverMng.SwitchFailure}
    (failed : mng.failure io driverId = some failure) :
    (mng.setActiveDriver io driverId).map (fun result => result.2.activeDrvId) =
      if failure = .timedOut then (if mng.exits then none else some driverId)
      else some mng.activeDrvId := by
  unfold DriverMng.failure at failed
  unfold DriverMng.setActiveDriver
  split at failed
  next unknown =>
    cases failed
    rw [if_pos unknown]
    rfl
  next known =>
    rw [if_neg known]
    split at failed
    next closed =>
      cases failed
      rw [if_pos closed]
      rfl
    next opened =>
      rw [if_neg opened]
      split at failed
      next unwritten =>
        cases failed
        rw [if_pos unwritten]
        rfl
      next written =>
        rw [if_neg written]
        split at failed
        next late =>
          cases failed
          rw [if_pos late.1, DriverMng.waitForDriverLoad, if_neg (by simpa using late.2)]
          cases mng.exits <;> rfl
        next => cases failed

/-- The scheduler takes the requested driver in any case; the driver manager
decides the rest. -/
theorem SchedulerState.names_iff {state : SchedulerState} {init : Bool} {running : Nat} :
    (∀ next, state.setActiveDriver io driverId init = some next → next.Names running) ↔
      ∀ activeDrvId, (state.driverManger.setActiveDriver io driverId).map
          (fun result => result.2.activeDrvId) = some activeDrvId →
        driverId = running ∧ activeDrvId = running := by
  unfold SchedulerState.setActiveDriver
  cases state.driverManger.setActiveDriver io driverId with
  | none => simp
  | some result => cases init <;> simp [SchedulerState.Names, Campaign.setActiveDriver]

end Failures

/-- After a failed switch both parts name the driver that the fuzzer runs exactly
when that driver was the one requested, and the manager named it before or is
made to name it by the timeout; the fourth timeout ends the process. -/
theorem failedSwitch_names_iff (state : SchedulerState) (io : MailboxIo) (driverId : Nat)
    (init : Bool) (running : Nat) :
    (∀ failure, state.driverManger.failure io driverId = some failure →
        ∀ next, state.setActiveDriver io driverId init = some next → next.Names running) ↔
      ∀ failure, state.driverManger.failure io driverId = some failure →
        (failure = .timedOut ∧ state.driverManger.exits = true) ∨
          (driverId = running ∧
            (failure = .timedOut ∨ state.driverManger.activeDrvId = running)) := by
  refine forall₂_congr fun failure failed => ?_
  rw [SchedulerState.names_iff, activeDrvId_of_failure failed]
  by_cases late : failure = .timedOut
  · cases state.driverManger.exits <;> simp [late]
  · simp [late]

def twoDrivers : SchedulerState where
  campaign := { Campaign.start CallGraph.CGGraph.empty with activeDriver := 1, pc := .sleeping }
  driverManger := ⟨[1, 2], 1, 0⟩

def closedMailbox : MailboxIo := ⟨false, false, fun _ => false⟩

theorem closedMailbox_misnames :
    ¬ ∀ (state : SchedulerState) (io : MailboxIo) (driverId running : Nat), state.Names running →
      ∀ failure, state.driverManger.failure io driverId = some failure →
        ∀ next, state.setActiveDriver io driverId false = some next → next.Names running := by
  intro names
  have after := names twoDrivers closedMailbox 2 1 ⟨rfl, rfl⟩ .openFailed (by decide) _ rfl
  exact absurd after.1 (by decide)

end GraphDissect.Scheduler
