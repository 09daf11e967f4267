import GraphDissect.Library.Runs
import Mathlib

/-!
# The campaign lock

`acquire_lock` guards a run directory with a lock file that holds the host and
the process id of its owner.  A file whose owner is dead is unlinked by name
and created again.  Each file-system step is one action of one process:
`exists`, the read of the record, the liveness test, the unlink, the exclusive
creation, the write of the record and the unlink of the release.  Between any
two of them every other process can move, end or die.

The unlink removes whatever file has the name at that moment.  Two processes
that read the record of the same dead owner can therefore remove, one after the
other, the stale file and the file of the first of them.  Where no file is
unlinked but the one that was read, and no foreign or unreadable lock is
reclaimed, at most one live process holds a lock.
-/

namespace GraphDissect.Experiments

open Library

variable {Proc Host Job Path : Type}

/-- A file of the file system; two creations are two files. -/
structure Inode (Proc : Type) where
  creator : Proc
  serial : Nat
deriving DecidableEq

/-- A lock file, with or without the record of its owner. -/
structure LockFile (Proc : Type) where
  inode : Inode Proc
  written : Bool
deriving DecidableEq

/-- The owner that `load_json` finds; an empty file is not JSON and gives `{}`. -/
def LockFile.owner (file : LockFile Proc) : Option Proc :=
  if file.written then some file.inode.creator else none

/-- What a process is about to do for a job. -/
inductive Control (Proc Job : Type) where
  | idle
  | reading (job : Job)
  | judging (job : Job) (read : Option (LockFile Proc))
  | unlinking (job : Job) (read : Option (Inode Proc))
  | creating (job : Job)
  | writing (job : Job) (inode : Inode Proc)
  | holding (job : Job) (inode : Inode Proc)
  | raised
deriving DecidableEq

structure LockState (Proc Job Path : Type) where
  files : Path → Option (LockFile Proc)
  control : Proc → Control Proc Job
  alive : Proc → Bool
  serial : Nat

/-- The runner processes, and where they look for the lock of a job. -/
structure Runners (Proc Host Job Path : Type) where
  host : Proc → Host
  recoverForeign : Proc → Bool
  lockPath : Job → Path

inductive LockAction (Proc Job : Type) where
  | attempt (proc : Proc) (job : Job)
  | advance (proc : Proc)
  | exit (proc : Proc)
deriving DecidableEq

section Steps

variable [DecidableEq Proc] [DecidableEq Host] [DecidableEq Path]

/-- Whether `acquire_lock` goes on to unlink the file, or raises. -/
def Runners.reclaims (runners : Runners Proc Host Job Path) (alive : Proc → Bool) (proc : Proc)
    (owner : Option Proc) : Bool :=
  let sameHost := owner.any fun owner => runners.host owner = runners.host proc
  !(sameHost && owner.any alive) && (sameHost || runners.recoverForeign proc)

namespace LockState

def move (s : LockState Proc Job Path) (proc : Proc) (next : Control Proc Job) :
    LockState Proc Job Path :=
  { s with control := Function.update s.control proc next }

def put (s : LockState Proc Job Path) (path : Path) (file : Option (LockFile Proc)) :
    LockState Proc Job Path :=
  { s with files := Function.update s.files path file }

/-- The next file-system step of a process. -/
def advance (runners : Runners Proc Host Job Path) (s : LockState Proc Job Path) (proc : Proc) :
    Option (LockState Proc Job Path) :=
  match s.control proc with
  | .idle => none
  | .reading job => some (s.move proc (.judging job (s.files (runners.lockPath job))))
  | .judging job read =>
      if runners.reclaims s.alive proc (read.bind LockFile.owner) then
        some (s.move proc (.unlinking job (read.map LockFile.inode)))
      else some (s.move proc .raised)
  | .unlinking job _ => some ((s.put (runners.lockPath job) none).move proc (.creating job))
  | .creating job =>
      if (s.files (runners.lockPath job)).isSome then some (s.move proc .raised)
      else
        let inode : Inode Proc := ⟨proc, s.serial⟩
        some (({ s with serial := s.serial + 1 }.put (runners.lockPath job)
          (some ⟨inode, false⟩)).move proc (.writing job inode))
  | .writing job inode =>
      -- the descriptor refers to the file, which may not have the name any more
      let path := runners.lockPath job
      let named := (s.files path).map LockFile.inode = some inode
      some ((if named then s.put path (some ⟨inode, true⟩) else s).move proc (.holding job inode))
  | .holding job _ => some ((s.put (runners.lockPath job) none).move proc .idle)
  | .raised => none

def step (runners : Runners Proc Host Job Path) (s : LockState Proc Job Path) :
    LockAction Proc Job → Option (LockState Proc Job Path)
  | .attempt proc job =>
      match s.alive proc, s.control proc with
      | true, .idle =>
          some (s.move proc (if (s.files (runners.lockPath job)).isSome then .reading job
            else .creating job))
      | _, _ => none
  | .advance proc => if s.alive proc then s.advance runners proc else none
  | .exit proc => some { s with alive := Function.update s.alive proc false }

end LockState

/-- The job of a process between its first look at the lock and its release. -/
def Control.job : Control Proc Job → Option Job
  | .reading job => some job
  | .judging job _ => some job
  | .unlinking job _ => some job
  | .creating job => some job
  | .writing job _ => some job
  | .holding job _ => some job
  | .idle => none
  | .raised => none

omit [DecidableEq Host] [DecidableEq Path] in
theorem LockState.move_job {s base : LockState Proc Job Path} {proc : Proc}
    {next : Control Proc Job} (control : base.control = s.control) (alive : base.alive = s.alive)
    (keeps : ∀ job, next.job = some job → (s.control proc).job = some job) :
    (base.move proc next).alive = s.alive ∧ ∀ other job,
      ((base.move proc next).control other).job = some job → (s.control other).job = some job := by
  refine ⟨alive, ?_⟩
  intro other job about
  by_cases same : other = proc
  · subst same
    rw [show (base.move other next).control other = next from Function.update_self _ _ _] at about
    exact keeps job about
  · rw [show (base.move proc next).control other = _ from Function.update_of_ne same _ _,
      control] at about
    exact about

theorem LockState.advance_job {runners : Runners Proc Host Job Path}
    {s next : LockState Proc Job Path} {proc : Proc} (taken : s.advance runners proc = some next) :
    next.alive = s.alive ∧
      ∀ other job, (next.control other).job = some job → (s.control other).job = some job := by
  unfold LockState.advance at taken
  cases control : s.control proc with
  | idle =>
      rw [control] at taken
      cases taken
  | raised =>
      rw [control] at taken
      cases taken
  | reading job =>
      simp only [control] at taken
      cases taken
      exact move_job rfl rfl fun task same => control ▸ same
  | judging job read =>
      simp only [control] at taken
      split_ifs at taken
      · cases taken
        exact move_job rfl rfl fun task same => control ▸ same
      · cases taken
        exact move_job rfl rfl nofun
  | unlinking job read =>
      simp only [control] at taken
      cases taken
      exact move_job rfl rfl fun task same => control ▸ same
  | creating job =>
      simp only [control] at taken
      split_ifs at taken
      · cases taken
        exact move_job rfl rfl nofun
      · cases taken
        exact move_job rfl rfl fun task same => control ▸ same
  | writing job inode =>
      simp only [control] at taken
      cases taken
      split_ifs
      all_goals exact move_job rfl rfl fun task same => control ▸ same
  | holding job inode =>
      simp only [control] at taken
      cases taken
      exact move_job rfl rfl nofun

/-- The condition on an action: the file that a process unlinks is the one it read
or gone, and only locks of the own host are reclaimed. -/
def Careful (runners : Runners Proc Host Job Path) (s : LockState Proc Job Path) :
    LockAction Proc Job → Prop
  | .advance proc =>
      match s.control proc with
      | .judging _ read =>
          runners.recoverForeign proc = true →
            ∃ owner ∈ read.bind LockFile.owner, runners.host owner = runners.host proc
      | .unlinking job read => ∀ file ∈ s.files (runners.lockPath job), read = some file.inode
      | _ => True
  | _ => True

instance (runners : Runners Proc Host Job Path) (s : LockState Proc Job Path)
    (action : LockAction Proc Job) : Decidable (Careful runners s action) := by
  unfold Careful
  split
  · split <;> infer_instance
  · infer_instance

/-- The job and the file of a process that has created one. -/
def Control.claim : Control Proc Job → Option (Job × Inode Proc)
  | .writing job inode => some (job, inode)
  | .holding job inode => some (job, inode)
  | _ => none

/-- The invariant: a live process that has created a lock file finds it at the
lock path, and a process about to unlink a file has found its creator dead. -/
structure Guarded (runners : Runners Proc Host Job Path) (s : LockState Proc Job Path) : Prop where
  creates : ∀ proc job inode, (s.control proc).claim = some (job, inode) → inode.creator = proc
  named : ∀ proc job inode, s.alive proc = true → (s.control proc).claim = some (job, inode) →
    (s.files (runners.lockPath job)).map LockFile.inode = some inode
  judged : ∀ proc job inode, s.control proc = .unlinking job (some inode) →
    s.alive inode.creator = false

namespace Guarded

variable {runners : Runners Proc Host Job Path} {s : LockState Proc Job Path}

omit [DecidableEq Host] [DecidableEq Path] in
theorem move (guarded : Guarded runners s) {proc : Proc} {next : Control Proc Job}
    (claims : ∀ job inode, next.claim = some (job, inode) → inode.creator = proc ∧
      (s.files (runners.lockPath job)).map LockFile.inode = some inode)
    (judged : ∀ job inode, next = .unlinking job (some inode) → s.alive inode.creator = false) :
    Guarded runners (s.move proc next) := by
  have control : ∀ other, (s.move proc next).control other =
      if other = proc then next else s.control other :=
    fun other => Function.update_apply _ _ _ _
  constructor
  · intro other job inode claim
    rw [control] at claim
    split_ifs at claim with same
    · exact same ▸ (claims job inode claim).1
    · exact guarded.creates other job inode claim
  · intro other job inode alive claim
    rw [control] at claim
    split_ifs at claim with same
    · exact (claims job inode claim).2
    · exact guarded.named other job inode alive claim
  · intro other job inode about
    rw [control] at about
    split_ifs at about with same
    · exact judged job inode about
    · exact guarded.judged other job inode about

omit [DecidableEq Host] [DecidableEq Path] in
/-- A move to a control point that neither claims nor unlinks a file. -/
theorem move_quiet (guarded : Guarded runners s) {proc : Proc} {next : Control Proc Job}
    (unclaimed : next.claim = none) (unjudged : ∀ job inode, next ≠ .unlinking job (some inode)) :
    Guarded runners (s.move proc next) := by
  apply guarded.move
  · intro job inode claim
    cases unclaimed.symm.trans claim
  · intro job inode about
    exact absurd about (unjudged job inode)

omit [DecidableEq Proc] [DecidableEq Host] in
theorem put (guarded : Guarded runners s) {path : Path} {file : Option (LockFile Proc)}
    (safe : ∀ proc job inode, s.alive proc = true → (s.control proc).claim = some (job, inode) →
      runners.lockPath job = path → file.map LockFile.inode = some inode) :
    Guarded runners (s.put path file) := by
  refine ⟨guarded.creates, ?_, guarded.judged⟩
  intro proc job inode alive claim
  by_cases same : runners.lockPath job = path
  · rw [same, show (s.put path file).files path = file from Function.update_self _ _ _]
    exact safe proc job inode alive claim same
  · rw [show (s.put path file).files (runners.lockPath job) = _ from Function.update_of_ne same _ _]
    exact guarded.named proc job inode alive claim

omit [DecidableEq Proc] [DecidableEq Path] in
/-- The liveness test lets a process go on only when the creator of the file it
read is dead. -/
theorem reclaims_dead {proc : Proc} {read : Option (LockFile Proc)} {inode : Inode Proc}
    (careful : runners.recoverForeign proc = true →
      ∃ owner ∈ read.bind LockFile.owner, runners.host owner = runners.host proc)
    (reclaims : runners.reclaims s.alive proc (read.bind LockFile.owner) = true)
    (seen : read.map LockFile.inode = some inode) : s.alive inode.creator = false := by
  simp only [Runners.reclaims, Bool.and_eq_true, Bool.or_eq_true, Bool.not_eq_true',
    Option.any_eq_true, decide_eq_true_eq] at reclaims
  rcases reclaims with ⟨dead, reachable⟩
  have found : ∃ owner, read.bind LockFile.owner = some owner ∧
      runners.host owner = runners.host proc := reachable.elim id careful
  rcases found with ⟨owner, recorded, sameHost⟩
  rcases Option.map_eq_some_iff.mp seen with ⟨file, rfl, rfl⟩
  have created : owner = file.inode.creator := by
    simp only [Option.bind_some, LockFile.owner] at recorded
    split_ifs at recorded
    exact (Option.some.inj recorded).symm
  rw [recorded, Option.any_some, Option.any_some, decide_eq_true sameHost, Bool.true_and] at dead
  rw [← created]
  exact dead

omit [DecidableEq Proc] [DecidableEq Host] [DecidableEq Path] in
/-- The lock file of a live process is the only one at its path. -/
theorem claim_unique (guarded : Guarded runners s) {proc other : Proc} {job task : Job}
    {inode file : Inode Proc} (alive : s.alive proc = true) (otherAlive : s.alive other = true)
    (claim : (s.control proc).claim = some (job, inode))
    (otherClaim : (s.control other).claim = some (task, file))
    (samePath : runners.lockPath job = runners.lockPath task) : proc = other := by
  have named := guarded.named proc job inode alive claim
  rw [samePath, guarded.named other task file otherAlive otherClaim] at named
  cases named
  rw [← guarded.creates proc job _ claim, guarded.creates other task _ otherClaim]

omit [DecidableEq Host] in
/-- A live creator would have its file at the path, and that file was judged stale. -/
theorem unlink {proc : Proc} {job : Job} {read : Option (Inode Proc)} (guarded : Guarded runners s)
    (control : s.control proc = .unlinking job read)
    (careful : ∀ file ∈ s.files (runners.lockPath job), read = some file.inode) :
    Guarded runners ((s.put (runners.lockPath job) none).move proc (.creating job)) := by
  refine Guarded.move_quiet (guarded.put ?_) rfl (fun _ _ about => by cases about)
  intro other task inode otherAlive claim samePath
  have named := guarded.named other task inode otherAlive claim
  rw [samePath] at named
  rcases Option.map_eq_some_iff.mp named with ⟨file, present, rfl⟩
  have stale := guarded.judged proc job file.inode (control.trans (by rw [careful file present]))
  rw [guarded.creates other task file.inode claim, otherAlive] at stale
  cases stale

omit [DecidableEq Host] in
theorem create {proc : Proc} {job : Job} (guarded : Guarded runners s)
    (absent : s.files (runners.lockPath job) = none) :
    Guarded runners ((LockState.put { s with serial := s.serial + 1 } (runners.lockPath job)
      (some ⟨⟨proc, s.serial⟩, false⟩)).move proc (.writing job ⟨proc, s.serial⟩)) := by
  have counted : Guarded runners { s with serial := s.serial + 1 } :=
    ⟨guarded.creates, guarded.named, guarded.judged⟩
  apply (counted.put ?_).move
  · intro task inode claim
    cases claim
    exact ⟨rfl, by simp [LockState.put]⟩
  · nofun
  · intro other task inode otherAlive claim samePath
    have named := guarded.named other task inode otherAlive claim
    rw [samePath, absent] at named
    cases named

omit [DecidableEq Host] in
theorem write {proc : Proc} {job : Job} {inode : Inode Proc} (guarded : Guarded runners s)
    (alive : s.alive proc = true) (claim : (s.control proc).claim = some (job, inode)) :
    Guarded runners ((s.put (runners.lockPath job) (some ⟨inode, true⟩)).move proc
      (.holding job inode)) := by
  apply (guarded.put ?_).move
  · intro task file moved
    cases moved
    exact ⟨guarded.creates proc job inode claim, by simp [LockState.put]⟩
  · nofun
  · intro other task file otherAlive otherClaim samePath
    have same := guarded.claim_unique alive otherAlive claim otherClaim samePath.symm
    subst same
    cases claim.symm.trans otherClaim
    rfl

omit [DecidableEq Host] in
theorem release {proc : Proc} {job : Job} {inode : Inode Proc} (guarded : Guarded runners s)
    (alive : s.alive proc = true) (claim : (s.control proc).claim = some (job, inode)) :
    Guarded runners ((s.put (runners.lockPath job) none).move proc .idle) := by
  have released : Guarded runners (s.move proc .idle) := guarded.move_quiet rfl nofun
  refine released.put ?_
  intro other task file otherAlive otherClaim samePath
  by_cases same : other = proc
  · subst same
    rw [show (s.move other .idle).control other = .idle from Function.update_self _ _ _]
      at otherClaim
    cases otherClaim
  · rw [show (s.move proc .idle).control other = _ from Function.update_of_ne same _ _]
      at otherClaim
    exact absurd (guarded.claim_unique alive otherAlive claim otherClaim samePath.symm)
      (Ne.symm same)

theorem advance {proc : Proc} {next : LockState Proc Job Path} (guarded : Guarded runners s)
    (alive : s.alive proc = true) (careful : Careful runners s (.advance proc))
    (taken : s.advance runners proc = some next) : Guarded runners next := by
  simp only [Careful] at careful
  unfold LockState.advance at taken
  cases control : s.control proc with
  | idle =>
      rw [control] at taken
      cases taken
  | reading job =>
      rw [control] at taken
      cases taken
      exact guarded.move_quiet rfl nofun
  | judging job read =>
      simp only [control] at taken careful
      split_ifs at taken with reclaims
      · cases taken
        refine guarded.move (fun _ _ claim => by cases claim) ?_
        intro other inode about
        have seen : read.map LockFile.inode = some inode := by
          injection about
        exact reclaims_dead careful reclaims seen
      · cases taken
        exact guarded.move_quiet rfl nofun
  | unlinking job read =>
      simp only [control] at taken careful
      cases taken
      exact guarded.unlink control careful
  | creating job =>
      simp only [control] at taken
      split_ifs at taken with present
      · cases taken
        exact guarded.move_quiet rfl nofun
      · cases taken
        exact guarded.create (Option.not_isSome_iff_eq_none.mp present)
  | writing job inode =>
      have claim : (s.control proc).claim = some (job, inode) := by rw [control]; rfl
      have named := guarded.named proc job inode alive claim
      simp only [control] at taken
      rw [if_pos named] at taken
      cases taken
      exact guarded.write alive claim
  | holding job inode =>
      have claim : (s.control proc).claim = some (job, inode) := by rw [control]; rfl
      simp only [control] at taken
      cases taken
      exact guarded.release alive claim
  | raised =>
      rw [control] at taken
      cases taken

theorem step {action : LockAction Proc Job} {next : LockState Proc Job Path}
    (guarded : Guarded runners s) (careful : Careful runners s action)
    (taken : s.step runners action = some next) : Guarded runners next := by
  cases action with
  | attempt proc job =>
      simp only [LockState.step] at taken
      split at taken
      · cases taken
        apply guarded.move_quiet
        · split_ifs <;> rfl
        · intro task inode
          split_ifs <;> exact nofun
      · cases taken
  | advance proc =>
      simp only [LockState.step] at taken
      split_ifs at taken with alive
      exact guarded.advance alive careful taken
  | exit proc =>
      cases taken
      refine ⟨guarded.creates, ?_, ?_⟩
      · intro other job inode alive claim
        refine guarded.named other job inode ?_ claim
        by_cases same : other = proc
        · subst same
          simp at alive
        · exact (Function.update_of_ne same _ _).symm.trans alive
      · intro other job inode about
        have dead := guarded.judged other job inode about
        by_cases same : inode.creator = proc
        · rw [same]
          exact Function.update_self _ _ _
        · exact (Function.update_of_ne same _ _).trans dead

end Guarded

omit [DecidableEq Proc] [DecidableEq Host] [DecidableEq Path] in
/-- Before any process has begun, whatever lock files there are. -/
theorem guarded_of_idle {s : LockState Proc Job Path} (idle : ∀ proc, s.control proc = .idle)
    (runners : Runners Proc Host Job Path) : Guarded runners s := by
  constructor
  · intro proc job inode claim
    rw [idle] at claim
    cases claim
  · intro proc job inode _ claim
    rw [idle] at claim
    cases claim
  · intro proc job inode about
    rw [idle] at about
    cases about

theorem Guarded.of_reached {runners : Runners Proc Host Job Path}
    {start final : LockState Proc Job Path} (idle : ∀ proc, start.control proc = .idle)
    {actions : List (LockAction Proc Job)}
    (careful : Along (LockState.step runners) (Careful runners) start actions)
    (reached : runFrom (LockState.step runners) start actions = some final) :
    Guarded runners final :=
  careful.invariant (fun _ _ _ guarded careful taken => guarded.step careful taken)
    (guarded_of_idle idle runners) reached

/-- At most one live process is between a successful `acquire_lock` and its
release, for each lock path, in every state of every careful run. -/
theorem holding_unique {runners : Runners Proc Host Job Path} {start : LockState Proc Job Path}
    (idle : ∀ proc, start.control proc = .idle) {actions : List (LockAction Proc Job)}
    (careful : Along (LockState.step runners) (Careful runners) start actions)
    {final : LockState Proc Job Path}
    (reached : runFrom (LockState.step runners) start actions = some final)
    {proc other : Proc} {job task : Job} {inode file : Inode Proc}
    (alive : final.alive proc = true) (otherAlive : final.alive other = true)
    (holds : final.control proc = .holding job inode)
    (otherHolds : final.control other = .holding task file)
    (samePath : runners.lockPath job = runners.lockPath task) : proc = other := by
  have guarded := Guarded.of_reached idle careful reached
  have claim : (final.control proc).claim = some (job, inode) := by rw [holds]; rfl
  have otherClaim : (final.control other).claim = some (task, file) := by rw [otherHolds]; rfl
  exact guarded.claim_unique alive otherAlive claim otherClaim samePath

end Steps

/-- Processes on one host that want the same lock. -/
def sameHost : Runners (Fin 3) Unit Unit Unit := ⟨fun _ => (), fun _ => false, fun _ => ()⟩

/-- The last process has died and left its lock file. -/
def staleLock : LockState (Fin 3) Unit Unit where
  files _ := some ⟨⟨2, 0⟩, true⟩
  control _ := .idle
  alive proc := proc != 2
  serial := 1

/-- The first process recovers the lock and the second finds it live. -/
def recoveryRun : List (LockAction (Fin 3) Unit) :=
  [.attempt 0 (), .advance 0, .advance 0, .advance 0, .advance 0, .advance 0,
    .attempt 1 (), .advance 1, .advance 1]

theorem recoveryRun_exclusive :
    ∃ final, runFrom (LockState.step sameHost) staleLock recoveryRun = some final ∧
      final.control 0 = .holding () ⟨0, 1⟩ ∧
      ∀ other file, final.alive other = true → final.control other = .holding () file →
        0 = other := by
  have careful : Along (LockState.step sameHost) (Careful sameHost) staleLock recoveryRun := by
    decide +kernel
  have holds : (runFrom (LockState.step sameHost) staleLock recoveryRun).map
      (fun final => (final.alive 0, final.control 0)) =
        some (true, .holding () ⟨0, 1⟩) := by decide +kernel
  rcases Option.map_eq_some_iff.mp holds with ⟨final, reached, observed⟩
  rcases Prod.mk.inj observed with ⟨alive, holding⟩
  refine ⟨final, reached, holding, ?_⟩
  intro other file otherAlive otherHolding
  exact holding_unique (fun _ => rfl) careful reached alive otherAlive holding otherHolding rfl

/-- Both processes read the record of the dead one; the first recovers the lock,
and the second unlinks the file of the first. -/
def raceRun : List (LockAction (Fin 3) Unit) :=
  [.attempt 0 (), .attempt 1 (), .advance 0, .advance 1, .advance 0, .advance 1,
    .advance 0, .advance 0, .advance 0, .advance 1, .advance 1, .advance 1]

theorem raceRun_shared :
    ¬ ∀ (start : LockState (Fin 3) Unit Unit) (actions : List (LockAction (Fin 3) Unit))
        (final : LockState (Fin 3) Unit Unit) (proc other : Fin 3) (inode file : Inode (Fin 3)),
      (∀ proc, start.control proc = .idle) →
      (∀ path, ∀ file ∈ start.files path, start.alive file.inode.creator = false) →
      runFrom (LockState.step sameHost) start actions = some final →
      final.alive proc = true → final.alive other = true →
      final.control proc = .holding () inode → final.control other = .holding () file →
      proc = other := by
  intro claimed
  have holds : (runFrom (LockState.step sameHost) staleLock raceRun).map
      (fun final => ((final.alive 0, final.alive 1), (final.control 0, final.control 1))) =
        some ((true, true), (.holding () ⟨0, 1⟩, .holding () ⟨1, 2⟩)) := by decide +kernel
  rcases Option.map_eq_some_iff.mp holds with ⟨final, reached, observed⟩
  simp only [Prod.mk.injEq] at observed
  rcases observed with ⟨⟨alive, otherAlive⟩, holding, otherHolding⟩
  have same := claimed staleLock raceRun final 0 1 _ _ (fun _ => rfl) (by decide +kernel) reached
    alive otherAlive holding otherHolding
  cases same

end GraphDissect.Experiments
