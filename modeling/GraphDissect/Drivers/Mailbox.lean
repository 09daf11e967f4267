import GraphDissect.Library.Runs

/-!
# The active-driver mailbox

MFuzz asks for a driver by writing its profile into a file and takes the
absence of the file as the answer; honggfuzz reads the file, switches the driver
and removes the file by its name.  Every system call is a step of its own, and
the two processes interleave freely.
-/

namespace GraphDissect.Drivers

open Library

/-- The mailbox: the inode that its path names and the contents of the inodes
named so far.  A profile is written by one call, so a content is empty or the
profile of a driver, given by the driver's id. -/
structure MailFile where
  path : Option Nat
  content : Nat → Option Nat
  inodes : Nat

namespace MailFile

/-- `open` with `O_CREAT | O_TRUNC`. -/
def openTrunc (file : MailFile) : Nat × MailFile :=
  match file.path with
  | some inode => (inode, { file with content := Function.update file.content inode none })
  | none =>
      (file.inodes,
        { path := some file.inodes
          content := Function.update file.content file.inodes none
          inodes := file.inodes + 1 })

def write (file : MailFile) (inode driver : Nat) : MailFile :=
  { file with content := Function.update file.content inode (some driver) }

def remove (file : MailFile) : MailFile := { file with path := none }

/-- What `open` leaves: an empty file, at the inode that was named before. -/
theorem openTrunc_spec (file : MailFile) :
    file.openTrunc.2.path = some file.openTrunc.1 ∧
      file.openTrunc.2.content file.openTrunc.1 = none ∧
      ∀ inode, file.path = some inode → file.openTrunc.1 = inode := by
  unfold openTrunc
  cases file.path with
  | none => exact ⟨rfl, by simp, by rintro _ ⟨⟩⟩
  | some inode => exact ⟨rfl, by simp, by rintro _ ⟨⟩; rfl⟩

end MailFile

/-- Where `DriverMng::setActiveDriver` stands: behind its `open`, in
`waitForDriverLoad` after so many milliseconds, or behind its `return true`. -/
inductive ManagerPc where
  | idle
  | opened (driver inode : Nat)
  | waiting (driver waited : Nat)
  | returned (driver : Nat)
  | exited

structure Manager where
  pc : ManagerPc
  activeDrvId : Nat
  drvFailedNum : Nat

/-- Where honggfuzz stands.  `booting` is before the load at start-up, which
neither switches the driver nor removes the file. -/
inductive LoaderPc where
  | booting
  | idle
  | reading (inode tries : Nat) (boot : Bool)
  | loaded
  | switched
  | dead
  deriving DecidableEq

/-- `drivers` is the list from `driver_list_head` on. -/
structure Loader where
  pc : LoaderPc
  drivers : List Nat
  active : Option Nat

structure Mailbox where
  file : MailFile
  mfuzz : Manager
  hfuzz : Loader

inductive MailAction where
  | setActiveDriver (driver : Nat)
  | write
  | access
  | giveUp
  | finish
  | openFile
  | read
  | switchDriver
  | remove

namespace Manager

/-- The end of `setActiveDriver`. -/
def finish (manager : Manager) (driver : Nat) : Manager :=
  { manager with
    pc := .idle
    activeDrvId := driver }

/-- Behind the `write`: the first request is not waited for. -/
def written (manager : Manager) (driver : Nat) : Manager :=
  if manager.activeDrvId ≠ 0 then { manager with pc := .waiting driver 0 }
  else manager.finish driver

/-- The timeout of `waitForDriverLoad`. -/
def giveUp (manager : Manager) (driver : Nat) : Manager :=
  let failed := { manager with drvFailedNum := manager.drvFailedNum + 1 }
  if failed.drvFailedNum > 3 then { failed with pc := .exited } else failed.finish driver

end Manager

namespace Loader

/-- `drive_addDriver`: the driver becomes the head of the list. -/
def addDriver (loader : Loader) (driver : Nat) : Loader :=
  { loader with drivers := driver :: loader.drivers.erase driver }

/-- One `read` of `drive_loadDriver` and, when it is not empty, the rest of the
load. -/
def read (loader : Loader) (inode tries : Nat) (boot : Bool) : Option Nat → Loader
  | none =>
      if tries - 1 = 0 then { loader with pc := .dead }
      else { loader with pc := .reading inode (tries - 1) boot }
  | some driver =>
      if driver = 0 ∨ 8192 < driver then { loader with pc := .dead }
      else { loader.addDriver driver with pc := if boot then .idle else .loaded }

/-- `driver_switchDriver` up to its `remove`. -/
def switchDriver (loader : Loader) : Loader :=
  { loader with
    pc := .switched
    active := loader.drivers.head? }

end Loader

namespace Mailbox

/-- Both processes before their first step; a file may be left over. -/
def start (file : MailFile) : Mailbox where
  file
  mfuzz := ⟨.idle, 0, 0⟩
  hfuzz := ⟨.booting, [], none⟩

def step (s : Mailbox) : MailAction → Option Mailbox
  | .setActiveDriver driver =>
      match s.mfuzz.pc with
      | .idle =>
          let (inode, file) := s.file.openTrunc
          some { s with
            file
            mfuzz := { s.mfuzz with pc := .opened driver inode } }
      | _ => none
  | .write =>
      match s.mfuzz.pc with
      | .opened driver inode =>
          some { s with
            file := s.file.write inode driver
            mfuzz := s.mfuzz.written driver }
      | _ => none
  | .access =>
      match s.mfuzz.pc with
      | .waiting driver waited =>
          if waited < 15 * 1000 then
            match s.file.path with
            | none =>
                some { s with
                  mfuzz :=
                    { s.mfuzz with
                      pc := .returned driver
                      drvFailedNum := 0 } }
            | some _ =>
                some { s with mfuzz := { s.mfuzz with pc := .waiting driver (waited + 50) } }
          else none
      | _ => none
  | .giveUp =>
      match s.mfuzz.pc with
      | .waiting driver waited =>
          if waited < 15 * 1000 then none else some { s with mfuzz := s.mfuzz.giveUp driver }
      | _ => none
  | .finish =>
      match s.mfuzz.pc with
      | .returned driver => some { s with mfuzz := s.mfuzz.finish driver }
      | _ => none
  | .openFile =>
      match s.hfuzz.pc, s.file.path with
      | .booting, none => some { s with hfuzz := { s.hfuzz with pc := .idle } }
      | .booting, some inode =>
          some { s with hfuzz := { s.hfuzz with pc := .reading inode 3 true } }
      | .idle, none => some s
      | .idle, some inode =>
          some { s with hfuzz := { s.hfuzz with pc := .reading inode 3 false } }
      | _, _ => none
  | .read =>
      match s.hfuzz.pc with
      | .reading inode tries boot =>
          some { s with hfuzz := s.hfuzz.read inode tries boot (s.file.content inode) }
      | _ => none
  | .switchDriver =>
      match s.hfuzz.pc with
      | .loaded => some { s with hfuzz := s.hfuzz.switchDriver }
      | _ => none
  | .remove =>
      match s.hfuzz.pc with
      | .switched =>
          some { s with
            file := s.file.remove
            hfuzz := { s.hfuzz with pc := .idle } }
      | _ => none

/-- `waitForDriverLoad` only returns true for the driver that honggfuzz last
switched to, and honggfuzz only removes a profile that it has loaded. -/
structure Agrees (s : Mailbox) : Prop where
  returned : ∀ driver, s.mfuzz.pc = .returned driver → s.hfuzz.active = some driver
  removed : ∀ inode driver, s.hfuzz.pc = .switched → s.file.path = some inode →
    s.file.content inode = some driver → s.hfuzz.active = some driver

/-- honggfuzz has read the file and not yet removed it. -/
def Holding (s : Mailbox) : Prop := s.hfuzz.pc = .loaded ∨ s.hfuzz.pc = .switched

instance (s : Mailbox) : Decidable s.Holding :=
  inferInstanceAs (Decidable (_ ∨ _))

/-- MFuzz opens the mailbox while honggfuzz holds a profile only to ask for the
same driver again. -/
def Undisturbed (s : Mailbox) : MailAction → Prop
  | .setActiveDriver driver => s.Holding → s.hfuzz.drivers.head? = some driver
  | _ => True

instance (s : Mailbox) : ∀ action, Decidable (s.Undisturbed action)
  | .setActiveDriver driver =>
      inferInstanceAs (Decidable (s.Holding → s.hfuzz.drivers.head? = some driver))
  | .write | .access | .giveUp | .finish | .openFile | .read | .switchDriver | .remove =>
      isTrue trivial

/-- The request was read and switched to, and nothing is left to read. -/
def Served (s : Mailbox) (driver : Nat) : Prop :=
  s.file.path = none ∧ (s.hfuzz.pc = .booting ∨ s.hfuzz.pc = .idle) ∧
    s.hfuzz.active = some driver

/-- A request is still in the file, in honggfuzz's hands, or served. -/
def Requested (s : Mailbox) (driver inode : Nat) (text : Option Nat) : Prop :=
  (¬ s.Holding ∧ s.file.path = some inode ∧ s.file.content inode = text) ∨
    (s.Holding ∧ s.hfuzz.drivers.head? = some driver) ∨ s.Served driver

structure Consistent (s : Mailbox) : Prop where
  reading : ∀ inode tries boot, s.hfuzz.pc = .reading inode tries boot →
    s.file.path = some inode
  holding : s.Holding → ∃ inode, s.file.path = some inode ∧
    (s.file.content inode = none ∨ s.file.content inode = s.hfuzz.drivers.head?)
  switched : s.hfuzz.pc = .switched → s.hfuzz.active = s.hfuzz.drivers.head?
  opened : ∀ driver inode, s.mfuzz.pc = .opened driver inode → s.Requested driver inode none
  waiting : ∀ driver waited, s.mfuzz.pc = .waiting driver waited →
    ∃ inode, s.Requested driver inode (some driver)
  returned : ∀ driver, s.mfuzz.pc = .returned driver → s.Served driver

theorem consistent_start (file : MailFile) : (start file).Consistent where
  reading := by rintro _ _ _ ⟨⟩
  holding := by rintro (⟨⟨⟩⟩ | ⟨⟨⟩⟩)
  switched := by rintro ⟨⟩
  opened := by rintro _ _ ⟨⟩
  waiting := by rintro _ _ ⟨⟩
  returned := by rintro _ ⟨⟩

theorem Consistent.agrees {s : Mailbox} (consistent : s.Consistent) : s.Agrees where
  returned := fun driver returned => (consistent.returned driver returned).2.2
  removed := by
    intro inode driver switched named content
    obtain ⟨held, path, empty | loaded⟩ := consistent.holding (.inr switched)
    · cases path.symm.trans named
      cases empty.symm.trans content
    · cases path.symm.trans named
      rw [consistent.switched switched, ← loaded, content]

section Manager

theorem Consistent.setActiveDriver {s next : Mailbox} {driver : Nat} (consistent : s.Consistent)
    (undisturbed : s.Undisturbed (.setActiveDriver driver))
    (taken : s.step (.setActiveDriver driver) = some next) : next.Consistent := by
  simp only [step] at taken
  split at taken
  · next idle =>
    cases taken
    obtain ⟨path, content, same⟩ := MailFile.openTrunc_spec s.file
    refine ⟨?_, ?_, consistent.switched, ?_, by rintro _ _ ⟨⟩, by rintro _ ⟨⟩⟩
    · intro inode tries boot reading
      exact path.trans (congrArg some (same inode (consistent.reading inode tries boot reading)))
    · intro holding
      exact ⟨_, path, .inl content⟩
    · rintro _ _ ⟨⟩
      by_cases holding : s.Holding
      · exact .inr (.inl ⟨holding, undisturbed holding⟩)
      · exact .inl ⟨holding, path, content⟩
  · cases taken

/-- The write reaches the file that honggfuzz will read, or the request has
already been taken. -/
theorem Consistent.write {s next : Mailbox} (consistent : s.Consistent)
    (taken : s.step .write = some next) : next.Consistent := by
  simp only [step] at taken
  split at taken
  · next driver inode pc =>
    cases taken
    have requested := consistent.opened driver inode pc
    have written : Requested
        { s with
          file := s.file.write inode driver
          mfuzz := s.mfuzz.written driver } driver inode (some driver) := by
      obtain ⟨free, path, -⟩ | taken | served := requested
      · exact .inl ⟨free, path, Function.update_self ..⟩
      · exact .inr (.inl taken)
      · exact .inr (.inr served)
    have resumes : (s.mfuzz.written driver).pc = .waiting driver 0 ∨
        (s.mfuzz.written driver).pc = .idle := by
      unfold Manager.written
      split
      · exact .inl rfl
      · exact .inr rfl
    refine ⟨consistent.reading, ?_, consistent.switched, ?_, ?_, ?_⟩
    · intro holding
      obtain ⟨held, path, content⟩ := consistent.holding holding
      refine ⟨held, path, ?_⟩
      dsimp only [MailFile.write]
      by_cases same : held = inode
      · subst same
        rw [Function.update_self]
        obtain ⟨free, -⟩ | ⟨-, head⟩ | ⟨removed, -⟩ := requested
        · exact absurd holding free
        · exact .inr head.symm
        · cases removed.symm.trans path
      · rw [Function.update_of_ne same]
        exact content
    · intro other at_inode reached
      obtain resumes | resumes := resumes
      · cases resumes.symm.trans reached
      · cases resumes.symm.trans reached
    · intro other waited reached
      obtain resumes | resumes := resumes
      · cases resumes.symm.trans reached
        exact ⟨inode, written⟩
      · cases resumes.symm.trans reached
    · intro other reached
      obtain resumes | resumes := resumes
      · cases resumes.symm.trans reached
      · cases resumes.symm.trans reached
  · cases taken

theorem Consistent.forget {s : Mailbox} (consistent : s.Consistent) {manager : Manager}
    (resumed : manager.pc = .idle ∨ manager.pc = .exited) :
    Consistent { s with mfuzz := manager } := by
  refine ⟨consistent.reading, consistent.holding, consistent.switched, ?_, ?_, ?_⟩
  · intro driver inode reached
    rw [reached] at resumed
    rcases resumed with ⟨⟨⟩⟩ | ⟨⟨⟩⟩
  · intro driver waited reached
    rw [reached] at resumed
    rcases resumed with ⟨⟨⟩⟩ | ⟨⟨⟩⟩
  · intro driver reached
    rw [reached] at resumed
    rcases resumed with ⟨⟨⟩⟩ | ⟨⟨⟩⟩

theorem Consistent.access {s next : Mailbox} (consistent : s.Consistent)
    (taken : s.step .access = some next) : next.Consistent := by
  simp only [step] at taken
  split at taken
  · next driver waited pc =>
    obtain ⟨inode, requested⟩ := consistent.waiting driver waited pc
    split at taken
    · split at taken
      · next gone =>
        cases taken
        have served : s.Served driver := by
          obtain ⟨-, path, -⟩ | ⟨holding, -⟩ | served := requested
          · cases gone.symm.trans path
          · obtain ⟨held, path, -⟩ := consistent.holding holding
            cases gone.symm.trans path
          · exact served
        refine ⟨consistent.reading, consistent.holding, consistent.switched,
          by rintro _ _ ⟨⟩, by rintro _ _ ⟨⟩, ?_⟩
        rintro _ ⟨⟩
        exact served
      · cases taken
        refine ⟨consistent.reading, consistent.holding, consistent.switched,
          by rintro _ _ ⟨⟩, ?_, by rintro _ ⟨⟩⟩
        rintro _ _ ⟨⟩
        exact ⟨inode, requested⟩
    · cases taken
  · cases taken

theorem Consistent.giveUp {s next : Mailbox} (consistent : s.Consistent)
    (taken : s.step .giveUp = some next) : next.Consistent := by
  simp only [step] at taken
  split at taken
  · next driver waited _ =>
    split at taken
    · cases taken
    · cases taken
      refine consistent.forget ?_
      unfold Manager.giveUp
      dsimp only
      split
      · exact .inr rfl
      · exact .inl rfl
  · cases taken

theorem Consistent.finish {s next : Mailbox} (consistent : s.Consistent)
    (taken : s.step .finish = some next) : next.Consistent := by
  simp only [step] at taken
  split at taken
  · cases taken
    exact consistent.forget (.inl rfl)
  · cases taken

end Manager

section Loader

/-- honggfuzz's steps keep the invariant when they keep its own part and no
request gets lost. -/
theorem Consistent.load {s : Mailbox} (consistent : s.Consistent) {file : MailFile}
    {loader : Loader}
    (reading : ∀ inode tries boot, loader.pc = .reading inode tries boot →
      file.path = some inode)
    (holding : Holding ⟨file, s.mfuzz, loader⟩ → ∃ inode, file.path = some inode ∧
      (file.content inode = none ∨ file.content inode = loader.drivers.head?))
    (switched : loader.pc = .switched → loader.active = loader.drivers.head?)
    (requested : ∀ driver inode text, (text = none ∨ text = some driver) →
      s.Requested driver inode text → Requested ⟨file, s.mfuzz, loader⟩ driver inode text)
    (served : ∀ driver, s.Served driver → Served ⟨file, s.mfuzz, loader⟩ driver) :
    Consistent ⟨file, s.mfuzz, loader⟩ where
  reading := reading
  holding := holding
  switched := switched
  opened := fun driver inode reached =>
    requested driver inode none (.inl rfl) (consistent.opened driver inode reached)
  waiting := by
    intro driver waited reached
    obtain ⟨inode, pending⟩ := consistent.waiting driver waited reached
    exact ⟨inode, requested driver inode (some driver) (.inr rfl) pending⟩
  returned := fun driver reached => served driver (consistent.returned driver reached)

theorem Consistent.openFile {s next : Mailbox} (consistent : s.Consistent)
    (taken : s.step .openFile = some next) : next.Consistent := by
  -- a step to `idle` without a file, or to `reading` its inode
  have free : s.hfuzz.pc = .booting ∨ s.hfuzz.pc = .idle → ¬ s.Holding := by
    rintro (pc | pc) (holding | holding) <;> cases pc.symm.trans holding
  have idles : s.file.path = none → (s.hfuzz.pc = .booting ∨ s.hfuzz.pc = .idle) →
      Consistent { s with hfuzz := { s.hfuzz with pc := .idle } } := by
    intro gone pc
    refine consistent.load (by rintro _ _ _ ⟨⟩) (by rintro (⟨⟨⟩⟩ | ⟨⟨⟩⟩)) (by rintro ⟨⟩) ?_ ?_
    · rintro driver inode text - (⟨-, path, -⟩ | ⟨holding, -⟩ | ⟨-, -, active⟩)
      · cases gone.symm.trans path
      · exact absurd holding (free pc)
      · exact .inr (.inr ⟨gone, .inr rfl, active⟩)
    · rintro driver ⟨-, -, active⟩
      exact ⟨gone, .inr rfl, active⟩
  have reads : ∀ inode boot, s.file.path = some inode →
      (s.hfuzz.pc = .booting ∨ s.hfuzz.pc = .idle) →
      Consistent { s with hfuzz := { s.hfuzz with pc := .reading inode 3 boot } } := by
    intro inode boot path pc
    refine consistent.load ?_ (by rintro (⟨⟨⟩⟩ | ⟨⟨⟩⟩)) (by rintro ⟨⟩) ?_ ?_
    · rintro _ _ _ ⟨⟩
      exact path
    · rintro driver named text - (⟨-, here, content⟩ | ⟨holding, -⟩ | ⟨gone, -⟩)
      · exact .inl ⟨by rintro (⟨⟨⟩⟩ | ⟨⟨⟩⟩), here, content⟩
      · exact absurd holding (free pc)
      · cases gone.symm.trans path
    · rintro driver ⟨gone, -⟩
      cases gone.symm.trans path
  simp only [step] at taken
  split at taken
  · next pc gone =>
    cases taken
    exact idles gone (.inl pc)
  · next inode pc path =>
    cases taken
    exact reads inode true path (.inl pc)
  · cases taken
    exact consistent
  · next inode pc path =>
    cases taken
    exact reads inode false path (.inr pc)
  · cases taken

theorem Consistent.read {s next : Mailbox} (consistent : s.Consistent)
    (taken : s.step .read = some next) : next.Consistent := by
  simp only [step] at taken
  split at taken
  · next inode tries boot pc =>
    cases taken
    have path := consistent.reading inode tries boot pc
    have unserved : ∀ driver, ¬ s.Served driver := by
      rintro driver ⟨gone, -⟩
      cases gone.symm.trans path
    have free : ¬ s.Holding := by
      rintro (holding | holding) <;> cases pc.symm.trans holding
    -- a requested content is what is read
    have pending : ∀ driver named text, s.Requested driver named text →
        named = inode ∧ s.file.content inode = text := by
      rintro driver named text (⟨-, here, content⟩ | ⟨holding, -⟩ | served)
      · cases here.symm.trans path
        exact ⟨rfl, content⟩
      · exact absurd holding free
      · exact absurd served (unserved driver)
    have parks : ∀ loader : Loader, loader.pc ≠ .loaded → loader.pc ≠ .switched →
        (∀ named tries boot, loader.pc = .reading named tries boot → named = inode) →
        Consistent { s with hfuzz := loader } := by
      intro loader notLoaded notSwitched reading
      have parked : ¬ Holding { s with hfuzz := loader } := by
        rintro (holding | holding)
        · exact notLoaded holding
        · exact notSwitched holding
      refine consistent.load ?_ (fun holding => absurd holding parked)
        (fun switched => absurd switched notSwitched) ?_
        fun driver served => absurd served (unserved driver)
      · intro named tries boot reads
        rw [reading named tries boot reads]
        exact path
      · intro driver named text _ requested
        obtain ⟨rfl, content⟩ := pending driver named text requested
        exact .inl ⟨parked, path, content⟩
    unfold Loader.read
    split
    · split
      · exact parks _ (by rintro ⟨⟩) (by rintro ⟨⟩) (by rintro _ _ _ ⟨⟩)
      · exact parks _ (by rintro ⟨⟩) (by rintro ⟨⟩) (by rintro _ _ _ ⟨⟩; rfl)
    · next driver content =>
      split
      · exact parks _ (by rintro ⟨⟩) (by rintro ⟨⟩) (by rintro _ _ _ ⟨⟩)
      · cases boot with
        | true => exact parks _ (by rintro ⟨⟩) (by rintro ⟨⟩) (by rintro _ _ _ ⟨⟩)
        | false =>
          refine consistent.load (by rintro _ _ _ ⟨⟩) ?_ (by rintro ⟨⟩) ?_
            fun driver served => absurd served (unserved driver)
          · intro _
            exact ⟨inode, path, .inr content⟩
          · intro asked named text form requested
            obtain ⟨rfl, same⟩ := pending asked named text requested
            refine .inr (.inl ⟨.inl rfl, ?_⟩)
            rw [content] at same
            subst same
            obtain none | ⟨⟨⟩⟩ := form
            · cases none
            · rfl
  · cases taken

theorem Consistent.switchDriver {s next : Mailbox} (consistent : s.Consistent)
    (taken : s.step .switchDriver = some next) : next.Consistent := by
  simp only [step] at taken
  split at taken
  · next pc =>
    cases taken
    have holding : s.Holding := .inl pc
    refine consistent.load (by rintro _ _ _ ⟨⟩) (fun _ => consistent.holding holding)
      (fun _ => rfl) ?_ ?_
    · rintro driver inode text - (⟨free, -⟩ | ⟨-, head⟩ | ⟨-, idle, -⟩)
      · exact absurd holding free
      · exact .inr (.inl ⟨.inr rfl, head⟩)
      · rw [pc] at idle
        rcases idle with ⟨⟨⟩⟩ | ⟨⟨⟩⟩
    · rintro driver ⟨-, idle, -⟩
      rw [pc] at idle
      rcases idle with ⟨⟨⟩⟩ | ⟨⟨⟩⟩
  · cases taken

theorem Consistent.remove {s next : Mailbox} (consistent : s.Consistent)
    (taken : s.step .remove = some next) : next.Consistent := by
  simp only [step] at taken
  split at taken
  · next pc =>
    cases taken
    have holding : s.Holding := .inr pc
    refine consistent.load (by rintro _ _ _ ⟨⟩) (by rintro (⟨⟨⟩⟩ | ⟨⟨⟩⟩)) (by rintro ⟨⟩) ?_ ?_
    · rintro driver inode text - (⟨free, -⟩ | ⟨-, head⟩ | ⟨-, idle, -⟩)
      · exact absurd holding free
      · exact .inr (.inr ⟨rfl, .inr rfl, (consistent.switched pc).trans head⟩)
      · rw [pc] at idle
        rcases idle with ⟨⟨⟩⟩ | ⟨⟨⟩⟩
    · rintro driver ⟨-, idle, -⟩
      rw [pc] at idle
      rcases idle with ⟨⟨⟩⟩ | ⟨⟨⟩⟩
  · cases taken

end Loader

theorem Consistent.step {s next : Mailbox} {action : MailAction} (consistent : s.Consistent)
    (undisturbed : s.Undisturbed action) (taken : s.step action = some next) :
    next.Consistent := by
  cases action with
  | setActiveDriver driver => exact consistent.setActiveDriver undisturbed taken
  | write => exact consistent.write taken
  | access => exact consistent.access taken
  | giveUp => exact consistent.giveUp taken
  | finish => exact consistent.finish taken
  | openFile => exact consistent.openFile taken
  | read => exact consistent.read taken
  | switchDriver => exact consistent.switchDriver taken
  | remove => exact consistent.remove taken

/-- As long as MFuzz does not open the mailbox between honggfuzz's read and its
`remove`, every acknowledged request is the active driver. -/
theorem mailbox_agrees {file : MailFile} {actions : List MailAction} {s : Mailbox}
    (undisturbed : Along step Undisturbed (start file) actions)
    (reached : runFrom step (start file) actions = some s) : s.Agrees := by
  have consistent : s.Consistent :=
    undisturbed.invariant (fun _ _ _ kept allowed taken => kept.step allowed taken)
      (consistent_start file) reached
  exact consistent.agrees

def noFile : MailFile := ⟨none, fun _ => none, 0⟩

/-- honggfuzz starts without a file, and driver 1 is loaded before driver 2 is
asked for. -/
def servedInTurn : List MailAction :=
  [.openFile, .setActiveDriver 1, .write, .openFile, .read, .switchDriver, .remove,
    .setActiveDriver 2, .write, .openFile, .read, .switchDriver, .remove, .access]

theorem mailbox_agrees_in_turn : ∃ s,
    runFrom step (start noFile) servedInTurn = some s ∧ s.mfuzz.pc = .returned 2 ∧ s.Agrees := by
  have undisturbed : Along step Undisturbed (start noFile) servedInTurn := by decide
  exact ⟨_, rfl, rfl, mailbox_agrees undisturbed rfl⟩

/-- The first request is not waited for, and the second one overwrites it
between honggfuzz's read and its `remove`. -/
def overwritten : List MailAction :=
  [.openFile, .setActiveDriver 1, .write, .openFile, .read, .setActiveDriver 2, .write,
    .switchDriver, .remove, .access]

theorem mailbox_loses_request :
    ¬ ∀ (file : MailFile) (actions : List MailAction) (s : Mailbox),
      runFrom step (start file) actions = some s → s.Agrees := by
  intro agrees
  have lost := (agrees noFile overwritten _ rfl).returned 2 rfl
  revert lost
  decide

end Mailbox

end GraphDissect.Drivers
