import GraphDissect.Drivers.CommandLine
import GraphDissect.Library.Runs
import Mathlib

/-!
# In-place editing

A target that edits its input in place gets a working copy of it.  Before the
target runs, `fuzz_inPlaceEditBefore` creates the copy, records the path and the
descriptor of the input, and puts those of the copy in their place; afterwards
`fuzz_inPlaceEditAfter` decides from the record whether there is something to
restore.  What `mkstemp`, `write` and `unlink` answer is an input of each
iteration.

The record is part of the `run_t` of a worker, which starts out zeroed.  The run
of the target itself reads the descriptor and the size and leaves the fields
below alone.
-/

namespace GraphDissect.Drivers

open Library

/-- A C string in a `char[PATH_MAX]`. -/
abbrev PathBuffer := { text : Bytes // text.length < pathMax ∧ 0 ∉ text }

theorem strncpy_pathMax (text : Bytes) :
    (strncpy (pathMax - 1) text).length < pathMax ∧ 0 ∉ strncpy (pathMax - 1) text := by
  constructor
  · have short : (strncpy (pathMax - 1) text).length ≤ pathMax - 1 := List.length_take_le _ _
    have positive : 0 < pathMax := by decide
    omega
  · intro member
    have nonzero := List.mem_takeWhile_imp (List.mem_of_mem_take member)
    simp at nonzero

/-- `snprintf` into a `char[PATH_MAX]`. -/
def snprintf (text : Bytes) : PathBuffer := ⟨strncpy (pathMax - 1) text, strncpy_pathMax text⟩

def PathBuffer.empty : PathBuffer := snprintf []

/-- What `mkstemp` puts in the place of the six `X`. -/
abbrev UniqueName := { text : Bytes // text.length = 6 ∧ 0 ∉ text }

structure WorkerDynfile where
  path : PathBuffer
  fd : Int
  data : Option Bytes
  size : UInt64
  driverId : UInt32
deriving DecidableEq

/-- `inplace_edit_t`. -/
structure InPlaceEdit where
  inplaceOrigPath : PathBuffer
  inplaceTmpPath : PathBuffer
  inplaceOrigFd : Int
deriving DecidableEq

def InPlaceEdit.zeroed : InPlaceEdit := ⟨.empty, .empty, 0⟩

/-- The descriptors of the process and its working copies: those on the disk, and
all that were ever created, closed or passed to `unlink`. -/
structure WorkingFiles where
  openFds : List Int
  copies : List PathBuffer
  created : List PathBuffer
  closed : List Int
  unlinked : List PathBuffer
deriving DecidableEq

structure RunState where
  dynfile : WorkerDynfile
  fuzzNo : UInt32
  inPlaceEdits : InPlaceEdit
  files : WorkingFiles
deriving DecidableEq

/-- What the system calls of an iteration answer; `created` is the descriptor and
the name that `mkstemp` chooses. -/
structure Answers where
  created : Option (Int × UniqueName)
  written : Int64
  unlinks : Bool
deriving DecidableEq

/-- What `fuzz_fetchInput` puts into the input file. -/
structure FetchedInput where
  path : PathBuffer
  data : Option Bytes
  size : UInt64
  driverId : UInt32
deriving DecidableEq

structure Iteration where
  inPlaceEdit : Bool
  sessionPath : Option PathBuffer
  input : FetchedInput
  answers : Answers
deriving DecidableEq

namespace WorkingFiles

def create (files : WorkingFiles) (fd : Int) (path : PathBuffer) : WorkingFiles :=
  { files with
    openFds := fd :: files.openFds
    copies := path :: files.copies
    created := files.created ++ [path] }

def close (files : WorkingFiles) (fd : Int) : WorkingFiles :=
  { files with
    openFds := files.openFds.erase fd
    closed := files.closed ++ [fd] }

def unlink (files : WorkingFiles) (unlinks : Bool) (path : PathBuffer) : WorkingFiles :=
  { files with
    copies := if unlinks then files.copies.erase path else files.copies
    unlinked := files.unlinked ++ [path] }

end WorkingFiles

namespace RunState

/-- The state of a worker before its first iteration. -/
def initial (dynfile : WorkerDynfile) (fuzzNo : UInt32) (otherFds : List Int) : RunState where
  dynfile := dynfile
  fuzzNo := fuzzNo
  inPlaceEdits := .zeroed
  files := ⟨dynfile.fd :: otherFds, [], [], [], []⟩

end RunState

/-- `%06u`. -/
def sixDigits (value : UInt32) : Bytes :=
  let digits := Nat.toDigits 10 value.toNat
  utf8 (List.replicate (6 - digits.length) '0' ++ digits)

/-- The name of a copy, if the template ends in six `X`. -/
def fillTemplate (template : PathBuffer) (unique : UniqueName) : Option PathBuffer :=
  let stem := template.val.take (template.val.length - 6)
  if template.val = stem ++ utf8 "XXXXXX".toList then some (snprintf (stem ++ unique.val))
  else none

/-- `fuzz_makeWorkingCopy`: the descriptor or 0, and what `mkstemp` leaves in the
template. -/
def makeWorkingCopy (answers : Answers) (run : RunState) (tmpCopy : PathBuffer) :
    Int × PathBuffer × RunState :=
  match answers.created.bind fun choice =>
      (fillTemplate tmpCopy choice.2).map fun path => (choice.1, path) with
  | none => (0, tmpCopy, run)
  | some (fd, path) =>
      let files := run.files.create fd path
      if answers.written ≠ run.dynfile.size.toInt64 then
        (0, path, { run with files := (files.close fd).unlink answers.unlinks path })
      else (fd, path, { run with files := files })

/-- `fuzz_redirectToCopy`. -/
def redirectToCopy (answers : Answers) (run : RunState) (template : PathBuffer) : RunState :=
  match makeWorkingCopy answers run template with
  | (tmpFd, tmpl, run) =>
      if tmpFd ≤ 0 then run
      else
        let edit : InPlaceEdit := {
          inplaceOrigFd := run.dynfile.fd
          inplaceOrigPath := snprintf run.dynfile.path.val
          inplaceTmpPath := snprintf tmpl.val }
        { run with
          inPlaceEdits := edit
          dynfile := { run.dynfile with
            path := snprintf edit.inplaceTmpPath.val
            fd := tmpFd } }

def copyTemplate (run : RunState) (sessionPath : Option PathBuffer) : PathBuffer :=
  let tmpDir := sessionPath.elim (utf8 "/tmp".toList) Subtype.val
  snprintf (tmpDir ++ utf8 "/hfuzz_inplace_".toList ++ sixDigits run.fuzzNo ++
    utf8 "_".toList ++ sixDigits run.dynfile.driverId ++ utf8 "_XXXXXX".toList)

/-- `fuzz_inPlaceEditBefore`. -/
def inPlaceEditBefore (iteration : Iteration) (run : RunState) : RunState :=
  if !iteration.inPlaceEdit then run
  else if run.dynfile.data.isNone || run.dynfile.size == 0 then run
  else redirectToCopy iteration.answers run (copyTemplate run iteration.sessionPath)

/-- The states in which an iteration begins and ends. -/
structure Settled (fd : Int) (run : RunState) : Prop where
  positive : 0 < fd
  descriptor : run.dynfile.fd = fd
  idle : run.inPlaceEdits.inplaceTmpPath.val = []
  opened : fd ∈ run.files.openFds
  kept : fd ∉ run.files.closed
  removed : run.files.unlinked = run.files.created

end GraphDissect.Drivers
