import GraphDissect.Drivers.Switching
import GraphDissect.Library.Numerals
import GraphDissect.Library.Text

/-!
# Runtime statistics

honggfuzz writes the statistics of a driver as one line of four records;
`Driver::loadRuntimeStat` expects every record on a line of its own.
-/

namespace GraphDissect.Drivers

open Library

/-- The runtime fields of `class Driver`. -/
structure RuntimeStat where
  edges : UInt32
  edgesDelta : UInt32
  crashes : UInt32
  crashesDelta : UInt32
  execs : UInt64
  timeElapsed : Int64
  deriving DecidableEq

namespace RuntimeStat

def fresh : RuntimeStat where
  edges := 0
  edgesDelta := 0
  crashes := 0
  crashesDelta := 0
  execs := 0
  timeElapsed := 0

/-- One key and its value, with what follows `(+`; `none` is an exception of
`stoul`. -/
def setValue (stat : RuntimeStat) (key : List Char) (value : UInt64) (delta : Option (List Char)) :
    Option RuntimeStat :=
  if key = "edges".toList then
    match delta with
    | some text => (stoull 10 text).map fun delta =>
        { stat with edges := value.toUInt32, edgesDelta := delta.toUInt32 }
    | none => some { stat with edges := value.toUInt32 }
  else if key = "crashes".toList then
    match delta with
    | some text => (stoull 10 text).map fun delta =>
        { stat with crashes := value.toUInt32, crashesDelta := delta.toUInt32 }
    | none => some { stat with crashes := value.toUInt32 }
  else if key = "time".toList then some { stat with timeElapsed := value.toInt64 }
  else if key = "exes".toList then some { stat with execs := value }
  else some stat

/-- The body of the loop of `Driver::loadRuntimeStat`. -/
def loadLine (stat : RuntimeStat) (line : List Char) : Option RuntimeStat :=
  match breakOn [':'] line with
  | none => some stat
  | some (key, valuePart) =>
      if valuePart = [] then some stat
      else
        match breakOn ['(', '+'] valuePart with
        | some (valStr, delta) =>
            (stoull 10 valStr).bind fun value => stat.setValue key value (some delta)
        | none => (stoull 10 valuePart).bind fun value => stat.setValue key value none

/-- `Driver::loadRuntimeStat` on a file that can be opened. -/
def loadRuntimeStat (stat : RuntimeStat) (file : List Char) : Option RuntimeStat :=
  (getlines '\n' file).foldlM loadLine stat

end RuntimeStat

/-- `%u`. -/
def decimal (value : UInt32) : List Char := Nat.toDigits 10 value.toNat

namespace FuzzDriver

/-- What `driver_updateDrvStat` prints. -/
def statText (driver : FuzzDriver) : List Char :=
  "edges:".toList ++ decimal driver.totalEdges ++ "(+".toList ++ decimal driver.deltaEdges ++
    "), crashes:".toList ++ decimal driver.totalCrashes ++ "(+".toList ++
    decimal driver.deltaCrashes ++ "), time:".toList ++ decimal driver.totalTime ++
    ", exes:".toList ++ decimal driver.totalExes ++ "\n".toList

def runtimeStat (driver : FuzzDriver) : RuntimeStat where
  edges := driver.totalEdges
  edgesDelta := driver.deltaEdges
  crashes := driver.totalCrashes
  crashesDelta := driver.deltaCrashes
  execs := driver.totalExes.toUInt64
  timeElapsed := driver.totalTime.toUInt64.toInt64

end FuzzDriver

theorem notMem_decimal {c : Char} (other : digitVal c = none) (value : UInt32) : c ∉ decimal value := by
  intro member
  rcases mem_toDigits (by decide) member with ⟨d, small, rfl⟩
  rw [digitVal_digitChar d (by omega)] at other
  cases other

theorem stoull_decimal_of_stop (value : UInt32) {after : List Char}
    (stop : ∀ c ∈ after.head?, digitVal c = none) :
    stoull 10 (decimal value ++ after) = some value.toUInt64 := by
  have small := value.toNat_lt
  rw [decimal, stoull_decimal_append (by omega) stop]
  congr 1
  simp

def FuzzDriver.laterRecords (driver : FuzzDriver) : List Char :=
  ", crashes:".toList ++ decimal driver.totalCrashes ++ "(+".toList ++
    decimal driver.deltaCrashes ++ "), time:".toList ++ decimal driver.totalTime ++
    ", exes:".toList ++ decimal driver.totalExes

/-- The record of the edges without its key, and all that follows. -/
def FuzzDriver.edgesPart (driver : FuzzDriver) : List Char :=
  decimal driver.totalEdges ++ '(' :: '+' ::
    (decimal driver.deltaEdges ++ ')' :: driver.laterRecords)

theorem getlines_statText (driver : FuzzDriver) :
    getlines '\n' driver.statText = ["edges".toList ++ ':' :: driver.edgesPart] := by
  have newline : ∀ value, '\n' ∉ decimal value := notMem_decimal (by decide)
  have text : driver.statText = unlines ["edges".toList ++ ':' :: driver.edgesPart] := by
    unfold unlines FuzzDriver.statText FuzzDriver.edgesPart FuzzDriver.laterRecords
    simp
  have plain : ∀ line ∈ ["edges".toList ++ ':' :: driver.edgesPart], '\n' ∉ line := by
    intro line member
    rw [List.mem_singleton.mp member]
    unfold FuzzDriver.edgesPart FuzzDriver.laterRecords
    simp [newline]
  rw [text, getlines_unlines plain]

/-- The reader takes the first record and nothing else. -/
theorem loadRuntimeStat_statText (stat : RuntimeStat) (driver : FuzzDriver) :
    stat.loadRuntimeStat driver.statText =
      some { stat with edges := driver.totalEdges, edgesDelta := driver.deltaEdges } := by
  have colon := @breakOn_skip_append _ _ [] "edges".toList driver.edgesPart ':' (by decide)
  have bracket := @breakOn_skip_append _ _ ['+'] (decimal driver.totalEdges)
    (decimal driver.deltaEdges ++ ')' :: driver.laterRecords) '(' (notMem_decimal (by decide) _)
  have total := @stoull_decimal_of_stop driver.totalEdges [] (by simp)
  have delta := @stoull_decimal_of_stop driver.deltaEdges (')' :: driver.laterRecords)
    (by rintro c ⟨⟩; decide)
  rw [List.append_nil] at total
  rw [List.nil_append] at colon
  rw [List.singleton_append] at bracket
  have nonempty : driver.edgesPart ≠ [] := by simp [FuzzDriver.edgesPart]
  have line : stat.loadLine ("edges".toList ++ ':' :: driver.edgesPart) =
      some { stat with edges := driver.totalEdges, edgesDelta := driver.deltaEdges } := by
    unfold RuntimeStat.loadLine
    rw [colon]
    dsimp only
    rw [if_neg nonempty, FuzzDriver.edgesPart, bracket]
    dsimp only
    rw [total, Option.bind_some, RuntimeStat.setValue, if_pos rfl, delta, Option.map_some,
      UInt32.toUInt32_toUInt64, UInt32.toUInt32_toUInt64]
  rw [RuntimeStat.loadRuntimeStat, getlines_statText, List.foldlM_cons, line]
  rfl

/-- The statistics come back exactly when the driver held the last four values
already. -/
theorem loadRuntimeStat_eq_iff (stat : RuntimeStat) (driver : FuzzDriver) :
    stat.loadRuntimeStat driver.statText = some driver.runtimeStat ↔
      stat.crashes = driver.totalCrashes ∧ stat.crashesDelta = driver.deltaCrashes ∧
        stat.execs = driver.totalExes.toUInt64 ∧
        stat.timeElapsed = driver.totalTime.toUInt64.toInt64 := by
  rw [loadRuntimeStat_statText, Option.some.injEq]
  simp [FuzzDriver.runtimeStat]

def crashedDriver : FuzzDriver :=
  { FuzzDriver.ofProf (DriverTable.xmllintProf 1 1) with
    totalEdges := 5
    deltaEdges := 5
    totalCrashes := 1
    deltaCrashes := 1
    totalTime := 60
    totalExes := 1 }

example : crashedDriver.statText =
    "edges:5(+5), crashes:1(+1), time:60, exes:1\n".toList := by decide +kernel

theorem crashedDriver_forgotten :
    ¬ ∀ (stat : RuntimeStat) (driver : FuzzDriver),
      stat.loadRuntimeStat driver.statText = some driver.runtimeStat := by
  intro roundTrip
  have read : RuntimeStat.fresh.loadRuntimeStat crashedDriver.statText =
      some { RuntimeStat.fresh with edges := 5, edgesDelta := 5 } := by decide +kernel
  have crashes := congrArg RuntimeStat.crashes
    (Option.some.inj (read.symm.trans (roundTrip .fresh crashedDriver)))
  exact absurd crashes (by decide)

end GraphDissect.Drivers
