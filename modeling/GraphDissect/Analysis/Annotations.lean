import GraphDissect.Library.MapM
import GraphDissect.Analysis.RegionFunctions
import GraphDissect.Library.Runs
import Mathlib

/-!
# The annotation sheet of a region study

`_load_or_init_annotations` builds a fresh sheet of the displayed regions, joins
the previous sheet into it from the left and writes the result over the
previous one.  A row of the previous sheet survives exactly when the join finds
it: when its region is displayed and its benchmark and executable are the ones
of the study.
-/

namespace GraphDissect.Analysis

open Library Drivergen

-- The equality tests of all the definitions below share this proof.
local instance pyStr_lawfulBEq : LawfulBEq PyStr := inferInstance

section Sheets

def benchCol : PyStr := "bench".toList

def exeCol : PyStr := "exe".toList

def regionIdCol : PyStr := "region_id".toList

def idCols : List PyStr := [benchCol, exeCol, regionIdCol]

def isSelectedGapCol : PyStr := "is_selected_gap".toList

def regionCoverageCol : PyStr := "region_coverage".toList

def coverageClassCol : PyStr := "coverage_class".toList

def autoCols : List PyStr := [isSelectedGapCol, regionCoverageCol, coverageClassCol]

def candidateUncoveredCol : PyStr := "candidate_uncovered_functions".toList

def candidateCoveredCol : PyStr := "candidate_covered_functions".toList

def defaultEditableCols : List PyStr :=
  [candidateUncoveredCol, candidateCoveredCol, "semantic_label".toList,
    "component_group".toList, "why_hard".toList, "manual_notes".toList]

def baseCols : List PyStr := idCols ++ autoCols ++ defaultEditableCols

/-- A row of a sheet on disk.  `regionId` is the integer that `to_numeric` and
`astype(int)` make of the cell of the region id, if it is a number; `cells` are
the texts of the columns that are not identifiers. -/
structure SheetRow where
  bench : PyStr
  exe : PyStr
  regionId : Option Int
  cells : PyStr → PyStr

/-- A sheet on disk, as `read_csv` sees its header and its texts. -/
structure Sheet where
  columns : List PyStr
  rows : List SheetRow
  distinct : columns.Nodup

/-- The columns that a user may edit or has added. -/
def Sheet.manualCols (sheet : Sheet) : List PyStr :=
  sheet.columns.filter (· ∉ idCols ++ autoCols)

def Sheet.column (sheet : Sheet) (c : PyStr) : List PyStr := sheet.rows.map (·.cells c)

/-- The rows with a region id, which are all that `dropna` leaves. -/
def Sheet.keyed (sheet : Sheet) : List SheetRow :=
  if regionIdCol ∈ sheet.columns then sheet.rows.filter (·.regionId.isSome) else []

/-- `if c not in columns: columns.append(c)`. -/
def addColumn (columns : List PyStr) (c : PyStr) : List PyStr :=
  if c ∈ columns then columns else columns ++ [c]

def addColumns (columns added : List PyStr) : List PyStr := added.foldl addColumn columns

theorem mem_addColumns {columns added : List PyStr} {c : PyStr} :
    c ∈ addColumns columns added ↔ c ∈ columns ∨ c ∈ added := by
  induction added generalizing columns with
  | nil => simp [addColumns]
  | cons first rest inductionHypothesis =>
      have remaining := @inductionHypothesis (addColumn columns first)
      rw [addColumns, List.foldl_cons, ← addColumns, remaining, addColumn]
      by_cases present : first ∈ columns
      · rw [if_pos present, List.mem_cons]
        constructor
        · rintro (old | later)
          · exact Or.inl old
          · exact Or.inr (Or.inr later)
        · rintro (old | rfl | later)
          · exact Or.inl old
          · exact Or.inl present
          · exact Or.inr later
      · rw [if_neg present, List.mem_append, List.mem_singleton, List.mem_cons, or_assoc]

theorem nodup_addColumns {columns : List PyStr} (added : List PyStr) (distinct : columns.Nodup) :
    (addColumns columns added).Nodup := by
  induction added generalizing columns with
  | nil => exact distinct
  | cons first rest inductionHypothesis =>
      rw [addColumns, List.foldl_cons, ← addColumns]
      apply inductionHypothesis
      unfold addColumn
      split
      · exact distinct
      · rename_i absent
        exact List.nodup_append_comm.mp (List.nodup_cons.mpr ⟨absent, distinct⟩)

theorem baseCols_nodup : baseCols.Nodup := by decide

end Sheets

section Base

structure RegionInfo where
  regionCoverage : ℚ

def coverageClass (rc : ℚ) : PyStr :=
  if rc = 0 then "uncovered".toList
  else if rc ≤ 1 / 5 then "severely_underexplored".toList
  else if rc ≤ 1 / 2 then "weakly_explored".toList
  else "well_explored".toList

/-- `round(x, 4)`, which takes a tie to the even neighbour. -/
def round4 (x : ℚ) : ℚ :=
  let below := ⌊x * 10000⌋
  let rest := x * 10000 - below
  (if rest < 1 / 2 ∨ (rest = 1 / 2 ∧ below % 2 = 0) then below else below + 1) / 10000

/-- The representative functions of a region; `rep_map` has empty lists for a
region that it leaves out. -/
structure Representatives where
  uncovered : List PyStr
  covered : List PyStr

/-- The benchmark and the executable of a study. -/
structure Study where
  bench : PyStr
  exe : PyStr

/-- The arguments of a call of `_load_or_init_annotations`. -/
structure AnnotationCall where
  regionIds : List Int
  regionInfo : Int → Option RegionInfo
  selectedGapIds : List Int
  repMap : Int → Representatives

/-- A row of the fresh base. -/
structure BaseRow where
  regionId : Int
  isSelectedGap : Bool
  regionCoverage : ℚ
  coverageClass : PyStr
  candidateUncovered : PyStr
  candidateCovered : PyStr

def joinNames (names : List PyStr) : PyStr := List.intercalate "; ".toList names

/-- The row of a region; `none` is the `KeyError` of `region_info[rid]`. -/
def AnnotationCall.baseRow (call : AnnotationCall) (rid : Int) : Option BaseRow :=
  (call.regionInfo rid).map fun info =>
    { regionId := rid
      isSelectedGap := decide (rid ∈ call.selectedGapIds)
      regionCoverage := round4 info.regionCoverage
      coverageClass := Analysis.coverageClass info.regionCoverage
      candidateUncovered := joinNames (call.repMap rid).uncovered
      candidateCovered := joinNames (call.repMap rid).covered }

/-- `sorted({int(r) for r in region_ids})`. -/
def AnnotationCall.displayed (call : AnnotationCall) : List Int :=
  call.regionIds.dedup.insertionSort (· ≤ ·)

def AnnotationCall.base (call : AnnotationCall) : Option (List BaseRow) :=
  call.displayed.mapM call.baseRow

/-- The text of an editable column of the base, before the template is joined in. -/
def BaseRow.editable (row : BaseRow) (c : PyStr) : PyStr :=
  if c = candidateUncoveredCol then row.candidateUncovered
  else if c = candidateCoveredCol then row.candidateCovered
  else []

/-- The order of `sort_values`: selected gaps first, then by coverage and by id. -/
def BaseRow.le (first second : BaseRow) : Bool :=
  if first.isSelectedGap ≠ second.isSelectedGap then first.isSelectedGap
  else if first.regionCoverage ≠ second.regionCoverage then
    first.regionCoverage < second.regionCoverage
  else first.regionId ≤ second.regionId

theorem baseRow_regionId {call : AnnotationCall} {rid : Int} {row : BaseRow}
    (built : call.baseRow rid = some row) : row.regionId = rid := by
  rcases Option.map_eq_some_iff.mp built with ⟨info, _, rfl⟩
  rfl

/-- The base has a row for exactly the displayed regions. -/
theorem base_regionIds {call : AnnotationCall} {base : List BaseRow}
    (built : call.base = some base) : base.map BaseRow.regionId = call.displayed :=
  map_of_mapM (fun _ _ => baseRow_regionId) built

end Base

section Regeneration

/-- What `pandas` decides about texts and types. -/
structure Pandas where
  /-- whether `read_csv` takes a text for a missing value -/
  missing : PyStr → Bool
  /-- whether `merge` accepts the types of the key columns -/
  accepts : Sheet → List BaseRow → Bool
  /-- the text that a cell of a template column has after the join, whose type
  depends on the whole column and on whether every row of the base is matched -/
  reread : List PyStr → Bool → PyStr → PyStr
  /-- the text of a float in a CSV file -/
  floatText : ℚ → PyStr

/-- The exceptions that a call can raise before it writes the sheet. -/
inductive AnnotationError where
  | missingRegion
  | missingColumn
  | reservedColumn
  | suffixClash
  | mergeRefused
  deriving DecidableEq

def templateCol (c : PyStr) : PyStr := c ++ "_tmpl".toList

/-- The columns that `merge` keeps for its indicator. -/
def indicatorCols : List PyStr :=
  ["_left_indicator".toList, "_right_indicator".toList, "_merge".toList]

variable (pandas : Pandas) (study : Study)

/-- A key column as the join sees it: the study's own name where an older
template lacks the column, and otherwise the text unless it is missing. -/
def readName (prev : Sheet) (c own text : PyStr) : Option PyStr :=
  if c ∈ prev.columns then (if pandas.missing text then none else some text) else some own

/-- Whether the join matches a row of the template with the row of a region. -/
def matchesRegion (prev : Sheet) (rid : Int) (row : SheetRow) : Bool :=
  readName pandas prev benchCol study.bench row.bench = some study.bench ∧
    readName pandas prev exeCol study.exe row.exe = some study.exe ∧
      row.regionId = some rid

/-- The row that the join takes for a region: the last one with its key. -/
def template (prev : Sheet) (rid : Int) : Option SheetRow :=
  prev.keyed.reverse.find? (matchesRegion pandas study prev rid)

def editableCols (prev : Sheet) : List PyStr :=
  addColumns [] (defaultEditableCols ++ prev.manualCols)

/-- The exception that the join with a template ends in, if any. -/
def joinError (prev : Sheet) (base : List BaseRow) : Option AnnotationError :=
  if ∃ c ∈ defaultEditableCols, c ∉ prev.columns then some .missingColumn
  else if ∃ c ∈ indicatorCols, c ∈ prev.manualCols then some .reservedColumn
  else if !pandas.accepts prev base then some .mergeRefused
  else if ∃ c ∈ editableCols prev, templateCol c ∈ editableCols prev then some .suffixClash
  else none

/-- An editable cell after the join: the template's where there is one, verbatim
up to what `pandas` makes of its text, and the base's elsewhere. -/
def joinedCell (prev : Sheet) (displayed : List Int) (row : BaseRow) (c : PyStr) : PyStr :=
  match template pandas study prev row.regionId with
  | some old =>
      pandas.reread (prev.column c)
        (displayed.all fun rid => (template pandas study prev rid).isSome) (old.cells c)
  | none => row.editable c

/-- A row as `to_csv` writes it. -/
def writtenRow (editable : BaseRow → PyStr → PyStr) (row : BaseRow) : SheetRow :=
  { bench := study.bench
    exe := study.exe
    regionId := some row.regionId
    cells := fun c =>
      if c = isSelectedGapCol then (if row.isSelectedGap then "1" else "0").toList
      else if c = regionCoverageCol then pandas.floatText row.regionCoverage
      else if c = coverageClassCol then row.coverageClass
      else editable row c }

/-- The sheet that `to_csv` writes. -/
def writtenSheet (added : List PyStr) (base : List BaseRow)
    (editable : BaseRow → PyStr → PyStr) : Sheet :=
  { columns := addColumns baseCols added
    rows := (base.insertionSort fun first second => first.le second).map
      (writtenRow pandas study editable)
    distinct := nodup_addColumns added baseCols_nodup }

/-- `_load_or_init_annotations` for the sheet on disk, if there is one. -/
def loadOrInitAnnotations (onDisk : Option Sheet) (call : AnnotationCall) :
    Except AnnotationError Sheet :=
  match call.base with
  | none => .error .missingRegion
  | some base =>
      match onDisk with
      | none => .ok (writtenSheet pandas study [] base BaseRow.editable)
      | some prev =>
          if regionIdCol ∈ prev.columns then
            match joinError pandas prev base with
            | some error => .error error
            | none =>
                .ok (writtenSheet pandas study (editableCols prev) base
                  (joinedCell pandas study prev call.displayed))
          else .ok (writtenSheet pandas study [] base BaseRow.editable)

/-- The sheet on disk after a call, which an exception leaves as it was. -/
def sheetAfter (sheet : Sheet) (call : AnnotationCall) : Sheet :=
  match loadOrInitAnnotations pandas study (some sheet) call with
  | .ok written => written
  | .error _ => sheet

/-- A call as a step of the sheet on disk. -/
def annotationStep (sheet : Sheet) (call : AnnotationCall) : Option Sheet :=
  some (sheetAfter pandas study sheet call)

end Regeneration

section Survival

/-- The key of a row, whose names are the study's own where a template lacks
their columns. -/
structure SheetKey where
  bench : PyStr
  exe : PyStr
  regionId : Int
  deriving DecidableEq

def Sheet.key (study : Study) (sheet : Sheet) (row : SheetRow) : Option SheetKey :=
  if regionIdCol ∈ sheet.columns then
    row.regionId.map fun rid =>
      { bench := if benchCol ∈ sheet.columns then row.bench else study.bench
        exe := if exeCol ∈ sheet.columns then row.exe else study.exe
        regionId := rid }
  else none

/-- Every row with a key still has, under its key, its text in every editable
and every added column. -/
def Survives (study : Study) (before after : Sheet) : Prop :=
  ∀ row ∈ before.rows, ∀ key, before.key study row = some key →
    ∃ later ∈ after.rows, after.key study later = some key ∧
      ∀ c ∈ before.manualCols, c ∈ after.columns ∧ later.cells c = row.cells c

theorem survives_refl (study : Study) (sheet : Sheet) : Survives study sheet sheet := by
  intro row member key keyed
  exact ⟨row, member, keyed, fun c manual => ⟨(List.mem_filter.mp manual).1, rfl⟩⟩

theorem Survives.trans {study : Study} {first second third : Sheet}
    (early : Survives study first second) (late : Survives study second third) :
    Survives study first third := by
  intro row member key keyed
  rcases early row member key keyed with ⟨middle, middleMember, middleKeyed, middleCells⟩
  rcases late middle middleMember key middleKeyed with ⟨final, finalMember, finalKeyed, finalCells⟩
  refine ⟨final, finalMember, finalKeyed, ?_⟩
  intro c manual
  have stillManual : c ∈ second.manualCols :=
    List.mem_filter.mpr ⟨(middleCells c manual).1, (List.mem_filter.mp manual).2⟩
  exact ⟨(finalCells c stillManual).1,
    (finalCells c stillManual).2.trans (middleCells c manual).2⟩

variable {pandas : Pandas} {study : Study} {sheet : Sheet} {call : AnnotationCall}

def Refuses (pandas : Pandas) (sheet : Sheet) (call : AnnotationCall) : Prop :=
  ∀ base, call.base = some base →
    regionIdCol ∈ sheet.columns ∧ (joinError pandas sheet base).isSome

/-- Every row with a region id belongs to the study, its region is displayed, and
the last row of its key has texts that `pandas` turns into its own. -/
def Retained (pandas : Pandas) (study : Study) (sheet : Sheet) (call : AnnotationCall) : Prop :=
  ∀ row ∈ sheet.keyed,
    readName pandas sheet benchCol study.bench row.bench = some study.bench ∧
    readName pandas sheet exeCol study.exe row.exe = some study.exe ∧
    ∃ rid ∈ call.displayed, row.regionId = some rid ∧
      ∃ last ∈ template pandas study sheet rid, ∀ c ∈ sheet.manualCols,
        pandas.reread (sheet.column c)
          (call.displayed.all fun other => (template pandas study sheet other).isSome)
          (last.cells c) = row.cells c

def KeepsAnnotations (pandas : Pandas) (study : Study) (sheet : Sheet) (call : AnnotationCall) :
    Prop :=
  Refuses pandas sheet call ∨ Retained pandas study sheet call

theorem sheetAfter_of_refuses (refuses : Refuses pandas sheet call) :
    sheetAfter pandas study sheet call = sheet := by
  unfold sheetAfter loadOrInitAnnotations
  cases built : call.base with
  | none => rfl
  | some base =>
      rcases refuses base built with ⟨hasId, fails⟩
      rcases Option.isSome_iff_exists.mp fails with ⟨error, failed⟩
      simp only [if_pos hasId, failed]

theorem sheetAfter_of_accepts (hasId : regionIdCol ∈ sheet.columns)
    (accepts : ¬Refuses pandas sheet call) :
    ∃ base, call.base = some base ∧
      sheetAfter pandas study sheet call =
        writtenSheet pandas study (editableCols sheet) base
          (joinedCell pandas study sheet call.displayed) := by
  unfold Refuses at accepts
  push Not at accepts
  rcases accepts with ⟨base, built, passes⟩
  have joined : joinError pandas sheet base = none := by
    simpa using passes hasId
  refine ⟨base, built, ?_⟩
  simp only [sheetAfter, loadOrInitAnnotations, built, if_pos hasId, joined]

theorem mem_keyed {row : SheetRow} :
    row ∈ sheet.keyed ↔ regionIdCol ∈ sheet.columns ∧ row ∈ sheet.rows ∧ row.regionId.isSome := by
  unfold Sheet.keyed
  split
  · rename_i hasId
    simp only [List.mem_filter, hasId, true_and]
  · rename_i lacksId
    simp only [List.not_mem_nil, lacksId, false_and]

theorem key_eq_some {row : SheetRow} {key : SheetKey} (keyed : sheet.key study row = some key) :
    regionIdCol ∈ sheet.columns ∧ row.regionId = some key.regionId ∧
      key.bench = (if benchCol ∈ sheet.columns then row.bench else study.bench) ∧
      key.exe = (if exeCol ∈ sheet.columns then row.exe else study.exe) := by
  unfold Sheet.key at keyed
  split at keyed
  · rename_i hasId
    rcases Option.map_eq_some_iff.mp keyed with ⟨rid, number, rfl⟩
    exact ⟨hasId, number, rfl, rfl⟩
  · cases keyed

theorem mem_keyed_of_key {row : SheetRow} {key : SheetKey} (member : row ∈ sheet.rows)
    (keyed : sheet.key study row = some key) : row ∈ sheet.keyed := by
  rcases key_eq_some keyed with ⟨hasId, number, _, _⟩
  exact mem_keyed.mpr ⟨hasId, member, Option.isSome_iff_exists.mpr ⟨key.regionId, number⟩⟩

theorem eq_of_readName {c own text : PyStr}
    (read : readName pandas sheet c own text = some own) :
    (if c ∈ sheet.columns then text else own) = own := by
  unfold readName at read
  split
  · rename_i present
    rw [if_pos present] at read
    split at read
    · cases read
    · exact Option.some.inj read
  · rfl

theorem readName_own {c own text : PyStr} (named : pandas.missing own = false)
    (same : (if c ∈ sheet.columns then text else own) = own) :
    readName pandas sheet c own text = some own := by
  unfold readName
  split
  · rename_i present
    rw [if_pos present] at same
    rw [same, named]
    rfl
  · rfl

theorem writtenSheet_columns {added : List PyStr} {base : List BaseRow}
    {editable : BaseRow → PyStr → PyStr} {c : PyStr} :
    c ∈ (writtenSheet pandas study added base editable).columns ↔ c ∈ baseCols ∨ c ∈ added :=
  mem_addColumns

theorem mem_writtenSheet {added : List PyStr} {base : List BaseRow}
    {editable : BaseRow → PyStr → PyStr} {written : SheetRow} :
    written ∈ (writtenSheet pandas study added base editable).rows ↔
      ∃ row ∈ base, writtenRow pandas study editable row = written := by
  simp only [writtenSheet, List.mem_map, List.mem_insertionSort]

theorem key_writtenRow {added : List PyStr} {base : List BaseRow}
    {editable : BaseRow → PyStr → PyStr} (row : BaseRow) :
    (writtenSheet pandas study added base editable).key study
        (writtenRow pandas study editable row) =
      some ⟨study.bench, study.exe, row.regionId⟩ := by
  have hasId : regionIdCol ∈ (writtenSheet pandas study added base editable).columns :=
    writtenSheet_columns.mpr (Or.inl (by decide))
  simp only [Sheet.key, if_pos hasId, writtenRow, Option.map_some, ite_self]

theorem joinedCell_of_template {displayed : List Int} {row : BaseRow} {last : SheetRow}
    (found : template pandas study sheet row.regionId = some last) (c : PyStr) :
    joinedCell pandas study sheet displayed row c =
      pandas.reread (sheet.column c)
        (displayed.all fun other => (template pandas study sheet other).isSome)
        (last.cells c) := by
  simp only [joinedCell, found]

theorem writtenRow_cells {editable : BaseRow → PyStr → PyStr} {row : BaseRow} {c : PyStr}
    (manual : c ∈ sheet.manualCols) :
    (writtenRow pandas study editable row).cells c = editable row c := by
  have notIdOrAuto := of_decide_eq_true (List.mem_filter.mp manual).2
  have notAuto : c ∉ autoCols := fun auto => notIdOrAuto (List.mem_append_right _ auto)
  simp only [autoCols, List.mem_cons, List.not_mem_nil, or_false, not_or] at notAuto
  simp only [writtenRow, if_neg notAuto.1, if_neg notAuto.2.1, if_neg notAuto.2.2]

theorem exists_baseRow {base : List BaseRow} (built : call.base = some base) {rid : Int}
    (displayed : rid ∈ call.displayed) : ∃ row ∈ base, row.regionId = rid := by
  rw [← base_regionIds built] at displayed
  exact List.mem_map.mp displayed

/-- A call that retains every row loses nothing. -/
theorem survives_of_retained (retained : Retained pandas study sheet call) :
    Survives study sheet (sheetAfter pandas study sheet call) := by
  by_cases refuses : Refuses pandas sheet call
  · rw [sheetAfter_of_refuses refuses]
    exact survives_refl study sheet
  intro row member key keyed
  rcases key_eq_some keyed with ⟨hasId, number, benchKey, exeKey⟩
  rcases retained row (mem_keyed_of_key member keyed) with
    ⟨ownBench, ownExe, rid, displayed, sameNumber, last, found, verbatim⟩
  rcases sheetAfter_of_accepts hasId refuses with ⟨base, built, after⟩
  rcases exists_baseRow built displayed with ⟨fresh, freshMember, rfl⟩
  have sameKey : key = ⟨study.bench, study.exe, fresh.regionId⟩ := by
    rw [eq_of_readName ownBench] at benchKey
    rw [eq_of_readName ownExe] at exeKey
    have sameId := Option.some.inj (number.symm.trans sameNumber)
    rw [← benchKey, ← exeKey, ← sameId]
  rw [after, sameKey]
  refine ⟨_, mem_writtenSheet.mpr ⟨fresh, freshMember, rfl⟩, key_writtenRow fresh, ?_⟩
  intro c manual
  constructor
  · refine writtenSheet_columns.mpr (Or.inr (mem_addColumns.mpr (Or.inr ?_)))
    exact List.mem_append_right _ manual
  · rw [writtenRow_cells manual, joinedCell_of_template found]
    exact verbatim c manual

theorem survives_of_keeps (keeps : KeepsAnnotations pandas study sheet call) :
    Survives study sheet (sheetAfter pandas study sheet call) := by
  rcases keeps with refuses | retained
  · rw [sheetAfter_of_refuses refuses]
    exact survives_refl study sheet
  · exact survives_of_retained retained

/-- A call loses nothing if and only if it ends in an exception or retains every
row, for a study whose names are not read as missing. -/
theorem survives_iff (benchNamed : pandas.missing study.bench = false)
    (exeNamed : pandas.missing study.exe = false) :
    Survives study sheet (sheetAfter pandas study sheet call) ↔
      KeepsAnnotations pandas study sheet call := by
  constructor
  · intro survives
    by_cases refuses : Refuses pandas sheet call
    · exact Or.inl refuses
    refine Or.inr ?_
    intro row keyedMember
    rcases mem_keyed.mp keyedMember with ⟨hasId, member, numbered⟩
    rcases Option.isSome_iff_exists.mp numbered with ⟨rid, number⟩
    rcases sheetAfter_of_accepts hasId refuses with ⟨base, built, after⟩
    rw [after] at survives
    have keyed : sheet.key study row = some
        { bench := if benchCol ∈ sheet.columns then row.bench else study.bench
          exe := if exeCol ∈ sheet.columns then row.exe else study.exe
          regionId := rid } := by
      simp only [Sheet.key, if_pos hasId, number, Option.map_some]
    rcases survives row member _ keyed with ⟨later, laterMember, laterKeyed, cells⟩
    rcases mem_writtenSheet.mp laterMember with ⟨fresh, freshMember, rfl⟩
    rw [key_writtenRow] at laterKeyed
    simp only [Option.some.injEq, SheetKey.mk.injEq] at laterKeyed
    rcases laterKeyed with ⟨sameBench, sameExe, rfl⟩
    have ownBench := readName_own benchNamed sameBench.symm
    have ownExe := readName_own exeNamed sameExe.symm
    refine ⟨ownBench, ownExe, fresh.regionId, ?_, number, ?_⟩
    · rw [← base_regionIds built]
      exact List.mem_map_of_mem freshMember
    · have found : (template pandas study sheet fresh.regionId).isSome := by
        rw [template, List.find?_isSome]
        refine ⟨row, List.mem_reverse.mpr keyedMember, ?_⟩
        simp only [matchesRegion, ownBench, ownExe, number, true_and, decide_true]
      rcases Option.isSome_iff_exists.mp found with ⟨last, lastFound⟩
      refine ⟨last, lastFound, ?_⟩
      intro c manual
      rw [← (cells c manual).2, writtenRow_cells manual, joinedCell_of_template lastFound]
  · exact survives_of_keeps

theorem survives_of_along {final : Sheet} {calls : List AnnotationCall}
    (along : Along (annotationStep pandas study) (KeepsAnnotations pandas study) sheet calls)
    (reached : runFrom (annotationStep pandas study) sheet calls = some final) :
    Survives study sheet final := by
  refine along.invariant ?_ (survives_refl study sheet) reached
  intro state call next soFar keeps taken
  cases taken
  exact soFar.trans (survives_of_keeps keeps)

/-- A run of calls that all end in an exception or retain every row loses no
annotation, and a call that does neither loses one when `pandas` does not read
the names of the study as missing values. -/
theorem annotations_survive (pandas : Pandas) (study : Study) :
    (∀ (sheet final : Sheet) (calls : List AnnotationCall),
      Along (annotationStep pandas study) (KeepsAnnotations pandas study) sheet calls →
      runFrom (annotationStep pandas study) sheet calls = some final →
        Survives study sheet final) ∧
    (pandas.missing study.bench = false → pandas.missing study.exe = false →
      ∀ (sheet : Sheet) (call : AnnotationCall),
        Survives study sheet (sheetAfter pandas study sheet call) ↔
          KeepsAnnotations pandas study sheet call) := by
  constructor
  · intro sheet final calls along reached
    exact survives_of_along along reached
  · intro benchNamed exeNamed sheet call
    exact survives_iff benchNamed exeNamed

/-- `pandas` on columns of plain texts. -/
def textPandas : Pandas where
  missing text := text = []
  accepts _ _ := true
  reread _ _ text := text
  floatText x := if x = 1 / 2 then "0.5".toList else "0.25".toList

def luaStudy : Study := ⟨"lua".toList, "lua".toList⟩

/-- A sheet with a note on the only region. -/
def notedSheet : Sheet where
  columns := baseCols
  rows := [{
    bench := luaStudy.bench
    exe := luaStudy.exe
    regionId := some 1
    cells := fun c => if c = "manual_notes".toList then "needs a script".toList else [] }]
  distinct := baseCols_nodup

def displayCall (regionIds : List Int) : AnnotationCall where
  regionIds := regionIds
  regionInfo rid := some ⟨if rid = 1 then 1 / 2 else 1 / 4⟩
  selectedGapIds := [2]
  repMap _ := ⟨["lua_load".toList], []⟩

theorem annotations_survive_redisplay :
    Survives luaStudy notedSheet
      (sheetAfter textPandas luaStudy
        (sheetAfter textPandas luaStudy notedSheet (displayCall [1, 2])) (displayCall [2, 1])) := by
  have first : KeepsAnnotations textPandas luaStudy notedSheet (displayCall [1, 2]) := by
    refine Or.inr ?_
    unfold Retained
    decide +kernel
  have second : KeepsAnnotations textPandas luaStudy
      (sheetAfter textPandas luaStudy notedSheet (displayCall [1, 2])) (displayCall [2, 1]) := by
    refine Or.inr ?_
    unfold Retained
    decide +kernel
  refine (annotations_survive textPandas luaStudy).1 notedSheet _
    [displayCall [1, 2], displayCall [2, 1]] ?_ rfl
  refine ⟨first, ?_⟩
  rintro _ ⟨rfl⟩
  exact ⟨second, fun _ _ => trivial⟩

/-- A region that is not displayed loses its note. -/
theorem annotation_lost :
    ¬Survives luaStudy notedSheet
      (sheetAfter textPandas luaStudy notedSheet (displayCall [2])) := by
  intro survives
  rcases survives _ List.mem_cons_self ⟨luaStudy.bench, luaStudy.exe, 1⟩ (by decide) with
    ⟨later, member, keyed, _⟩
  revert later
  decide +kernel

end Survival

end GraphDissect.Analysis
