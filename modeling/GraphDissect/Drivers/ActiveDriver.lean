import GraphDissect.Library.MapM
import GraphDissect.Drivers.Profile

/-!
# The active-driver file

honggfuzz decodes what MFuzz encoded exactly for the profiles that fit its
buffers: one read of `dv_buffer`, the argument array, `name` and `output`, and
C strings throughout.
-/

namespace GraphDissect.Drivers

open Library

variable {libs : JsonLibs} {d : Driver}

/-- The profile that honggfuzz loaded is the driver that MFuzz activated. -/
structure Driver.Agrees (d : Driver) (p : DriverProf) : Prop where
  id : p.id = d.id
  name : p.name = d.name
  argv : p.argv = d.argv
  output : p.output = d.output
  phase : p.currentPhase = d.phase
  inPlaceEdit : p.inPlaceEdit ≠ 0 ↔ d.inPlaceEdit ≠ 0

/-- The driver fits the buffers of `drive_loadDriver` and of `driver_prof_t`. -/
structure Driver.Fits (libs : JsonLibs) (d : Driver) (phase : Int32) : Prop where
  text : (d.activeText libs phase).length ≤ 1023
  argc : d.argv.length ≤ 31
  argv : ∀ arg ∈ d.argv, 0 ∉ arg
  name : d.name.length ≤ 255 ∧ 0 ∉ d.name
  output : d.output.length ≤ 31 ∧ 0 ∉ d.output

section Decode

theorem clampInt32_toInt (i : Int32) : Json.clampInt32 i.toInt = i := by
  have hlow := i.le_toInt
  have hhigh := i.toInt_lt
  have hclamp : max Json.int32Min (min i.toInt Json.int32Max) = i.toInt := by
    simp only [Json.int32Min, Json.int32Max]
    omega
  rw [Json.clampInt32, hclamp, Int32.ofInt_toInt]

theorem driveParseArgs_toJson (d : Driver) :
    driveParseArgs d.toJson = some ((d.argv.take 31).map cstr) := by
  have hargs : d.toJson.find "args" = some (.arr (d.argv.map .str)) := rfl
  rw [driveParseArgs, hargs]
  dsimp only
  rw [← List.map_take]
  exact mapM_map_eq_some fun _ _ => rfl

def Driver.decoded (libs : JsonLibs) (d : Driver) : DriverProf :=
  let name := strncpy 255 d.name
  { id := d.id
    name
    driver := driverPath name d.driver
    seedDir := driverPath name d.seedDir
    priority := libs.getFloat ((Json.ofFloat d.priority).cDouble libs)
    argv := (d.argv.take 31).map cstr
    output := strncpy 31 d.output
    currentPhase := d.phase
    inPlaceEdit := if d.inPlaceEdit ≠ 0 then 1 else 0 }

/-- The object of `toJson` holds every field that `drive_parseDriverProfile`
reads. -/
theorem find_toJson (d : Driver) :
    d.toJson.find "id" = some (.int d.id.toInt) ∧
      d.toJson.find "name" = some (.str d.name) ∧
      d.toJson.find "driver" = some (.str d.driver) ∧
      d.toJson.find "args" = some (.arr (d.argv.map .str)) ∧
      d.toJson.find "seed_dir" = some (.str d.seedDir) ∧
      d.toJson.find "priority" = some (.ofFloat d.priority) ∧
      d.toJson.find "output" = some (.str d.output) ∧
      d.toJson.find "phase" = some (.int d.phase.toInt) := by
  simp only [Driver.toJson]
  split <;> refine ⟨rfl, rfl, rfl, rfl, rfl, rfl, rfl, rfl⟩

theorem driveInPlaceEdit_toJson (d : Driver) :
    driveInPlaceEdit libs d.toJson = if d.inPlaceEdit ≠ 0 then 1 else 0 := by
  have hfind : d.toJson.find "in_place_editing" =
      if d.inPlaceEdit ≠ 0 then some (.int d.inPlaceEdit.toInt) else none := by
    simp only [Driver.toJson]
    split <;> rfl
  rw [driveInPlaceEdit, hfind]
  by_cases hzero : d.inPlaceEdit = 0
  · simp [hzero]
  · simp [hzero, Json.cInt, clampInt32_toInt]

theorem driveParseDriverProfile_dump (hlibs : libs.Inverse d.toJson) :
    driveParseDriverProfile libs (libs.dump d.toJson) = some (d.decoded libs) := by
  have hparse : libs.tokenerParse (cstr (libs.dump d.toJson)) = some d.toJson := by
    rw [cstr_eq_self_iff.mpr hlibs.nul_notMem_dump, hlibs.parse_dump]
  obtain ⟨hid, hname, hdriver, hargs, hseed, hpriority, houtput, hphase⟩ := find_toJson d
  have hbind : ∀ {α β : Type} (a : α) (f : α → Option β), (some a >>= f) = f a := fun _ _ => rfl
  rw [driveParseDriverProfile, hparse, hbind, hid, hbind, hname, hbind, hdriver, hbind, hargs,
    hbind, hseed, hbind, hpriority, hbind, houtput, hbind, hphase, hbind]
  simp only [Json.cString, Json.cInt, clampInt32_toInt, driveInPlaceEdit_toJson]
  rw [hbind, hbind, hbind, hbind, driveParseArgs_toJson, hbind]
  rfl

/-- A text longer than the buffer is cut inside the object, and json-c
rejects it. -/
theorem driveReadProfile_dump (hlibs : libs.Inverse d.toJson) :
    driveReadProfile libs (libs.dump d.toJson) =
      if (libs.dump d.toJson).length ≤ 1023 then some (d.decoded libs) else none := by
  rw [driveReadProfile, driveReadFile, if_neg hlibs.dump_ne_nil, Option.bind_some]
  split
  · next hfits =>
    have htake : (libs.dump d.toJson).take (bufferSize - 1) = libs.dump d.toJson :=
      List.take_of_length_le hfits
    rw [htake]
    exact driveParseDriverProfile_dump hlibs
  · next hlong =>
    have hcut : (libs.dump d.toJson).take (bufferSize - 1) ≠ libs.dump d.toJson := by
      intro heq
      have := congrArg List.length heq
      rw [List.length_take] at this
      simp only [bufferSize] at this
      omega
    have hnul : 0 ∉ (libs.dump d.toJson).take (bufferSize - 1) :=
      fun h => hlibs.nul_notMem_dump (List.mem_of_mem_take h)
    rw [driveParseDriverProfile, cstr_eq_self_iff.mpr hnul,
      hlibs.parse_truncated _ (List.take_prefix _ _) hcut]
    rfl

end Decode

theorem Driver.agrees_decoded_iff :
    d.Agrees (d.decoded libs) ↔
      (d.argv.length ≤ 31 ∧ ∀ arg ∈ d.argv, 0 ∉ arg) ∧
        (d.name.length ≤ 255 ∧ 0 ∉ d.name) ∧ (d.output.length ≤ 31 ∧ 0 ∉ d.output) := by
  constructor
  · intro h
    exact ⟨take_map_cstr_eq_self_iff.mp h.argv, strncpy_eq_self_iff.mp h.name,
      strncpy_eq_self_iff.mp h.output⟩
  · rintro ⟨hargv, hname, houtput⟩
    exact {
      id := rfl
      name := strncpy_eq_self_iff.mpr hname
      argv := take_map_cstr_eq_self_iff.mpr hargv
      output := strncpy_eq_self_iff.mpr houtput
      phase := rfl
      inPlaceEdit := by
        dsimp only [Driver.decoded]
        split <;> simp_all }

/-- Every profile that MFuzz loads survives the active-driver file exactly when
it fits honggfuzz's buffers. -/
theorem driveReadProfile_agrees_iff {root : Json} {phase : Int32}
    (_hload : Driver.load libs root = some d)
    (hlibs : libs.Inverse (d.setPhase phase).toJson) :
    (∃ p, driveReadProfile libs (d.activeText libs phase) = some p ∧
      (d.setPhase phase).Agrees p) ↔ d.Fits libs phase := by
  rw [Driver.activeText, driveReadProfile_dump hlibs]
  constructor
  · rintro ⟨p, hp, hagrees⟩
    split at hp
    · next hfits =>
      obtain rfl := Option.some.inj hp
      obtain ⟨hargv, hname, houtput⟩ := Driver.agrees_decoded_iff.mp hagrees
      exact ⟨hfits, hargv.1, hargv.2, hname, houtput⟩
    · cases hp
  · intro h
    refine ⟨_, if_pos h.text, ?_⟩
    exact Driver.agrees_decoded_iff.mpr ⟨⟨h.argc, h.argv⟩, h.name, h.output⟩

/-- Libraries that print `j` as `text` and read nothing else. -/
def JsonLibs.ofText (j : Json) (text : Bytes) : JsonLibs where
  dump _ := text
  tokenerParse t := if t = text then some j else none
  toJsonString _ := []
  parseInt64 _ := none
  parseDouble _ := none
  getFloat := some

theorem JsonLibs.ofText_inverse {j : Json} {text : Bytes} (hne : text ≠ []) (hnul : 0 ∉ text) :
    (JsonLibs.ofText j text).Inverse j where
  parse_dump := if_pos rfl
  parse_truncated := fun _ _ hcut => if_neg hcut
  dump_ne_nil := hne
  nul_notMem_dump := hnul

/-- A driver of `xmllint` that writes its result to a file. -/
def htmlDriver (output : String) : Driver where
  id := 1
  name := utf8 "html".toList
  driver := utf8 "xmllint".toList
  seedDir := utf8 "seeds".toList
  output := utf8 output.toList
  priority := some 1
  description := []
  argv := [utf8 "--html".toList]
  phase := 0
  inPlaceEdit := 0

/-- The profile of `htmlDriver` on disk. -/
def htmlProfile (output : String) : Json :=
  .obj [("args", .arr [.str (utf8 "--html".toList)]),
    ("description", .str []),
    ("driver", .str (utf8 "xmllint".toList)),
    ("id", .int 1),
    ("name", .str (utf8 "html".toList)),
    ("output", .str (utf8 output.toList)),
    ("priority", .real 1),
    ("seed_dir", .str (utf8 "seeds".toList))]

/-- What `dump(4)` prints in the pilot phase for driver 1 with one argument and
priority 1, where no string needs an escape. -/
def pilotText (arg driver name output : String) : Bytes :=
  utf8 ("\x7b\n    \"args\": [\n        \"".toList ++ arg.toList ++
    "\"\n    ],\n    \"description\": \"\",\n    \"driver\": \"".toList ++ driver.toList ++
    "\",\n    \"id\": 1,\n    \"name\": \"".toList ++ name.toList ++
    "\",\n    \"output\": \"".toList ++ output.toList ++
    "\",\n    \"phase\": 0,\n    \"priority\": 1.0,\n    \"seed_dir\": \"seeds\"\n\x7d".toList)

def htmlLibs (output : String) : JsonLibs :=
  .ofText (htmlDriver output).toJson (pilotText "--html" "xmllint" "html" output)

theorem htmlLibs_load (output : String) :
    Driver.load (htmlLibs output) (htmlProfile output) = some (htmlDriver output) :=
  rfl

theorem driveReadProfile_agrees_short :
    ∃ p, driveReadProfile (htmlLibs "-o out.html")
        ((htmlDriver "-o out.html").activeText (htmlLibs "-o out.html") 0) = some p ∧
      ((htmlDriver "-o out.html").setPhase 0).Agrees p :=
  (driveReadProfile_agrees_iff (htmlLibs_load "-o out.html")
    (JsonLibs.ofText_inverse (by decide +kernel) (mt zero_mem_utf8_iff.mp (by decide +kernel)))).mpr {
      text := by decide +kernel
      argc := by decide
      argv := by decide +kernel
      name := by decide +kernel
      output := by decide +kernel }

/-- An output of more than 31 bytes is cut without a message. -/
theorem driveReadProfile_cuts_output :
    ¬ ∀ (libs : JsonLibs) (root : Json) (d : Driver) (phase : Int32),
      Driver.load libs root = some d → libs.Inverse (d.setPhase phase).toJson →
      ∃ p, driveReadProfile libs (d.activeText libs phase) = some p ∧
        (d.setPhase phase).Agrees p := by
  intro h
  let output := "--output fuzz/out/html/result-of-the-run.html"
  have hinverse : (htmlLibs output).Inverse ((htmlDriver output).setPhase 0).toJson :=
    JsonLibs.ofText_inverse (by decide +kernel) (mt zero_mem_utf8_iff.mp (by decide +kernel))
  obtain ⟨p, hp, hagrees⟩ :=
    h (htmlLibs output) (htmlProfile output) (htmlDriver output) 0 (htmlLibs_load output) hinverse
  have hread : driveReadProfile (htmlLibs output) ((htmlDriver output).activeText (htmlLibs output) 0) =
      some (((htmlDriver output).setPhase 0).decoded (htmlLibs output)) :=
    (driveReadProfile_dump hinverse).trans (if_pos (by decide +kernel))
  rw [hread] at hp
  obtain rfl := Option.some.inj hp
  have hlen := (Driver.agrees_decoded_iff.mp hagrees).2.2.1
  revert hlen
  decide +kernel

end GraphDissect.Drivers
