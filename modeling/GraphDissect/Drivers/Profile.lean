import GraphDissect.Library.CString

/-!
# Driver profiles

A driver profile is a JSON object on disk.  MFuzz loads it (`Driver::load`),
writes it into the active-driver file (`Driver::toJson`) and honggfuzz reads it
back (`drive_loadDriver`, `drive_parseDriverProfile`).  The two JSON libraries
and the rounding to `float` are parameters.
-/

namespace GraphDissect.Drivers

open Library

/-- A JSON value; strings are UTF-8 bytes. -/
inductive Json where
  | null
  | bool (b : Bool)
  | int (i : Int)
  | real (x : Rat)
  | str (s : Bytes)
  | arr (elems : List Json)
  | obj (fields : List (String × Json))

/-- The functions of nlohmann/json and json-c that the two programs call.
`getFloat` is `none` when the number is no finite `float`. -/
structure JsonLibs where
  dump : Json → Bytes
  tokenerParse : Bytes → Option Json
  toJsonString : Json → Bytes
  parseInt64 : Bytes → Option Int
  parseDouble : Bytes → Option Rat
  getFloat : Rat → Option Rat

/-- json-c inverts nlohmann/json on `j`, and the text of `j` is closed only by
its last byte. -/
structure JsonLibs.Inverse (libs : JsonLibs) (j : Json) : Prop where
  parse_dump : libs.tokenerParse (libs.dump j) = some j
  parse_truncated : ∀ text, text <+: libs.dump j → text ≠ libs.dump j →
    libs.tokenerParse text = none
  dump_ne_nil : libs.dump j ≠ []
  nul_notMem_dump : 0 ∉ libs.dump j

namespace Json

/-- `json_object_object_get_ex`, and `find` of nlohmann/json. -/
def find (key : String) : Json → Option Json
  | .obj fields => fields.lookup key
  | _ => none

/-- `root[key]`: a missing key reads as `null`. -/
def index (root : Json) (key : String) : Json := (root.find key).getD .null

def truncate (x : Rat) : Int := if 0 ≤ x then x.floor else x.ceil

def int32Min : Int := -2147483648

def int32Max : Int := 2147483647

/-- `get<int>()`.  Integers wrap; a real out of range takes the value that the
conversion instruction of the processor gives. -/
def getInt : Json → Option Int32
  | .int i => some (Int32.ofInt i)
  | .bool b => some (if b then 1 else 0)
  | .real x =>
    if int32Min ≤ truncate x ∧ truncate x ≤ int32Max then some (Int32.ofInt (truncate x))
    else some (Int32.ofInt int32Min)
  | _ => none

def getString : Json → Option Bytes
  | .str s => some s
  | _ => none

def getFloat (libs : JsonLibs) : Json → Option (Option Rat)
  | .int i => some (libs.getFloat i)
  | .bool b => some (some (if b then 1 else 0))
  | .real x => some (libs.getFloat x)
  | _ => none

/-- A `float` as a JSON value: what is not finite is dumped as `null`. -/
def ofFloat : Option Rat → Json
  | some x => .real x
  | none => .null

def clampInt32 (i : Int) : Int32 := Int32.ofInt (max int32Min (min i int32Max))

/-- `json_object_get_int`. -/
def cInt (libs : JsonLibs) : Json → Int32
  | .int i => clampInt32 i
  | .real x => clampInt32 (truncate x)
  | .bool b => if b then 1 else 0
  | .str s => ((libs.parseInt64 (cstr s)).map clampInt32).getD 0
  | _ => 0

/-- `json_object_get_double`. -/
def cDouble (libs : JsonLibs) : Json → Rat
  | .int i => i
  | .real x => x
  | .bool b => if b then 1 else 0
  | .str s => (libs.parseDouble (cstr s)).getD 0
  | _ => 0

/-- `json_object_get_string`, `none` for the null pointer. -/
def cString (libs : JsonLibs) : Json → Option Bytes
  | .null => none
  | .str s => some s
  | j => some (libs.toJsonString j)

end Json

/-- The fields of `class Driver` that are read from its profile. -/
structure Driver where
  id : Int32
  name : Bytes
  driver : Bytes
  seedDir : Bytes
  output : Bytes
  priority : Option Rat
  description : Bytes
  argv : List Bytes
  phase : Int32
  inPlaceEdit : Int32

namespace Driver

/-- `Driver::parseArgs`: what is no string is skipped. -/
def parseArgs : Json → Option (List Bytes)
  | .arr jargs => some (jargs.filterMap Json.getString)
  | _ => none

/-- `Driver::load`; an exception or `false` is `none`. -/
def load (libs : JsonLibs) (root : Json) : Option Driver := do
  let id ← (root.index "id").getInt
  let name ← (root.index "name").getString
  let driver ← (root.index "driver").getString
  let seedDir ← (root.index "seed_dir").getString
  let output ← (root.index "output").getString
  let priority ← (root.index "priority").getFloat libs
  let description ← (root.index "description").getString
  let argv ← parseArgs (root.index "args")
  let inPlaceEdit ←
    match root.find "in_place_editing" with
    | some j => j.getInt
    | none => some 0
  return { id, name, driver, seedDir, output, priority, description, argv, inPlaceEdit, phase := 0 }

def setPhase (d : Driver) (phase : Int32) : Driver := { d with phase }

/-- The object built by `Driver::toJson`; `std::map` keeps its keys sorted. -/
def toJson (d : Driver) : Json :=
  let before : List (String × Json) :=
    [("args", .arr (d.argv.map .str)),
      ("description", .str d.description),
      ("driver", .str d.driver),
      ("id", .int d.id.toInt)]
  let edit : List (String × Json) :=
    if d.inPlaceEdit ≠ 0 then [("in_place_editing", .int d.inPlaceEdit.toInt)] else []
  let after : List (String × Json) :=
    [("name", .str d.name),
      ("output", .str d.output),
      ("phase", .int d.phase.toInt),
      ("priority", .ofFloat d.priority),
      ("seed_dir", .str d.seedDir)]
  .obj (before ++ edit ++ after)

/-- What `DriverMng::setActiveDriver` writes for a driver and a phase. -/
def activeText (libs : JsonLibs) (d : Driver) (phase : Int32) : Bytes :=
  libs.dump (d.setPhase phase).toJson

end Driver

/-- `driver_prof_t`; `argc` is the length of `argv`. -/
structure DriverProf where
  id : Int32
  name : Bytes
  driver : Bytes
  seedDir : Bytes
  priority : Option Rat
  argv : List Bytes
  output : Bytes
  currentPhase : Int32
  inPlaceEdit : Int32

def maxArgc : Nat := 32

def maxPath : Nat := 256

/-- `sizeof(dv_buffer)` in `drive_loadDriver`. -/
def bufferSize : Nat := 1024

/-- `drive_parseArgs`.  `LOG_F` ends the process, also where its message says
that an argument is skipped. -/
def driveParseArgs (root : Json) : Option (List Bytes) :=
  match root.find "args" with
  | some (.arr args) =>
    (args.take (maxArgc - 1)).mapM fun
      | .str s => some (cstr s)
      | _ => none
  | _ => none

/-- `snprintf(…, "drivers/%s/%s", name, file)`. -/
def driverPath (name file : Bytes) : Bytes :=
  (utf8 "drivers/".toList ++ name ++ utf8 "/".toList ++ cstr file).take (maxPath - 1)

def driveInPlaceEdit (libs : JsonLibs) (root : Json) : Int32 :=
  match root.find "in_place_editing" with
  | some j => if j.cInt libs = 0 then 0 else 1
  | none => 0

/-- `drive_parseDriverProfile` on a zeroed profile; `output` is declared as
`char output[MAX_ARGC]`. -/
def driveParseDriverProfile (libs : JsonLibs) (jsonStr : Bytes) : Option DriverProf := do
  let root ← libs.tokenerParse (cstr jsonStr)
  let id ← root.find "id"
  let name ← root.find "name"
  let driver ← root.find "driver"
  let _ ← root.find "args"
  let seedDir ← root.find "seed_dir"
  let priority ← root.find "priority"
  let output ← root.find "output"
  let phase ← root.find "phase"
  let name ← name.cString libs
  let driver ← driver.cString libs
  let seedDir ← seedDir.cString libs
  let output ← output.cString libs
  let argv ← driveParseArgs root
  return {
    id := id.cInt libs
    name := strncpy (maxPath - 1) name
    driver := driverPath (strncpy (maxPath - 1) name) driver
    seedDir := driverPath (strncpy (maxPath - 1) name) seedDir
    priority := libs.getFloat (priority.cDouble libs)
    argv
    output := strncpy (maxArgc - 1) output
    currentPhase := phase.cInt libs
    inPlaceEdit := driveInPlaceEdit libs root }

/-- The `read` of `drive_loadDriver`: one call into the buffer, and the process
ends when the file stays empty. -/
def driveReadFile (file : Bytes) : Option Bytes :=
  if file = [] then none else some (file.take (bufferSize - 1))

/-- `drive_loadDriver` up to the checks of the driver's id. -/
def driveReadProfile (libs : JsonLibs) (file : Bytes) : Option DriverProf :=
  (driveReadFile file).bind (driveParseDriverProfile libs)

end GraphDissect.Drivers
