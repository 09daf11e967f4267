import GraphDissect.Library.Attempt
import GraphDissect.Library.Blocks
import GraphDissect.Library.CString

/-!
# The working copy of an input

The mapped file that `mangle.c` edits, the random numbers it draws and its
primitives: `input_setSize`, the lengths and offsets of `mangle_getLen`, and the
moves, overwrites and insertions that every mutator is made of.  The bytes are
the bytes of the file: `ftruncate` cuts and zero-fills them, and a load or store
outside of them ends the process, as `LOG_F` does.
-/

namespace GraphDissect.Fuzzing

open Library

structure RndState where
  s0 : UInt64
  s1 : UInt64
  s2 : UInt64
  s3 : UInt64
deriving DecidableEq

def rotL (x k : UInt64) : UInt64 := (x <<< k) ||| (x >>> (64 - k))

/-- `util_InternalRnd64`: xoroshiro256++. -/
def internalRnd64 (state : RndState) : UInt64 × RndState :=
  let result := rotL (state.s0 + state.s3) 23 + state.s0
  let t := state.s1 <<< 17
  let s2 := state.s2 ^^^ state.s0
  let s3 := state.s3 ^^^ state.s1
  let s1 := state.s1 ^^^ s2
  let s0 := state.s0 ^^^ s3
  (result, { s0, s1, s2 := s2 ^^^ t, s3 := rotL s3 45 })

/-- The part of `run_t` that a mutation works on; `asked` counts the looks at
data that other threads share. -/
structure MangleState where
  data : Bytes
  rnd : RndState
  asked : Nat
deriving DecidableEq

/-- How the process ends early. -/
inductive Fault where
  | logFatal
  | outOfBounds
deriving DecidableEq

abbrev Mangler (Value : Type) : Type := Attempt MangleState Fault Value

def hfInputMaxSize : Nat := 1024 * 1024 * 10

/-- The subtraction of `size_t`. -/
def sizeSub (a b : Nat) : Nat := if b ≤ a then a - b else a + 2 ^ 64 - b

@[simp]
theorem sizeSub_of_le {a b : Nat} (le : b ≤ a) : sizeSub a b = a - b := if_pos le

namespace MangleState

def withData (s : MangleState) (data : Bytes) : MangleState := { s with data }

def withRnd (s : MangleState) (rnd : RndState) : MangleState := { s with rnd }

@[simp]
theorem withData_data (s : MangleState) (data : Bytes) : (s.withData data).data = data := rfl

@[simp]
theorem withRnd_data (s : MangleState) (rnd : RndState) : (s.withRnd rnd).data = s.data := rfl

end MangleState

/-! ## Random numbers -/

def rnd64 : Mangler UInt64 := do
  let s ← Attempt.read
  Attempt.modify (·.withRnd (internalRnd64 s.rnd).2)
  pure (internalRnd64 s.rnd).1

def rndGet (min max : Nat) : Mangler Nat :=
  if max < min then Attempt.raise .logFatal
  else if max = 2 ^ 64 - 1 then do pure (← rnd64).toNat
  else do pure ((← rnd64).toNat % (max - min + 1) + min)

def rndPrintable : Mangler UInt8 := do pure (UInt8.ofNat (← rndGet 32 126))

/-- The coin of `util_rnd64() & 1`. -/
def rndBit : Mangler Bool := do pure ((← rnd64) &&& 1 ≠ 0)

/-- `util_rnd64() % 16`. -/
def rndMod16 : Mangler Nat := do pure ((← rnd64).toNat % 16)

/-- `util_rndBufPrintable`. -/
def rndBufPrintable : Nat → Mangler Bytes
  | 0 => pure []
  | count + 1 => do
      let byte ← rndPrintable
      let rest ← rndBufPrintable count
      pure (byte :: rest)

/-- `util_rndBuf`. -/
def rndBuf : Nat → Mangler Bytes
  | 0 => pure []
  | count + 1 => do
      let value ← rnd64
      let rest ← rndBuf count
      pure ((value >>> 40).toUInt8 :: rest)

/-- `util_turnToPrintable`. -/
def turnToPrintable (buf : Bytes) : Bytes := buf.map fun byte => byte % 95 + 32

/-! ## The file -/

def load (offset : Nat) : Mangler UInt8 := do
  let s ← Attempt.read
  match s.data[offset]? with
  | some byte => pure byte
  | none => Attempt.raise .outOfBounds

def loadRange (offset len : Nat) : Mangler Bytes := do
  let s ← Attempt.read
  if offset + len ≤ s.data.length then pure ((s.data.drop offset).take len)
  else Attempt.raise .outOfBounds

def storeRange (offset : Nat) (bytes : Bytes) : Mangler Unit := do
  let s ← Attempt.read
  if offset + bytes.length ≤ s.data.length then
    Attempt.modify (·.withData (overwriteAt s.data offset bytes))
  else Attempt.raise .outOfBounds

def store (offset : Nat) (byte : UInt8) : Mangler Unit := storeRange offset [byte]

/-- `memset`. -/
def fill (offset : Nat) (byte : UInt8) (len : Nat) : Mangler Unit :=
  storeRange offset (List.replicate len byte)

/-- What `ftruncate` leaves of a file. -/
def truncate (data : Bytes) (size : Nat) : Bytes :=
  data.take size ++ List.replicate (size - data.length) 0

def size : Mangler Nat := do pure (← Attempt.read).data.length

/-- `input_setSize`. -/
def setSize (maxInputSz sz : Nat) : Mangler Unit := do
  let s ← Attempt.read
  if s.data.length = sz then pure ()
  else if maxInputSz < sz then Attempt.raise .logFatal
  else Attempt.modify (·.withData (truncate s.data sz))

/-! ## Lengths and offsets -/

/-- `mangle_LenLeft`. -/
def lenLeft (off : Nat) : Mangler Nat := do
  let size ← size
  if size ≤ off then Attempt.raise .logFatal else pure (sizeSub (sizeSub size off) 1)

/-- `mangle_getLen`: small lengths are preferred. -/
def getLen (max : Nat) : Mangler Nat :=
  if hfInputMaxSize < max then Attempt.raise .logFatal
  else if max = 0 then Attempt.raise .logFatal
  else if max = 1 then pure 1
  else do
    if ← rndBit then rndGet 1 max
    else
      let bound ← rndGet 1 max
      rndGet 1 bound

/-- `mangle_getOffSet`. -/
def getOffSet : Mangler Nat := do
  let len ← getLen (← size)
  pure (sizeSub len 1)

/-- `mangle_getOffSetPlus1`. -/
def getOffSetPlus1 : Mangler Nat := do
  let size ← size
  let len ← getLen (min (size + 1) hfInputMaxSize)
  pure (sizeSub len 1)

/-! ## Moves, overwrites and insertions -/

/-- `mangle_Move`. -/
def move (offFrom offTo len : Nat) : Mangler Unit := do
  let size ← size
  if size ≤ offFrom then pure ()
  else if size ≤ offTo then pure ()
  else if offFrom = offTo then pure ()
  else
    let len := min len (size - offFrom)
    let len := min len (size - offTo)
    storeRange offTo (← loadRange offFrom len)

/-- `mangle_Overwrite`; the source is an object of its own. -/
def overwrite (off : Nat) (src : Bytes) (len : Nat) (printable : Bool) : Mangler Unit := do
  if len = 0 then pure ()
  else
    let size ← size
    let len := min len (sizeSub size off)
    if src.length < len then Attempt.raise .outOfBounds
    else
      storeRange off (src.take len)
      if printable then
        let written ← loadRange off len
        storeRange off (turnToPrintable written)

/-- `mangle_Inflate`. -/
def inflate (maxInputSz off len : Nat) (printable : Bool) : Mangler Nat := do
  let size ← size
  if maxInputSz ≤ size then pure 0
  else
    let len := min len (maxInputSz - size)
    setSize maxInputSz (size + len)
    move off (off + len) (size + len)
    if printable then fill off 32 len
    pure len

/-- `mangle_Insert`. -/
def insert (maxInputSz off : Nat) (val : Bytes) (len : Nat) (printable : Bool) : Mangler Unit := do
  let len ← inflate maxInputSz off len printable
  overwrite off val len printable

/-- `mangle_UseValue`. -/
def useValue (maxInputSz : Nat) (val : Bytes) (len : Nat) (printable : Bool) : Mangler Unit := do
  if ← rndBit then
    let off ← getOffSet
    overwrite off val len printable
  else
    let off ← getOffSetPlus1
    insert maxInputSz off val len printable

/-- `mangle_UseValueAt`. -/
def useValueAt (maxInputSz off : Nat) (val : Bytes) (len : Nat) (printable : Bool) :
    Mangler Unit := do
  if ← rndBit then overwrite off val len printable
  else insert maxInputSz off val len printable

/-! ## What the primitives do -/

/-- The size that a mutator expects and leaves. -/
def Sized (maxInputSz : Nat) (data : Bytes) : Prop := 1 ≤ data.length ∧ data.length ≤ maxInputSz

def Printable (data : Bytes) : Prop := ∀ byte ∈ data, 32 ≤ byte.toNat ∧ byte.toNat ≤ 126

section Rules

variable {s : MangleState} {maxInputSz : Nat}

theorem returns_rnd64 {holds : UInt64 → MangleState → Prop}
    (next : ∀ value rnd, holds value (s.withRnd rnd)) : Attempt.Returns rnd64 holds s :=
  next _ _

theorem returns_rndBit {holds : Bool → MangleState → Prop}
    (next : ∀ value rnd, holds value (s.withRnd rnd)) : Attempt.Returns rndBit holds s :=
  next _ _

theorem returns_rndMod16 {holds : Nat → MangleState → Prop}
    (next : ∀ value rnd, holds value (s.withRnd rnd)) : Attempt.Returns rndMod16 holds s :=
  next _ _

theorem returns_rndGet {min max : Nat} {holds : Nat → MangleState → Prop} (le : min ≤ max)
    (small : max < 2 ^ 64 - 1)
    (next : ∀ value rnd, min ≤ value → value ≤ max → holds value (s.withRnd rnd)) :
    Attempt.Returns (rndGet min max) holds s := by
  rw [rndGet, if_neg (Nat.not_lt.mpr le), if_neg (Nat.ne_of_lt small)]
  refine Attempt.returns_bind.mpr (returns_rnd64 fun value rnd => ?_)
  have bounded := Nat.mod_lt value.toNat (show 0 < max - min + 1 by omega)
  exact next _ rnd (by omega) (by omega)

theorem returns_rndPrintable {holds : UInt8 → MangleState → Prop}
    (next : ∀ (value : UInt8) rnd, 32 ≤ value.toNat → value.toNat ≤ 126 →
      holds value (s.withRnd rnd)) : Attempt.Returns rndPrintable holds s := by
  refine Attempt.returns_bind.mpr (returns_rndGet (by decide) (by decide) ?_)
  intro value rnd low high
  have exact : (UInt8.ofNat value).toNat = value := UInt8.toNat_ofNat_of_lt' (show value < 256 by omega)
  exact next _ rnd (by omega) (by omega)

theorem returns_rndBufPrintable {count : Nat} {holds : Bytes → MangleState → Prop}
    (next : ∀ block rnd, block.length = count → Printable block → holds block (s.withRnd rnd)) :
    Attempt.Returns (rndBufPrintable count) holds s := by
  induction count generalizing s holds with
  | zero => exact next [] s.rnd rfl (List.forall_mem_nil _)
  | succ count inductionHypothesis =>
      refine Attempt.returns_bind.mpr (returns_rndPrintable fun byte _ low high => ?_)
      refine Attempt.returns_bind.mpr (inductionHypothesis fun rest rnd length printable => ?_)
      exact next (byte :: rest) rnd (congrArg (· + 1) length)
        (List.forall_mem_cons.mpr ⟨⟨low, high⟩, printable⟩)

theorem returns_rndBuf {count : Nat} {holds : Bytes → MangleState → Prop}
    (next : ∀ block rnd, block.length = count → holds block (s.withRnd rnd)) :
    Attempt.Returns (rndBuf count) holds s := by
  induction count generalizing s holds with
  | zero => exact next [] s.rnd rfl
  | succ count inductionHypothesis =>
      refine Attempt.returns_bind.mpr (returns_rnd64 fun value _ => ?_)
      refine Attempt.returns_bind.mpr (inductionHypothesis fun rest rnd length => ?_)
      exact next (_ :: rest) rnd (congrArg (· + 1) length)

theorem printable_turnToPrintable (buf : Bytes) : Printable (turnToPrintable buf) := by
  intro byte member
  obtain ⟨old, _, rfl⟩ := List.mem_map.mp member
  have bounded := Nat.mod_lt old.toNat (show 0 < 95 by decide)
  have value : (old % 95 + 32).toNat = old.toNat % 95 + 32 := by
    rw [UInt8.toNat_add, UInt8.toNat_mod]
    exact Nat.mod_eq_of_lt (show old.toNat % 95 + 32 < 256 by omega)
  omega

theorem printable_replicate {byte : UInt8} (low : 32 ≤ byte.toNat) (high : byte.toNat ≤ 126)
    (count : Nat) : Printable (List.replicate count byte) := by
  intro other member
  rw [List.eq_of_mem_replicate member]
  exact ⟨low, high⟩

theorem returns_size {holds : Nat → MangleState → Prop} :
    Attempt.Returns size holds s ↔ holds s.data.length s := Iff.rfl

theorem returns_load {off : Nat} {holds : UInt8 → MangleState → Prop} (inside : off < s.data.length)
    (next : ∀ byte, s.data[off]? = some byte → holds byte s) :
    Attempt.Returns (load off) holds s := by
  have present := List.getElem?_eq_getElem inside
  refine Attempt.returns_bind.mpr (Attempt.returns_read.mpr ?_)
  rw [present]
  exact next _ present

theorem returns_loadRange {off len : Nat} {holds : Bytes → MangleState → Prop}
    (inside : off + len ≤ s.data.length) (next : holds ((s.data.drop off).take len) s) :
    Attempt.Returns (loadRange off len) holds s := by
  refine Attempt.returns_bind.mpr (Attempt.returns_read.mpr ?_)
  rw [if_pos inside]
  exact next

theorem returns_storeRange {off : Nat} {block : Bytes} {holds : Unit → MangleState → Prop}
    (inside : off + block.length ≤ s.data.length)
    (next : holds () (s.withData (overwriteAt s.data off block))) :
    Attempt.Returns (storeRange off block) holds s := by
  refine Attempt.returns_bind.mpr (Attempt.returns_read.mpr ?_)
  rw [if_pos inside]
  exact next

theorem returns_setSize {sz : Nat} {holds : Unit → MangleState → Prop} (fits : sz ≤ maxInputSz)
    (next : holds () (s.withData (truncate s.data sz))) :
    Attempt.Returns (setSize maxInputSz sz) holds s := by
  refine Attempt.returns_bind.mpr (Attempt.returns_read.mpr ?_)
  split
  · next same =>
    have unchanged : truncate s.data sz = s.data := by
      rw [truncate, ← same, List.take_length, Nat.sub_self, List.replicate_zero, List.append_nil]
    rw [unchanged] at next
    exact next
  · rw [if_neg (Nat.not_lt.mpr fits)]
    exact next

theorem returns_getLen {max : Nat} {holds : Nat → MangleState → Prop} (positive : 1 ≤ max)
    (small : max ≤ hfInputMaxSize)
    (next : ∀ len rnd, 1 ≤ len → len ≤ max → holds len (s.withRnd rnd)) :
    Attempt.Returns (getLen max) holds s := by
  have word : max < 2 ^ 64 - 1 := Nat.lt_of_le_of_lt small (by decide)
  rw [getLen, if_neg (Nat.not_lt.mpr small), if_neg (Nat.ne_of_gt positive)]
  split
  · exact next 1 s.rnd (Nat.le_refl 1) positive
  · refine Attempt.returns_bind.mpr (returns_rndBit fun uniform rnd => ?_)
    split
    · exact returns_rndGet positive word fun len rnd low high => next len rnd low high
    · refine Attempt.returns_bind.mpr (returns_rndGet positive word fun bound _ low high => ?_)
      exact returns_rndGet low (by omega) fun len rnd below above =>
        next len rnd below (Nat.le_trans above high)

theorem returns_getOffSet {holds : Nat → MangleState → Prop} (sized : Sized maxInputSz s.data)
    (small : maxInputSz ≤ hfInputMaxSize)
    (next : ∀ off rnd, off < s.data.length → holds off (s.withRnd rnd)) :
    Attempt.Returns getOffSet holds s := by
  refine Attempt.returns_bind.mpr (returns_size.mpr ?_)
  refine Attempt.returns_bind.mpr (returns_getLen sized.1 (Nat.le_trans sized.2 small) ?_)
  intro len rnd low high
  rw [Attempt.returns_pure, sizeSub_of_le low]
  exact next (len - 1) rnd (by omega)

theorem returns_getOffSetPlus1 {holds : Nat → MangleState → Prop}
    (next : ∀ off rnd, off ≤ s.data.length → holds off (s.withRnd rnd)) :
    Attempt.Returns getOffSetPlus1 holds s := by
  refine Attempt.returns_bind.mpr (returns_size.mpr ?_)
  refine Attempt.returns_bind.mpr (returns_getLen ?_ (Nat.min_le_right _ _) ?_)
  · exact Nat.le_min.mpr ⟨Nat.le_add_left 1 _, by decide⟩
  · intro len rnd low high
    rw [Attempt.returns_pure, sizeSub_of_le low]
    exact next (len - 1) rnd (by omega)

theorem insertAt_gap {data zeros : Bytes} {off : Nat} (inside : off ≤ data.length) :
    insertAt data off (((data ++ zeros).drop off).take zeros.length) =
      overwriteAt (data ++ zeros) (off + zeros.length) (data.drop off) := by
  have behind : (data ++ zeros).drop (off + zeros.length + (data.drop off).length) = [] := by
    apply List.drop_of_length_le
    simp only [List.length_append, List.length_drop]
    omega
  have front : data.take off = (data ++ zeros).take off :=
    (List.take_append_of_le_length inside).symm
  rw [overwriteAt, behind, List.append_nil, insertAt, front, ← List.take_add]

/-- The end of a file that has grown moves over by a gap whose bytes are left
open. -/
theorem returns_move_insertAt {off : Nat} {zeros : Bytes} {holds : Unit → MangleState → Prop}
    {data : Bytes} (inside : off ≤ data.length)
    (next : ∀ gap : Bytes, gap.length = zeros.length → holds () (s.withData (insertAt data off gap))) :
    Attempt.Returns (move off (off + zeros.length) (data.length + zeros.length)) holds
      (s.withData (data ++ zeros)) := by
  have total : (data ++ zeros).length = data.length + zeros.length := List.length_append
  refine Attempt.returns_bind.mpr (returns_size.mpr ?_)
  have stays (gapless : off = data.length ∨ zeros.length = 0) :
      holds () (s.withData (data ++ zeros)) := by
    have closed := next zeros rfl
    rcases gapless with rfl | none
    · rwa [insertAt, List.take_length, List.drop_length, List.append_nil] at closed
    · rw [List.length_eq_zero_iff.mp none, insertAt_nil] at closed
      rwa [List.length_eq_zero_iff.mp none, List.append_nil]
  split
  · next outside =>
    rw [MangleState.withData_data, total] at outside
    exact stays (by omega)
  · split
    · next outside =>
      rw [MangleState.withData_data, total] at outside
      exact stays (by omega)
    · split
      · next same => exact stays (by omega)
      · next within target _ =>
        rw [MangleState.withData_data, total] at within target
        have len : min (min (data.length + zeros.length) ((data ++ zeros).length - off))
            ((data ++ zeros).length - (off + zeros.length)) = data.length - off := by omega
        have tail : ((data ++ zeros).drop off).take (data.length - off) = data.drop off := by
          rw [List.drop_append_of_le_length inside, List.take_append_of_le_length
            (Nat.le_of_eq List.length_drop.symm), List.take_of_length_le (by rw [List.length_drop])]
        have gapLength : (((data ++ zeros).drop off).take zeros.length).length = zeros.length := by
          rw [List.length_take, List.length_drop]
          omega
        refine Attempt.returns_bind.mpr (returns_loadRange ?_ ?_)
        · rw [MangleState.withData_data, len]
          omega
        · rw [MangleState.withData_data, len, tail]
          refine returns_storeRange ?_ ?_
          · rw [MangleState.withData_data, List.length_drop]
            omega
          · have moved := next _ gapLength
            rwa [insertAt_gap inside] at moved

theorem truncate_grown (data : Bytes) (len : Nat) :
    truncate data (data.length + len) = data ++ List.replicate len 0 := by
  rw [truncate, List.take_of_length_le (Nat.le_add_right _ _), Nat.add_sub_cancel_left]

/-- `mangle_Inflate` opens a gap as long as there is room for. -/
theorem returns_inflate {off len : Nat} {printable : Bool} {holds : Nat → MangleState → Prop}
    (inside : off ≤ s.data.length)
    (next : ∀ gap : Bytes, gap.length = min len (maxInputSz - s.data.length) →
      (printable = true → Printable gap) →
      holds gap.length (s.withData (insertAt s.data off gap))) :
    Attempt.Returns (inflate maxInputSz off len printable) holds s := by
  refine Attempt.returns_bind.mpr (returns_size.mpr ?_)
  split
  · next full =>
    have closed := next [] (by rw [Nat.sub_eq_zero_of_le full, Nat.min_zero, List.length_nil])
      (fun _ => List.forall_mem_nil _)
    rw [insertAt_nil] at closed
    exact closed
  · next room =>
    generalize grown : min len (maxInputSz - s.data.length) = count at next
    refine Attempt.returns_bind.mpr (returns_setSize (by omega) ?_)
    rw [truncate_grown]
    have gapLength : (List.replicate count (0 : UInt8)).length = count := List.length_replicate
    have moved := @returns_move_insertAt s off (List.replicate count 0) (fun _ later =>
      Attempt.Returns (do
        if printable then fill off 32 count
        pure count) holds later) s.data inside
    rw [gapLength] at moved
    refine Attempt.returns_bind.mpr (moved fun gap length => ?_)
    cases printable with
    | false =>
        have closed := next gap length (fun impossible => absurd impossible (by decide))
        rw [length] at closed
        exact closed
    | true =>
        have spaces : Printable (List.replicate count 32) :=
          printable_replicate (by decide) (by decide) count
        have sameLength : (List.replicate count (32 : UInt8)).length = gap.length := by
          rw [List.length_replicate, length]
        refine Attempt.returns_bind.mpr (returns_storeRange ?_ ?_)
        · rw [MangleState.withData_data, length_insertAt, sameLength]
          omega
        · have closed := next _ List.length_replicate (fun _ => spaces)
          rw [← overwriteAt_insertAt inside sameLength, List.length_replicate] at closed
          exact closed

/-- `mangle_Overwrite` replaces a block of the same length, cut at the end of
the file. -/
theorem returns_overwrite {off len : Nat} {src : Bytes} {printable : Bool}
    {holds : Unit → MangleState → Prop} (inside : off ≤ s.data.length) (enough : len ≤ src.length)
    (next : ∀ block : Bytes, block.length = min len (s.data.length - off) →
      (printable = true → Printable block) → holds () (s.withData (overwriteAt s.data off block))) :
    Attempt.Returns (overwrite off src len printable) holds s := by
  rw [overwrite]
  split
  · next empty =>
    have closed := next [] (by rw [empty, Nat.zero_min, List.length_nil])
      (fun _ => List.forall_mem_nil _)
    rw [overwriteAt_nil] at closed
    exact closed
  · refine Attempt.returns_bind.mpr (returns_size.mpr ?_)
    rw [sizeSub_of_le inside]
    generalize cut : min len (s.data.length - off) = count at next
    have blockLength : (src.take count).length = count := List.length_take_of_le (by omega)
    rw [if_neg (by omega)]
    refine Attempt.returns_bind.mpr (returns_storeRange (by omega) ?_)
    cases printable with
    | false => exact next _ blockLength (fun impossible => absurd impossible (by decide))
    | true =>
        have stored : (overwriteAt s.data off (src.take count)).length = s.data.length :=
          length_overwriteAt (by omega)
        refine Attempt.returns_bind.mpr (returns_loadRange ?_ ?_)
        · rw [MangleState.withData_data, stored]
          omega
        · have written := @take_drop_overwriteAt _ s.data (src.take count) off inside
          rw [blockLength] at written
          rw [MangleState.withData_data, written]
          have sameLength : (turnToPrintable (src.take count)).length = (src.take count).length :=
            List.length_map _
          refine returns_storeRange ?_ ?_
          · rw [MangleState.withData_data, stored, sameLength]
            omega
          · have closed := next _ (sameLength.trans blockLength)
              (fun _ => printable_turnToPrintable _)
            rw [← overwriteAt_overwriteAt inside sameLength] at closed
            exact closed

/-- `mangle_Insert` inserts as much of the value as there is room for. -/
theorem returns_insert {off len : Nat} {val : Bytes} {printable : Bool}
    {holds : Unit → MangleState → Prop} (inside : off ≤ s.data.length) (enough : len ≤ val.length)
    (next : ∀ block : Bytes, block.length = min len (maxInputSz - s.data.length) →
      (printable = true → Printable block) → holds () (s.withData (insertAt s.data off block))) :
    Attempt.Returns (insert maxInputSz off val len printable) holds s := by
  refine Attempt.returns_bind.mpr (returns_inflate inside fun gap gapLength _ => ?_)
  have grown : (s.withData (insertAt s.data off gap)).data.length = s.data.length + gap.length :=
    length_insertAt _ _ _
  refine returns_overwrite (by omega) (by omega) fun block blockLength clean => ?_
  have sameLength : block.length = gap.length := by omega
  rw [MangleState.withData_data, overwriteAt_insertAt inside sameLength]
  exact next block (sameLength.trans gapLength) clean

theorem returns_lenLeft {off : Nat} {holds : Nat → MangleState → Prop}
    (inside : off < s.data.length) (next : holds (s.data.length - off - 1) s) :
    Attempt.Returns (lenLeft off) holds s := by
  refine Attempt.returns_bind.mpr (returns_size.mpr ?_)
  rw [if_neg (Nat.not_le.mpr inside), sizeSub_of_le (Nat.le_of_lt inside), sizeSub_of_le (by omega)]
  exact next

theorem returns_moveBack {off len : Nat} {holds : Unit → MangleState → Prop} (positive : 1 ≤ len)
    (inside : off + len < s.data.length)
    (next : holds () (s.withData (overwriteAt s.data off (s.data.drop (off + len))))) :
    Attempt.Returns (move (off + len) off (s.data.length - (off + len))) holds s := by
  refine Attempt.returns_bind.mpr (returns_size.mpr ?_)
  rw [if_neg (Nat.not_le.mpr inside), if_neg (by omega), if_neg (by omega)]
  have len_eq : min (min (s.data.length - (off + len)) (s.data.length - (off + len)))
      (s.data.length - off) = s.data.length - (off + len) := by omega
  dsimp only
  rw [len_eq]
  refine Attempt.returns_bind.mpr (returns_loadRange (by omega) ?_)
  rw [List.take_of_length_le (Nat.le_of_eq List.length_drop)]
  refine returns_storeRange ?_ next
  rw [List.length_drop]
  omega

theorem truncate_moveBack {data : Bytes} {off len : Nat} (inside : off + len ≤ data.length) :
    truncate (overwriteAt data off (data.drop (off + len))) (data.length - len) =
      removeAt data off len := by
  have front : (data.take off ++ data.drop (off + len)).length = data.length - len := by
    simp only [List.length_append, List.length_take, List.length_drop]
    omega
  have total : (overwriteAt data off (data.drop (off + len))).length = data.length := by
    rw [length_overwriteAt]
    rw [List.length_drop]
    omega
  rw [truncate, total, Nat.sub_eq_zero_of_le (Nat.sub_le _ _), List.replicate_zero,
    List.append_nil, overwriteAt, List.take_left' front, removeAt]

end Rules

end GraphDissect.Fuzzing
