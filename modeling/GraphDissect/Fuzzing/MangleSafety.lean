import GraphDissect.Fuzzing.Mangle

/-!
# Mutations stay inside the file

Every mutator but `mangle_Splice` returns: no load or store leaves the file, no
`LOG_F` is reached, and the size stays between one byte and `maxInputSz`.  A
splice can also end in the `LOG_F` of `mangle_getLen`, since
`input_enqueueDynamicInputs` queues files of any size.
-/

namespace GraphDissect.Fuzzing

open Library

/-- What the initialisation of honggfuzz promises: `input_getDirStatsAndRewind`
and the option `-F` bound the sizes, `input_parseDictionary` and
`instrumentAddConstMemInternal` cut their values to the arrays. -/
structure MangleGlobal.WellFormed (global : MangleGlobal) : Prop where
  positive : 1 ≤ global.maxInputSz
  small : global.maxInputSz ≤ hfInputMaxSize
  mutations : global.mutationsPerRun < 2 ^ 32
  dictionary : global.dictionary.length ≤ 8192
  words : ∀ entry ∈ global.dictionary, entry.len ≤ entry.val.length
  valArr : ∀ look, (global.cmpFeedbackMap look).valArr.length = 1024 * 16
  values : ∀ look, ∀ entry ∈ (global.cmpFeedbackMap look).valArr, entry.len ≤ entry.val.length

/-- What a mutator does to the bytes of a file. -/
structure Mutated (maxInputSz : Nat) (printable : Bool) (before after : Bytes) : Prop where
  sized : Sized maxInputSz after
  clean : printable = true → Printable before → Printable after

/-- `before` is the file when the mutator started. -/
abbrev Mutates (maxInputSz : Nat) (printable : Bool) (before : Bytes) (program : Mangler Unit)
    (s : MangleState) : Prop :=
  Attempt.Returns program (fun _ later => Mutated maxInputSz printable before later.data) s

/-- The `LOG_F` behind a look that has found an input too long for `mangle_getLen`. -/
def OversizeInput (global : MangleGlobal) (fault : Fault) (later : MangleState) : Prop :=
  fault = .logFatal ∧ ∃ look buf, later.asked = look + 1 ∧ global.randomInput look = some buf ∧
    hfInputMaxSize < buf.length

/-- What is true of a mutator that may splice. -/
abbrev MutatesOr (global : MangleGlobal) (printable : Bool) (before : Bytes)
    (program : Mangler Unit) (s : MangleState) : Prop :=
  Attempt.ReturnsOr program
    (fun _ later => Mutated global.maxInputSz printable before later.data) (OversizeInput global) s

section Edits

variable {maxInputSz off : Nat} {printable : Bool} {data block : Bytes}

theorem Mutated.unchanged (sized : Sized maxInputSz data) : Mutated maxInputSz printable data data :=
  ⟨sized, fun _ clean => clean⟩

theorem Mutated.weaken {before after : Bytes} (mutated : Mutated maxInputSz printable before after) :
    Mutated maxInputSz false before after :=
  ⟨mutated.sized, fun impossible => absurd impossible (by decide)⟩

theorem Mutated.overwriteAt (sized : Sized maxInputSz data)
    (inside : off + block.length ≤ data.length)
    (clean : printable = true → Printable data → Printable block) :
    Mutated maxInputSz printable data (overwriteAt data off block) where
  sized := by rwa [Sized, length_overwriteAt inside]
  clean := fun wanted old => forall_mem_overwriteAt old (clean wanted old)

theorem Mutated.insertAt (sized : Sized maxInputSz data)
    (fits : data.length + block.length ≤ maxInputSz)
    (clean : printable = true → Printable data → Printable block) :
    Mutated maxInputSz printable data (insertAt data off block) where
  sized := by
    rw [Sized, length_insertAt]
    exact ⟨Nat.le_trans sized.1 (Nat.le_add_right _ _), fits⟩
  clean := fun wanted old => forall_mem_insertAt old (clean wanted old)

theorem Mutated.removeAt {count : Nat} (sized : Sized maxInputSz data)
    (inside : off + count ≤ data.length) (left : count < data.length) :
    Mutated maxInputSz printable data (removeAt data off count) where
  sized := by
    rw [Sized, length_removeAt inside]
    have high := sized.2
    omega
  clean := fun _ old => forall_mem_removeAt old

/-- A range that a mutator may fill: bytes of the file, or a gap in it. -/
structure Opened (maxInputSz : Nat) (printable : Bool) (off count : Nat) (before data : Bytes) :
    Prop where
  inside : off + count ≤ data.length
  front : data.take off = before.take off
  filled : ∀ block : Bytes, block.length = count →
    (printable = true → Printable before → Printable block) →
    Mutated maxInputSz printable before (overwriteAt data off block)

theorem Opened.inPlace {count : Nat} (sized : Sized maxInputSz data)
    (inside : off + count ≤ data.length) : Opened maxInputSz printable off count data data where
  inside := inside
  front := rfl
  filled := fun _ length clean => .overwriteAt sized (by omega) clean

theorem Opened.gap (sized : Sized maxInputSz data) (inside : off ≤ data.length)
    (fits : data.length + block.length ≤ maxInputSz) :
    Opened maxInputSz printable off block.length data (insertAt data off block) where
  inside := by
    rw [length_insertAt]
    omega
  front := by
    rw [insertAt, List.append_assoc, List.take_left' (List.length_take_of_le inside)]
  filled := fun other length clean => by
    rw [overwriteAt_insertAt inside length]
    exact .insertAt sized (by omega) clean

end Edits

section Values

variable {maxInputSz : Nat} {printable : Bool} {s : MangleState} {before : Bytes}
  (here : s.data = before) (sized : Sized maxInputSz before)
include here sized

theorem mutates_overwrite {off len : Nat} {val : Bytes} (inside : off ≤ s.data.length)
    (enough : len ≤ val.length) :
    Mutates maxInputSz printable before (overwrite off val len printable) s := by
  subst here
  exact returns_overwrite inside enough fun _ length clean =>
    .overwriteAt sized (by omega) fun wanted _ => clean wanted

theorem mutates_insert {off len : Nat} {val : Bytes} (inside : off ≤ s.data.length)
    (enough : len ≤ val.length) :
    Mutates maxInputSz printable before (insert maxInputSz off val len printable) s := by
  subst here
  have high := sized.2
  exact returns_insert inside enough fun _ length clean =>
    .insertAt sized (by omega) fun wanted _ => clean wanted

theorem mutates_useValueAt {off len : Nat} {val : Bytes} (inside : off ≤ s.data.length)
    (enough : len ≤ val.length) :
    Mutates maxInputSz printable before (useValueAt maxInputSz off val len printable) s := by
  refine Attempt.returns_bind.mpr (returns_rndBit fun inPlace _ => ?_)
  split
  · exact mutates_overwrite (by exact here) sized (by exact inside) enough
  · exact mutates_insert (by exact here) sized (by exact inside) enough

theorem mutates_useValue {len : Nat} {val : Bytes} (small : maxInputSz ≤ hfInputMaxSize)
    (enough : len ≤ val.length) :
    Mutates maxInputSz printable before (useValue maxInputSz val len printable) s := by
  refine Attempt.returns_bind.mpr (returns_rndBit fun inPlace _ => ?_)
  subst here
  split
  · refine Attempt.returns_bind.mpr (returns_getOffSet sized small fun off _ inside => ?_)
    exact mutates_overwrite (by rfl) sized (by exact Nat.le_of_lt inside) enough
  · refine Attempt.returns_bind.mpr (returns_getOffSetPlus1 fun off _ inside => ?_)
    exact mutates_insert (by rfl) sized (by exact inside) enough

end Values

theorem returns_rndWord {printable : Bool} {s : MangleState} {holds : Bytes → MangleState → Prop}
    (next : ∀ buf rnd, buf.length = 2 → holds buf (s.withRnd rnd)) :
    Attempt.Returns (rndWord printable) holds s := by
  unfold rndWord
  split
  · exact returns_rndBufPrintable fun buf rnd length _ => next buf rnd length
  · exact Attempt.returns_bind.mpr (returns_rnd64 fun value rnd => next _ rnd rfl)

theorem returns_rndByte {printable : Bool} {s : MangleState} {holds : UInt8 → MangleState → Prop}
    (next : ∀ (byte : UInt8) rnd, (printable = true → 32 ≤ byte.toNat ∧ byte.toNat ≤ 126) →
      holds byte (s.withRnd rnd)) : Attempt.Returns (rndByte printable) holds s := by
  unfold rndByte
  split
  · exact returns_rndPrintable fun byte rnd low high => next byte rnd fun _ => ⟨low, high⟩
  · next plain =>
    refine Attempt.returns_bind.mpr (returns_rndGet (by decide) (by decide) ?_)
    exact fun value rnd _ _ => next _ rnd fun wanted => absurd wanted plain

theorem returns_rndBlock {printable : Bool} {len : Nat} {s : MangleState}
    {holds : Bytes → MangleState → Prop}
    (next : ∀ block rnd, block.length = len → (printable = true → Printable block) →
      holds block (s.withRnd rnd)) : Attempt.Returns (rndBlock printable len) holds s := by
  unfold rndBlock
  split
  · exact returns_rndBufPrintable fun block rnd length clean => next block rnd length fun _ => clean
  · next plain =>
    exact returns_rndBuf fun block rnd length => next block rnd length fun wanted => absurd wanted plain

theorem returns_getShortLen {max : Nat} {s : MangleState} {holds : Nat → MangleState → Prop}
    (positive : 1 ≤ max) (small : max ≤ hfInputMaxSize)
    (next : ∀ len rnd, 1 ≤ len → len ≤ max → holds len (s.withRnd rnd)) :
    Attempt.Returns (getShortLen max) holds s := by
  refine Attempt.returns_bind.mpr (returns_rndMod16 fun coin _ => ?_)
  split
  · refine returns_getLen (by omega) (by omega) fun len rnd low high => ?_
    exact next len rnd low (by omega)
  · exact returns_getLen positive small fun len rnd low high => next len rnd low high

section Mutators

variable {global : MangleGlobal} (wellFormed : global.WellFormed) {printable : Bool}
  {s : MangleState} {before : Bytes} (here : s.data = before)
  (sized : Sized global.maxInputSz before)
include wellFormed here sized

theorem mutates_bytes :
    Mutates global.maxInputSz printable before (mangleBytes global printable) s := by
  refine Attempt.returns_bind.mpr (returns_rndWord fun buf _ length => ?_)
  refine Attempt.returns_bind.mpr (returns_rndGet (by decide) (by decide) ?_)
  intro toCopy _ _ high
  exact mutates_useValue (by exact here) sized wellFormed.small (by omega)

theorem returns_offset {holds : Nat → MangleState → Prop}
    (next : ∀ off rnd, off < before.length → holds off (s.withRnd rnd)) :
    Attempt.Returns getOffSet holds s := by
  subst here
  exact returns_getOffSet sized wellFormed.small next

theorem returns_lenBehind {off : Nat} {holds : Nat → MangleState → Prop}
    (inside : off < before.length)
    (next : ∀ len rnd, 1 ≤ len → off + len ≤ before.length → holds len (s.withRnd rnd)) :
    Attempt.Returns (getLenBehind off) holds s := by
  have high := Nat.le_trans sized.2 wellFormed.small
  refine Attempt.returns_bind.mpr (returns_size.mpr ?_)
  rw [here, sizeSub_of_le (Nat.le_of_lt inside)]
  refine returns_getLen (by omega) (by omega) fun len rnd positive fits => ?_
  exact next len rnd positive (by omega)

theorem mutates_memCopy :
    Mutates global.maxInputSz printable before (mangleMemCopy global printable) s := by
  refine Attempt.returns_bind.mpr (returns_offset wellFormed here sized fun off _ below => ?_)
  refine Attempt.returns_bind.mpr (returns_lenBehind wellFormed (by exact here) sized below ?_)
  intro len _ _ inside
  subst here
  refine Attempt.returns_bind.mpr (returns_loadRange inside ?_)
  refine mutates_useValue (by rfl) sized wellFormed.small ?_
  simp only [List.length_take, List.length_drop, MangleState.withRnd_data]
  omega

omit wellFormed in
/-- The range that `len` bytes behind `off` are written to. -/
theorem returns_maybeInflate {off len : Nat} {holds : Nat → MangleState → Prop}
    (inside : off + len ≤ before.length)
    (next : ∀ count later, Opened global.maxInputSz printable off count before later.data →
      holds count later) :
    Attempt.Returns (maybeInflate global off len printable) holds s := by
  subst here
  have high := sized.2
  refine Attempt.returns_bind.mpr (returns_rndBit fun grows rnd => ?_)
  split
  · refine returns_inflate (by exact Nat.le_trans (Nat.le_add_right off len) inside) ?_
    intro gap length _
    rw [MangleState.withRnd_data] at length
    exact next gap.length _ (.gap sized (by omega) (by omega))
  · exact next len _ (.inPlace sized inside)

theorem mutates_memSet :
    Mutates global.maxInputSz printable before (mangleMemSet global printable) s := by
  refine Attempt.returns_bind.mpr (returns_offset wellFormed here sized fun off _ below => ?_)
  refine Attempt.returns_bind.mpr (returns_lenBehind wellFormed (by exact here) sized below ?_)
  intro len _ _ inside
  refine Attempt.returns_bind.mpr (returns_rndByte fun val _ clean => ?_)
  refine Attempt.returns_bind.mpr (returns_maybeInflate (by exact here) sized inside ?_)
  intro count later opened
  refine returns_storeRange ?_ (opened.filled _ List.length_replicate fun wanted _ => ?_)
  · rw [List.length_replicate]
    exact opened.inside
  · exact printable_replicate (clean wanted).1 (clean wanted).2 count

theorem mutates_memClr :
    Mutates global.maxInputSz printable before (mangleMemClr global printable) s := by
  refine Attempt.returns_bind.mpr (returns_offset wellFormed here sized fun off _ below => ?_)
  refine Attempt.returns_bind.mpr (returns_lenBehind wellFormed (by exact here) sized below ?_)
  intro len _ _ inside
  refine Attempt.returns_bind.mpr (returns_maybeInflate (by exact here) sized inside ?_)
  intro count later opened
  refine returns_storeRange ?_ (opened.filled _ List.length_replicate fun wanted _ => ?_)
  · rw [List.length_replicate]
    exact opened.inside
  · rw [if_pos wanted]
    exact printable_replicate (by decide) (by decide) count

theorem mutates_randomBuf :
    Mutates global.maxInputSz printable before (mangleRandomBuf global printable) s := by
  refine Attempt.returns_bind.mpr (returns_offset wellFormed here sized fun off _ below => ?_)
  refine Attempt.returns_bind.mpr (returns_lenBehind wellFormed (by exact here) sized below ?_)
  intro len _ _ inside
  refine Attempt.returns_bind.mpr (returns_maybeInflate (by exact here) sized inside ?_)
  intro count later opened
  refine Attempt.returns_bind.mpr (returns_rndBlock fun block _ length clean => ?_)
  refine returns_storeRange ?_ (opened.filled block length fun wanted _ => clean wanted)
  rw [length]
  exact opened.inside

theorem mutates_byteRepeat :
    Mutates global.maxInputSz printable before (mangleByteRepeat global printable) s := by
  have high := Nat.le_trans sized.2 wellFormed.small
  refine Attempt.returns_bind.mpr (returns_offset wellFormed here sized fun off _ below => ?_)
  refine Attempt.returns_bind.mpr (returns_size.mpr ?_)
  rw [MangleState.withRnd_data, here, sizeSub_of_le below]
  dsimp only
  split
  · exact mutates_bytes wellFormed (by exact here) sized
  · next room =>
    refine Attempt.returns_bind.mpr (returns_getLen (by omega) (by omega) ?_)
    intro len _ positive fits
    refine Attempt.returns_bind.mpr (returns_maybeInflate (by exact here) sized (by omega) ?_)
    intro count later opened
    have source : later.data[off]? = before[off]? := by
      rw [← List.getElem?_take_of_lt (Nat.lt_succ_self off), opened.front,
        List.getElem?_take_of_lt (Nat.lt_succ_self off)]
    have inside : off < later.data.length := by
      have within := opened.inside
      omega
    refine Attempt.returns_bind.mpr (returns_load inside fun byte loaded => ?_)
    refine returns_storeRange ?_ (opened.filled _ List.length_replicate fun _ clean => ?_)
    · rw [List.length_replicate]
      exact opened.inside
    · have member : byte ∈ before := List.mem_of_getElem? (source.symm.trans loaded)
      exact printable_replicate (clean _ member).1 (clean _ member).2 count

omit wellFormed here in
theorem mutates_storeRange {off : Nat} {block : Bytes} {later : MangleState}
    (same : later.data = before) (inside : off + block.length ≤ before.length)
    (clean : printable = true → Printable before → Printable block) :
    Mutates global.maxInputSz printable before (storeRange off block) later := by
  subst same
  exact returns_storeRange inside (.overwriteAt sized inside clean)

theorem mutates_bit : Mutates global.maxInputSz printable before (mangleBit printable) s := by
  refine Attempt.returns_bind.mpr (returns_offset wellFormed here sized fun off rnd below => ?_)
  subst here
  refine Attempt.returns_bind.mpr (returns_load below fun byte _ => ?_)
  refine Attempt.returns_bind.mpr (returns_rndGet (by decide) (by decide) fun bit _ _ _ => ?_)
  generalize byte ^^^ UInt8.ofNat (2 ^ bit) = changed
  refine Attempt.returns_bind.mpr (returns_storeRange below ?_)
  have stored : (overwriteAt s.data off [changed]).length = s.data.length :=
    length_overwriteAt below
  simp only [MangleState.withRnd_data]
  cases printable with
  | false =>
      exact .overwriteAt sized below fun impossible => absurd impossible (by decide)
  | true =>
      refine Attempt.returns_bind.mpr (returns_load (by exact Nat.lt_of_lt_of_eq below stored.symm) ?_)
      intro written _
      refine returns_storeRange (by exact Nat.le_trans below (Nat.le_of_eq stored.symm)) ?_
      rw [MangleState.withData_data, MangleState.withData_data,
        overwriteAt_overwriteAt (Nat.le_of_lt below) (by rfl)]
      exact .overwriteAt sized below fun _ _ => printable_turnToPrintable _

omit wellFormed here sized in
theorem printable_byteOfInt {value : Int} (low : 32 ≤ value) (high : value ≤ 126) :
    Printable [byteOfInt value] := by
  obtain ⟨value, rfl⟩ := Int.eq_ofNat_of_zero_le (Int.le_trans (by decide) low)
  have word : ((value : Int) % 256).toNat = value := by omega
  have exact : (byteOfInt value).toNat = value := by
    rw [byteOfInt, word]
    exact UInt8.toNat_ofNat_of_lt' (show value < 256 by omega)
  exact List.forall_mem_singleton.mpr ⟨by omega, by omega⟩

theorem mutates_oneByte {shown plain : UInt8 → UInt8}
    (clean : ∀ byte, Printable [byte] → Printable [shown byte]) :
    Mutates global.maxInputSz printable before (do
      let off ← getOffSet
      let byte ← load off
      if printable then store off (shown byte) else store off (plain byte)) s := by
  refine Attempt.returns_bind.mpr (returns_offset wellFormed here sized fun off rnd below => ?_)
  subst here
  refine Attempt.returns_bind.mpr (returns_load below fun byte loaded => ?_)
  have old : byte ∈ s.data := List.mem_of_getElem? loaded
  split
  · exact mutates_storeRange sized (by rfl) below fun _ before =>
      clean byte (List.forall_mem_singleton.mpr (before byte old))
  · next hidden => exact mutates_storeRange sized (by rfl) below fun wanted => absurd wanted hidden

theorem mutates_incByte :
    Mutates global.maxInputSz printable before (mangleIncByte printable) s := by
  refine mutates_oneByte wellFormed here sized fun byte clean => ?_
  have bounds := clean byte List.mem_cons_self
  rw [Int.tmod_eq_emod_of_nonneg (by omega)]
  exact printable_byteOfInt (by omega) (by omega)

theorem mutates_decByte :
    Mutates global.maxInputSz printable before (mangleDecByte printable) s := by
  refine mutates_oneByte wellFormed here sized fun byte clean => ?_
  have bounds := clean byte List.mem_cons_self
  rw [Int.tmod_eq_emod_of_nonneg (by omega)]
  exact printable_byteOfInt (by omega) (by omega)

theorem mutates_negByte :
    Mutates global.maxInputSz printable before (mangleNegByte printable) s := by
  refine mutates_oneByte wellFormed here sized fun byte clean => ?_
  have bounds := clean byte List.mem_cons_self
  exact printable_byteOfInt (by omega) (by omega)

omit wellFormed here sized in
theorem length_toLittleEndian (count value : Nat) : (toLittleEndian count value).length = count := by
  induction count generalizing value with
  | zero => rfl
  | succ count inductionHypothesis =>
      rw [toLittleEndian, List.length_cons, inductionHypothesis]

omit wellFormed here in
theorem mutates_addSubWithRange {off varLen range : Nat} (width : varLen ∈ [1, 2, 4, 8])
    (inside : off + varLen ≤ before.length) (small : range ≤ 2 ^ 32) {later : MangleState}
    (same : later.data = before) :
    Mutates global.maxInputSz (printable && decide (varLen ≠ 1)) before
      (mangleAddSubWithRange off varLen range printable) later := by
  refine Attempt.returns_bind.mpr (returns_rndGet (Nat.zero_le _) (by omega) fun value rnd _ _ => ?_)
  subst same
  dsimp only
  split
  · next one =>
    subst one
    refine Attempt.returns_bind.mpr (returns_loadRange inside ?_)
    refine mutates_storeRange sized (by rfl) ?_ fun impossible => ?_
    · rw [addDelta, length_toLittleEndian, List.length_take, List.length_drop]
      omega
    · simp at impossible
  · next wide =>
    have length (block : Bytes) : (addDelta block (value - range)).length = block.length :=
      length_toLittleEndian _ _
    have taken : ((later.data.drop off).take varLen).length = varLen := by
      rw [List.length_take, List.length_drop]
      omega
    rw [decide_eq_true wide, Bool.and_true, if_pos (by simpa [wide] using width)]
    refine Attempt.returns_bind.mpr (returns_loadRange inside ?_)
    refine Attempt.returns_bind.mpr (returns_rndBit fun native _ => ?_)
    split
    · refine mutates_overwrite (by rfl) sized (by exact Nat.le_of_add_right_le inside) ?_
      rw [length]
      exact Nat.le_of_eq taken.symm
    · refine mutates_overwrite (by rfl) sized (by exact Nat.le_of_add_right_le inside) ?_
      rw [List.length_reverse, length, List.length_reverse]
      exact Nat.le_of_eq taken.symm

theorem mutates_addSub : Mutates global.maxInputSz false before (mangleAddSub printable) s := by
  refine Attempt.returns_bind.mpr (returns_offset wellFormed here sized fun off _ below => ?_)
  refine Attempt.returns_bind.mpr (returns_rndGet (by decide) (by decide) fun shift _ _ high => ?_)
  refine Attempt.returns_bind.mpr (returns_size.mpr ?_)
  rw [MangleState.withRnd_data, MangleState.withRnd_data, here, sizeSub_of_le (Nat.le_of_lt below)]
  generalize chosen : (if before.length - off < 2 ^ shift then 1 else 2 ^ shift) = varLen
  have inside : off + varLen ≤ before.length := by
    split at chosen <;> omega
  have width : varLen ∈ [1, 2, 4, 8] := by
    rw [← chosen]
    split
    · decide
    · interval_cases shift <;> decide
  have step (range : Nat) (small : range ≤ 2 ^ 32) (later : MangleState) (same : later.data = before) :
      Mutates global.maxInputSz false before (mangleAddSubWithRange off varLen range printable)
        later :=
    (mutates_addSubWithRange sized width inside small same).mono fun _ _ mutated => mutated.weaken
  dsimp only
  split
  · exact step 16 (by decide) _ here
  · split
    · exact step 4096 (by decide) _ here
    · split
      · exact step 1048576 (by decide) _ here
      · split
        · exact step 268435456 (by decide) _ here
        · next not1 not2 not4 not8 => simp [not1, not2, not4, not8] at width

theorem mutates_expand : Mutates global.maxInputSz printable before (mangleExpand global printable) s := by
  have high := sized.2
  have small := wellFormed.small
  refine Attempt.returns_bind.mpr (returns_offset wellFormed here sized fun off _ below => ?_)
  rw [sizeSub_of_le (by omega)]
  refine Attempt.returns_bind.mpr (returns_getShortLen (by omega) (by omega) fun len _ _ fits => ?_)
  subst here
  refine Attempt.returns_bind.mpr (returns_inflate (by exact Nat.le_of_lt below) ?_)
  intro gap length clean
  rw [MangleState.withRnd_data, MangleState.withRnd_data] at length
  exact .insertAt sized (by omega) fun wanted _ => clean wanted

theorem mutates_shrink : Mutates global.maxInputSz printable before (mangleShrink global printable) s := by
  have high := sized.2
  have small := wellFormed.small
  refine Attempt.returns_bind.mpr (returns_size.mpr ?_)
  subst here
  split
  · exact .unchanged sized
  · next long =>
    refine Attempt.returns_bind.mpr (returns_offset wellFormed rfl sized fun off _ below => ?_)
    refine Attempt.returns_bind.mpr (returns_lenLeft (by exact below) ?_)
    split
    · exact .unchanged sized
    · next room =>
      rw [MangleState.withRnd_data] at room
      refine Attempt.returns_bind.mpr (returns_getShortLen (by exact Nat.pos_of_ne_zero room)
        (by rw [MangleState.withRnd_data]; omega) fun len rnd positive fits => ?_)
      rw [MangleState.withRnd_data] at fits
      refine Attempt.returns_bind.mpr (returns_size.mpr ?_)
      dsimp only [MangleState.withRnd_data]
      rw [sizeSub_of_le (by omega)]
      have inside : off + len < s.data.length := by omega
      have total : (overwriteAt s.data off (s.data.drop (off + len))).length = s.data.length :=
        length_overwriteAt (by rw [List.length_drop]; omega)
      refine Attempt.returns_bind.mpr (returns_moveBack positive (by exact inside) ?_)
      refine Attempt.returns_bind.mpr (returns_size.mpr ?_)
      dsimp only [MangleState.withRnd_data, MangleState.withData_data]
      rw [total, sizeSub_of_le (by omega)]
      refine returns_setSize (by omega) ?_
      dsimp only [MangleState.withData_data]
      rw [truncate_moveBack (Nat.le_of_lt inside)]
      exact .removeAt sized (by omega) (by omega)

omit wellFormed here sized in
theorem length_snprintf19 (text : Bytes) : (snprintf19 text).length = 20 := by
  simp only [snprintf19, List.length_append, List.length_take, List.length_replicate,
    List.length_singleton]
  omega

theorem mutates_asciiNum :
    Mutates global.maxInputSz printable before (mangleASCIINum global printable) s := by
  refine Attempt.returns_bind.mpr (returns_rndGet (by decide) (by decide) fun len _ _ high => ?_)
  refine Attempt.returns_bind.mpr (returns_rnd64 fun value _ => ?_)
  refine mutates_useValue (by exact here) sized wellFormed.small ?_
  rw [length_snprintf19]
  omega

omit wellFormed here sized in
theorem returns_changedNum {value : UInt64} {choice : Nat} {holds : UInt64 → MangleState → Prop}
    (known : choice ≤ 7) (next : ∀ value rnd, holds value (s.withRnd rnd)) :
    Attempt.Returns (changedNum value choice) holds s := by
  have draw (change : Nat → UInt64) :
      Attempt.Returns (do pure (change (← rndGet 1 256))) holds s :=
    Attempt.returns_bind.mpr (returns_rndGet (by decide) (by decide) fun _ rnd _ _ => next _ rnd)
  have cases : choice ∈ List.range 8 := List.mem_range.mpr (Nat.lt_succ_of_le known)
  fin_cases cases
  · exact next _ s.rnd
  · exact next _ s.rnd
  · exact next _ s.rnd
  · exact next _ s.rnd
  · exact returns_rnd64 next
  · exact draw _
  · exact draw _
  · exact next _ s.rnd

theorem mutates_asciiNumChange :
    Mutates global.maxInputSz printable before (mangleASCIINumChange global printable) s := by
  refine Attempt.returns_bind.mpr (returns_offset wellFormed here sized fun off _ below => ?_)
  subst here
  refine Attempt.returns_bind.mpr (Attempt.returns_read.mpr ?_)
  have found : off + (s.data.drop off).findIdx isDigit ≤ s.data.length := by
    have bounded : (s.data.drop off).findIdx isDigit ≤ (s.data.drop off).length :=
      List.findIdx_le_length
    rw [List.length_drop] at bounded
    omega
  dsimp only [MangleState.withRnd_data]
  split
  · exact .unchanged sized
  · refine Attempt.returns_bind.mpr (returns_rndGet (by decide) (by decide) fun choice _ _ high => ?_)
    refine Attempt.returns_bind.mpr (returns_changedNum high fun value _ => ?_)
    refine mutates_useValueAt (by rfl) sized (by exact found) ?_
    rw [length_snprintf19]
    refine Nat.le_trans (List.takeWhile_sublist _).length_le ?_
    rw [List.length_take]
    omega

theorem mutates_drawnEntry (entries : List DictEntry)
    (words : ∀ entry ∈ entries, entry.len ≤ entry.val.length) (nonempty : 0 < entries.length)
    (short : entries.length ≤ 8192) :
    Mutates global.maxInputSz printable before (do
      let choice ← rndGet 0 (entries.length - 1)
      useEntry global entries choice printable) s := by
  refine Attempt.returns_bind.mpr (returns_rndGet (Nat.zero_le _) (by omega) ?_)
  intro choice _ _ high
  have inside : choice < entries.length := by omega
  rw [useEntry, List.getElem?_eq_getElem inside]
  exact mutates_useValue (by exact here) sized wellFormed.small (words _ (List.getElem_mem inside))

omit wellFormed here sized in
theorem mangleMagicVals_fit : ∀ entry ∈ mangleMagicVals, entry.len ≤ entry.val.length := by
  intro entry member
  rw [mangleMagicVals] at member
  obtain ⟨word, _, rfl⟩ := List.mem_map.mp member
  exact Nat.le_trans (Nat.le_add_right _ _) (Nat.le_of_eq List.length_append.symm)

omit wellFormed here sized in
theorem length_magicWords (width : Nat) : (magicWords width).length = 65 := by
  have bytes : magicBytes.length = 26 := rfl
  simp only [magicWords, List.length_append, List.length_map, List.length_tail, List.length_cons,
    List.length_nil, bytes]

omit wellFormed here sized in
theorem length_mangleMagicVals : mangleMagicVals.length = 221 := by
  have bytes : magicBytes.length = 26 := rfl
  simp only [mangleMagicVals, List.length_append, List.length_map, length_magicWords, bytes]

theorem mutates_magic : Mutates global.maxInputSz printable before (mangleMagic global printable) s := by
  have length := length_mangleMagicVals
  exact mutates_drawnEntry wellFormed here sized mangleMagicVals mangleMagicVals_fit (by omega)
    (by omega)

theorem mutates_staticDict :
    Mutates global.maxInputSz printable before (mangleStaticDict global printable) s := by
  unfold mangleStaticDict
  split
  · exact mutates_bytes wellFormed here sized
  · next nonempty =>
    exact mutates_drawnEntry wellFormed here sized global.dictionary wellFormed.words
      (Nat.pos_of_ne_zero nonempty) wellFormed.dictionary

omit wellFormed here sized in
theorem returns_look {holds : Nat → MangleState → Prop}
    (next : holds s.asked { s with asked := s.asked + 1 }) : Attempt.Returns look holds s :=
  next

omit wellFormed here sized in
theorem returns_feedbackDict {holds : Option DictEntry → MangleState → Prop}
    (valArr : ∀ look, (global.cmpFeedbackMap look).valArr.length = 1024 * 16)
    (next : ∀ found later, later.data = s.data →
      (∀ entry ∈ found, ∃ look, ∃ i : Nat,
        (global.cmpFeedbackMap look).valArr[i]? = some entry ∧ entry.len ≠ 0) →
      holds found later) : Attempt.Returns (mangleFeedbackDict global) holds s := by
  have nothing (later : MangleState) (same : later.data = s.data) : holds none later :=
    next none later same (by simp)
  unfold mangleFeedbackDict
  split
  · exact nothing s rfl
  · refine Attempt.returns_bind.mpr (returns_look ?_)
    have length := valArr s.asked
    dsimp only
    split
    · exact nothing _ rfl
    · refine Attempt.returns_bind.mpr (returns_rndGet (Nat.zero_le _) (by omega) ?_)
      intro choice _ _ high
      have inside : choice < (global.cmpFeedbackMap s.asked).valArr.length := by omega
      rw [List.getElem?_eq_getElem inside]
      dsimp only
      split
      · exact nothing _ rfl
      · next visible =>
        refine next _ _ rfl fun entry found => ?_
        cases found
        exact ⟨s.asked, choice, List.getElem?_eq_getElem inside, visible⟩

theorem mutates_constFeedbackDict :
    Mutates global.maxInputSz printable before (mangleConstFeedbackDict global printable) s := by
  refine Attempt.returns_bind.mpr (returns_feedbackDict wellFormed.valArr ?_)
  intro found later same handed
  cases found with
  | none => exact mutates_bytes wellFormed (same.trans here) sized
  | some entry =>
      obtain ⟨look, i, isEntry, _⟩ := handed entry rfl
      exact mutates_useValue (same.trans here) sized wellFormed.small
        (wellFormed.values look entry (List.mem_of_getElem? isEntry))

/-- A splice ends in `LOG_F` when the input it is handed is too long. -/
theorem mutates_splice : MutatesOr global printable before (mangleSplice global printable) s := by
  unfold mangleSplice
  split
  · exact (mutates_bytes wellFormed here sized).or
  · refine Attempt.returnsOr_bind.mpr (returns_look ?_).or
    split
    · exact (mutates_bytes wellFormed (by exact here) sized).or
    · next buf picked =>
      split
      · exact (mutates_bytes wellFormed (by exact here) sized).or
      · next nonempty =>
        by_cases small : buf.length ≤ hfInputMaxSize
        · refine Attempt.Returns.or (Attempt.returns_bind.mpr (returns_getLen (by omega) small ?_))
          intro start _ low high
          dsimp only
          rw [sizeSub_of_le low, sizeSub_of_le (by omega)]
          refine Attempt.returns_bind.mpr (returns_getLen (by omega) (by omega) fun len _ _ fits => ?_)
          refine mutates_useValue (by exact here) sized wellFormed.small ?_
          rw [List.length_drop]
          exact fits
        · rw [getLen, if_pos (Nat.lt_of_not_le small)]
          exact ⟨rfl, s.asked, buf, rfl, picked, Nat.lt_of_not_le small⟩

omit wellFormed here sized in
theorem returns_swapBytes {first second : Nat} {later : MangleState}
    (firstInside : first < later.data.length) (secondInside : second < later.data.length) :
    Attempt.Returns (swapBytes first second) (fun _ after => after.data.Perm later.data) later := by
  refine Attempt.returns_bind.mpr (returns_load secondInside fun tmp loaded => ?_)
  refine Attempt.returns_bind.mpr (returns_load firstInside fun byte loadedFirst => ?_)
  have inPlace := overwriteAt_singleton secondInside byte
  refine Attempt.returns_bind.mpr (returns_storeRange secondInside ?_)
  rw [inPlace]
  have inside : first < (later.data.set second byte).length := by rwa [List.length_set]
  refine returns_storeRange inside ?_
  dsimp only [MangleState.withData_data]
  rw [overwriteAt_singleton inside]
  obtain ⟨_, rfl⟩ := List.getElem?_eq_some_iff.mp loaded
  obtain ⟨_, rfl⟩ := List.getElem?_eq_some_iff.mp loadedFirst
  exact List.set_set_perm secondInside firstInside

/-- `mangle_MemSwap` permutes the bytes of the file, also where its two ranges
overlap. -/
theorem permutes_memSwap :
    Attempt.Returns (mangleMemSwap printable) (fun _ later => later.data.Perm before) s := by
  refine Attempt.returns_bind.mpr (returns_offset wellFormed here sized fun off1 _ below1 => ?_)
  refine Attempt.returns_bind.mpr (returns_size.mpr ?_)
  refine Attempt.returns_bind.mpr (returns_offset wellFormed (by exact here) sized ?_)
  intro off2 _ below2
  refine Attempt.returns_bind.mpr (returns_size.mpr ?_)
  have high := Nat.le_trans sized.2 wellFormed.small
  simp only [MangleState.withRnd_data, here]
  rw [sizeSub_of_le (Nat.le_of_lt below1), sizeSub_of_le (Nat.le_of_lt below2)]
  refine Attempt.returns_bind.mpr (returns_getLen (by omega) (by omega) fun len _ _ fits => ?_)
  split
  · exact .of_eq here
  · refine Attempt.returns_forM (fun i member later permuted => ?_) (.of_eq here)
    have round := List.mem_range.mp member
    have length := permuted.length_eq
    refine Attempt.returns_bind.mpr ((returns_swapBytes (by omega) (by omega)).mono ?_)
    intro _ middle swapped
    have same := swapped.length_eq
    refine (returns_swapBytes (by omega) (by omega)).mono fun _ _ again => ?_
    exact again.trans (swapped.trans permuted)

theorem mutates_memSwap : Mutates global.maxInputSz printable before (mangleMemSwap printable) s := by
  refine (permutes_memSwap wellFormed here sized).mono fun _ later permuted => ⟨?_, ?_⟩
  · rwa [Sized, permuted.length_eq]
  · exact fun _ clean byte member => clean byte (permuted.mem_iff.mp member)

end Mutators

end GraphDissect.Fuzzing
