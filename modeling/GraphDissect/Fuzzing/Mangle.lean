import GraphDissect.Fuzzing.WorkingInput

/-!
# Mutating an input

The mutators of `mangle.c` and the loop of `mangle_mangleContent` that applies
them.  What other threads write while a mutation runs (the comparison feedback
map, the cursor of the corpus) is answered anew at every look.
-/

namespace GraphDissect.Fuzzing

open Library

/-- A value with the length to use of it. -/
structure DictEntry where
  val : Bytes
  len : Nat

/-- `cmpfeedback_t`. -/
structure CmpFeedbackMap where
  cnt : Nat
  valArr : List DictEntry

/-- The part of `honggfuzz_t` that mutators read.  The map of the comparison
feedback and the input of `input_getRandomInputAsBuf` depend on the look. -/
structure MangleGlobal where
  maxInputSz : Nat
  mutationsPerRun : Nat
  onlyPrintable : Bool
  dictionary : List DictEntry
  dynFileMethodNone : Bool
  cmpFeedback : Bool
  cmpFeedbackMap : Nat → CmpFeedbackMap
  randomInput : Nat → Option Bytes
  secondsSinceCovUpdate : Int

section Mutators

variable (global : MangleGlobal)

/-- The number of the next look at shared data. -/
def look : Mangler Nat := do
  let s ← Attempt.read
  Attempt.modify fun s => { s with asked := s.asked + 1 }
  pure s.asked

def swapBytes (first second : Nat) : Mangler Unit := do
  let tmp ← load second
  store second (← load first)
  store first tmp

def mangleMemSwap (_printable : Bool) : Mangler Unit := do
  let off1 ← getOffSet
  let maxlen1 := sizeSub (← size) off1
  let off2 ← getOffSet
  let maxlen2 := sizeSub (← size) off2
  let len ← getLen (min maxlen1 maxlen2)
  if off1 = off2 then pure ()
  else
    (List.range (len / 2)).forM fun i => do
      swapBytes (off1 + i) (off2 + i)
      swapBytes (off1 + (len - 1) - i) (off2 + (len - 1) - i)

/-- `mangle_getLen(run->dynfile->size - off)`. -/
def getLenBehind (off : Nat) : Mangler Nat := do
  getLen (sizeSub (← size) off)

def mangleMemCopy (printable : Bool) : Mangler Unit := do
  let off ← getOffSet
  let len ← getLenBehind off
  let tmpbuf ← loadRange off len
  useValue global.maxInputSz tmpbuf len printable

/-- The two bytes that `mangle_Bytes` draws. -/
def rndWord (printable : Bool) : Mangler Bytes := do
  if printable then rndBufPrintable 2
  else
    let value ← rnd64
    pure [value.toUInt8, (value >>> 8).toUInt8]

def mangleBytes (printable : Bool) : Mangler Unit := do
  let buf ← rndWord printable
  let toCopy ← rndGet 1 2
  useValue global.maxInputSz buf toCopy printable

/-- `len`, or the gap that was opened for it. -/
def maybeInflate (off len : Nat) (printable : Bool) : Mangler Nat := do
  if ← rndBit then inflate global.maxInputSz off len printable else pure len

def mangleByteRepeat (printable : Bool) : Mangler Unit := do
  let off ← getOffSet
  let destOff := off + 1
  let maxSz := sizeSub (← size) destOff
  if maxSz = 0 then mangleBytes global printable
  else
    let len ← getLen maxSz
    let len ← maybeInflate global destOff len printable
    fill destOff (← load off) len

def mangleBit (printable : Bool) : Mangler Unit := do
  let off ← getOffSet
  let byte ← load off
  let bit ← rndGet 0 7
  store off (byte ^^^ UInt8.ofNat (2 ^ bit))
  if printable then
    let byte ← load off
    storeRange off (turnToPrintable [byte])

/-- The bytes that the table of magic values varies. -/
def magicBytes : Bytes :=
  [0x00, 0x01, 0x02, 0x03, 0x04, 0x05, 0x06, 0x07, 0x08, 0x09, 0x0A, 0x0B, 0x0C, 0x0D, 0x0E, 0x0F,
    0x10, 0x20, 0x40, 0x7E, 0x7F, 0x80, 0x81, 0xC0, 0xFE, 0xFF]

/-- The values of one width: without endianness, big and little endian. -/
def magicWords (width : Nat) : List Bytes :=
  let zeros := List.replicate (width - 1) 0x00
  let ones := List.replicate (width - 1) 0xFF
  [0x00, 0x01, 0x80, 0xFF].map (fun byte => List.replicate width byte) ++
    (magicBytes.tail.map fun byte => zeros ++ [byte]) ++
    [0x7E :: ones, 0x7F :: ones, 0x80 :: zeros,
      0x80 :: (List.replicate (width - 2) 0x00 ++ [0x01]), ones ++ [0xFE]] ++
    (magicBytes.map fun byte => byte :: zeros) ++
    [ones ++ [0x7E], ones ++ [0x7F], zeros ++ [0x80],
      0x01 :: (List.replicate (width - 2) 0x00 ++ [0x80]), 0xFE :: ones]

def magicEntry (word : Bytes) : DictEntry where
  val := word ++ List.replicate (8 - word.length) 0x00
  len := word.length

@[irreducible]
def mangleMagicVals : List DictEntry :=
  ((magicBytes.map fun byte => [byte]) ++ magicWords 2 ++ magicWords 4 ++ magicWords 8).map magicEntry

/-- `mangle_UseValue` for the entry of a table; the index stands in the table. -/
def useEntry (entries : List DictEntry) (choice : Nat) (printable : Bool) : Mangler Unit :=
  match entries[choice]? with
  | none => Attempt.raise .outOfBounds
  | some entry => useValue global.maxInputSz entry.val entry.len printable

def mangleMagic (printable : Bool) : Mangler Unit := do
  let choice ← rndGet 0 (mangleMagicVals.length - 1)
  useEntry global mangleMagicVals choice printable

def mangleStaticDict (printable : Bool) : Mangler Unit := do
  if global.dictionary.length = 0 then mangleBytes global printable
  else
    let choice ← rndGet 0 (global.dictionary.length - 1)
    useEntry global global.dictionary choice printable

def mangleFeedbackDict : Mangler (Option DictEntry) := do
  if !global.cmpFeedback then pure none
  else
    let map := global.cmpFeedbackMap (← look)
    if map.cnt = 0 then pure none
    else
      let choice ← rndGet 0 (min map.cnt map.valArr.length - 1)
      match map.valArr[choice]? with
      | none => Attempt.raise .outOfBounds
      | some entry => if entry.len = 0 then pure none else pure (some entry)

def mangleConstFeedbackDict (printable : Bool) : Mangler Unit := do
  match ← mangleFeedbackDict global with
  | none => mangleBytes global printable
  | some entry => useValue global.maxInputSz entry.val entry.len printable

/-- The byte that `mangle_MemSet` draws. -/
def rndByte (printable : Bool) : Mangler UInt8 := do
  if printable then rndPrintable else pure (UInt8.ofNat (← rndGet 0 255))

def mangleMemSet (printable : Bool) : Mangler Unit := do
  let off ← getOffSet
  let len ← getLenBehind off
  let val ← rndByte printable
  let len ← maybeInflate global off len printable
  fill off val len

def mangleMemClr (printable : Bool) : Mangler Unit := do
  let off ← getOffSet
  let len ← getLenBehind off
  let val : UInt8 := if printable then 32 else 0
  let len ← maybeInflate global off len printable
  fill off val len

/-- The bytes that `mangle_RandomBuf` draws. -/
def rndBlock (printable : Bool) (len : Nat) : Mangler Bytes :=
  if printable then rndBufPrintable len else rndBuf len

def mangleRandomBuf (printable : Bool) : Mangler Unit := do
  let off ← getOffSet
  let len ← getLenBehind off
  let len ← maybeInflate global off len printable
  let buf ← rndBlock printable len
  storeRange off buf

def ofLittleEndian : Bytes → Nat
  | [] => 0
  | byte :: rest => byte.toNat + 256 * ofLittleEndian rest

def toLittleEndian : Nat → Nat → Bytes
  | 0, _ => []
  | count + 1, value => UInt8.ofNat (value % 256) :: toLittleEndian count (value / 256)

/-- `val += delta` on a word of the given bytes, which wraps. -/
def addDelta (bytes : Bytes) (delta : Int) : Bytes :=
  toLittleEndian bytes.length ((ofLittleEndian bytes + delta) % 256 ^ bytes.length).toNat

/-- `mangle_AddSubWithRange`; only one byte is written without a look at
`printable`. -/
def mangleAddSubWithRange (off varLen range : Nat) (printable : Bool) : Mangler Unit := do
  let delta : Int := (← rndGet 0 (range * 2)) - range
  if varLen = 1 then
    let byte ← loadRange off 1
    storeRange off (addDelta byte delta)
  else if varLen = 2 ∨ varLen = 4 ∨ varLen = 8 then
    let val ← loadRange off varLen
    if ← rndBit then overwrite off (addDelta val delta) varLen printable
    else overwrite off (addDelta val.reverse delta).reverse varLen printable
  else Attempt.raise .logFatal

def mangleAddSub (printable : Bool) : Mangler Unit := do
  let off ← getOffSet
  let shift ← rndGet 0 3
  let varLen := if sizeSub (← size) off < 2 ^ shift then 1 else 2 ^ shift
  if varLen = 1 then mangleAddSubWithRange off varLen 16 printable
  else if varLen = 2 then mangleAddSubWithRange off varLen 4096 printable
  else if varLen = 4 then mangleAddSubWithRange off varLen 1048576 printable
  else if varLen = 8 then mangleAddSubWithRange off varLen 268435456 printable
  else Attempt.raise .logFatal

/-- The conversion of an `int` to `uint8_t`. -/
def byteOfInt (value : Int) : UInt8 := UInt8.ofNat (value % 256).toNat

def mangleIncByte (printable : Bool) : Mangler Unit := do
  let off ← getOffSet
  let byte ← load off
  if printable then store off (byteOfInt (((byte.toNat : Int) - 32 + 1).tmod 95 + 32))
  else store off (byte + 1)

def mangleDecByte (printable : Bool) : Mangler Unit := do
  let off ← getOffSet
  let byte ← load off
  if printable then store off (byteOfInt (((byte.toNat : Int) - 32 + 94).tmod 95 + 32))
  else store off (byte - 1)

def mangleNegByte (printable : Bool) : Mangler Unit := do
  let off ← getOffSet
  let byte ← load off
  if printable then store off (byteOfInt (94 - ((byte.toNat : Int) - 32) + 32))
  else store off (~~~byte)

/-- A length of at most 16 in fifteen of sixteen cases. -/
def getShortLen (max : Nat) : Mangler Nat := do
  if (← rndMod16) ≠ 0 then getLen (min 16 max) else getLen max

def mangleExpand (printable : Bool) : Mangler Unit := do
  let off ← getOffSet
  let len ← getShortLen (sizeSub global.maxInputSz off)
  let _ ← inflate global.maxInputSz off len printable

def mangleShrink (_printable : Bool) : Mangler Unit := do
  if (← size) ≤ 2 then pure ()
  else
    let offStart ← getOffSet
    let len ← lenLeft offStart
    if len = 0 then pure ()
    else
      let len ← getShortLen len
      let offEnd := offStart + len
      let lenToMove := sizeSub (← size) offEnd
      move offEnd offStart lenToMove
      setSize global.maxInputSz (sizeSub (← size) len)

/-- The buffer that `snprintf` with `"%-19"` fills. -/
def snprintf19 (text : Bytes) : Bytes :=
  (text ++ List.replicate (19 - text.length) 32).take 19 ++ [0]

def decimalDigits (value : Nat) : Bytes := utf8 (Nat.toDigits 10 value)

/-- `PRId64`. -/
def decimalInt64 (value : UInt64) : Bytes :=
  if value.toNat < 2 ^ 63 then decimalDigits value.toNat
  else 0x2D :: decimalDigits (2 ^ 64 - value.toNat)

def mangleASCIINum (printable : Bool) : Mangler Unit := do
  let len ← rndGet 2 8
  let value ← rnd64
  useValue global.maxInputSz (snprintf19 (decimalInt64 value)) len printable

def isDigit (byte : UInt8) : Bool := 0x30 ≤ byte && byte ≤ 0x39

def changedNum (value : UInt64) (choice : Nat) : Mangler UInt64 :=
  match choice with
  | 0 => pure (value + 1)
  | 1 => pure (value - 1)
  | 2 => pure (value * 2)
  | 3 => pure (value / 2)
  | 4 => rnd64
  | 5 => do pure (value + UInt64.ofNat (← rndGet 1 256))
  | 6 => do pure (value - UInt64.ofNat (← rndGet 1 256))
  | 7 => pure (~~~value)
  | _ => Attempt.raise .logFatal

def mangleASCIINumChange (printable : Bool) : Mangler Unit := do
  let off ← getOffSet
  let s ← Attempt.read
  let off := off + (s.data.drop off).findIdx isDigit
  let left := sizeSub s.data.length off
  if left = 0 then pure ()
  else
    -- 20 is the longest decimal of 64 bits
    let digits := ((s.data.drop off).take (min 20 left)).takeWhile isDigit
    let val := digits.foldl (fun val digit => val * 10 + (digit - 0x30).toUInt64) (0 : UInt64)
    let choice ← rndGet 0 7
    let val ← changedNum val choice
    useValueAt global.maxInputSz off (snprintf19 (decimalDigits val.toNat)) digits.length printable

def mangleSplice (printable : Bool) : Mangler Unit := do
  if global.dynFileMethodNone then mangleBytes global printable
  else
    match global.randomInput (← look) with
    | none => mangleBytes global printable
    | some buf =>
        if buf.length = 0 then mangleBytes global printable
        else
          let remoteOff := sizeSub (← getLen buf.length) 1
          let len ← getLen (sizeSub buf.length remoteOff)
          useValue global.maxInputSz (buf.drop remoteOff) len printable

/-- The new size that `mangle_Resize` draws. -/
def resized (oldsz : Int) (choice : Nat) : Mangler Int :=
  if choice = 0 then do pure (← rndGet 1 global.maxInputSz)
  else if choice ≤ 4 then do pure (oldsz + (← rndGet 0 8))
  else if choice = 5 then do pure (oldsz + (← rndGet 9 128))
  else if choice ≤ 9 then do pure (oldsz - (← rndGet 0 8))
  else if choice = 10 then do pure (oldsz - (← rndGet 9 128))
  else if choice ≤ 32 then pure oldsz
  else Attempt.raise .logFatal

def mangleResize (printable : Bool) : Mangler Unit := do
  let oldsz ← size
  let choice ← rndGet 0 32
  let newsz ← resized global oldsz choice
  let newsz := (min (max newsz 1) global.maxInputSz).toNat
  setSize global.maxInputSz newsz
  if oldsz < newsz ∧ printable = true then fill oldsz 32 (newsz - oldsz) else pure ()

def mangleFuncs : List (Bool → Mangler Unit) :=
  [mangleShrink global, mangleExpand global, mangleBit, mangleIncByte, mangleDecByte, mangleNegByte,
    mangleAddSub, mangleMemSet global, mangleMemClr global, mangleMemSwap, mangleMemCopy global,
    mangleBytes global, mangleASCIINum global, mangleASCIINumChange global, mangleByteRepeat global,
    mangleMagic global, mangleStaticDict global, mangleConstFeedbackDict global,
    mangleRandomBuf global, mangleSplice global]

/-- `mangle_ConstFeedbackDict` is taken in half of the rounds with feedback. -/
def prefersFeedback : Mangler Bool :=
  if global.cmpFeedback then rndBit else pure false

def mangleDrawn : Mangler Unit := do
  let choice ← rndGet 0 ((mangleFuncs global).length - 1)
  match (mangleFuncs global)[choice]? with
  | none => Attempt.raise .outOfBounds
  | some mutator => mutator global.onlyPrintable

/-- One round of the loop of `mangle_mangleContent`. -/
def mangleOnce : Mangler Unit := do
  if ← prefersFeedback global then mangleConstFeedbackDict global global.onlyPrintable
  else mangleDrawn global

def mangleEmpty : Mangler Unit := do
  if (← size) = 0 then mangleResize global global.onlyPrintable else pure ()

/-- The splice of a run that has not found coverage for a while. -/
def mangleStale : Mangler Unit :=
  if 5 < global.secondsSinceCovUpdate then do
    if ← rndBit then mangleSplice global global.onlyPrintable else pure ()
  else pure ()

/-- `mangle_mangleContent`; `mutationsPerRun` is the field of `run_t`, which is
zero in a run that only replays. -/
def mangleContent (mutationsPerRun : Nat) : Mangler Unit :=
  if mutationsPerRun = 0 then pure ()
  else do
    mangleEmpty global
    let changesCnt ← rndGet 1 global.mutationsPerRun
    mangleStale global
    (List.range changesCnt).forM fun _ => mangleOnce global

end Mutators

end GraphDissect.Fuzzing
