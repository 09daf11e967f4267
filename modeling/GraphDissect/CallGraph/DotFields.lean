import GraphDissect.Library.MapM
import GraphDissect.CallGraph.DotParser
import GraphDissect.CallGraph.DotWriter

/-!
# Reading a written line

The searches of the parser on the lines of the writer: every field is found
behind its tag, because names have no parenthesis and values neither.
-/

namespace GraphDissect.CallGraph

open Library

/-- A function name that the format can carry. -/
structure PlainName (name : List Char) : Prop where
  ne_nil : name ≠ []
  plain : ∀ c ∈ name, isCSpace c = false ∧ c ∉ "\"[]()->".toList
  unmarked : ¬ "Node0x".toList <:+: name

instance (name : List Char) : Decidable (PlainName name) :=
  decidable_of_iff
    (name ≠ [] ∧ name.all (fun c => isCSpace c = false ∧ c ∉ "\"[]()->".toList) = true ∧
      ¬ "Node0x".toList <:+: name)
    ⟨fun ⟨ne_nil, plain, unmarked⟩ =>
      ⟨ne_nil, fun c member => of_decide_eq_true (List.all_eq_true.mp plain c member), unmarked⟩,
      fun ⟨ne_nil, plain, unmarked⟩ =>
        ⟨ne_nil, List.all_eq_true.mpr fun c member => decide_eq_true (plain c member), unmarked⟩⟩

theorem PlainName.notMem {name : List Char} (plain : PlainName name) {c : Char}
    (special : isCSpace c = true ∨ c ∈ "\"[]()->".toList) : c ∉ name := by
  intro member
  obtain ⟨visible, ordinary⟩ := plain.plain c member
  obtain space | punctuation := special
  · rw [space] at visible
    cases visible
  · exact ordinary punctuation

section Values

/-- The characters of masks, numerals and lists of keys. -/
def IsValue (value : List Char) : Prop := ∀ c ∈ value, c ∈ "0123456789abcdefx,".toList

theorem isValue_toDigits {base : Nat} (large : 1 < base) (short : base ≤ 16) (n : Nat) :
    IsValue (Nat.toDigits base n) := by
  intro c member
  obtain ⟨d, small, rfl⟩ := mem_toDigits large member
  have all : ∀ d < 16, d.digitChar ∈ "0123456789abcdefx,".toList := by decide
  exact all d (by omega)

theorem isValue_decimal (n : UInt32) : IsValue (decimal n) :=
  isValue_toDigits (by decide) (by decide) _

theorem isValue_hexadecimal (n : Nat) : IsValue (hexadecimal n) := by
  intro c member
  simp only [hexadecimal, List.mem_cons] at member
  obtain rfl | rfl | member := member
  · decide
  · decide
  · exact isValue_toDigits (by decide) (by decide) n c member

def maskText (mask : DriverIdMask) : List Char := if maskNone mask then ['0'] else maskBits mask

theorem isValue_maskText (mask : DriverIdMask) : IsValue (maskText mask) := by
  intro c member
  unfold maskText at member
  split at member
  · obtain rfl : c = '0' := by simpa using member
    decide
  · obtain ⟨bit, -, rfl⟩ := List.mem_map.mp member
    split <;> decide

def keysText (keys : List UInt64) : List Char :=
  List.intercalate [','] (keys.map fun key => hexadecimal key.toNat)

theorem isValue_keysText (keys : List UInt64) : IsValue (keysText keys) := by
  unfold keysText
  induction keys with
  | nil =>
    intro c member
    simp [List.intercalate] at member
  | cons key rest inductionHypothesis =>
    cases rest with
    | nil =>
      rw [List.map_cons, List.map_nil, List.intercalate_singleton]
      exact isValue_hexadecimal key.toNat
    | cons next rest =>
      intro c member
      rw [List.map_cons, List.map_cons, List.intercalate_cons_cons, List.append_assoc] at member
      obtain here | member := List.mem_append.mp member
      · exact isValue_hexadecimal key.toNat c here
      · obtain comma | later := List.mem_append.mp member
        · obtain rfl : c = ',' := by simpa using comma
          decide
        · exact inductionHypothesis c later

theorem IsValue.notMem {value : List Char} (isValue : IsValue value) {c : Char}
    (special : c ∉ "0123456789abcdefx,".toList) : c ∉ value :=
  fun member => special (isValue c member)

end Values

section Fields

theorem getField_eq (tag : String) (line : List Char) :
    getField tag line = ((breakOn ('(' :: (tag.toList ++ ['='])) line).map Prod.snd).bind
      fun rest => (breakOn [')'] rest).map Prod.fst := by
  unfold getField
  cases breakOn ('(' :: (tag.toList ++ ['='])) line with
  | none => rfl
  | some pieces =>
    show (breakOn [')'] pieces.2).bind _ = (breakOn [')'] pieces.2).map Prod.fst
    cases breakOn [')'] pieces.2 <;> rfl

theorem getField_skip {tag : String} {s t : List Char} (absent : '(' ∉ s) :
    getField tag (s ++ t) = getField tag t := by
  rw [getField_eq, getField_eq, breakOn_skip absent, Option.map_map]
  rfl

theorem getField_here {tag : String} {value s : List Char} (isValue : IsValue value) :
    getField tag (dotField tag value ++ s) = some value := by
  have shape : dotField tag value ++ s =
      '(' :: (tag.toList ++ ['=']) ++ (value ++ ')' :: ([] ++ s)) := by
    simp [dotField]
  rw [getField_eq, shape, breakOn_append (by simp), Option.map_some, Option.bind_some,
    breakOn_skip_append (isValue.notMem (by decide))]
  rfl

theorem getField_other {tag other : String} {t o : Char} {ts os value s : List Char}
    (tagged : tag.toList = t :: ts) (otherTagged : other.toList = o :: os) (apart : t ≠ o)
    (absent : '(' ∉ other.toList) (isValue : IsValue value) :
    getField tag (dotField other value ++ s) = getField tag s := by
  have shape : dotField other value ++ s = '(' :: ((other.toList ++ '=' :: (value ++ [')'])) ++ s) := by
    simp [dotField]
  have notPrefix : ¬ '(' :: (tag.toList ++ ['=']) <+:
      '(' :: ((other.toList ++ '=' :: (value ++ [')'])) ++ s) := by
    rw [List.cons_prefix_cons, tagged, otherTagged]
    rintro ⟨-, here⟩
    exact apart (List.cons_prefix_cons.mp here).1
  have rest : '(' ∉ other.toList ++ '=' :: (value ++ [')']) := by
    simp [absent, isValue.notMem (by decide : '(' ∉ _)]
  rw [getField_eq, shape, breakOn_cons_of_not_prefix notPrefix, breakOn_skip rest, getField_eq]
  simp [Option.map_map, Function.comp_def]

/-- Fields in a row, each behind a space. -/
def dotFields (fields : List (String × List Char)) : List Char :=
  fields.flatMap fun field => ' ' :: dotField field.1 field.2

/-- The search for `tag` passes this field. -/
def Passes (tag : String) (field : String × List Char) : Prop :=
  tag.toList.head? ≠ field.1.toList.head? ∧ tag.toList ≠ [] ∧ field.1.toList ≠ [] ∧
    '(' ∉ field.1.toList ∧ IsValue field.2

theorem passes_of {tag other : String} {value : List Char}
    (apart : tag.toList.head? ≠ other.toList.head?) (named : tag.toList ≠ [])
    (otherNamed : other.toList ≠ []) (absent : '(' ∉ other.toList) (isValue : IsValue value) :
    Passes tag (other, value) :=
  ⟨apart, named, otherNamed, absent, isValue⟩

theorem getField_dotFields {tag : String} {before value after : List Char}
    {passed : List (String × List Char)} (absent : '(' ∉ before)
    (passes : ∀ field ∈ passed, Passes tag field) (isValue : IsValue value) :
    getField tag (before ++ (dotFields passed ++ ' ' :: (dotField tag value ++ after))) =
      some value := by
  rw [getField_skip absent]
  induction passed with
  | nil =>
    show getField tag ([' '] ++ (dotField tag value ++ after)) = some value
    rw [getField_skip (by decide), getField_here isValue]
  | cons field rest inductionHypothesis =>
    obtain ⟨apart, named, otherNamed, plain, isOther⟩ := passes field List.mem_cons_self
    obtain ⟨t, ts, tagged⟩ := List.exists_cons_of_ne_nil named
    obtain ⟨o, os, otherTagged⟩ := List.exists_cons_of_ne_nil otherNamed
    have different : t ≠ o := by
      rintro rfl
      exact apart (by rw [tagged, otherTagged]; rfl)
    have shape : dotFields (field :: rest) ++ ' ' :: (dotField tag value ++ after) =
        [' '] ++ (dotField field.1 field.2 ++
          (dotFields rest ++ ' ' :: (dotField tag value ++ after))) := by
      simp [dotFields]
    rw [shape, getField_skip (by decide),
      getField_other tagged otherTagged different plain isOther]
    exact inductionHypothesis fun other member => passes other (List.mem_cons_of_mem field member)

end Fields

section Conversions

theorem maskBits_reverse (mask : DriverIdMask) :
    (maskBits mask).reverse.map (fun c => decide (c = '1')) = mask := by
  rw [maskBits, ← List.map_reverse, List.reverse_reverse, List.map_map]
  conv_rhs => rw [← List.map_id mask]
  refine List.map_congr_left fun bit _ => ?_
  cases bit <;> rfl

/-- The mask that the parser reads: a clear mask comes back with one bit. -/
def readMask (mask : DriverIdMask) : DriverIdMask := if maskNone mask then [false] else mask

theorem maskText_reverse (mask : DriverIdMask) :
    (maskText mask).reverse.map (fun c => decide (c = '1')) = readMask mask := by
  unfold maskText readMask
  split
  · rfl
  · exact maskBits_reverse mask

theorem hasDriverId_readMask (mask : DriverIdMask) :
    hasDriverId (readMask mask) = hasDriverId mask := by
  unfold readMask
  split
  · next none =>
    funext driverId
    have clear : ∀ bit ∈ mask, bit = false := by simpa [maskNone] using none
    by_cases zero : driverId = 0
    · simp [zero]
    · rw [hasDriverId_eq zero, hasDriverId_eq zero]
      cases found : mask[driverId - 1]? with
      | none => cases driverId - 1 <;> simp
      | some bit =>
        rw [clear bit (List.mem_of_getElem? found)]
        cases driverId - 1 <;> simp
  · rfl

theorem getlines_keysText (keys : List UInt64) :
    (getlines ',' (keysText keys)).filter (· ≠ []) =
      keys.map fun key => hexadecimal key.toNat := by
  cases keys with
  | nil => rfl
  | cons key rest =>
    let numerals := (key :: rest).map fun key => hexadecimal key.toNat
    have commas : ∀ numeral ∈ numerals, ',' ∉ numeral := by
      intro numeral member
      obtain ⟨key, -, rfl⟩ := List.mem_map.mp member
      simp only [hexadecimal, List.mem_cons, not_or]
      refine ⟨by decide, by decide, ?_⟩
      intro comma
      obtain ⟨d, small, equal⟩ := mem_toDigits (by decide) comma
      have apart : ∀ d < 16, ',' ≠ d.digitChar := by decide
      exact apart d small equal
    have visible : ∀ numeral ∈ numerals, numeral ≠ [] := by
      intro numeral member
      obtain ⟨key, -, rfl⟩ := List.mem_map.mp member
      exact List.cons_ne_nil _ _
    have split : (keysText (key :: rest)).splitOnP (· = ',') = numerals :=
      List.splitOn_intercalate ',' commas (List.cons_ne_nil _ _)
    have last : numerals.getLast? ≠ some [] := by
      intro empty
      exact visible [] (List.mem_of_getLast? empty) rfl
    rw [getlines, split, if_neg last]
    exact List.filter_eq_self.mpr fun numeral member => by simpa using visible numeral member

theorem getKeys_keysText {line : List Char} {keys : List UInt64}
    (found : getField "Key" line = some (keysText keys)) : getKeys line = some keys := by
  unfold getKeys
  rw [found]
  dsimp only
  rw [getlines_keysText]
  have read := @mapM_map_eq_some _ _ _ keys (fun key => hexadecimal key.toNat) (stoull 16) id
    fun key _ => stoull_hex key
  rwa [List.map_id] at read

theorem getHitNum_decimal {line : List Char} {hitNum : UInt32}
    (found : getField "HitNum" line = some (decimal hitNum)) : getHitNum line = some hitNum := by
  have small : hitNum.toNat < 18446744073709551616 := by
    have := hitNum.toNat_lt
    omega
  unfold getHitNum
  rw [found]
  dsimp only
  rw [decimal, if_neg Nat.toDigits_ne_nil, stoull_decimal small, Option.map_some]
  simp

theorem getBlockNum_decimal {line : List Char} {blockNum : UInt32}
    (found : getField "blocks" line = some (decimal blockNum)) (small : blockNum.toNat < 2147483648) :
    getBlockNum line = some blockNum := by
  unfold getBlockNum
  rw [found, Option.bind_some, decimal, stoi_decimal small, Option.map_some]
  congr 1
  apply UInt32.toNat_inj.mp
  simp only [UInt32.ofInt, UInt32.toNat_ofNat']
  omega

end Conversions

end GraphDissect.CallGraph
