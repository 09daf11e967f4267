import GraphDissect.Library.CString
import GraphDissect.Library.Numerals

/-!
# The list of known stack hashes

`input_parseBlacklist` accepts a file whose hashes are sorted, and
`fastArray64Search` looks a hash up in it: an interpolation search that moves by
a whole number of places for each unit of the value.
-/

namespace GraphDissect.Fuzzing.Blocklist

open Library

def sub64 (a b : Nat) : Nat := (a + 2 ^ 64 - b) % 2 ^ 64

theorem sub64_of_le {a b : Nat} (le : b ≤ a) (word : a < 2 ^ 64) : sub64 a b = a - b := by
  unfold sub64
  omega

/-- The place that is looked at between `low` and `high`. -/
def interpolate (low high bottom top key : Nat) : Nat :=
  (low + sub64 key bottom * (sub64 high low / sub64 top bottom)) % 2 ^ 64

/-- The loop of `fastArray64Search`.  The outer `none` is an access outside of
the array, the inner one stands for `-1`. -/
def searchFrom (array : List Nat) (key : Nat) : Nat → Nat → Nat → Option (Option Nat)
  | 0, _, _ => none
  | rounds + 1, low, high =>
      array[high]?.bind fun top => array[low]?.bind fun bottom =>
        if top ≠ bottom ∧ bottom ≤ key ∧ key ≤ top then
          array[interpolate low high bottom top key]?.bind fun middle =>
            if middle < key then
              searchFrom array key rounds ((interpolate low high bottom top key + 1) % 2 ^ 64) high
            else if key < middle then
              searchFrom array key rounds low (sub64 (interpolate low high bottom top key) 1)
            else some (some (interpolate low high bottom top key))
        else some (if key = bottom then some low else none)

/-- Every round makes the interval smaller, so there are at most as many as there
are elements. -/
def fastArray64Search (array : List Nat) (key : Nat) : Option (Option Nat) :=
  searchFrom array key array.length 0 (sub64 array.length 1)

section Search

variable {array : List Nat} {key low high rounds : Nat}

def Answers (array : List Nat) (key : Nat) : Option Nat → Prop
  | some place => array[place]? = some key
  | none => key ∉ array

/-- The key is not outside of the interval. -/
structure Narrowed (array : List Nat) (key low high : Nat) : Prop where
  ordered : low ≤ high
  inside : high < array.length
  below : ∀ i < low, ∀ value, array[i]? = some value → value < key
  above : ∀ i, high < i → ∀ value, array[i]? = some value → key < value

theorem interpolate_between {bottom top : Nat} (ordered : low ≤ high) (word : high < 2 ^ 64)
    (least : bottom ≤ key) (most : key ≤ top) (large : top < 2 ^ 64) :
    low ≤ interpolate low high bottom top key ∧ interpolate low high bottom top key ≤ high := by
  have moved : (key - bottom) * ((high - low) / (top - bottom)) ≤ high - low := by
    calc (key - bottom) * ((high - low) / (top - bottom))
        ≤ (top - bottom) * ((high - low) / (top - bottom)) :=
          Nat.mul_le_mul_right _ (Nat.sub_le_sub_right most bottom)
      _ ≤ high - low := Nat.mul_div_le _ _
  unfold interpolate
  rw [sub64_of_le least (by omega), sub64_of_le ordered word, sub64_of_le (by omega) large,
    Nat.mod_eq_of_lt (by omega)]
  omega

theorem getElem?_le (sorted : array.Pairwise (· ≤ ·)) {i j first second : Nat} (ordered : i ≤ j)
    (isFirst : array[i]? = some first) (isSecond : array[j]? = some second) : first ≤ second := by
  obtain ⟨insideFirst, rfl⟩ := List.getElem?_eq_some_iff.mp isFirst
  obtain ⟨insideSecond, rfl⟩ := List.getElem?_eq_some_iff.mp isSecond
  rcases Nat.lt_or_eq_of_le ordered with before | same
  · exact List.pairwise_iff_getElem.mp sorted i j insideFirst insideSecond before
  · subst same
    exact Nat.le_refl _

theorem searchFrom_answers (sorted : array.Pairwise (· ≤ ·)) (words : ∀ value ∈ array, value < 2 ^ 64)
    (short : array.length < 2 ^ 64) (narrowed : Narrowed array key low high)
    (enough : high - low < rounds) :
    ∃ answer, searchFrom array key rounds low high = some answer ∧ Answers array key answer := by
  induction rounds generalizing low high with
  | zero => cases enough
  | succ rounds inductionHypothesis =>
    obtain ⟨ordered, inside, below, above⟩ := narrowed
    obtain ⟨top, isTop⟩ : ∃ top, array[high]? = some top := ⟨_, List.getElem?_eq_getElem inside⟩
    obtain ⟨bottom, isBottom⟩ : ∃ bottom, array[low]? = some bottom :=
      ⟨_, List.getElem?_eq_getElem (Nat.lt_of_le_of_lt ordered inside)⟩
    have large := words top (List.mem_of_getElem? isTop)
    rw [searchFrom, isTop, Option.bind_some, isBottom, Option.bind_some]
    split
    · next goes =>
      obtain ⟨-, least, most⟩ := goes
      obtain ⟨fromLow, toHigh⟩ :=
        interpolate_between ordered (by omega) least most large
      generalize interpolate low high bottom top key = mid at fromLow toHigh
      obtain ⟨middle, isMiddle⟩ : ∃ middle, array[mid]? = some middle :=
        ⟨_, List.getElem?_eq_getElem (by omega)⟩
      rw [isMiddle, Option.bind_some]
      split
      · next less =>
        -- the top is not less than the key, so there is something behind `mid`
        have before : mid ≠ high := by
          rintro rfl
          cases isMiddle.symm.trans isTop
          omega
        rw [Nat.mod_eq_of_lt (by omega)]
        refine inductionHypothesis ⟨by omega, inside, fun i earlier value isValue => ?_, above⟩
          (by omega)
        have := getElem?_le sorted (Nat.le_of_lt_succ earlier) isValue isMiddle
        omega
      · split
        · next more =>
          have behind : mid ≠ low := by
            rintro rfl
            cases isMiddle.symm.trans isBottom
            omega
          rw [sub64_of_le (by omega) (by omega)]
          refine inductionHypothesis
            ⟨by omega, by omega, below, fun i later value isValue => ?_⟩ (by omega)
          have := getElem?_le sorted (by omega : mid ≤ i) isMiddle isValue
          omega
        · next notLess notMore =>
          refine ⟨some mid, rfl, ?_⟩
          rw [Answers, isMiddle, Nat.le_antisymm (Nat.not_lt.mp notMore) (Nat.not_lt.mp notLess)]
    · next stops =>
      split
      · next here => exact ⟨some low, rfl, here ▸ isBottom⟩
      · next other =>
        refine ⟨none, rfl, fun member => ?_⟩
        obtain ⟨i, isKey⟩ := List.mem_iff_getElem?.mp member
        have notBelow : low ≤ i := by
          by_contra earlier
          exact Nat.lt_irrefl key (below i (by omega) key isKey)
        have notAbove : i ≤ high := by
          by_contra later
          exact Nat.lt_irrefl key (above i (by omega) key isKey)
        have least := getElem?_le sorted notBelow isBottom isKey
        have most := getElem?_le sorted notAbove isKey isTop
        omega

theorem fastArray64Search_answers (sorted : array.Pairwise (· ≤ ·))
    (words : ∀ value ∈ array, value < 2 ^ 64) (short : array.length < 2 ^ 64)
    (nonempty : array ≠ []) (key : Nat) :
    ∃ answer, fastArray64Search array key = some answer ∧ Answers array key answer := by
  have positive := List.length_pos_iff.mpr nonempty
  unfold fastArray64Search
  rw [sub64_of_le positive short]
  refine searchFrom_answers sorted words short ⟨by omega, by omega, ?_, ?_⟩ (by omega)
  · intro i earlier
    cases earlier
  · intro i later value isValue
    rw [List.getElem?_eq_none (by omega)] at isValue
    cases isValue

end Search

/-- `strtoull` in base 16. -/
def strtoull (s : List Char) : Nat :=
  match strto 16 s with
  | none => 0
  | some (negative, n) =>
      if 2 ^ 64 ≤ n then 2 ^ 64 - 1 else if negative then sub64 0 n else n

def stackHash (line : Bytes) : Nat :=
  strtoull ((cstr line).map Char.ofUInt8)

/-- The loop of `input_parseBlacklist`; `none` is the end of the process by
`LOG_F`, for a hash that is out of order or for an empty file. -/
def loadHashes : List Nat → List Bytes → Option (List Nat)
  | blocklist, [] => if blocklist = [] then none else some blocklist
  | blocklist, line :: lines =>
      if ∃ last ∈ blocklist.getLast?, stackHash line < last then none
      else loadHashes (blocklist ++ [stackHash line]) lines

def parseBlacklist (file : Bytes) : Option (List Nat) :=
  loadHashes [] (getdelim newline file)

section Files

theorem strtoull_lt (s : List Char) : strtoull s < 2 ^ 64 := by
  unfold strtoull
  split
  · decide
  · split
    · decide
    · next small =>
      split
      · exact Nat.mod_lt _ (by decide)
      · omega

theorem pairwise_concat_iff {blocklist : List Nat} {hash : Nat} (sorted : blocklist.Pairwise (· ≤ ·)) :
    (blocklist ++ [hash]).Pairwise (· ≤ ·) ↔ ¬ ∃ last ∈ blocklist.getLast?, hash < last := by
  rcases List.eq_nil_or_concat' blocklist with rfl | ⟨front, last, rfl⟩
  · simp
  · rw [List.getLast?_concat]
    simp only [Option.mem_def, Option.some.injEq, exists_eq_left', Nat.not_lt]
    constructor
    · intro ordered
      exact (List.pairwise_append.mp ordered).2.2 last (by simp) hash (by simp)
    · intro most
      refine List.pairwise_append.mpr ⟨sorted, List.pairwise_singleton _ _, ?_⟩
      intro value member other isHash
      rw [List.mem_singleton] at isHash
      subst isHash
      rcases List.mem_append.mp member with earlier | isLast
      · have before := (List.pairwise_append.mp sorted).2.2 value earlier last (by simp)
        exact before.trans most
      · rw [List.mem_singleton] at isLast
        exact isLast ▸ most

theorem loadHashes_eq_some_iff {lines : List Bytes} {blocklist loaded : List Nat}
    (sorted : blocklist.Pairwise (· ≤ ·)) :
    loadHashes blocklist lines = some loaded ↔
      loaded = blocklist ++ lines.map stackHash ∧ loaded ≠ [] ∧ loaded.Pairwise (· ≤ ·) := by
  induction lines generalizing blocklist with
  | nil =>
    rw [loadHashes, Option.ite_none_left_eq_some]
    constructor
    · rintro ⟨nonempty, equal⟩
      cases equal
      exact ⟨by simp, nonempty, sorted⟩
    · rintro ⟨equal, nonempty, -⟩
      rw [List.map_nil, List.append_nil] at equal
      subst equal
      exact ⟨nonempty, rfl⟩
  | cons line lines inductionHypothesis =>
    rw [loadHashes, Option.ite_none_left_eq_some, ← pairwise_concat_iff sorted]
    constructor
    · rintro ⟨ordered, loads⟩
      obtain ⟨rfl, nonempty, whole⟩ := (inductionHypothesis ordered).mp loads
      exact ⟨by simp, nonempty, whole⟩
    · rintro ⟨rfl, nonempty, whole⟩
      have split : blocklist ++ (line :: lines).map stackHash =
          (blocklist ++ [stackHash line]) ++ lines.map stackHash := by simp
      have ordered := (List.pairwise_append.mp (split ▸ whole)).1
      exact ⟨ordered, (inductionHypothesis ordered).mpr ⟨split, nonempty, whole⟩⟩

theorem parseBlacklist_eq_some_iff {file : Bytes} {loaded : List Nat} :
    parseBlacklist file = some loaded ↔
      loaded = (getdelim newline file).map stackHash ∧ loaded ≠ [] ∧ loaded.Pairwise (· ≤ ·) :=
  loadHashes_eq_some_iff List.Pairwise.nil

theorem length_getdelim_le (delimiter : UInt8) (s : Bytes) : (getdelim delimiter s).length ≤ s.length := by
  induction s with
  | nil => exact Nat.le_refl 0
  | cons c s inductionHypothesis =>
    rw [getdelim]
    split
    · exact Nat.succ_le_succ inductionHypothesis
    · split
      · exact Nat.succ_le_succ (Nat.zero_le _)
      · next line lines split =>
        rw [split] at inductionHypothesis
        exact Nat.le_succ_of_le inductionHypothesis

/-- With any list that was accepted the search of a hash stays inside of the
list, ends, and finds it exactly when a line of the file has it. -/
theorem blocklist_exact {file : Bytes} {blocklist : List Nat}
    (parsed : parseBlacklist file = some blocklist) (short : file.length < 2 ^ 64) (key : Nat) :
    ∃ answer, fastArray64Search blocklist key = some answer ∧
      (answer.isSome = true ↔ ∃ line ∈ getdelim newline file, stackHash line = key) := by
  obtain ⟨rfl, nonempty, sorted⟩ := parseBlacklist_eq_some_iff.mp parsed
  have words : ∀ value ∈ (getdelim newline file).map stackHash, value < 2 ^ 64 := by
    intro value member
    obtain ⟨line, -, rfl⟩ := List.mem_map.mp member
    exact strtoull_lt _
  have count : ((getdelim newline file).map stackHash).length < 2 ^ 64 := by
    rw [List.length_map]
    exact Nat.lt_of_le_of_lt (length_getdelim_le newline file) short
  obtain ⟨answer, ended, answers⟩ := fastArray64Search_answers sorted words count nonempty key
  refine ⟨answer, ended, ?_⟩
  rw [← List.mem_map]
  cases answer with
  | none => exact iff_of_false (by simp) answers
  | some place => exact iff_of_true rfl (List.mem_of_getElem? answers)

theorem blocklist_exact_small :
    ∃ answer, fastArray64Search [2, 7, 40] 7 = some answer ∧
      (answer.isSome = true ↔
        ∃ line ∈ getdelim newline [0x32, 0x0A, 0x37, 0x0A, 0x32, 0x38, 0x0A], stackHash line = 7) :=
  blocklist_exact (by decide +kernel) (by decide) 7

def writeHash (hash : Nat) : Bytes :=
  (Nat.toDigits 16 hash).map fun c => c.toNat.toUInt8

def writeBlacklist (hashes : List Nat) : Bytes :=
  hashes.flatMap fun hash => writeHash hash ++ [newline]

theorem ofByte_digit {hash : Nat} {c : Char} (member : c ∈ Nat.toDigits 16 hash) :
    Char.ofUInt8 c.toNat.toUInt8 = c ∧ c.toNat.toUInt8 ≠ 0 ∧ c.toNat.toUInt8 ≠ newline := by
  obtain ⟨d, small, rfl⟩ := mem_toDigits (by decide) member
  clear member
  revert d
  decide

theorem stackHash_writeHash {hash : Nat} (word : hash < 2 ^ 64) :
    stackHash (writeHash hash ++ [newline]) = hash := by
  have whole : cstr (writeHash hash ++ [newline]) = writeHash hash ++ [newline] := by
    rw [cstr_eq_self_iff]
    intro zero
    rcases List.mem_append.mp zero with inside | isEnd
    · obtain ⟨c, member, isZero⟩ := List.mem_map.mp inside
      exact (ofByte_digit member).2.1 isZero
    · rw [List.mem_singleton] at isEnd
      exact absurd isEnd (by decide)
  have text : (writeHash hash ++ [newline]).map Char.ofUInt8 = Nat.toDigits 16 hash ++ ['\n'] := by
    have digits : (writeHash hash).map Char.ofUInt8 = Nat.toDigits 16 hash := by
      rw [writeHash, List.map_map]
      exact (List.map_congr_left fun c member => (ofByte_digit member).1).trans (List.map_id _)
    rw [List.map_append, digits]
    rfl
  have value : strto 16 (Nat.toDigits 16 hash ++ ['\n']) = some (false, hash) := by
    refine strto_hex_append hash ?_ ?_
    · intro c isEnd
      cases isEnd
      decide
    · intro c isEnd
      cases isEnd
      decide
  rw [stackHash, whole, text, strtoull, value]
  exact (if_neg (Nat.not_le.mpr word)).trans (if_neg (by decide))

/-- A list that was written in order is loaded as it was. -/
theorem parseBlacklist_writeBlacklist {hashes : List Nat} (nonempty : hashes ≠ [])
    (words : ∀ hash ∈ hashes, hash < 2 ^ 64) (sorted : hashes.Pairwise (· ≤ ·)) :
    parseBlacklist (writeBlacklist hashes) = some hashes := by
  have lines : getdelim newline (writeBlacklist hashes) =
      hashes.map fun hash => writeHash hash ++ [newline] := by
    refine getdelim_flatMap fun hash _ inside => ?_
    obtain ⟨c, member, isEnd⟩ := List.mem_map.mp inside
    exact (ofByte_digit member).2.2 isEnd
  have read : (getdelim newline (writeBlacklist hashes)).map stackHash = hashes := by
    rw [lines, List.map_map]
    exact (List.map_congr_left fun hash member => stackHash_writeHash (words hash member)).trans
      (List.map_id _)
  exact parseBlacklist_eq_some_iff.mpr ⟨read.symm, nonempty, sorted⟩

theorem parseBlacklist_writeBlacklist_three :
    parseBlacklist (writeBlacklist [2, 7, 40]) = some [2, 7, 40] :=
  parseBlacklist_writeBlacklist (by decide) (by decide) (by decide)

end Files

end GraphDissect.Fuzzing.Blocklist
