import GraphDissect.Fuzzing.MangleRuns
import GraphDissect.Library.CString
import GraphDissect.Library.Numerals
import GraphDissect.Library.MapM

/-!
# The dictionary file

`input_parseDictionary` reads a word of a line from between its outer quotes
into a buffer of 1025 bytes and decodes it there with `util_decodeCString`,
which reads and writes the same array.
-/

namespace GraphDissect.Fuzzing.Dictionary

open Library

def quote : UInt8 := 0x22
def hash : UInt8 := 0x23
def backslash : UInt8 := 0x5C
def hexMark : UInt8 := 0x78

/-- The characters that stand for another byte behind a backslash. -/
def controlEscapes : List (UInt8 × UInt8) :=
  [(0x61, 0x07), (0x72, 0x0D), (0x6E, 0x0A), (0x74, 0x09), (0x30, 0x00)]

/-- `strtoul` of two characters, cut to a `char`. -/
def hexByte (high low : UInt8) : UInt8 :=
  match strto 16 [Char.ofUInt8 high, Char.ofUInt8 low] with
  | none => 0
  | some (negative, n) => if negative then -UInt8.ofNat n else UInt8.ofNat n

/-- A store into an array; `none` is one outside of it. -/
def setByte (s : Bytes) (position : Nat) (b : UInt8) : Option Bytes :=
  if position < s.length then some (s.set position b) else none

/-- The byte for the character `e` at `i` behind a backslash, and where its
escape ends. -/
def escapeAt (s : Bytes) (i : Nat) (e : UInt8) : Option (UInt8 × Nat) :=
  match controlEscapes.lookup e with
  | some b => some (b, i)
  | none =>
      if e = hexMark then
        s[i + 1]?.bind fun high =>
          if high = 0 then some (e, i)
          else s[i + 2]?.bind fun low =>
            if low = 0 then some (e, i) else some (hexByte high low, i + 2)
      else some (e, i)

/-- The loop of `util_decodeCString`, which reads at `i` and writes at `o`; a
backslash in front of the NUL leads behind it.  Every round moves `i`, so the
fuel is used up only outside of the array. -/
def decodeFrom : Nat → Bytes → Nat → Nat → Option (Nat × Bytes)
  | 0, _, _, _ => none
  | fuel + 1, s, i, o =>
      s[i]?.bind fun c =>
        if c = 0 ∨ c = quote then (setByte s o 0).map fun s => (o, s)
        else if c = backslash then
          s[i + 1]?.bind fun e =>
            if e = 0 then decodeFrom fuel s (i + 2) (o + 1)
            else (escapeAt s (i + 1) e).bind fun (b, last) =>
              (setByte s o b).bind fun s => decodeFrom fuel s (last + 1) (o + 1)
        else (setByte s o c).bind fun s => decodeFrom fuel s (i + 1) (o + 1)

def decodeCString (s : Bytes) : Option (Nat × Bytes) :=
  decodeFrom (s.length + 1) s 0 0

/-- A line as a C string, without its newline unless that is all of it. -/
def lineText (line : Bytes) : Bytes :=
  cstr (if 1 < line.length ∧ line.getLast? = some newline then line.dropLast else line)

/-- The text between the first and the last quote. -/
def betweenQuotes (text : Bytes) : Option Bytes :=
  match text.dropWhile (· ≠ quote) with
  | [] => none
  | _ :: after =>
      match after.reverse.dropWhile (· ≠ quote) with
      | [] => none
      | _ :: before => if before = [] then none else some before.reverse

/-- The word of a line; `none` is a line that is skipped. -/
def dictionaryWord (line : Bytes) : Option Bytes :=
  if (lineText line).head? ∈ [none, some hash, some newline] then none
  else betweenQuotes (lineText line)

/-- `sscanf` with `%1024c` into the zeroed `bufv`. -/
def bufv (word : Bytes) : Bytes :=
  word.take 1024 ++ List.replicate (1025 - (word.take 1024).length) 0

/-- An element of `dictionary` with the first 512 of the decoded bytes. -/
def dictEntry (len : Nat) (s : Bytes) : DictEntry where
  val := s.take (min len 512) ++ List.replicate (512 - min len 512) 0
  len := min len 512

def loadWord (word : Bytes) : Option DictEntry :=
  (decodeCString (bufv word)).map fun (len, s) => dictEntry len s

/-- The loop of `input_parseDictionary` over its lines. -/
def loadLines : List Bytes → List DictEntry → Option (List DictEntry)
  | [], dictionary => some dictionary
  | line :: lines, dictionary =>
      if dictionary.length = 8192 then some dictionary
      else
        match dictionaryWord line with
        | none => loadLines lines dictionary
        | some word => (loadWord word).bind fun entry => loadLines lines (dictionary ++ [entry])

/-- `none` is an access outside of an array. -/
def parseDictionary (file : Bytes) : Option (List DictEntry) :=
  loadLines (getdelim newline file) []

/-- The words of a dictionary file as they are written there. -/
def dictionaryWords (file : Bytes) : List Bytes :=
  (getdelim newline file).filterMap dictionaryWord

/-! ## What a text stands for -/

/-- The byte for an escape whose first character is `e`, and the text behind it. -/
def unescapeOne (e : UInt8) (text : Bytes) : UInt8 × Bytes :=
  match controlEscapes.lookup e with
  | some b => (b, text)
  | none =>
      if e = hexMark then
        match text with
        | high :: low :: rest => (hexByte high low, rest)
        | _ => (e, text)
      else (e, text)

theorem unescapeOne_suffix (e : UInt8) (text : Bytes) : (unescapeOne e text).2 <:+ text := by
  unfold unescapeOne
  split
  · exact List.suffix_refl _
  · split
    · split
      · next high low rest => exact ⟨[high, low], rfl⟩
      · exact List.suffix_refl _
    · exact List.suffix_refl _

theorem length_unescapeOne (e : UInt8) (text : Bytes) :
    (unescapeOne e text).2.length ≤ text.length :=
  (unescapeOne_suffix e text).length_le

/-- The bytes that a text stands for up to a quote, and whether it ends behind a
backslash that nothing follows. -/
def decodeText : Bytes → Bytes × Bool
  | [] => ([], false)
  | c :: text =>
      if c = quote then ([], false)
      else if c = backslash then
        match text with
        | [] => ([], true)
        | e :: text =>
            ((unescapeOne e text).1 :: (decodeText (unescapeOne e text).2).1,
              (decodeText (unescapeOne e text).2).2)
      else (c :: (decodeText text).1, (decodeText text).2)
termination_by text => text.length
decreasing_by
  all_goals first
    | exact Nat.lt_succ_self _
    | exact Nat.lt_succ_of_le ((length_unescapeOne _ _).trans (Nat.le_succ _))

section Text

theorem decodeText_quote (text : Bytes) : decodeText (quote :: text) = ([], false) := by
  rw [decodeText.eq_def]
  exact if_pos rfl

theorem decodeText_open : decodeText [backslash] = ([], true) := by
  rw [decodeText.eq_def]
  rfl

theorem decodeText_escape (e : UInt8) (text : Bytes) :
    decodeText (backslash :: e :: text) =
      ((unescapeOne e text).1 :: (decodeText (unescapeOne e text).2).1,
        (decodeText (unescapeOne e text).2).2) := by
  rw [decodeText.eq_def]
  rfl

theorem decodeText_plain {c : UInt8} (notQuote : c ≠ quote) (notBackslash : c ≠ backslash)
    (text : Bytes) :
    decodeText (c :: text) = (c :: (decodeText text).1, (decodeText text).2) := by
  rw [decodeText.eq_def]
  dsimp only
  rw [if_neg notQuote, if_neg notBackslash]

end Text

section Rounds

variable {s later : Bytes} {fuel i o last : Nat} {c e b : UInt8}

theorem decodeFrom_stop (here : s[i]? = some c) (stop : c = 0 ∨ c = quote)
    (write : setByte s o 0 = some later) : decodeFrom (fuel + 1) s i o = some (o, later) := by
  rw [decodeFrom, here, Option.bind_some, if_pos stop, write]
  rfl

theorem decodeFrom_plain (here : s[i]? = some c) (goes : ¬ (c = 0 ∨ c = quote))
    (notBackslash : c ≠ backslash) (write : setByte s o c = some later) :
    decodeFrom (fuel + 1) s i o = decodeFrom fuel later (i + 1) (o + 1) := by
  rw [decodeFrom, here, Option.bind_some, if_neg goes, if_neg notBackslash, write]
  rfl

theorem decodeFrom_escape (here : s[i]? = some backslash) (behind : s[i + 1]? = some e)
    (notNul : e ≠ 0) (escape : escapeAt s (i + 1) e = some (b, last))
    (write : setByte s o b = some later) :
    decodeFrom (fuel + 1) s i o = decodeFrom fuel later (last + 1) (o + 1) := by
  rw [decodeFrom, here, Option.bind_some, if_neg (by decide), if_pos rfl, behind, Option.bind_some,
    if_neg notNul, escape, Option.bind_some]
  dsimp only
  rw [write, Option.bind_some]

theorem decodeFrom_open (here : s[i]? = some backslash) (behind : s[i + 1]? = some 0) :
    decodeFrom (fuel + 1) s i o = decodeFrom fuel s (i + 2) (o + 1) := by
  rw [decodeFrom, here, Option.bind_some, if_neg (by decide), if_pos rfl, behind]
  rfl

theorem decodeFrom_outside (outside : s[i]? = none) : decodeFrom fuel s i o = none := by
  cases fuel with
  | zero => rfl
  | succ fuel =>
    rw [decodeFrom, outside]
    rfl

end Rounds

section InPlace

variable (out gap : Bytes) {text rest : Bytes} {fuel : Nat}

/-- The array of the loop: what has been written, what has been read and not been
written over, and the text ahead with its NUL. -/
def inPlace (fuel : Nat) (out gap text rest : Bytes) : Option (Nat × Bytes) :=
  decodeFrom fuel (out ++ (gap ++ (text ++ 0 :: rest))) (out.length + gap.length) out.length

theorem getElem?_ahead (ahead : Bytes) (k : Nat) :
    (out ++ (gap ++ ahead))[out.length + gap.length + k]? = ahead[k]? := by
  rw [← List.append_assoc, List.getElem?_append_right (by simp)]
  congr 1
  simp

theorem setByte_gap {used : Bytes} (moves : used ≠ []) (b : UInt8) (ahead : Bytes) :
    setByte (out ++ (gap ++ (used ++ ahead))) out.length b =
      some ((out ++ [b]) ++ ((gap ++ used).tail ++ ahead)) := by
  obtain ⟨c, behind, written⟩ :=
    List.exists_cons_of_ne_nil (List.append_ne_nil_of_right_ne_nil gap moves)
  rw [← List.append_assoc gap, written, setByte, if_pos (by simp)]
  simp

theorem length_gap {used : Bytes} (moves : used ≠ []) (b : UInt8) :
    out.length + gap.length + used.length = (out ++ [b]).length + (gap ++ used).tail.length := by
  have positive := List.length_pos_iff.mpr moves
  simp only [List.length_append, List.length_tail, List.length_singleton]
  omega

theorem inPlace_plain {c : UInt8} (goes : ¬ (c = 0 ∨ c = quote)) (notBackslash : c ≠ backslash) :
    inPlace (fuel + 1) out gap (c :: text) rest =
      inPlace fuel (out ++ [c]) (gap ++ [c]).tail text rest := by
  have position := @length_gap out gap [c] (List.cons_ne_nil c []) c
  have read := getElem?_ahead out gap (c :: text ++ 0 :: rest) 0
  have write := setByte_gap out gap (List.cons_ne_nil c []) c (text ++ 0 :: rest)
  unfold inPlace
  rw [← position, List.length_append]
  exact decodeFrom_plain read goes notBackslash write

theorem escapeAt_eq {s : Bytes} {i : Nat} (e : UInt8) (plain : 0 ∉ text)
    (ahead : ∀ k, s[i + 1 + k]? = (text ++ 0 :: rest)[k]?) :
    ∃ used, text = used ++ (unescapeOne e text).2 ∧
      escapeAt s i e = some ((unescapeOne e text).1, i + used.length) := by
  have first : s[i + 1]? = (text ++ 0 :: rest)[0]? := ahead 0
  have second : s[i + 2]? = (text ++ 0 :: rest)[1]? := ahead 1
  unfold escapeAt unescapeOne
  split
  · exact ⟨[], rfl, rfl⟩
  · split
    · rw [first, second]
      rcases text with _ | ⟨high, _ | ⟨low, text⟩⟩
      · exact ⟨[], rfl, rfl⟩
      · exact ⟨[], rfl, by simp⟩
      · have isHigh : high ≠ 0 := fun zero => plain (zero ▸ List.mem_cons_self)
        have isLow : low ≠ 0 := fun zero =>
          plain (zero ▸ List.mem_cons_of_mem high List.mem_cons_self)
        exact ⟨[high, low], rfl, by simp [isHigh, isLow]⟩
    · exact ⟨[], rfl, rfl⟩

theorem inPlace_escape {e : UInt8} (notNul : e ≠ 0) (plain : 0 ∉ text) :
    ∃ later, inPlace (fuel + 1) out gap (backslash :: e :: text) rest =
      inPlace fuel (out ++ [(unescapeOne e text).1]) later (unescapeOne e text).2 rest := by
  have ahead : ∀ k, (out ++ (gap ++ (backslash :: e :: (text ++ 0 :: rest))))[out.length +
      gap.length + 1 + 1 + k]? = (text ++ 0 :: rest)[k]? := by
    intro k
    rw [Nat.add_assoc, Nat.add_assoc, getElem?_ahead, ← Nat.add_assoc, Nat.add_comm]
    rfl
  obtain ⟨used, split, escape⟩ := escapeAt_eq e plain ahead
  have whole : backslash :: e :: (text ++ 0 :: rest) =
      (backslash :: e :: used) ++ ((unescapeOne e text).2 ++ 0 :: rest) := by
    rw [← List.append_assoc, List.cons_append, List.cons_append, List.cons_append, ← split]
    rfl
  have position := @length_gap out gap (backslash :: e :: used) (List.cons_ne_nil _ _)
    (unescapeOne e text).1
  have write := @setByte_gap out gap (backslash :: e :: used) (List.cons_ne_nil _ _)
    (unescapeOne e text).1 ((unescapeOne e text).2 ++ 0 :: rest)
  rw [← whole] at write
  refine ⟨(gap ++ backslash :: e :: used).tail, ?_⟩
  refine (decodeFrom_escape (getElem?_ahead out gap _ 0) (getElem?_ahead out gap _ 1) notNul escape
    write).trans ?_
  unfold inPlace
  rw [← position, List.length_append]
  congr 1
  simp only [List.length_cons]
  omega

/-- The end of the loop.  A text that ends behind a backslash leads behind its
NUL: out of the array, or to another NUL one byte too late. -/
def Decodes (out text rest : Bytes) (result : Option (Nat × Bytes)) : Prop :=
  if (decodeText text).2 then
    (rest = [] → result = none) ∧ (rest.head? = some 0 →
      ∃ s, result = some (out.length + (decodeText text).1.length + 1, s))
  else
    ∃ tail, result = some (out.length + (decodeText text).1.length,
      out ++ ((decodeText text).1 ++ 0 :: tail))

variable {out gap}

theorem Decodes.cons {behind : Bytes} {b : UInt8} {result : Option (Nat × Bytes)}
    (stands : decodeText text = (b :: (decodeText behind).1, (decodeText behind).2))
    (later : Decodes (out ++ [b]) behind rest result) : Decodes out text rest result := by
  have length : (out ++ [b]).length + (decodeText behind).1.length =
      out.length + (decodeText text).1.length := by
    rw [stands]
    simp only [List.length_append, List.length_cons, List.length_nil]
    omega
  unfold Decodes at later ⊢
  simp only [length, List.append_assoc, List.singleton_append] at later
  rw [stands] at later ⊢
  exact later

theorem inPlace_stop {c : UInt8} {behind : Bytes} (ahead : text ++ 0 :: rest = c :: behind)
    (stop : c = 0 ∨ c = quote) :
    ∃ tail, inPlace (fuel + 1) out gap text rest = some (out.length, out ++ 0 :: tail) := by
  refine ⟨(gap ++ [c]).tail ++ behind, ?_⟩
  unfold inPlace
  rw [ahead]
  refine (decodeFrom_stop (getElem?_ahead out gap (c :: behind) 0) stop
    (setByte_gap out gap (List.cons_ne_nil c []) 0 behind)).trans ?_
  rw [List.append_assoc, List.singleton_append]

theorem inPlace_decodes (plain : 0 ∉ text) (enough : text.length < fuel) :
    Decodes out text rest (inPlace fuel out gap text rest) := by
  induction text using decodeText.induct generalizing out gap fuel with
  | case1 =>
    obtain ⟨fuel, rfl⟩ := Nat.exists_eq_add_of_lt enough
    obtain ⟨tail, ended⟩ := @inPlace_stop out gap [] rest (0 + fuel) 0 rest rfl (.inl rfl)
    unfold Decodes
    rw [decodeText, if_neg (by decide)]
    exact ⟨tail, by simpa using ended⟩
  | case2 text =>
    obtain ⟨fuel, rfl⟩ := Nat.exists_eq_add_of_lt enough
    obtain ⟨tail, ended⟩ := @inPlace_stop out gap (quote :: text) rest
      ((quote :: text).length + fuel) quote (text ++ 0 :: rest) rfl (.inr rfl)
    unfold Decodes
    rw [decodeText_quote, if_neg (by decide)]
    exact ⟨tail, by simpa using ended⟩
  | case3 =>
    obtain ⟨fuel, rfl⟩ := Nat.exists_eq_add_of_lt enough
    have opened : inPlace ([backslash].length + fuel + 1) out gap [backslash] rest = _ :=
      decodeFrom_open (getElem?_ahead out gap _ 0) (getElem?_ahead out gap _ 1)
    have ahead := getElem?_ahead out gap (backslash :: 0 :: rest) 2
    unfold Decodes
    rw [opened, decodeText_open, if_pos rfl]
    refine ⟨fun empty => ?_, fun nul => ?_⟩
    · rw [empty] at ahead ⊢
      exact decodeFrom_outside ahead
    · have write : ∃ s, setByte (out ++ (gap ++ ([backslash] ++ 0 :: rest))) (out.length + 1) 0 =
          some s := ⟨_, if_pos (by simp; omega)⟩
      obtain ⟨s, write⟩ := write
      refine ⟨s, ?_⟩
      have read := ahead.trans ((List.head?_eq_getElem? (l := rest)).symm.trans nul)
      have ended := @decodeFrom_stop _ s fuel _ _ _ read (.inl rfl) write
      rw [Nat.add_comm] at ended
      simpa using ended
  | case4 e text different inductionHypothesis =>
    obtain ⟨notNul, later⟩ : e ≠ 0 ∧ 0 ∉ text := by
      simp only [List.mem_cons, not_or] at plain
      exact ⟨Ne.symm plain.2.1, plain.2.2⟩
    obtain ⟨fuel, rfl⟩ := Nat.exists_eq_add_of_lt enough
    obtain ⟨read, moved⟩ :=
      @inPlace_escape out gap text rest ((backslash :: e :: text).length + fuel) e notNul later
    rw [moved]
    refine Decodes.cons (decodeText_escape e text) (inductionHypothesis ?_ ?_)
    · exact fun member => later ((unescapeOne_suffix e text).subset member)
    · have := length_unescapeOne e text
      simp only [List.length_cons]
      omega
  | case5 c text notQuote notBackslash inductionHypothesis =>
    obtain ⟨notNul, later⟩ : c ≠ 0 ∧ 0 ∉ text := by
      simp only [List.mem_cons, not_or] at plain
      exact ⟨Ne.symm plain.1, plain.2⟩
    obtain ⟨fuel, rfl⟩ := Nat.exists_eq_add_of_lt enough
    rw [inPlace_plain out gap (not_or.mpr ⟨notNul, notQuote⟩) notBackslash]
    refine Decodes.cons (decodeText_plain notQuote notBackslash text) (inductionHypothesis later ?_)
    simp only [List.length_cons]
    omega

end InPlace

section Words

variable {word : Bytes} {entry : DictEntry}

theorem decodeCString_bufv (plain : 0 ∉ word) :
    Decodes [] (word.take 1024) (List.replicate (1024 - (word.take 1024).length) 0)
      (decodeCString (bufv word)) := by
  have short : (word.take 1024).length ≤ 1024 := List.length_take_le 1024 word
  have zeros : List.replicate (1025 - (word.take 1024).length) (0 : UInt8) =
      0 :: List.replicate (1024 - (word.take 1024).length) 0 := by
    rw [← List.replicate_succ]
    congr 1
    omega
  unfold decodeCString bufv
  rw [zeros]
  refine @inPlace_decodes [] [] _ _ _ (fun member => plain (List.mem_of_mem_take member)) ?_
  simp only [List.length_append, List.length_cons]
  omega

/-- A word is too long when its first 1024 characters end behind a backslash:
then the NUL that follows it is the last byte of the buffer. -/
def Overruns (word : Bytes) : Prop :=
  1024 ≤ word.length ∧ (decodeText (word.take 1024)).2 = true

instance (word : Bytes) : Decidable (Overruns word) :=
  inferInstanceAs (Decidable (_ ∧ _))

theorem loadWord_isSome_iff (plain : 0 ∉ word) :
    (loadWord word).isSome = true ↔ ¬ Overruns word := by
  have decodes := decodeCString_bufv plain
  have length : (word.take 1024).length = min 1024 word.length := List.length_take
  unfold Decodes at decodes
  unfold Overruns
  rw [loadWord, Option.isSome_map]
  by_cases opened : (decodeText (word.take 1024)).2 = true
  · rw [if_pos opened] at decodes
    rcases Nat.lt_or_ge word.length 1024 with short | long
    · obtain ⟨left, zeros⟩ : ∃ left, 1024 - (word.take 1024).length = left + 1 :=
        ⟨1023 - word.length, by omega⟩
      rw [zeros] at decodes
      obtain ⟨s, ended⟩ := decodes.2 rfl
      rw [ended]
      simp [short]
    · have none_left : 1024 - (word.take 1024).length = 0 := by omega
      rw [none_left] at decodes
      rw [decodes.1 rfl]
      simp [long, opened]
  · rw [if_neg opened] at decodes
    obtain ⟨tail, ended⟩ := decodes
    rw [ended]
    simp [opened]

theorem length_decodeFrom {fuel i o len : Nat} {s later : Bytes}
    (decoded : decodeFrom fuel s i o = some (len, later)) : len < later.length := by
  induction fuel generalizing s i o with
  | zero => cases decoded
  | succ fuel inductionHypothesis =>
    rw [decodeFrom] at decoded
    obtain ⟨c, -, decoded⟩ := Option.bind_eq_some_iff.mp decoded
    split at decoded
    · obtain ⟨s, written, ended⟩ := Option.map_eq_some_iff.mp decoded
      cases ended
      obtain ⟨inside, written⟩ := Option.ite_none_right_eq_some.mp written
      cases written
      rwa [List.length_set]
    · split at decoded
      · obtain ⟨e, -, decoded⟩ := Option.bind_eq_some_iff.mp decoded
        split at decoded
        · exact inductionHypothesis decoded
        · obtain ⟨⟨b, last⟩, -, decoded⟩ := Option.bind_eq_some_iff.mp decoded
          obtain ⟨s, -, decoded⟩ := Option.bind_eq_some_iff.mp decoded
          exact inductionHypothesis decoded
      · obtain ⟨s, -, decoded⟩ := Option.bind_eq_some_iff.mp decoded
        exact inductionHypothesis decoded

theorem loadWord_fits (loaded : loadWord word = some entry) :
    entry.len ≤ 512 ∧ entry.val.length = 512 := by
  obtain ⟨⟨len, s⟩, decoded, rfl⟩ := Option.map_eq_some_iff.mp loaded
  have inside := length_decodeFrom decoded
  simp only [dictEntry, List.length_append, List.length_take, List.length_replicate]
  omega

theorem mem_betweenQuotes {text : Bytes} {c : UInt8} (found : betweenQuotes text = some word)
    (member : c ∈ word) : c ∈ text := by
  unfold betweenQuotes at found
  split at found
  · cases found
  · next first after fromFirst =>
    split at found
    · cases found
    · next last before fromLast =>
      obtain ⟨-, reversed⟩ := Option.ite_none_left_eq_some.mp found
      cases reversed
      have inAfter : c ∈ after.reverse := by
        refine (List.dropWhile_suffix _).subset (fromLast ▸ List.mem_cons_of_mem _ ?_)
        exact List.mem_reverse.mp member
      exact (List.dropWhile_suffix _).subset
        (fromFirst ▸ List.mem_cons_of_mem _ (List.mem_reverse.mp inAfter))

theorem zero_notMem_dictionaryWord {line : Bytes} (found : dictionaryWord line = some word) :
    0 ∉ word := by
  obtain ⟨-, found⟩ := Option.ite_none_left_eq_some.mp found
  intro member
  simpa using List.mem_takeWhile_imp (mem_betweenQuotes found member)

end Words

section Files

variable {dictionary loaded : List DictEntry}

theorem loadLines_eq (lines : List Bytes) (room : dictionary.length ≤ 8192) :
    loadLines lines dictionary =
      (((lines.filterMap dictionaryWord).take (8192 - dictionary.length)).mapM loadWord).map
        (dictionary ++ ·) := by
  induction lines generalizing dictionary with
  | nil => simp [loadLines]
  | cons line lines inductionHypothesis =>
    rw [loadLines]
    split
    · next full => simp [full]
    · next more =>
      split
      · next skipped =>
        rw [List.filterMap_cons_none skipped]
        exact inductionHypothesis room
      · next word found =>
        obtain ⟨left, count⟩ : ∃ left, 8192 - dictionary.length = left + 1 :=
          ⟨8191 - dictionary.length, by omega⟩
        rw [List.filterMap_cons_some found, count, List.take_succ_cons, List.mapM_cons]
        cases loads : loadWord word with
        | none => rfl
        | some entry =>
          have behind : 8192 - (dictionary ++ [entry]).length = left := by
            rw [List.length_append, List.length_singleton]
            omega
          rw [Option.bind_some, inductionHypothesis (by simp; omega), behind]
          cases (List.mapM loadWord ((lines.filterMap dictionaryWord).take left)) with
          | none => rfl
          | some rest => simp

theorem parseDictionary_eq (file : Bytes) :
    parseDictionary file = ((dictionaryWords file).take 8192).mapM loadWord := by
  rw [parseDictionary, loadLines_eq _ (Nat.zero_le _)]
  simp [dictionaryWords]

theorem loadWord_of_mem {file : Bytes} (member : word ∈ (dictionaryWords file).take 8192) :
    (loadWord word).isSome = true ↔ ¬ Overruns word := by
  obtain ⟨line, -, found⟩ := List.mem_filterMap.mp (List.mem_of_mem_take member)
  exact loadWord_isSome_iff (zero_notMem_dictionaryWord found)

/-- The parser stays inside of its arrays exactly for the files in which none of
the first 8192 words overruns the buffer. -/
theorem parseDictionary_isSome_iff (file : Bytes) :
    (parseDictionary file).isSome = true ↔
      ∀ word ∈ (dictionaryWords file).take 8192, ¬ Overruns word := by
  rw [parseDictionary_eq, mapM_isSome_iff]
  exact forall₂_congr fun word member => loadWord_of_mem member

theorem exists_dictionary {file : Bytes} (short : ∀ word ∈ dictionaryWords file, word.length < 1024) :
    ∃ dictionary, parseDictionary file = some dictionary := by
  refine Option.isSome_iff_exists.mp ?_
  rw [parseDictionary_eq, mapM_isSome_iff]
  intro word member
  have fits := short word (List.mem_of_mem_take member)
  exact (loadWord_of_mem member).mpr fun overruns => Nat.not_le.mpr fits overruns.1

theorem parseDictionary_fits {file : Bytes} (parsed : parseDictionary file = some dictionary) :
    dictionary.length ≤ 8192 ∧
      ∀ entry ∈ dictionary, entry.len ≤ 512 ∧ entry.val.length = 512 := by
  rw [parseDictionary_eq] at parsed
  refine ⟨(length_of_mapM parsed).trans_le (List.length_take_le _ _), fun entry member => ?_⟩
  obtain ⟨word, -, loads⟩ := mem_of_mapM parsed member
  exact loadWord_fits loads

/-- With the dictionary of any file that could be loaded, mutating a file stays
inside of it. -/
theorem mangleContent_parsed {global : MangleGlobal} {file : Bytes} {s : MangleState}
    {mutationsPerRun : Nat} (wellFormed : MangleGlobal.WellFormed { global with dictionary := [] })
    (parsed : parseDictionary file = some dictionary)
    (source : mutationsPerRun = 0 ∨ mutationsPerRun = global.mutationsPerRun)
    (fits : s.data.length ≤ global.maxInputSz) :
    StaysInside { global with dictionary } mutationsPerRun s := by
  obtain ⟨count, words⟩ := parseDictionary_fits parsed
  have ready : MangleGlobal.WellFormed { global with dictionary } :=
    { wellFormed with
      dictionary := count
      words := fun entry member => by
        have := words entry member
        omega }
  by_cases replay : mutationsPerRun = 0
  · exact replay ▸ staysInside_zero fits
  · obtain rfl := source.resolve_left replay
    exact staysInside_of_active ready replay fits

/-- A comment and the word of `smallGlobal`. -/
def smallFile : Bytes :=
  [0x23, 0x61, 0x0A, 0x76, 0x3D, 0x22, 0x47, 0x45, 0x54, 0x5C, 0x78, 0x32, 0x30, 0x22, 0x0A]

theorem mangleContent_parsed_small :
    ∃ dictionary, parseDictionary smallFile = some dictionary ∧
      StaysInside { smallGlobal with dictionary } 5 smallState := by
  obtain ⟨dictionary, parsed⟩ : ∃ dictionary, parseDictionary smallFile = some dictionary :=
    exists_dictionary (by decide +kernel)
  have wellFormed : MangleGlobal.WellFormed { smallGlobal with dictionary := [] } :=
    { smallGlobal_wellFormed with
      dictionary := Nat.zero_le _
      words := by simp }
  exact ⟨dictionary, parsed, mangleContent_parsed wellFormed parsed (.inr rfl) (by decide)⟩

end Files

section RoundTrip

def hexDigit (n : UInt8) : UInt8 :=
  if n < 10 then 0x30 + n else 0x57 + n

/-- A byte as a dictionary file spells it. -/
def writeByte (b : UInt8) : Bytes :=
  if 0x20 ≤ b ∧ b ≤ 0x7E ∧ b ≠ quote ∧ b ≠ backslash then [b]
  else [backslash, hexMark, hexDigit (b / 16), hexDigit (b % 16)]

def writeBytes (word : Bytes) : Bytes := word.flatMap writeByte

def writeWord (word : Bytes) : Bytes := quote :: (writeBytes word ++ [quote])

def writeDictionary (words : List Bytes) : Bytes :=
  words.flatMap fun word => writeWord word ++ [newline]

def wordEntry (word : Bytes) : DictEntry where
  val := word ++ List.replicate (512 - word.length) 0
  len := word.length

theorem forall_uint8 {holds : UInt8 → Prop} (each : ∀ n < 256, holds (UInt8.ofNat n)) (b : UInt8) :
    holds b := by
  have := each b.toNat b.toNat_lt
  rwa [UInt8.ofNat_toNat] at this

theorem writeByte_plain (b : UInt8) :
    ∀ c ∈ writeByte b, c ≠ 0 ∧ c ≠ newline ∧ c ≠ quote := by
  have all : (writeByte b).all (fun c => decide (c ≠ 0 ∧ c ≠ newline ∧ c ≠ quote)) = true := by
    revert b
    exact forall_uint8 (by decide +kernel)
  intro c member
  exact of_decide_eq_true (List.all_eq_true.mp all c member)

theorem hexByte_hexDigit (b : UInt8) : hexByte (hexDigit (b / 16)) (hexDigit (b % 16)) = b := by
  revert b
  exact forall_uint8 (by decide +kernel)

theorem decodeText_writeByte (b : UInt8) (text : Bytes) :
    decodeText (writeByte b ++ text) = (b :: (decodeText text).1, (decodeText text).2) := by
  unfold writeByte
  split
  · next plain => exact decodeText_plain plain.2.2.1 plain.2.2.2 text
  · have one : ∀ high low : UInt8, unescapeOne hexMark (high :: low :: text) =
        (hexByte high low, text) := fun _ _ => rfl
    have escaped := decodeText_escape hexMark (hexDigit (b / 16) :: hexDigit (b % 16) :: text)
    rw [one, hexByte_hexDigit] at escaped
    exact escaped

theorem decodeText_writeBytes (word : Bytes) : decodeText (writeBytes word) = (word, false) := by
  induction word with
  | nil =>
    rw [decodeText.eq_def]
    rfl
  | cons b word inductionHypothesis =>
    rw [writeBytes, List.flatMap_cons, decodeText_writeByte]
    rw [writeBytes] at inductionHypothesis
    rw [inductionHypothesis]

theorem mem_writeBytes {word : Bytes} {c : UInt8} (member : c ∈ writeBytes word) :
    c ≠ 0 ∧ c ≠ newline ∧ c ≠ quote := by
  obtain ⟨b, -, written⟩ := List.mem_flatMap.mp member
  exact writeByte_plain b c written

theorem betweenQuotes_writeWord {word : Bytes} (nonempty : writeBytes word ≠ []) :
    betweenQuotes (writeWord word) = some (writeBytes word) := by
  unfold betweenQuotes writeWord
  rw [List.dropWhile_cons_of_neg (by simp)]
  dsimp only
  rw [List.reverse_append, List.reverse_singleton, List.singleton_append,
    List.dropWhile_cons_of_neg (by simp)]
  simp [nonempty]

theorem lineText_writeWord (word : Bytes) :
    lineText (writeWord word ++ [newline]) = writeWord word := by
  have plain : 0 ∉ writeWord word := by
    simp only [writeWord, List.mem_cons, List.mem_append, List.not_mem_nil, or_false, not_or]
    exact ⟨by decide, fun member => (mem_writeBytes member).1 rfl, by decide⟩
  unfold lineText
  rw [if_pos ⟨by simp [writeWord], List.getLast?_concat⟩, List.dropLast_concat,
    cstr_eq_self_iff.mpr plain]

theorem writeBytes_ne_nil {word : Bytes} (nonempty : word ≠ []) : writeBytes word ≠ [] := by
  intro empty
  have decoded := decodeText_writeBytes word
  rw [empty, decodeText.eq_def] at decoded
  exact nonempty (congrArg Prod.fst decoded).symm

theorem dictionaryWord_writeWord {word : Bytes} (nonempty : word ≠ []) :
    dictionaryWord (writeWord word ++ [newline]) = some (writeBytes word) := by
  unfold dictionaryWord
  rw [lineText_writeWord, if_neg (by simp [writeWord, quote, hash, newline]),
    betweenQuotes_writeWord (writeBytes_ne_nil nonempty)]

theorem loadWord_writeBytes {word : Bytes} (small : word.length ≤ 512)
    (short : (writeBytes word).length ≤ 1024) : loadWord (writeBytes word) = some (wordEntry word) := by
  have plain : 0 ∉ writeBytes word := fun member => (mem_writeBytes member).1 rfl
  have decodes := decodeCString_bufv plain
  unfold Decodes at decodes
  rw [List.take_of_length_le short, decodeText_writeBytes, if_neg Bool.false_ne_true] at decodes
  obtain ⟨tail, ended⟩ := decodes
  rw [loadWord, ended]
  simp [dictEntry, wordEntry, small]

/-- A dictionary file gives back the words that were written to it. -/
theorem parseDictionary_writeDictionary (words : List Bytes) (few : words.length ≤ 8192)
    (each : ∀ word ∈ words, word ≠ [] ∧ word.length ≤ 512 ∧ (writeBytes word).length ≤ 1024) :
    parseDictionary (writeDictionary words) = some (words.map wordEntry) := by
  have plain : ∀ word ∈ words, newline ∉ writeWord word := by
    intro word _
    simp only [writeWord, List.mem_cons, List.mem_append, List.not_mem_nil, or_false, not_or]
    exact ⟨by decide, fun member => (mem_writeBytes member).2.1 rfl, by decide⟩
  have written : words.filterMap (dictionaryWord ∘ fun word => writeWord word ++ [newline]) =
      words.map writeBytes :=
    List.filterMap_eq_map_iff_forall_eq_some.mpr fun word member =>
      dictionaryWord_writeWord (each word member).1
  rw [parseDictionary_eq, dictionaryWords, writeDictionary, getdelim_flatMap plain,
    List.filterMap_map, written, List.take_of_length_le (by rwa [List.length_map])]
  exact mapM_map_eq_some fun word member =>
    loadWord_writeBytes (each word member).2.1 (each word member).2.2

theorem parseDictionary_writeDictionary_pair :
    parseDictionary (writeDictionary [[0x22, 0x00, 0x41], [0x5C]]) =
      some [wordEntry [0x22, 0x00, 0x41], wordEntry [0x5C]] :=
  parseDictionary_writeDictionary [[0x22, 0x00, 0x41], [0x5C]] (by decide) (by decide)

end RoundTrip

end GraphDissect.Fuzzing.Dictionary
