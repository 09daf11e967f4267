import GraphDissect.Library.Text
import Mathlib

/-!
# C strings in fixed buffers

A byte string read through a `char *` ends at its first NUL byte, and a bounded
copy keeps a bounded number of the bytes before it.  UTF-8 keeps texts apart and
has a NUL byte only for a NUL character.
-/

namespace Library

abbrev Bytes := List UInt8

def utf8 (s : List Char) : Bytes := s.flatMap String.utf8EncodeChar

/-- The bytes a reader of a `char *` sees. -/
def cstr (s : Bytes) : Bytes := s.takeWhile (· ≠ 0)

/-- `strncpy` of at most `n` bytes into a zeroed buffer of `n + 1`. -/
def strncpy (n : Nat) (s : Bytes) : Bytes := (cstr s).take n

theorem cstr_eq_self_iff {s : Bytes} : cstr s = s ↔ 0 ∉ s := by
  rw [cstr, List.takeWhile_eq_self_iff]
  constructor
  · intro h hzero
    simpa using h 0 hzero
  · intro h b hb
    have : b ≠ 0 := fun hzero => h (hzero ▸ hb)
    simpa using this

theorem length_cstr_le (s : Bytes) : (cstr s).length ≤ s.length :=
  (List.takeWhile_prefix _).length_le

theorem strncpy_eq_self_iff {n : Nat} {s : Bytes} :
    strncpy n s = s ↔ s.length ≤ n ∧ 0 ∉ s := by
  rw [← cstr_eq_self_iff]
  constructor
  · intro h
    have hlen : s.length ≤ n := by
      rw [← h]
      exact List.length_take_le _ _
    -- the copy is no longer than the C string, so that one is all of `s`
    have hcstr : s.length ≤ (cstr s).length := by
      rw [← congrArg List.length h]
      exact List.length_take_le' _ _
    exact ⟨hlen, (List.takeWhile_prefix _).eq_of_length (le_antisymm (length_cstr_le s) hcstr)⟩
  · rintro ⟨hlen, hcstr⟩
    rw [strncpy, hcstr, List.take_of_length_le hlen]

theorem map_cstr_eq_self_iff {ss : List Bytes} :
    ss.map cstr = ss ↔ ∀ s ∈ ss, 0 ∉ s := by
  have hself : ss.map cstr = ss ↔ ∀ s ∈ ss, cstr s = s := by
    conv_lhs => rhs; rw [← List.map_id ss]
    exact List.map_inj_left
  rw [hself]
  exact forall₂_congr fun s _ => cstr_eq_self_iff

theorem take_map_cstr_eq_self_iff {n : Nat} {ss : List Bytes} :
    (ss.take n).map cstr = ss ↔ ss.length ≤ n ∧ ∀ s ∈ ss, 0 ∉ s := by
  constructor
  · intro h
    have hlen : ss.length ≤ n := by
      rw [← congrArg List.length h, List.length_map]
      exact List.length_take_le _ _
    rw [List.take_of_length_le hlen] at h
    exact ⟨hlen, map_cstr_eq_self_iff.mp h⟩
  · rintro ⟨hlen, hnul⟩
    rw [List.take_of_length_le hlen]
    exact map_cstr_eq_self_iff.mpr hnul

/-- `strstr`: the bytes before the first occurrence of `needle`. -/
def strstr (needle s : Bytes) : Option Bytes := (breakOn needle s).map Prod.fst

theorem strstr_eq_none_iff {needle s : Bytes} : strstr needle s = none ↔ ¬ needle <:+: s := by
  rw [strstr, Option.map_eq_none_iff, breakOn_eq_none_iff]

def newline : UInt8 := 0x0A

/-- The lines of a file as `getdelim` reads them, each with its delimiter. -/
def getdelim (delimiter : UInt8) : Bytes → List Bytes
  | [] => []
  | c :: s =>
    if c = delimiter then [c] :: getdelim delimiter s
    else
      match getdelim delimiter s with
      | [] => [[c]]
      | line :: lines => (c :: line) :: lines

theorem getdelim_append {delimiter : UInt8} {line : Bytes} (plain : delimiter ∉ line)
    (rest : Bytes) :
    getdelim delimiter (line ++ delimiter :: rest) =
      (line ++ [delimiter]) :: getdelim delimiter rest := by
  induction line with
  | nil => simp [getdelim]
  | cons c line inductionHypothesis =>
    have here : c ≠ delimiter := fun same => plain (same ▸ List.mem_cons_self)
    rw [List.cons_append, getdelim, if_neg here,
      inductionHypothesis fun member => plain (List.mem_cons_of_mem c member)]
    rfl

theorem getdelim_flatMap {Item : Type} {delimiter : UInt8} {write : Item → Bytes}
    {items : List Item} (plain : ∀ item ∈ items, delimiter ∉ write item) :
    getdelim delimiter (items.flatMap fun item => write item ++ [delimiter]) =
      items.map fun item => write item ++ [delimiter] := by
  induction items with
  | nil => rfl
  | cons item rest inductionHypothesis =>
    rw [List.flatMap_cons, List.append_assoc, List.singleton_append,
      getdelim_append (plain item List.mem_cons_self),
      inductionHypothesis fun other member => plain other (List.mem_cons_of_mem item member)]
    rfl

def untilNul (s : List Char) : List Char := s.takeWhile (· ≠ '\x00')

theorem untilNul_eq_self_iff {s : List Char} : untilNul s = s ↔ '\x00' ∉ s := by
  rw [untilNul, List.takeWhile_eq_self_iff]
  constructor
  · intro h hnul
    simpa using h _ hnul
  · intro h c hc
    have : c ≠ '\x00' := fun heq => h (heq ▸ hc)
    simpa using this

theorem nul_notMem_untilNul (s : List Char) : '\x00' ∉ untilNul s := by
  intro member
  simpa using List.mem_takeWhile_imp member

section Utf8

@[simp] theorem utf8_nil : utf8 [] = [] := rfl

theorem utf8_cons (c : Char) (s : List Char) :
    utf8 (c :: s) = String.utf8EncodeChar c ++ utf8 s :=
  List.flatMap_cons

theorem utf8_injective : Function.Injective utf8 := by
  intro a b h
  have hbytes : a.utf8Encode = b.utf8Encode := congrArg List.toByteArray h
  exact String.ofList_injective (String.toByteArray_inj.mp hbytes)

theorem zero_notMem_utf8EncodeChar {c : Char} (hc : c ≠ '\x00') :
    0 ∉ String.utf8EncodeChar c := by
  have hval : c.val.toNat ≠ 0 := by
    intro h
    exact hc (Char.ext (UInt32.toNat_inj.mp h))
  have hbyte : ∀ n : Nat, n % 256 ≠ 0 → (0 : UInt8) ≠ UInt8.ofNat n := by
    intro n hn h
    have := congrArg UInt8.toNat h
    simp at this
    omega
  unfold String.utf8EncodeChar
  dsimp only
  split
  · simp only [List.mem_singleton]
    exact hbyte _ (by omega)
  · split
    · simp only [List.mem_cons, List.not_mem_nil, or_false, not_or]
      exact ⟨hbyte _ (by omega), hbyte _ (by omega)⟩
    · split
      · simp only [List.mem_cons, List.not_mem_nil, or_false, not_or]
        exact ⟨hbyte _ (by omega), hbyte _ (by omega), hbyte _ (by omega)⟩
      · simp only [List.mem_cons, List.not_mem_nil, or_false, not_or]
        exact ⟨hbyte _ (by omega), hbyte _ (by omega), hbyte _ (by omega), hbyte _ (by omega)⟩

theorem cstr_utf8 (s : List Char) : cstr (utf8 s) = utf8 (untilNul s) := by
  induction s with
  | nil => rfl
  | cons c rest ih =>
    by_cases hc : c = '\x00'
    · subst hc
      rfl
    · have hbytes : ∀ b ∈ String.utf8EncodeChar c, decide (b ≠ 0) = true := by
        intro b hb
        have : b ≠ 0 := fun h => zero_notMem_utf8EncodeChar hc (h ▸ hb)
        simpa using this
      rw [utf8_cons, cstr, List.takeWhile_append_of_pos hbytes,
        untilNul, List.takeWhile_cons_of_pos (by simpa using hc), utf8_cons]
      exact congrArg (String.utf8EncodeChar c ++ ·) ih

theorem zero_mem_utf8_iff {s : List Char} : 0 ∈ utf8 s ↔ '\x00' ∈ s := by
  constructor
  · intro h
    obtain ⟨c, hc, hb⟩ := List.mem_flatMap.mp h
    by_contra hnul
    exact zero_notMem_utf8EncodeChar (fun heq => hnul (heq ▸ hc)) hb
  · intro h
    exact List.mem_flatMap.mpr ⟨_, h, by decide⟩

end Utf8

end Library
