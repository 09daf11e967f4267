import Mathlib

/-!
# Numerals

Reading digits in a base, as `strtoul` does, inverts `Nat.toDigits`.
-/

namespace Library

def digitVal (c : Char) : Option Nat :=
  if '0' ≤ c ∧ c ≤ '9' then some (c.toNat - '0'.toNat)
  else if 'a' ≤ c ∧ c ≤ 'z' then some (c.toNat - 'a'.toNat + 10)
  else if 'A' ≤ c ∧ c ≤ 'Z' then some (c.toNat - 'A'.toNat + 10)
  else none

def readDigits (base : Nat) : List Char → List Nat
  | [] => []
  | c :: s =>
    match digitVal c with
    | some d => if d < base then d :: readDigits base s else []
    | none => []

/-- The number at the start of a text, `none` when there is no digit. -/
def readNat (base : Nat) (s : List Char) : Option Nat :=
  match readDigits base s with
  | [] => none
  | digits => some (digits.foldl (fun n d => n * base + d) 0)

theorem digitVal_digitChar : ∀ d < 16, digitVal d.digitChar = some d := by decide

theorem mem_toDigits {base n : Nat} (large : 1 < base) {c : Char} (member : c ∈ Nat.toDigits base n) :
    ∃ d < base, c = d.digitChar := by
  induction n using Nat.strong_induction_on with
  | _ n inductionHypothesis =>
    rw [Nat.toDigits_eq_if large] at member
    split at member
    · next small => exact ⟨n, small, by simpa using member⟩
    · next big =>
      obtain before | last := List.mem_append.mp member
      · exact inductionHypothesis (n / base) (Nat.div_lt_self (by omega) large) before
      · exact ⟨n % base, Nat.mod_lt n (by omega), by simpa using last⟩

theorem readDigits_append {base d : Nat} {s : List Char} (small : d < base) (short : base ≤ 16)
    (full : (readDigits base s).length = s.length) :
    readDigits base (s ++ [d.digitChar]) = readDigits base s ++ [d] := by
  induction s with
  | nil => simp [readDigits, digitVal_digitChar d (by omega), small]
  | cons c s inductionHypothesis =>
    rw [List.cons_append, readDigits, readDigits]
    rw [readDigits] at full
    split
    · next value equal =>
      rw [equal] at full
      dsimp only at full
      split at full
      · next below =>
        rw [if_pos below, if_pos below, List.cons_append,
          inductionHypothesis (by simpa using full)]
      · simp at full
    · next equal =>
      rw [equal] at full
      simp at full

theorem readDigits_toDigits {base : Nat} (large : 1 < base) (short : base ≤ 16) (n : Nat) :
    (readDigits base (Nat.toDigits base n)).length = (Nat.toDigits base n).length ∧
      (readDigits base (Nat.toDigits base n)).foldl (fun m d => m * base + d) 0 = n := by
  induction n using Nat.strong_induction_on with
  | _ n inductionHypothesis =>
    rw [Nat.toDigits_eq_if large]
    split
    · next small => simp [readDigits, digitVal_digitChar n (by omega), small]
    · next big =>
      obtain ⟨full, value⟩ := inductionHypothesis (n / base) (Nat.div_lt_self (by omega) large)
      rw [readDigits_append (Nat.mod_lt n (by omega)) short full]
      refine ⟨by simp [full], ?_⟩
      rw [List.foldl_append, value]
      exact Nat.div_add_mod' n base

theorem readDigits_append_stop {base : Nat} {s rest : List Char}
    (stop : ∀ c ∈ rest.head?, digitVal c = none) :
    readDigits base (s ++ rest) = readDigits base s := by
  induction s with
  | nil =>
    cases rest with
    | nil => rfl
    | cons c rest => simp [readDigits, stop c rfl]
  | cons c s inductionHypothesis =>
    rw [List.cons_append, readDigits, readDigits, inductionHypothesis]

theorem readNat_toDigits {base : Nat} (large : 1 < base) (short : base ≤ 16) (n : Nat) :
    readNat base (Nat.toDigits base n) = some n := by
  obtain ⟨full, value⟩ := readDigits_toDigits large short n
  unfold readNat
  split
  · next none =>
    rw [none] at full
    exact absurd (List.length_eq_zero_iff.mp full.symm) Nat.toDigits_ne_nil
  · rw [value]

/-- `isspace` in the C locale. -/
def isCSpace (c : Char) : Bool := c = ' ' || (9 ≤ c.toNat && c.toNat ≤ 13)

def isHexDigit (c : Char) : Bool :=
  match digitVal c with
  | some d => d < 16
  | none => false

def skipHexMark : List Char → List Char
  | '0' :: x :: c :: s =>
    if (x = 'x' ∨ x = 'X') ∧ isHexDigit c then c :: s else '0' :: x :: c :: s
  | s => s

/-- The sign and the magnitude that `strtol` and `strtoul` read. -/
def strto (base : Nat) (s : List Char) : Option (Bool × Nat) :=
  let s := s.dropWhile isCSpace
  let negative := s.head? = some '-'
  let s := if s.head? = some '-' ∨ s.head? = some '+' then s.tail else s
  (readNat base (if base = 16 then skipHexMark s else s)).map (decide negative, ·)

/-- `std::stoi`, `none` when it throws. -/
def stoi (s : List Char) : Option Int :=
  (strto 10 s).bind fun (negative, n) =>
    let value : Int := if negative then -n else n
    if -2147483648 ≤ value ∧ value ≤ 2147483647 then some value else none

/-- `std::stoul` and `std::stoull` on 64 bits. -/
def stoull (base : Nat) (s : List Char) : Option UInt64 :=
  (strto base s).bind fun (negative, n) =>
    if n < 18446744073709551616 then
      some (if negative then -UInt64.ofNat n else UInt64.ofNat n)
    else none

theorem digitChar_plain : ∀ d < 16, isCSpace d.digitChar = false ∧ d.digitChar ≠ '-' ∧
    d.digitChar ≠ '+' ∧ isHexDigit d.digitChar = true := by
  decide

theorem toDigits_eq_cons {base : Nat} (large : 1 < base) (n : Nat) :
    ∃ d < base, ∃ rest, Nat.toDigits base n = d.digitChar :: rest := by
  cases digits : Nat.toDigits base n with
  | nil => exact absurd digits Nat.toDigits_ne_nil
  | cons c rest =>
    obtain ⟨d, small, rfl⟩ := @mem_toDigits base n large c (digits ▸ List.mem_cons_self)
    exact ⟨d, small, rest, rfl⟩

theorem strto_decimal_append (n : Nat) {after : List Char}
    (stop : ∀ c ∈ after.head?, digitVal c = none) :
    strto 10 (Nat.toDigits 10 n ++ after) = some (false, n) := by
  have value := readNat_toDigits (by decide : 1 < 10) (by decide) n
  rw [readNat, ← readDigits_append_stop stop, ← readNat] at value
  obtain ⟨d, small, rest, digits⟩ := toDigits_eq_cons (by decide : 1 < 10) n
  rw [digits, List.cons_append] at value ⊢
  obtain ⟨space, minus, plus, -⟩ := digitChar_plain d (by omega)
  simp [strto, List.dropWhile_cons_of_neg, space, minus, plus, value]

theorem strto_decimal (n : Nat) : strto 10 (Nat.toDigits 10 n) = some (false, n) := by
  simpa using @strto_decimal_append n [] (by simp)

theorem strto_hex (n : Nat) :
    strto 16 ('0' :: 'x' :: Nat.toDigits 16 n) = some (false, n) := by
  have value := readNat_toDigits (by decide : 1 < 16) (by decide) n
  obtain ⟨d, small, rest, digits⟩ := toDigits_eq_cons (by decide : 1 < 16) n
  rw [digits] at value ⊢
  obtain ⟨-, -, -, hex⟩ := digitChar_plain d small
  have zero : isCSpace '0' = false := by decide
  simp [strto, List.dropWhile_cons_of_neg, zero, skipHexMark, hex, value]

theorem strto_hex_append (n : Nat) {after : List Char}
    (stop : ∀ c ∈ after.head?, digitVal c = none) (unmarked : ∀ c ∈ after.head?, c ≠ 'x' ∧ c ≠ 'X') :
    strto 16 (Nat.toDigits 16 n ++ after) = some (false, n) := by
  have value := readNat_toDigits (by decide : 1 < 16) (by decide) n
  rw [readNat, ← readDigits_append_stop stop, ← readNat] at value
  obtain ⟨d, small, rest, digits⟩ := toDigits_eq_cons (by decide : 1 < 16) n
  have plain : ∀ c ∈ (rest ++ after).head?, c ≠ 'x' ∧ c ≠ 'X' := by
    intro c member
    cases rest with
    | nil => exact unmarked c member
    | cons second rest =>
      cases member
      obtain ⟨e, below, rfl⟩ := @mem_toDigits 16 n (by decide) c (by simp [digits])
      have letters : ∀ e < 16, e.digitChar ≠ 'x' ∧ e.digitChar ≠ 'X' := by decide
      exact letters e below
  have unskipped : skipHexMark (d.digitChar :: (rest ++ after)) = d.digitChar :: (rest ++ after) := by
    unfold skipHexMark
    split
    · next x c s equal =>
      obtain ⟨-, behind⟩ := List.cons.inj equal
      have := plain x (by rw [behind]; rfl)
      rw [if_neg (fun marked => not_or.mpr this marked.1), equal]
    · rfl
  rw [digits, List.cons_append] at value ⊢
  obtain ⟨space, minus, plus, -⟩ := digitChar_plain d small
  simp [strto, List.dropWhile_cons_of_neg, space, minus, plus, unskipped, value]

theorem stoi_decimal {n : Nat} (small : n < 2147483648) : stoi (Nat.toDigits 10 n) = some (n : Int) := by
  rw [stoi, strto_decimal, Option.bind_some]
  exact if_pos ⟨by simp only [Bool.false_eq_true, if_false]; omega,
    by simp only [Bool.false_eq_true, if_false]; omega⟩

theorem stoull_decimal {n : Nat} (small : n < 18446744073709551616) :
    stoull 10 (Nat.toDigits 10 n) = some (UInt64.ofNat n) := by
  rw [stoull, strto_decimal, Option.bind_some]
  exact if_pos small

theorem stoull_decimal_append {n : Nat} (small : n < 18446744073709551616) {after : List Char}
    (stop : ∀ c ∈ after.head?, digitVal c = none) :
    stoull 10 (Nat.toDigits 10 n ++ after) = some (UInt64.ofNat n) := by
  rw [stoull, strto_decimal_append n stop, Option.bind_some]
  exact if_pos small

theorem stoull_hex (key : UInt64) :
    stoull 16 ('0' :: 'x' :: Nat.toDigits 16 key.toNat) = some key := by
  rw [stoull, strto_hex, Option.bind_some]
  dsimp only
  rw [if_pos key.toNat_lt]
  simp

end Library
