import Mathlib

/-!
# Searching and cutting texts

`breakOn` is a search for a substring together with the two pieces around it,
`unlines` and `getlines` write and read lines, and `trim` strips a character
class from both ends.
-/

namespace Library

variable {α : Type*} [DecidableEq α]

/-- The text before the first occurrence of `needle` and the text behind it. -/
def breakOn (needle : List α) : List α → Option (List α × List α)
  | [] => if needle = [] then some ([], []) else none
  | c :: s =>
    if needle <+: c :: s then some ([], (c :: s).drop needle.length)
    else (breakOn needle s).map fun (before, after) => (c :: before, after)

section Search

variable {needle s t : List α} {c d : α}

theorem breakOn_eq_none_iff : breakOn needle s = none ↔ ¬ needle <:+: s := by
  induction s with
  | nil => simp [breakOn]
  | cons c s inductionHypothesis =>
    rw [breakOn, List.infix_cons_iff]
    split
    · next here => simp [here]
    · next here => simp [here, inductionHypothesis]

theorem breakOn_subset {before after : List α} (found : breakOn needle s = some (before, after))
    (member : c ∈ before) : c ∈ s := by
  induction s generalizing before with
  | nil =>
    rw [breakOn] at found
    split at found
    · cases found
      cases member
    · cases found
  | cons d s inductionHypothesis =>
    rw [breakOn] at found
    split at found
    · cases found
      cases member
    · obtain ⟨⟨earlier, later⟩, split, equal⟩ := Option.map_eq_some_iff.mp found
      obtain ⟨rfl, rfl⟩ := Prod.mk.inj equal
      obtain rfl | inside := List.mem_cons.mp member
      · exact List.mem_cons_self
      · exact List.mem_cons_of_mem d (inductionHypothesis split inside)

theorem breakOn_append (nonempty : needle ≠ []) : breakOn needle (needle ++ s) = some ([], s) := by
  cases needle with
  | nil => exact absurd rfl nonempty
  | cons c needle =>
    rw [List.cons_append, breakOn, if_pos (by simp)]
    simp

theorem breakOn_cons_of_not_prefix (apart : ¬ needle <+: c :: s) :
    breakOn needle (c :: s) = (breakOn needle s).map fun (before, after) => (c :: before, after) := by
  rw [breakOn, if_neg apart]

theorem breakOn_skip (absent : c ∉ s) :
    breakOn (c :: needle) (s ++ t) =
      (breakOn (c :: needle) t).map fun (before, after) => (s ++ before, after) := by
  induction s with
  | nil => simp
  | cons d s inductionHypothesis =>
    have apart : ¬ c :: needle <+: d :: (s ++ t) := by
      rw [List.cons_prefix_cons]
      rintro ⟨rfl, -⟩
      exact absent List.mem_cons_self
    rw [List.cons_append, breakOn_cons_of_not_prefix apart,
      inductionHypothesis fun member => absent (List.mem_cons_of_mem d member), Option.map_map]
    rfl

theorem breakOn_skip_append (absent : c ∉ s) :
    breakOn (c :: needle) (s ++ c :: (needle ++ t)) = some (s, t) := by
  rw [breakOn_skip absent, ← List.cons_append, breakOn_append (List.cons_ne_nil c needle)]
  simp

/-- A search also runs over characters none of which is the second of the needle. -/
theorem breakOn_skip_second (absent : d ∉ s) (apart : c ≠ d) :
    breakOn (c :: d :: needle) (s ++ c :: d :: (needle ++ t)) = some (s, t) := by
  induction s with
  | nil => exact breakOn_append (List.cons_ne_nil c _)
  | cons first s inductionHypothesis =>
    have later : ¬ c :: d :: needle <+: first :: (s ++ c :: d :: (needle ++ t)) := by
      rw [List.cons_prefix_cons]
      rintro ⟨-, second⟩
      cases s with
      | nil => exact apart (List.cons_prefix_cons.mp second).1.symm
      | cons next s =>
        rcases List.cons_prefix_cons.mp second with ⟨rfl, -⟩
        exact absent (List.mem_cons_of_mem first List.mem_cons_self)
    rw [List.cons_append, breakOn_cons_of_not_prefix later,
      inductionHypothesis fun member => absent (List.mem_cons_of_mem first member)]
    rfl

omit [DecidableEq α] in
/-- A character that the front does not have stands in the rest, with all that
follows it. -/
theorem suffix_of_append_eq {front rest : List α} (absent : c ∉ front)
    (equal : s ++ c :: t = front ++ rest) : c :: t <:+ rest := by
  rcases List.append_eq_append_iff.mp equal with ⟨middle, isFront, later⟩ | ⟨middle, -, later⟩
  · cases middle with
    | nil =>
      rw [List.nil_append] at later
      exact later ▸ List.suffix_refl _
    | cons next middle =>
      rcases List.cons.inj later with ⟨rfl, -⟩
      exact absurd (by simp [isFront]) absent
  · exact later ▸ List.suffix_append middle _

theorem infix_skip_iff (absent : c ∉ s) : c :: needle <:+: s ++ t ↔ c :: needle <:+: t := by
  rw [← not_iff_not, ← breakOn_eq_none_iff, ← breakOn_eq_none_iff, breakOn_skip absent,
    Option.map_eq_none_iff]

omit [DecidableEq α] in
/-- An occurrence lies on one side of a character that the needle does not have. -/
theorem infix_append_cons_iff (absent : c ∉ needle) :
    needle <:+: s ++ c :: t ↔ needle <:+: s ∨ needle <:+: t := by
  constructor
  · rintro ⟨before, after, equal⟩
    rw [List.append_assoc] at equal
    obtain ⟨middle, rfl, later⟩ | ⟨middle, rfl, later⟩ := List.append_eq_append_iff.mp equal
    · -- the needle starts in `s`
      obtain ⟨tail, rfl, -⟩ | ⟨tail, rfl, tails⟩ := List.append_eq_append_iff.mp later
      · exact .inl ⟨before, tail, by simp⟩
      · cases tail with
        | nil => exact .inl ⟨before, [], by simp⟩
        | cons a tail =>
          obtain ⟨rfl, -⟩ := List.cons.inj tails
          exact absurd (by simp) absent
    · cases middle with
      | nil =>
        cases needle with
        | nil => exact .inl List.nil_infix
        | cons a needle =>
          obtain ⟨rfl, -⟩ := List.cons.inj later
          exact absurd List.mem_cons_self absent
      | cons a middle =>
        obtain ⟨rfl, rfl⟩ := List.cons.inj later
        exact .inr ⟨middle, after, List.append_assoc ..⟩
  · rintro (here | here)
    · exact here.trans (List.prefix_append _ _).isInfix
    · exact here.trans ((List.suffix_cons _ _).trans (List.suffix_append _ _)).isInfix

end Search

omit [DecidableEq α] in
theorem mem_intercalate {c : α} {separator : List α} {pieces : List (List α)}
    (member : c ∈ List.intercalate separator pieces) :
    c ∈ separator ∨ ∃ piece ∈ pieces, c ∈ piece := by
  induction pieces with
  | nil => cases member
  | cons first rest inductionHypothesis =>
      by_cases last : rest = []
      · subst last
        exact Or.inr ⟨first, List.mem_cons_self, by simpa using member⟩
      · rw [List.intercalate_cons_of_ne_nil last, List.mem_append, List.mem_append] at member
        rcases member with (here | between) | later
        · exact Or.inr ⟨first, List.mem_cons_self, here⟩
        · exact Or.inl between
        · rcases inductionHypothesis later with between | ⟨piece, inRest, here⟩
          · exact Or.inl between
          · exact Or.inr ⟨piece, List.mem_cons_of_mem first inRest, here⟩

omit [DecidableEq α] in
theorem mem_intercalate_of_mem {c : α} {piece separator : List α}
    {pieces : List (List α)} (among : piece ∈ pieces) (member : c ∈ piece) :
    c ∈ List.intercalate separator pieces := by
  induction pieces with
  | nil => cases among
  | cons first rest inductionHypothesis =>
      by_cases last : rest = []
      · subst last
        cases List.mem_singleton.mp among
        simpa using member
      · rw [List.intercalate_cons_of_ne_nil last, List.mem_append, List.mem_append]
        rcases List.mem_cons.mp among with rfl | later
        · exact Or.inl (Or.inl member)
        · exact Or.inr (inductionHypothesis later)

def unlines (lines : List (List Char)) : List Char := lines.flatMap (· ++ ['\n'])

/-- The pieces that `getline` reads up to a delimiter. -/
def getlines (delimiter : Char) (s : List Char) : List (List Char) :=
  let pieces := s.splitOnP (· = delimiter)
  if pieces.getLast? = some [] then pieces.dropLast else pieces

theorem getlines_unlines {lines : List (List Char)} (plain : ∀ line ∈ lines, '\n' ∉ line) :
    getlines '\n' (unlines lines) = lines := by
  have pieces : (unlines lines).splitOnP (· = '\n') = lines ++ [[]] := by
    induction lines with
    | nil => rfl
    | cons line rest inductionHypothesis =>
      have here : ∀ c ∈ line, decide (c = '\n') = false := by
        intro c member
        have : c ≠ '\n' := fun newline => plain line List.mem_cons_self (newline ▸ member)
        simpa using this
      have split : unlines (line :: rest) = line ++ '\n' :: unlines rest := by simp [unlines]
      rw [split, List.splitOnP_append_cons_of_forall_mem here _ (by simp),
        inductionHypothesis fun other member => plain other (List.mem_cons_of_mem line member)]
      rfl
  simp [getlines, pieces]

/-- Strip the characters of a class from both ends. -/
def trim (isSpace : α → Bool) (s : List α) : List α :=
  ((s.dropWhile isSpace).reverse.dropWhile isSpace).reverse

omit [DecidableEq α] in
theorem trim_of_ends {isSpace : α → Bool} {s : List α} (first : ∀ c ∈ s.head?, isSpace c = false)
    (last : ∀ c ∈ s.getLast?, isSpace c = false) : trim isSpace s = s := by
  have visible : ∀ t : List α, (∀ c ∈ t.head?, isSpace c = false) → t.dropWhile isSpace = t := by
    intro t front
    cases t with
    | nil => rfl
    | cons c t => rw [List.dropWhile_cons_of_neg (by simp [front c rfl])]
  rw [trim, visible s first, visible s.reverse (by simpa using last), List.reverse_reverse]

omit [DecidableEq α] in
theorem trim_of_visible {isSpace : α → Bool} {s : List α} (visible : ∀ c ∈ s, isSpace c = false) :
    trim isSpace s = s :=
  trim_of_ends (fun c first => visible c (List.mem_of_head? first))
    fun c last => visible c (List.mem_of_getLast? last)

omit [DecidableEq α] in
theorem trim_cons_of_space {isSpace : α → Bool} {c : α} (space : isSpace c = true) (s : List α) :
    trim isSpace (c :: s) = trim isSpace s := by
  rw [trim, List.dropWhile_cons_of_pos space, trim]

end Library
