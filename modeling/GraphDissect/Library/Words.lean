import Mathlib

/-!
# Splitting a text into words

`words` drops the separators and the empty pieces between them.  A text with
words in it is its own first word exactly when it has no separator.
-/

namespace Library

variable {α : Type*} {isSep : α → Bool}

/-- The non-empty pieces between separators. -/
def words (isSep : α → Bool) (s : List α) : List (List α) :=
  (s.splitOnP isSep).filter (!·.isEmpty)

def IsWord (isSep : α → Bool) (s : List α) : Prop :=
  s ≠ [] ∧ ∀ c ∈ s, isSep c = false

instance [DecidableEq α] (s : List α) : Decidable (IsWord isSep s) :=
  inferInstanceAs (Decidable (s ≠ [] ∧ ∀ c ∈ s, isSep c = false))

@[simp] theorem words_nil : words isSep [] = [] := rfl

theorem words_cons_of_sep {c : α} (hc : isSep c = true) (s : List α) :
    words isSep (c :: s) = words isSep s := by
  simp [words, List.splitOnP_cons_eq_if_modifyHead, hc]

theorem IsWord.words_eq {s : List α} (h : IsWord isSep s) : words isSep s = [s] := by
  rw [words, List.splitOnP_eq_singleton h.2]
  simp [h.1]

theorem IsWord.words_append {w : List α} (h : IsWord isSep w) {c : α} (hc : isSep c = true)
    (s : List α) : words isSep (w ++ c :: s) = w :: words isSep s := by
  rw [words, List.splitOnP_append_cons_of_forall_mem h.2 c hc]
  simp [words, h.1]

theorem words_append_cons {c : α} (hc : isSep c = true) (s t : List α) :
    words isSep (s ++ c :: t) = words isSep s ++ words isSep t := by
  rw [words, List.splitOnP_append_cons s t hc, List.filter_append]
  rfl

theorem words_intercalate {c : α} (hc : isSep c = true) (pieces : List (List α)) :
    words isSep (List.intercalate [c] pieces) = (pieces.map (words isSep)).flatten := by
  induction pieces with
  | nil => rfl
  | cons first rest ih =>
    cases rest with
    | nil => simp
    | cons next rest =>
      rw [List.intercalate_cons_of_ne_nil (List.cons_ne_nil next rest), List.append_assoc,
        List.singleton_append, words_append_cons hc, ih]
      rfl

/-- A text is empty, starts with a separator, is a word, or starts with a word
and a separator. -/
theorem words_cases (isSep : α → Bool) (s : List α) :
    s = [] ∨ (∃ c rest, s = c :: rest ∧ isSep c = true) ∨ IsWord isSep s ∨
      ∃ w c rest, s = w ++ c :: rest ∧ IsWord isSep w ∧ isSep c = true := by
  induction s with
  | nil => exact .inl rfl
  | cons a rest ih =>
    by_cases ha : isSep a = true
    · exact .inr (.inl ⟨a, rest, rfl, ha⟩)
    · have hword : IsWord isSep [a] := ⟨by simp, by simpa using ha⟩
      right
      right
      -- `a` joins the first word of the rest
      obtain rfl | ⟨c, tail, rfl, hc⟩ | hrest | ⟨w, c, tail, rfl, hw, hc⟩ := ih
      · exact .inl hword
      · exact .inr ⟨[a], c, tail, rfl, hword, hc⟩
      · refine .inl ⟨by simp, ?_⟩
        intro b hb
        obtain rfl | hb := List.mem_cons.mp hb
        · simpa using ha
        · exact hrest.2 b hb
      · refine .inr ⟨a :: w, c, tail, rfl, ⟨by simp, ?_⟩, hc⟩
        intro b hb
        obtain rfl | hb := List.mem_cons.mp hb
        · simpa using ha
        · exact hw.2 b hb

theorem isWord_of_mem_words {s w : List α} (h : w ∈ words isSep s) : IsWord isSep w := by
  induction hn : s.length using Nat.strong_induction_on generalizing s with
  | _ n ih =>
    subst hn
    obtain rfl | ⟨c, rest, rfl, hc⟩ | hs | ⟨v, c, rest, rfl, hv, hc⟩ := words_cases isSep s
    · simp at h
    · rw [words_cons_of_sep hc] at h
      exact ih rest.length (by simp) h rfl
    · rw [hs.words_eq, List.mem_singleton] at h
      exact h ▸ hs
    · rw [hv.words_append hc, List.mem_cons] at h
      obtain rfl | h := h
      · exact hv
      · exact ih rest.length (by simp; omega) h rfl

theorem words_ne_nil {c : α} (hc : isSep c = false) (s : List α) : words isSep (c :: s) ≠ [] := by
  obtain h | ⟨b, rest, h, hb⟩ | hs | ⟨w, b, rest, h, hw, hb⟩ := words_cases isSep (c :: s)
  · cases h
  · obtain ⟨rfl, -⟩ := List.cons.inj h
    rw [hc] at hb
    cases hb
  · rw [hs.words_eq]
    simp
  · rw [h, hw.words_append hb]
    simp

/-- The words of a text, followed by words, start with a prefix of the text
that stops only at a non-separator: the text is a word, and kept whole. -/
theorem words_append_eq_takeWhile_cons {keep : α → Bool} (hkeep : ∀ c, isSep c = true → keep c = true)
    {s : List α} {xs ys : List (List α)} (hxs : ∀ x ∈ xs.head?, IsWord isSep x)
    (h : words isSep s ++ xs = s.takeWhile keep :: ys) :
    IsWord isSep s ∧ (∀ c ∈ s, keep c = true) ∧ xs = ys := by
  -- the first element of either side is a word
  have hhead : IsWord isSep (s.takeWhile keep) := by
    cases hws : words isSep s with
    | nil =>
      rw [hws, List.nil_append] at h
      exact hxs _ (by rw [h]; rfl)
    | cons w ws =>
      rw [hws, List.cons_append] at h
      rw [← (List.cons.inj h).1]
      exact isWord_of_mem_words (hws ▸ List.mem_cons_self)
  obtain rfl | ⟨c, rest, rfl, hc⟩ | hs | ⟨w, c, rest, rfl, hw, hc⟩ := words_cases isSep s
  · exact absurd rfl hhead.1
  · rw [List.takeWhile_cons_of_pos (hkeep c hc)] at hhead
    have := hhead.2 c List.mem_cons_self
    simp [hc] at this
  · rw [hs.words_eq, List.singleton_append] at h
    obtain ⟨hself, htail⟩ := List.cons.inj h
    exact ⟨hs, List.takeWhile_eq_self_iff.mp hself.symm, htail⟩
  · rw [hw.words_append hc, List.cons_append] at h
    obtain ⟨hfirst, -⟩ := List.cons.inj h
    -- a kept `w` would be kept together with the separator behind it
    by_cases hall : ∀ a ∈ w, keep a = true
    · rw [List.takeWhile_append_of_pos hall, List.takeWhile_cons_of_pos (hkeep c hc)] at hfirst
      have := congrArg List.length hfirst
      simp at this
    · rw [List.takeWhile_append] at hfirst
      split at hfirst
      · next hlen =>
        have hself : w.takeWhile keep = w := (List.takeWhile_prefix _).eq_of_length hlen
        exact absurd (List.takeWhile_eq_self_iff.mp hself) hall
      · exact absurd (List.takeWhile_eq_self_iff.mp hfirst.symm) hall

end Library
