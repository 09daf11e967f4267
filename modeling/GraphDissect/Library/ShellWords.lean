import GraphDissect.Library.CString
import Mathlib

/-!
# The words of a shell command

POSIX token recognition as a machine over the bytes of a command.  A word keeps
for each of its characters how it was quoted, because tilde and pathname
expansion, assignments, aliases and reserved words all look at unquoted
characters only.  A parameter, command or arithmetic expansion, whose extent
depends on what follows, and an operator other than a newline end the
recognition.  `Reads` and `Quotes` state what a piece of a command adds to the
word that is being read; their rules follow the quoting constructs.
-/

namespace Library.Shell

/-- What a character means where nothing quotes it. -/
inductive CharClass where
  | apostrophe
  | doubleQuote
  | backslash
  | expansion
  | blank
  | newline
  | hash
  | operator
  | ordinary
deriving DecidableEq, Repr

def classify (char : UInt8) : CharClass :=
  if char = 0x27 then .apostrophe
  else if char = 0x22 then .doubleQuote
  else if char = 0x5c then .backslash
  else if char = 0x24 ∨ char = 0x60 then .expansion
  else if char = 0x20 ∨ char = 0x09 then .blank
  else if char = 0x0a then .newline
  else if char = 0x23 then .hash
  else if char ∈ [0x7c, 0x26, 0x3b, 0x3c, 0x3e, 0x28, 0x29] then .operator
  else .ordinary

@[simp]
theorem classify_eq_apostrophe {char : UInt8} : classify char = .apostrophe ↔ char = 0x27 := by
  unfold classify
  grind

/-- How a character of a word was quoted. -/
inductive Quoting where
  | unquoted
  | backslash
  | single
  | double
deriving DecidableEq, Repr

structure QuotedChar where
  char : UInt8
  quoting : Quoting
deriving DecidableEq, Repr

abbrev Word := List QuotedChar

/-- A text all of whose characters are quoted in one way. -/
def quotedAs (quoting : Quoting) (text : Bytes) : Word := text.map (⟨·, quoting⟩)

/-- What is left of a word when its quotes are removed. -/
def quoteRemoval (word : Word) : Bytes := word.map QuotedChar.char

/-- A word that no expansion, alias or reserved word can apply to. -/
def Literal (word : Word) : Prop := ∀ quoted ∈ word, quoted.quoting ≠ .unquoted

instance : DecidablePred Literal := fun word =>
  inferInstanceAs (Decidable (∀ quoted ∈ word, quoted.quoting ≠ .unquoted))

/-- A token; an operator other than a newline is not read on. -/
inductive Token where
  | word (word : Word)
  | newline
deriving DecidableEq, Repr

inductive Refusal where
  | expansion
  | operator
  | unterminated
deriving DecidableEq, Repr

inductive Mode where
  | unquoted
  | escape
  | single
  | double
  | doubleEscape
  | comment
deriving DecidableEq, Repr

/-- The tokens read so far and the word that is being read, if there is one: an
empty word in quotes is a word. -/
structure Scanner where
  mode : Mode
  tokens : List Token
  word : Option Word
deriving DecidableEq, Repr

namespace Scanner

def start : Scanner := ⟨.unquoted, [], none⟩

/-- A quote begins a word where none is being read. -/
def enter (scanner : Scanner) (mode : Mode) : Scanner :=
  { scanner with mode := mode, word := some (scanner.word.getD []) }

def push (scanner : Scanner) (char : UInt8) (quoting : Quoting) : Scanner :=
  { scanner with word := some (scanner.word.getD [] ++ [⟨char, quoting⟩]) }

/-- The end of the word that is being read. -/
def delimit (scanner : Scanner) : Scanner :=
  { scanner with tokens := scanner.tokens ++ scanner.word.toList.map .word, word := none }

def endLine (scanner : Scanner) : Scanner :=
  ⟨.unquoted, scanner.delimit.tokens ++ [.newline], none⟩

/-- One character.  A backslash before a newline joins two lines, and between
double quotes it escapes only what is special there. -/
def step (scanner : Scanner) (char : UInt8) : Except Refusal Scanner :=
  match scanner.mode with
  | .unquoted =>
      match classify char with
      | .apostrophe => .ok (scanner.enter .single)
      | .doubleQuote => .ok (scanner.enter .double)
      | .backslash => .ok { scanner with mode := .escape }
      | .expansion => .error .expansion
      | .operator => .error .operator
      | .blank => .ok scanner.delimit
      | .newline => .ok scanner.endLine
      | .hash =>
          if scanner.word = none then .ok { scanner with mode := .comment }
          else .ok (scanner.push char .unquoted)
      | .ordinary => .ok (scanner.push char .unquoted)
  | .escape =>
      match classify char with
      | .newline => .ok { scanner with mode := .unquoted }
      | _ => .ok { scanner.push char .backslash with mode := .unquoted }
  | .single =>
      match classify char with
      | .apostrophe => .ok { scanner with mode := .unquoted }
      | _ => .ok (scanner.push char .single)
  | .double =>
      match classify char with
      | .doubleQuote => .ok { scanner with mode := .unquoted }
      | .backslash => .ok { scanner with mode := .doubleEscape }
      | .expansion => .error .expansion
      | _ => .ok (scanner.push char .double)
  | .doubleEscape =>
      match classify char with
      | .newline => .ok { scanner with mode := .double }
      | .doubleQuote | .backslash | .expansion =>
          .ok { scanner.push char .backslash with mode := .double }
      | _ => .ok { (scanner.push 0x5c .double).push char .double with mode := .double }
  | .comment =>
      match classify char with
      | .newline => .ok scanner.endLine
      | _ => .ok scanner

def run (scanner : Scanner) (text : Bytes) : Except Refusal Scanner :=
  text.foldlM step scanner

@[simp]
theorem run_nil (scanner : Scanner) : scanner.run [] = .ok scanner := rfl

theorem run_cons (scanner : Scanner) (char : UInt8) (text : Bytes) :
    scanner.run (char :: text) = scanner.step char >>= fun next => next.run text :=
  List.foldlM_cons

theorem run_append (scanner : Scanner) (text rest : Bytes) :
    scanner.run (text ++ rest) = scanner.run text >>= fun next => next.run rest :=
  List.foldlM_append

theorem run_append_of_run {scanner next : Scanner} {text : Bytes}
    (read : scanner.run text = .ok next) (rest : Bytes) :
    scanner.run (text ++ rest) = next.run rest := by
  rw [run_append, read]
  rfl

/-- At the end of a command no quote and no escape is open. -/
def finish (scanner : Scanner) : Except Refusal (List Token) :=
  match scanner.mode with
  | .unquoted | .comment => .ok scanner.delimit.tokens
  | _ => .error .unterminated

end Scanner

/-- The tokens of a command, which is handed over as a C string. -/
def tokens (command : Bytes) : Except Refusal (List Token) :=
  Scanner.start.run (cstr command) >>= Scanner.finish

/-- What `text` adds to a word that is being read, and where it leaves the
quoting. -/
def Reads (before : Mode) (text : Bytes) (after : Mode) (word : Word) : Prop :=
  ∀ tokens current,
    Scanner.run ⟨before, tokens, some current⟩ text = .ok ⟨after, tokens, some (current ++ word)⟩

namespace Reads

variable {before between after : Mode} {text rest : Bytes} {word more : Word}

theorem nil (mode : Mode) : Reads mode [] mode [] := by
  intro tokens current
  rw [Scanner.run_nil, List.append_nil]

theorem append (first : Reads before text between word) (second : Reads between rest after more) :
    Reads before (text ++ rest) after (word ++ more) := by
  intro tokens current
  rw [Scanner.run_append_of_run (first tokens current), second, List.append_assoc]

theorem openSingle : Reads .unquoted [0x27] .single [] := by
  intro tokens current
  rw [List.append_nil]
  rfl

theorem closeSingle : Reads .single [0x27] .unquoted [] := by
  intro tokens current
  rw [List.append_nil]
  rfl

theorem openDouble : Reads .unquoted [0x22] .double [] := by
  intro tokens current
  rw [List.append_nil]
  rfl

theorem closeDouble : Reads .double [0x22] .unquoted [] := by
  intro tokens current
  rw [List.append_nil]
  rfl

theorem ofStep {mode : Mode} {quoting : Quoting}
    (takes : ∀ char ∈ text, ∀ tokens current,
      Scanner.step ⟨mode, tokens, some current⟩ char =
        .ok ⟨mode, tokens, some (current ++ [⟨char, quoting⟩])⟩) :
    Reads mode text mode (quotedAs quoting text) := by
  induction text with
  | nil => exact nil mode
  | cons char text inductionHypothesis =>
      rcases List.forall_mem_cons.mp takes with ⟨takesChar, takesText⟩
      have reads : Reads mode [char] mode [⟨char, quoting⟩] := by
        intro tokens current
        rw [Scanner.run_cons, takesChar]
        rfl
      exact reads.append (inductionHypothesis takesText)

/-- Between apostrophes every character but the apostrophe stands for itself. -/
theorem single (noApostrophe : 0x27 ∉ text) :
    Reads .single text .single (quotedAs .single text) := by
  refine ofStep fun char member tokens current => ?_
  have other : classify char ≠ .apostrophe := by
    rw [Ne, classify_eq_apostrophe]
    rintro rfl
    exact noApostrophe member
  cases equal : classify char <;> simp_all [Scanner.step, Scanner.push]

/-- Between double quotes a character without a meaning there stands for itself. -/
theorem double
    (plain : ∀ char ∈ text, classify char ∉ [.doubleQuote, .backslash, .expansion]) :
    Reads .double text .double (quotedAs .double text) := by
  refine ofStep fun char member tokens current => ?_
  have other := plain char member
  cases equal : classify char <;> simp_all [Scanner.step, Scanner.push]

theorem unquoted (ordinary : ∀ char ∈ text, classify char = .ordinary) :
    Reads .unquoted text .unquoted (quotedAs .unquoted text) := by
  refine ofStep fun char member tokens current => ?_
  simp [Scanner.step, ordinary char member, Scanner.push]

end Reads

/-- `text` is a way to write `word`: it adds the word to the one that is being
read, and begins one where there is none. -/
def Quotes (text : Bytes) (word : Word) : Prop :=
  ∀ tokens current,
    Scanner.run ⟨.unquoted, tokens, current⟩ text =
      .ok ⟨.unquoted, tokens, some (current.getD [] ++ word)⟩

namespace Quotes

variable {text : Bytes} {word : Word}

theorem ofApostrophe (reads : Reads .single text .unquoted word) :
    Quotes (0x27 :: text) word := by
  intro tokens current
  rw [Scanner.run_cons]
  exact reads tokens (current.getD [])

theorem unquoted (nonempty : text ≠ []) (ordinary : ∀ char ∈ text, classify char = .ordinary) :
    Quotes text (quotedAs .unquoted text) := by
  intro tokens current
  cases text with
  | nil => exact absurd rfl nonempty
  | cons char text =>
      rcases List.forall_mem_cons.mp ordinary with ⟨ordinaryChar, ordinaryText⟩
      have first : Scanner.step ⟨.unquoted, tokens, current⟩ char =
          .ok ⟨.unquoted, tokens, some (current.getD [] ++ [⟨char, .unquoted⟩])⟩ := by
        simp [Scanner.step, ordinaryChar, Scanner.push]
      rw [Scanner.run_cons, first]
      have rest := Reads.unquoted ordinaryText tokens (current.getD [] ++ [⟨char, .unquoted⟩])
      rw [List.append_assoc] at rest
      exact rest

end Quotes

/-- Texts that each write a word, with spaces between them. -/
def spaced (texts : List Bytes) : Bytes := List.intercalate [0x20] texts

theorem spaced_cons {texts : List Bytes} (nonempty : texts ≠ []) (text : Bytes) :
    spaced (text :: texts) = text ++ 0x20 :: spaced texts := by
  rw [spaced, List.intercalate_cons_of_ne_nil nonempty, List.append_assoc,
    List.singleton_append]
  rfl

/-- A loop that writes a space before each text but the first. -/
theorem spaced_cons_eq_flatMap (text : Bytes) (texts : List Bytes) :
    spaced (text :: texts) = text ++ texts.flatMap (0x20 :: ·) := by
  induction texts generalizing text with
  | nil => simp [spaced]
  | cons next texts inductionHypothesis =>
      rw [spaced_cons (List.cons_ne_nil next texts), inductionHypothesis, List.flatMap_cons,
        List.cons_append]

theorem zero_notMem_spaced {texts : List Bytes} (nulFree : ∀ text ∈ texts, 0 ∉ text) :
    0 ∉ spaced texts := by
  intro member
  rcases mem_intercalate member with space | ⟨text, among, inside⟩
  · cases List.mem_singleton.mp space
  · exact nulFree text among inside

theorem run_spaced {texts : List Bytes} {words : List Word}
    (quotes : List.Forall₂ Quotes texts words) (tokens : List Token) :
    ∃ last, Scanner.run ⟨.unquoted, tokens, none⟩ (spaced texts) = .ok last ∧
      last.mode = .unquoted ∧ last.delimit = ⟨.unquoted, tokens ++ words.map .word, none⟩ := by
  induction quotes generalizing tokens with
  | nil => exact ⟨_, rfl, rfl, by simp [Scanner.delimit]⟩
  | @cons text word texts words quotesText quotesTexts inductionHypothesis =>
      by_cases only : texts = []
      · subst only
        cases quotesTexts
        refine ⟨⟨.unquoted, tokens, some word⟩, ?_, rfl, by simp [Scanner.delimit]⟩
        rw [spaced, List.intercalate_singleton]
        exact quotesText tokens none
      · rcases inductionHypothesis (tokens ++ [.word word]) with ⟨last, read, mode, delimited⟩
        refine ⟨last, ?_, mode, by simpa using delimited⟩
        rw [spaced_cons only, Scanner.run_append_of_run (quotesText tokens none), Scanner.run_cons]
        exact read

theorem tokens_spaced {texts : List Bytes} {words : List Word}
    (quotes : List.Forall₂ Quotes texts words) (nulFree : ∀ text ∈ texts, 0 ∉ text) :
    tokens (spaced texts) = .ok (words.map .word) := by
  rcases run_spaced quotes [] with ⟨last, read, mode, delimited⟩
  rw [tokens, cstr_eq_self_iff.mpr (zero_notMem_spaced nulFree), Scanner.start, read]
  simp [bind, Except.bind, Scanner.finish, mode, delimited]

theorem tokens_spaced_newline {texts : List Bytes} {words : List Word}
    (quotes : List.Forall₂ Quotes texts words) (nulFree : ∀ text ∈ texts, 0 ∉ text) :
    tokens (spaced texts ++ [0x0a]) = .ok (words.map .word ++ [.newline]) := by
  have noZero : 0 ∉ spaced texts ++ [0x0a] := by
    simp [zero_notMem_spaced nulFree]
  rcases run_spaced quotes [] with ⟨last, read, mode, delimited⟩
  have ended : last.run [0x0a] = .ok ⟨.unquoted, words.map .word ++ [.newline], none⟩ := by
    rw [Scanner.run_cons, Scanner.step, mode]
    simp [classify, Scanner.endLine, delimited, bind, Except.bind]
  rw [tokens, cstr_eq_self_iff.mpr noZero, Scanner.start, Scanner.run_append_of_run read, ended]
  simp [bind, Except.bind, Scanner.finish, Scanner.delimit]

end Library.Shell
