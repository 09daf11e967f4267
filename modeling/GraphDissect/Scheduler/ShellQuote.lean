import GraphDissect.Library.ShellWords
import Mathlib

/-!
# Shell quoting

`UTIL::shell_quote` and the two command lines that are built with it: the one
that `MFuzz::start_fuzzer` exports next to the `argv` it executes, and the one
that `Scheduler::getFAddrIdMap` hands to `system`.
-/

namespace GraphDissect.Scheduler

open Library

/-- `UTIL::shell_quote`. -/
def shellQuote (s : Bytes) : Bytes :=
  let out := s.foldl
    (fun out c => if c = 0x27 then out ++ utf8 "'\"'\"'".toList else out ++ [c])
    (utf8 "'".toList)
  out ++ utf8 "'".toList

/-- One turn of the loop over the arguments: a space before each but the first. -/
def appendArg (cmdStr : Bytes) (arg : Bytes × Nat) : Bytes :=
  (if arg.2 ≠ 0 then cmdStr ++ utf8 " ".toList else cmdStr) ++ shellQuote arg.1

/-- `cmd_str` of `MFuzz::start_fuzzer`. -/
def commandString (args : List Bytes) : Bytes := args.zipIdx.foldl appendArg []

/-- What one character adds to the output of `shell_quote`. -/
def quoteChar (c : UInt8) : Bytes := if c = 0x27 then [0x27, 0x22, 0x27, 0x22, 0x27] else [c]

/-- How the shell reads one quoted character. -/
def quotedChar (c : UInt8) : Shell.QuotedChar := ⟨c, if c = 0x27 then .double else .single⟩

/-- The word that `shell_quote` writes. -/
def quotedWord (s : Bytes) : Shell.Word := s.map quotedChar

theorem shellQuote_eq (s : Bytes) : shellQuote s = 0x27 :: (s.flatMap quoteChar ++ [0x27]) := by
  have loop : ∀ out : Bytes, s.foldl
      (fun out c => if c = 0x27 then out ++ utf8 "'\"'\"'".toList else out ++ [c]) out =
        out ++ s.flatMap quoteChar := by
    induction s with
    | nil => simp
    | cons c s inductionHypothesis =>
        intro out
        rw [List.foldl_cons, inductionHypothesis, List.flatMap_cons, ← List.append_assoc]
        congr 1
        unfold quoteChar
        split
        · rfl
        · rfl
  rw [shellQuote, loop, List.append_assoc]
  rfl

theorem commandString_eq (args : List Bytes) :
    commandString args = Shell.spaced (args.map shellQuote) := by
  have loop : ∀ (rest : List Bytes) (i : Nat) (cmdStr : Bytes), 0 < i →
      (rest.zipIdx i).foldl appendArg cmdStr =
        cmdStr ++ (rest.map shellQuote).flatMap (0x20 :: ·) := by
    intro rest
    induction rest with
    | nil => simp
    | cons arg rest inductionHypothesis =>
        intro i cmdStr positive
        rw [List.zipIdx_cons, List.foldl_cons, inductionHypothesis _ _ i.succ_pos, appendArg,
          if_pos positive.ne', List.map_cons, List.flatMap_cons, List.append_assoc,
          List.append_assoc]
        rfl
  cases args with
  | nil => rfl
  | cons first rest =>
      rw [commandString, List.zipIdx_cons, List.foldl_cons, loop rest _ _ Nat.one_pos,
        List.map_cons, Shell.spaced_cons_eq_flatMap]
      rfl

theorem quoteRemoval_quotedWord (s : Bytes) : Shell.quoteRemoval (quotedWord s) = s := by
  simp [Shell.quoteRemoval, quotedWord, quotedChar, Function.comp_def]

theorem literal_quotedWord (s : Bytes) : Shell.Literal (quotedWord s) := by
  intro quoted member
  rcases List.mem_map.mp member with ⟨c, _, rfl⟩
  unfold quotedChar
  split <;> simp

/-- An apostrophe leaves the single quotes, stands between double quotes and
enters the single quotes again; nothing else leaves them. -/
theorem reads_quoteChar (c : UInt8) : Shell.Reads .single (quoteChar c) .single [quotedChar c] := by
  by_cases apostrophe : c = 0x27
  · subst apostrophe
    have inDouble : Shell.Reads .double [0x27] .double (Shell.quotedAs .double [0x27]) :=
      Shell.Reads.double (by simp [Shell.classify])
    exact Shell.Reads.closeSingle.append (Shell.Reads.openDouble.append
      (inDouble.append (Shell.Reads.closeDouble.append Shell.Reads.openSingle)))
  · rw [quoteChar, quotedChar, if_neg apostrophe, if_neg apostrophe]
    exact Shell.Reads.single (by simpa using Ne.symm apostrophe)

theorem reads_quoteChars (s : Bytes) :
    Shell.Reads .single (s.flatMap quoteChar) .single (quotedWord s) := by
  induction s with
  | nil => exact Shell.Reads.nil .single
  | cons c s inductionHypothesis => exact (reads_quoteChar c).append inductionHypothesis

theorem quotes_shellQuote (s : Bytes) : Shell.Quotes (shellQuote s) (quotedWord s) := by
  rw [shellQuote_eq]
  have reads := (reads_quoteChars s).append Shell.Reads.closeSingle
  rw [List.append_nil] at reads
  exact Shell.Quotes.ofApostrophe reads

theorem quotes_shellQuotes (args : List Bytes) :
    List.Forall₂ Shell.Quotes (args.map shellQuote) (args.map quotedWord) := by
  rw [List.forall₂_map_left_iff, List.forall₂_map_right_iff, List.forall₂_same]
  exact fun arg _ => quotes_shellQuote arg

theorem zero_mem_quoteChar {c : UInt8} : 0 ∈ quoteChar c ↔ 0 = c := by
  unfold quoteChar
  split
  · next apostrophe => simp [apostrophe]
  · exact List.mem_singleton

theorem zero_mem_shellQuote {s : Bytes} : 0 ∈ shellQuote s ↔ 0 ∈ s := by
  rw [shellQuote_eq]
  simp [List.mem_flatMap, zero_mem_quoteChar]

theorem zero_notMem_shellQuotes {args : List Bytes} (nulFree : ∀ arg ∈ args, 0 ∉ arg) :
    ∀ text ∈ args.map shellQuote, 0 ∉ text := by
  rw [List.forall_mem_map]
  exact fun arg member => mt zero_mem_shellQuote.mp (nulFree arg member)

theorem map_quoteRemoval_quotedWord (args : List Bytes) :
    (args.map quotedWord).map Shell.quoteRemoval = args := by
  simp [Function.comp_def, quoteRemoval_quotedWord]

theorem tokens_commandString {args : List Bytes} (nulFree : ∀ arg ∈ args, 0 ∉ arg) :
    Shell.tokens (commandString args) = .ok ((args.map quotedWord).map .word) := by
  rw [commandString_eq]
  exact Shell.tokens_spaced (quotes_shellQuotes args) (zero_notMem_shellQuotes nulFree)

/-- The shell reads the arguments back, each as one word all of whose characters
are quoted. -/
theorem commandString_exact (args : List Bytes) (nulFree : ∀ arg ∈ args, 0 ∉ arg) :
    ∃ words : List Shell.Word,
      Shell.tokens (commandString args) = .ok (words.map .word) ∧
        words.map Shell.quoteRemoval = args ∧ ∀ word ∈ words, Shell.Literal word := by
  refine ⟨args.map quotedWord, tokens_commandString nulFree, map_quoteRemoval_quotedWord args, ?_⟩
  rw [List.forall_mem_map]
  exact fun arg _ => literal_quotedWord arg

/-- An empty argument, apostrophes at both ends and in a row, and characters
that are special to the shell. -/
theorem commandString_exact_apostrophes :
    (∀ arg ∈ [[], utf8 "''a b'".toList, utf8 "$(x) *\"".toList], 0 ∉ arg) ∧
      ∃ words : List Shell.Word,
        Shell.tokens (commandString [[], utf8 "''a b'".toList, utf8 "$(x) *\"".toList]) =
            .ok (words.map .word) ∧
          words.map Shell.quoteRemoval = [[], utf8 "''a b'".toList, utf8 "$(x) *\"".toList] ∧
          ∀ word ∈ words, Shell.Literal word :=
  ⟨by decide, commandString_exact _ (by decide)⟩

example : commandString [[], utf8 "''a b'".toList] =
    utf8 "'' ''\"'\"''\"'\"'a b'\"'\"''".toList := by decide

/-- The values `MFuzz::start_fuzzer` builds its command from. -/
structure FuzzerStart where
  fuzzer : Bytes
  sessionPath : Bytes
  absPath : Bytes
  inDir : Bytes
  outDir : Bytes

namespace FuzzerStart

def args (start : FuzzerStart) : List Bytes :=
  [start.fuzzer,
    utf8 "-n".toList, utf8 "1".toList,
    utf8 "-X".toList, start.sessionPath,
    utf8 "-b".toList, start.absPath,
    utf8 "-i".toList, start.inDir,
    utf8 "-o".toList, start.outDir,
    utf8 "--timeout".toList, utf8 "10".toList,
    utf8 "--rlimit_rss".toList, utf8 "2048".toList,
    utf8 "-F".toList, utf8 "10485760".toList,
    utf8 "--".toList, utf8 "fuzzPilot".toList,
    utf8 "___FILE___".toList]

/-- What `hfuzz_cmd.txt` holds. -/
def exported (start : FuzzerStart) : Bytes := commandString start.args ++ utf8 "\n".toList

/-- The strings that the child hands to `execvp`. -/
def argv (start : FuzzerStart) : List Bytes := start.args.map cstr

def NulFree (start : FuzzerStart) : Prop :=
  ∀ value ∈ [start.fuzzer, start.sessionPath, start.absPath, start.inDir, start.outDir], 0 ∉ value

theorem NulFree.args {start : FuzzerStart} (nulFree : start.NulFree) :
    ∀ arg ∈ start.args, 0 ∉ arg := by
  simp only [NulFree, List.forall_mem_cons] at nulFree
  rcases nulFree with ⟨fuzzer, sessionPath, absPath, inDir, outDir, -⟩
  simp only [FuzzerStart.args, List.forall_mem_cons, List.not_mem_nil, false_implies, implies_true,
    and_true]
  exact ⟨fuzzer, by decide, by decide, by decide, sessionPath, by decide, absPath, by decide, inDir,
    by decide, outDir, by decide, by decide, by decide, by decide, by decide, by decide, by decide,
    by decide, by decide⟩

/-- The exported line, given to a shell, runs the command that the child runs. -/
theorem exported_runs_argv {start : FuzzerStart} (nulFree : start.NulFree) :
    ∃ words : List Shell.Word,
      Shell.tokens start.exported = .ok (words.map .word ++ [.newline]) ∧
        words.map Shell.quoteRemoval = start.argv ∧ ∀ word ∈ words, Shell.Literal word := by
  refine ⟨start.args.map quotedWord, ?_, ?_, ?_⟩
  · rw [exported, commandString_eq]
    exact Shell.tokens_spaced_newline (quotes_shellQuotes start.args)
      (zero_notMem_shellQuotes nulFree.args)
  · rw [map_quoteRemoval_quotedWord, argv, map_cstr_eq_self_iff.mpr nulFree.args]
  · rw [List.forall_mem_map]
    exact fun arg _ => literal_quotedWord arg

/-- A session below a directory with a space and an apostrophe in its name. -/
def quoted : FuzzerStart where
  fuzzer := utf8 "honggfuzz".toList
  sessionPath := utf8 "/tmp/it's 1".toList
  absPath := utf8 "/bench/lua".toList
  inDir := utf8 "/tmp/it's 1/in".toList
  outDir := utf8 "/tmp/it's 1/out".toList

theorem exported_runs_argv_quoted :
    ∃ words : List Shell.Word,
      Shell.tokens quoted.exported = .ok (words.map .word ++ [.newline]) ∧
        words.map Shell.quoteRemoval = quoted.argv ∧ ∀ word ∈ words, Shell.Literal word :=
  exported_runs_argv (by unfold NulFree; decide)

end FuzzerStart

end GraphDissect.Scheduler
