import GraphDissect.Fuzzing.MangleSafety

/-!
# Runs of the mutation engine

`mangle_mangleContent` draws its mutators; what each of them keeps holds along
the whole run.
-/

namespace GraphDissect.Fuzzing

open Library

/-- The table without `mangle_AddSub`, whose one-byte case does not look at
`printable`. -/
def printableFuncs (global : MangleGlobal) : List (Bool → Mangler Unit) :=
  (mangleFuncs global).eraseIdx 6

def mangleAll (printable : Bool) (mutators : List (Bool → Mangler Unit)) : Mangler Unit :=
  mutators.forM fun mutator => mutator printable

section Runs

variable {global : MangleGlobal} (wellFormed : global.WellFormed) {printable : Bool}
  {s : MangleState}
include wellFormed

theorem mutates_printableFuncs :
    ∀ mutator ∈ printableFuncs global, ∀ s, Sized global.maxInputSz s.data →
      MutatesOr global printable s.data (mutator printable) s := by
  have table : printableFuncs global =
      [mangleShrink global, mangleExpand global, mangleBit, mangleIncByte, mangleDecByte,
        mangleNegByte, mangleMemSet global, mangleMemClr global, mangleMemSwap,
        mangleMemCopy global, mangleBytes global, mangleASCIINum global,
        mangleASCIINumChange global, mangleByteRepeat global, mangleMagic global,
        mangleStaticDict global, mangleConstFeedbackDict global, mangleRandomBuf global,
        mangleSplice global] := rfl
  simp only [table, List.forall_mem_cons]
  exact ⟨fun _ sized => (mutates_shrink wellFormed rfl sized).or,
    fun _ sized => (mutates_expand wellFormed rfl sized).or,
    fun _ sized => (mutates_bit wellFormed rfl sized).or,
    fun _ sized => (mutates_incByte wellFormed rfl sized).or,
    fun _ sized => (mutates_decByte wellFormed rfl sized).or,
    fun _ sized => (mutates_negByte wellFormed rfl sized).or,
    fun _ sized => (mutates_memSet wellFormed rfl sized).or,
    fun _ sized => (mutates_memClr wellFormed rfl sized).or,
    fun _ sized => (mutates_memSwap wellFormed rfl sized).or,
    fun _ sized => (mutates_memCopy wellFormed rfl sized).or,
    fun _ sized => (mutates_bytes wellFormed rfl sized).or,
    fun _ sized => (mutates_asciiNum wellFormed rfl sized).or,
    fun _ sized => (mutates_asciiNumChange wellFormed rfl sized).or,
    fun _ sized => (mutates_byteRepeat wellFormed rfl sized).or,
    fun _ sized => (mutates_magic wellFormed rfl sized).or,
    fun _ sized => (mutates_staticDict wellFormed rfl sized).or,
    fun _ sized => (mutates_constFeedbackDict wellFormed rfl sized).or,
    fun _ sized => (mutates_randomBuf wellFormed rfl sized).or,
    fun _ sized => mutates_splice wellFormed rfl sized, List.forall_mem_nil _⟩

theorem mutates_mangleFuncs {mutator : Bool → Mangler Unit} (member : mutator ∈ mangleFuncs global)
    (sized : Sized global.maxInputSz s.data) :
    MutatesOr global false s.data (mutator printable) s := by
  have table : mangleFuncs global = (printableFuncs global).take 6 ++
      mangleAddSub :: (printableFuncs global).drop 6 := rfl
  have parts : mutator ∈ printableFuncs global ∨ mutator = mangleAddSub := by
    rw [table, List.mem_append, List.mem_cons] at member
    rcases member with member | member | member
    · exact .inl (List.mem_of_mem_take member)
    · exact .inr member
    · exact .inl (List.mem_of_mem_drop member)
  rcases parts with member | rfl
  · exact (mutates_printableFuncs wellFormed mutator member s sized).mono
      fun _ _ mutated => mutated.weaken
  · exact (mutates_addSub wellFormed rfl sized).or

theorem mutates_mangleDrawn (sized : Sized global.maxInputSz s.data) :
    MutatesOr global false s.data (mangleDrawn global) s := by
  have count : (mangleFuncs global).length = 20 := rfl
  unfold mangleDrawn
  rw [count]
  refine Attempt.returnsOr_bind.mpr (Attempt.Returns.or ?_)
  refine returns_rndGet (by decide) (by decide) fun choice _ _ high => ?_
  have inside : choice < (mangleFuncs global).length := by omega
  rw [List.getElem?_eq_getElem inside]
  exact mutates_mangleFuncs wellFormed (List.getElem_mem inside) sized

theorem mutates_mangleOnce (sized : Sized global.maxInputSz s.data) :
    MutatesOr global false s.data (mangleOnce global) s := by
  unfold mangleOnce prefersFeedback
  refine Attempt.returnsOr_bind.mpr ?_
  split
  · refine (returns_rndBit fun feedback rnd => ?_).or
    split
    · exact ((mutates_constFeedbackDict wellFormed (by rfl) sized).mono
        fun _ _ mutated => mutated.weaken).or
    · exact mutates_mangleDrawn wellFormed (s := s.withRnd rnd) sized
  · exact mutates_mangleDrawn wellFormed sized

omit wellFormed in
theorem returns_resized {oldsz : Int} {choice : Nat} {holds : Int → MangleState → Prop}
    (known : choice ≤ 32) (positive : 1 ≤ global.maxInputSz) (small : global.maxInputSz < 2 ^ 64 - 1)
    (next : ∀ newsz rnd, holds newsz (s.withRnd rnd)) :
    Attempt.Returns (resized global oldsz choice) holds s := by
  have draw (low high : Nat) (le : low ≤ high) (word : high < 2 ^ 64 - 1) (change : Nat → Int) :
      Attempt.Returns (do pure (change (← rndGet low high))) holds s :=
    Attempt.returns_bind.mpr (returns_rndGet le word fun _ rnd _ _ => next _ rnd)
  unfold resized
  split
  · exact draw 1 global.maxInputSz positive small fun value => value
  · split
    · exact draw 0 8 (by decide) (by decide) fun value => oldsz + value
    · split
      · exact draw 9 128 (by decide) (by decide) fun value => oldsz + value
      · split
        · exact draw 0 8 (by decide) (by decide) fun value => oldsz - value
        · split
          · exact draw 9 128 (by decide) (by decide) fun value => oldsz - value
          · exact next oldsz s.rnd

/-- `mangle_Resize` also takes an empty file, and leaves one that has a byte. -/
theorem mutates_resize (fits : s.data.length ≤ global.maxInputSz) :
    Mutates global.maxInputSz printable s.data (mangleResize global printable) s := by
  have positive := wellFormed.positive
  have small : global.maxInputSz < 2 ^ 64 - 1 := Nat.lt_of_le_of_lt wellFormed.small (by decide)
  refine Attempt.returns_bind.mpr (returns_size.mpr ?_)
  refine Attempt.returns_bind.mpr (returns_rndGet (by decide) (by decide) fun choice _ _ high => ?_)
  refine Attempt.returns_bind.mpr (returns_resized high positive small fun drawn _ => ?_)
  dsimp only
  have low : 1 ≤ (min (max drawn 1) (global.maxInputSz : Int)).toNat := by omega
  have top : (min (max drawn 1) (global.maxInputSz : Int)).toNat ≤ global.maxInputSz := by omega
  generalize (min (max drawn 1) (global.maxInputSz : Int)).toNat = newsz at low top ⊢
  refine Attempt.returns_bind.mpr (returns_setSize top ?_)
  dsimp only [MangleState.withRnd_data]
  rcases Nat.lt_or_ge s.data.length newsz with grown | shrunk
  · have zeros : truncate s.data newsz =
        insertAt s.data s.data.length (List.replicate (newsz - s.data.length) 0) := by
      rw [truncate, List.take_of_length_le (Nat.le_of_lt grown), insertAt, List.take_length,
        List.drop_length, List.append_nil]
    have opened (block : Bytes) (length : block.length = newsz - s.data.length)
        (clean : printable = true → Printable block) :
        Mutated global.maxInputSz printable s.data (insertAt s.data s.data.length block) := by
      refine ⟨?_, fun wanted old => forall_mem_insertAt old (clean wanted)⟩
      rw [Sized, length_insertAt]
      omega
    rw [zeros]
    split
    · refine returns_storeRange ?_ ?_
      · rw [MangleState.withData_data, length_insertAt, List.length_replicate, List.length_replicate]
      · dsimp only [MangleState.withData_data]
        rw [overwriteAt_insertAt (Nat.le_refl _) (by rw [List.length_replicate, List.length_replicate])]
        exact opened _ List.length_replicate fun _ => printable_replicate (by decide) (by decide) _
    · next plain =>
      refine opened _ List.length_replicate fun wanted => ?_
      exact absurd ⟨grown, wanted⟩ plain
  · have cut : truncate s.data newsz = removeAt s.data newsz (s.data.length - newsz) := by
      rw [truncate, Nat.sub_eq_zero_of_le shrunk, List.replicate_zero, removeAt,
        Nat.add_sub_cancel' shrunk, List.drop_length]
    rw [cut, if_neg (fun both => absurd both.1 (Nat.not_lt.mpr shrunk))]
    refine ⟨?_, fun _ => forall_mem_removeAt⟩
    dsimp only [MangleState.withData_data]
    rw [Sized, length_removeAt (by omega)]
    omega

theorem mutates_mangleEmpty (fits : s.data.length ≤ global.maxInputSz) :
    Mutates global.maxInputSz false s.data (mangleEmpty global) s := by
  refine Attempt.returns_bind.mpr (returns_size.mpr ?_)
  split
  · exact (mutates_resize wellFormed fits).mono fun _ _ mutated => mutated.weaken
  · next nonempty => exact .unchanged ⟨Nat.pos_of_ne_zero nonempty, fits⟩

theorem mutates_mangleStale (sized : Sized global.maxInputSz s.data) :
    MutatesOr global false s.data (mangleStale global) s := by
  unfold mangleStale
  split
  · refine Attempt.returnsOr_bind.mpr (returns_rndBit fun splices rnd => ?_).or
    split
    · exact (mutates_splice wellFormed (by rfl) sized).mono fun _ _ mutated => mutated.weaken
    · exact .unchanged sized
  · exact .unchanged sized

/-- A run returns with a sized file, unless it splices an input that is too long. -/
theorem returns_mangleContent (nonzero : global.mutationsPerRun ≠ 0)
    (fits : s.data.length ≤ global.maxInputSz) :
    Attempt.ReturnsOr (mangleContent global global.mutationsPerRun)
      (fun _ later => Sized global.maxInputSz later.data) (OversizeInput global) s := by
  have word := wellFormed.mutations
  unfold mangleContent
  rw [if_neg nonzero]
  refine Attempt.returnsOr_bind.mpr ((mutates_mangleEmpty wellFormed fits).mono ?_).or
  intro _ nonempty resized
  refine Attempt.returnsOr_bind.mpr (Attempt.Returns.or ?_)
  refine returns_rndGet (by omega) (by omega) fun count rnd _ high => ?_
  refine Attempt.returnsOr_bind.mpr
    ((mutates_mangleStale wellFormed (by exact resized.sized)).mono ?_)
  intro _ stale spliced
  refine Attempt.returnsOr_forM (fun _ _ state sized => ?_) spliced.sized
  exact (mutates_mangleOnce wellFormed sized).mono fun _ _ mutated => mutated.sized

/-- A call of `mangle_mangleContent`: it leaves a file of at most `maxInputSz`
bytes, and of at least one unless nothing is mutated, or it has been handed an
input of more than `_HF_INPUT_MAX_SIZE` bytes to splice and ends in `LOG_F`. -/
def StaysInside (global : MangleGlobal) (mutationsPerRun : Nat) (s : MangleState) : Prop :=
  (∃ later, mangleContent global mutationsPerRun s = (.returned (), later) ∧
    later.data.length ≤ global.maxInputSz ∧ (mutationsPerRun ≠ 0 → 1 ≤ later.data.length)) ∨
  ∃ later look buf, mangleContent global mutationsPerRun s = (.raised .logFatal, later) ∧
    later.asked = look + 1 ∧ global.randomInput look = some buf ∧ hfInputMaxSize < buf.length

omit wellFormed in
theorem staysInside_zero (fits : s.data.length ≤ global.maxInputSz) : StaysInside global 0 s :=
  .inl ⟨s, rfl, fits, fun nonzero => absurd rfl nonzero⟩

theorem staysInside_of_active (nonzero : global.mutationsPerRun ≠ 0)
    (fits : s.data.length ≤ global.maxInputSz) : StaysInside global global.mutationsPerRun s := by
  rcases Attempt.returnsOr_iff.mp (returns_mangleContent wellFormed nonzero fits) with
    ⟨_, later, ended, sized⟩ | ⟨_, later, ended, rfl, look, buf, behind, picked, oversize⟩
  · exact .inl ⟨later, ended, sized.2, fun _ => sized.1⟩
  · exact .inr ⟨later, look, buf, ended, behind, picked, oversize⟩

/-- Whatever the random numbers, the dictionaries and the corpus are, a run of
`mangle_mangleContent` ends, and reads and writes inside the file. -/
theorem mangleContent_stays_inside {mutationsPerRun : Nat}
    (source : mutationsPerRun = 0 ∨ mutationsPerRun = global.mutationsPerRun)
    (fits : s.data.length ≤ global.maxInputSz) :
    StaysInside global mutationsPerRun s := by
  by_cases replay : mutationsPerRun = 0
  · exact replay ▸ staysInside_zero fits
  · obtain rfl := source.resolve_left replay
    exact staysInside_of_active wellFormed replay fits

/-- In printable mode any sequence of mutators other than `mangle_AddSub` keeps
a printable file printable, unless a splice is handed an input that is too long. -/
theorem mangleAll_printable {mutators : List (Bool → Mangler Unit)}
    (known : ∀ mutator ∈ mutators, mutator ∈ printableFuncs global)
    (sized : Sized global.maxInputSz s.data) (clean : Printable s.data) :
    (∃ later, mangleAll true mutators s = (.returned (), later) ∧ Printable later.data ∧
      Sized global.maxInputSz later.data) ∨
    ∃ later look buf, mangleAll true mutators s = (.raised .logFatal, later) ∧
      later.asked = look + 1 ∧ global.randomInput look = some buf ∧ hfInputMaxSize < buf.length := by
  have kept : Attempt.ReturnsOr (mangleAll true mutators)
      (fun _ later => Printable later.data ∧ Sized global.maxInputSz later.data)
      (OversizeInput global) s := by
    refine Attempt.returnsOr_forM (fun mutator member state holding => ?_) ⟨clean, sized⟩
    refine (mutates_printableFuncs wellFormed mutator (known mutator member) state holding.2).mono ?_
    exact fun _ _ mutated => ⟨mutated.clean rfl holding.1, mutated.sized⟩
  rcases Attempt.returnsOr_iff.mp kept with
    ⟨_, later, ended, printable, sized⟩ | ⟨_, later, ended, rfl, look, buf, behind, picked, oversize⟩
  · exact .inl ⟨later, ended, printable, sized⟩
  · exact .inr ⟨later, look, buf, ended, behind, picked, oversize⟩

end Runs

/-- A printable campaign on small files, with one word in its dictionary. -/
def smallGlobal : MangleGlobal where
  maxInputSz := 16
  mutationsPerRun := 5
  onlyPrintable := true
  dictionary := [⟨[0x47, 0x45, 0x54, 0x20], 4⟩]
  dynFileMethodNone := false
  cmpFeedback := true
  cmpFeedbackMap := fun _ => ⟨3, List.replicate (1024 * 16) ⟨[0x41, 0x42], 2⟩⟩
  randomInput := fun _ => some [0x31, 0x32, 0x33]
  secondsSinceCovUpdate := 9

theorem smallGlobal_wellFormed : smallGlobal.WellFormed where
  positive := by decide
  small := by decide
  mutations := by decide
  dictionary := by decide
  words := by decide
  valArr := fun _ => List.length_replicate
  values := by
    intro look entry member
    rw [List.eq_of_mem_replicate member]
    decide

def smallState : MangleState := ⟨[0x61, 0x62, 0x63], ⟨1, 2, 3, 4⟩, 0⟩

theorem mangleContent_stays_inside_small : StaysInside smallGlobal 5 smallState :=
  mangleContent_stays_inside smallGlobal_wellFormed (.inr rfl) (by decide)

theorem mangleAll_printable_small :
    (∃ later, mangleAll true [mangleExpand smallGlobal, mangleMemSwap, mangleNegByte] smallState =
        (.returned (), later) ∧ Printable later.data ∧ Sized 16 later.data) ∨
      ∃ later look buf, mangleAll true [mangleExpand smallGlobal, mangleMemSwap, mangleNegByte]
          smallState = (.raised .logFatal, later) ∧
        later.asked = look + 1 ∧ smallGlobal.randomInput look = some buf ∧
        hfInputMaxSize < buf.length := by
  refine mangleAll_printable smallGlobal_wellFormed ?_ ⟨by decide, by decide⟩
    (by simp [Printable, smallState])
  intro mutator member
  simp only [List.mem_cons, List.not_mem_nil, or_false] at member
  rcases member with rfl | rfl | rfl
  · exact List.mem_of_getElem? (show (printableFuncs smallGlobal)[1]? = some _ from rfl)
  · exact List.mem_of_getElem? (show (printableFuncs smallGlobal)[8]? = some _ from rfl)
  · exact List.mem_of_getElem? (show (printableFuncs smallGlobal)[5]? = some _ from rfl)

end GraphDissect.Fuzzing
