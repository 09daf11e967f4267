import GraphDissect.Fuzzing.MangleRuns
import GraphDissect.Library.ProbeRun
import GraphDissect.Library.Runs

/-!
# The constants that targets compare with

`instrumentAddConstMemInternal` puts a constant into an array that all targets
share: it looks whether the constant is there, reserves an element, copies the
bytes and then stores the length, which makes the element visible for
`mangle_FeedbackDict`.  Every access is a step of its own, and a target can die
in front of any of them.
-/

namespace GraphDissect.Fuzzing

open Library

/-- `ARRAYSIZE(globalCmpFeedback->valArr)`. -/
def cmpArraySize : Nat := 1024 * 16

/-- `sizeof(globalCmpFeedback->valArr[0].val)`. -/
def cmpValSize : Nat := 32

/-- Where a call of `instrumentAddConstMemInternal` stands, in front of its next
access; `mem` is as long as `len`. -/
inductive AddPhase where
  | idle
  | entered (mem : Bytes)
  | scanning (mem : Bytes) (curroff i : Nat)
  | full
  | copying (mem : Bytes) (newoff copied : Nat)
deriving DecidableEq

/-- `takers` remembers which call has reserved each element, and its constant. -/
structure CmpTargets (Caller : Type) where
  map : CmpFeedbackMap
  phases : Caller → AddPhase
  takers : List (Caller × Bytes)

inductive CmpAction (Caller : Type) where
  | call (caller : Caller) (mem : Bytes)
  | advance (caller : Caller)
  | die (caller : Caller)

namespace CmpTargets

variable {Caller : Type} [DecidableEq Caller]

def start : CmpTargets Caller where
  map := ⟨0, List.replicate cmpArraySize ⟨List.replicate cmpValSize 0, 0⟩⟩
  phases := fun _ => .idle
  takers := []

def setPhase (s : CmpTargets Caller) (caller : Caller) (phase : AddPhase) : CmpTargets Caller :=
  { s with phases := Function.update s.phases caller phase }

def setCnt (s : CmpTargets Caller) (cnt : Nat) : CmpTargets Caller :=
  { s with map := { s.map with cnt } }

def setEntry (s : CmpTargets Caller) (i : Nat) (entry : DictEntry) : CmpTargets Caller :=
  { s with map := { s.map with valArr := s.map.valArr.set i entry } }

/-- The next access of `instrumentAddConstMemInternal`; one round of its loop
reads an element. -/
def advance (s : CmpTargets Caller) (caller : Caller) : Option (CmpTargets Caller) :=
  match s.phases caller with
  | .idle => none
  | .entered mem =>
      if cmpArraySize ≤ s.map.cnt then some (s.setPhase caller .idle)
      else some (s.setPhase caller (.scanning mem s.map.cnt 0))
  | .scanning mem curroff i =>
      if i < curroff then
        s.map.valArr[i]?.bind fun entry =>
          if mem.length = entry.len ∧ entry.val.take mem.length = mem then
            some (s.setPhase caller .idle)
          else some (s.setPhase caller (.scanning mem curroff (i + 1)))
      else
        let newoff := s.map.cnt
        let s := s.setCnt (newoff + 1)
        if cmpArraySize ≤ newoff then some (s.setPhase caller .full)
        else some { s.setPhase caller (.copying mem newoff 0) with takers := s.takers ++ [(caller, mem)] }
  | .full => some ((s.setCnt cmpArraySize).setPhase caller .idle)
  | .copying mem newoff copied =>
      s.map.valArr[newoff]?.bind fun entry =>
        match mem[copied]? with
        | some byte =>
            some ((s.setEntry newoff { entry with val := entry.val.set copied byte }).setPhase caller
              (.copying mem newoff (copied + 1)))
        | none =>
            some ((s.setEntry newoff { entry with len := mem.length }).setPhase caller .idle)

def step (s : CmpTargets Caller) : CmpAction Caller → Option (CmpTargets Caller)
  | .call caller mem =>
      if s.phases caller = .idle then
        if mem.length ≤ 1 then some s
        else some (s.setPhase caller (.entered (mem.take cmpValSize)))
      else none
  | .advance caller => s.advance caller
  | .die caller => some (s.setPhase caller .idle)

/-- The constant of an element that has been made visible. -/
def published (map : CmpFeedbackMap) (i : Nat) : Option Bytes :=
  map.valArr[i]?.bind fun entry => if entry.len = 0 then none else some (entry.val.take entry.len)

section Array

variable {s next final : CmpTargets Caller} {caller : Caller} {phase : AddPhase}
  {compared : Bytes → Prop} {i : Nat} {entry : DictEntry}

/-- What a call adds for a constant that was compared. -/
def Cut (compared : Bytes → Prop) (mem : Bytes) : Prop :=
  ∃ original, compared original ∧ 1 < original.length ∧ mem = original.take cmpValSize

theorem Cut.length_pos {mem : Bytes} (cut : Cut compared mem) : 0 < mem.length := by
  obtain ⟨original, -, long, rfl⟩ := cut
  rw [List.length_take, cmpValSize]
  omega

theorem Cut.length_le {mem : Bytes} (cut : Cut compared mem) : mem.length ≤ cmpValSize := by
  obtain ⟨original, -, -, rfl⟩ := cut
  exact List.length_take_le _ _

/-- What a call knows in front of its next access. -/
def PhaseOk (compared : Bytes → Prop) (s : CmpTargets Caller) (caller : Caller) : AddPhase → Prop
  | .idle => True
  | .entered mem => Cut compared mem
  | .scanning mem curroff i =>
      Cut compared mem ∧ i ≤ curroff ∧ curroff ≤ s.takers.length ∧
        ∀ (k : Nat) (other : Bytes), s.takers[k]? = some (caller, other) → k < curroff ∧
          (k < i → other = mem → ∀ entry : DictEntry, s.map.valArr[k]? = some entry → entry.len = 0)
  | .full => cmpArraySize ≤ s.map.cnt
  | .copying mem newoff copied =>
      s.takers[newoff]? = some (caller, mem) ∧ copied ≤ mem.length ∧
        (∃ entry : DictEntry, s.map.valArr[newoff]? = some entry ∧ entry.len = 0 ∧
          entry.val.take copied = mem.take copied) ∧
        ∀ (k : Nat) (other : Bytes), s.takers[k]? = some (caller, other) → k ≤ newoff

/-- An element belongs to the call that has reserved it, is invisible until its
constant is complete, and no call has made one constant visible before. -/
structure Consistent (compared : Bytes → Prop) (s : CmpTargets Caller) : Prop where
  size : s.map.valArr.length = cmpArraySize
  room : ∀ entry ∈ s.map.valArr, entry.val.length = cmpValSize
  taken : s.takers.length = min s.map.cnt cmpArraySize
  cut : ∀ taker ∈ s.takers, Cut compared taker.2
  whole : ∀ (i : Nat) (entry : DictEntry), s.map.valArr[i]? = some entry → entry.len ≠ 0 →
    ∃ caller, ∃ mem : Bytes, s.takers[i]? = some (caller, mem) ∧ entry.len = mem.length ∧
      entry.val.take mem.length = mem
  once : ∀ (i j : Nat) (caller : Caller) (mem : Bytes), i < j → s.takers[i]? = some (caller, mem) →
    s.takers[j]? = some (caller, mem) →
      ∀ entry : DictEntry, s.map.valArr[i]? = some entry → entry.len = 0
  phases : ∀ caller, PhaseOk compared s caller (s.phases caller)

omit [DecidableEq Caller] in
theorem consistent_start : Consistent compared (start : CmpTargets Caller) where
  size := List.length_replicate
  room := by
    intro entry member
    rw [List.eq_of_mem_replicate member, List.length_replicate]
  taken := rfl
  cut := fun _ member => absurd member List.not_mem_nil
  whole := by
    intro i entry isEntry visible
    rw [List.eq_of_mem_replicate (List.mem_of_getElem? isEntry)] at visible
    exact absurd rfl visible
  once := by
    intro i j caller mem _ isTaker
    cases isTaker
  phases := fun _ => trivial

/-- What a step of another call leaves as it was. -/
structure Kept (caller : Caller) (s next : CmpTargets Caller) : Prop where
  takers : ∀ (k : Nat) (mem : Bytes), next.takers[k]? = some (caller, mem) ↔ s.takers[k]? = some (caller, mem)
  length : s.takers.length ≤ next.takers.length
  full : cmpArraySize ≤ s.map.cnt → cmpArraySize ≤ next.map.cnt
  entries : ∀ (k : Nat) (mem : Bytes), s.takers[k]? = some (caller, mem) → next.map.valArr[k]? = s.map.valArr[k]?

omit [DecidableEq Caller] in
theorem PhaseOk.kept (ok : PhaseOk compared s caller phase) (kept : Kept caller s next) :
    PhaseOk compared next caller phase := by
  cases phase with
  | idle => trivial
  | entered mem => exact ok
  | full => exact kept.full ok
  | scanning mem curroff i =>
    obtain ⟨cut, within, below, own⟩ := ok
    refine ⟨cut, within, below.trans kept.length, fun k other isTaker => ?_⟩
    have before := (kept.takers k other).mp isTaker
    obtain ⟨earlier, hidden⟩ := own k other before
    refine ⟨earlier, fun passed same entry isEntry => hidden passed same entry ?_⟩
    rw [← kept.entries k other before, isEntry]
  | copying mem newoff copied =>
    obtain ⟨isTaker, within, ⟨entry, isEntry, hidden, same⟩, latest⟩ := ok
    refine ⟨(kept.takers newoff mem).mpr isTaker, within,
      ⟨entry, (kept.entries newoff mem isTaker).trans isEntry, hidden, same⟩, fun k other later => ?_⟩
    exact latest k other ((kept.takers k other).mp later)

theorem phases_update (others : ∀ other, PhaseOk compared s other (s.phases other))
    (kept : ∀ other, other ≠ caller → Kept other s next) (own : PhaseOk compared next caller phase) :
    ∀ other, PhaseOk compared next other (Function.update s.phases caller phase other) := by
  intro other
  by_cases same : other = caller
  · subst same
    rwa [Function.update_self]
  · rw [Function.update_of_ne same]
    exact (others other).kept (kept other same)

theorem Consistent.setPhase (consistent : s.Consistent compared) (own : PhaseOk compared s caller phase) :
    (s.setPhase caller phase).Consistent compared :=
  { consistent with
    phases := phases_update (s := s) consistent.phases
      (fun _ _ => ⟨fun _ _ => Iff.rfl, Nat.le_refl _, id, fun _ _ _ => rfl⟩) own }

theorem Consistent.setCnt (consistent : s.Consistent compared) {cnt : Nat}
    (before : cmpArraySize ≤ s.map.cnt) (after : cmpArraySize ≤ cnt)
    (own : PhaseOk compared (s.setCnt cnt) caller phase) :
    ((s.setCnt cnt).setPhase caller phase).Consistent compared :=
  { consistent with
    taken := by
      rw [CmpTargets.setPhase, CmpTargets.setCnt, consistent.taken, Nat.min_eq_right before,
        Nat.min_eq_right after]
    phases := phases_update (s := s) consistent.phases
      (fun _ _ => ⟨fun _ _ => Iff.rfl, Nat.le_refl _, fun _ => after, fun _ _ _ => rfl⟩) own }

theorem Consistent.setEntry (consistent : s.Consistent compared) {mem : Bytes} {newoff : Nat}
    (isTaker : s.takers[newoff]? = some (caller, mem))
    (latest : ∀ (k : Nat) (other : Bytes), s.takers[k]? = some (caller, other) → k ≤ newoff)
    (room : entry.val.length = cmpValSize)
    (whole : entry.len ≠ 0 → entry.len = mem.length ∧ entry.val.take mem.length = mem)
    (own : PhaseOk compared (s.setEntry newoff entry) caller phase) :
    ((s.setEntry newoff entry).setPhase caller phase).Consistent compared where
  size := List.length_set.trans consistent.size
  room := by
    intro other member
    rcases List.mem_or_eq_of_mem_set member with old | rfl
    · exact consistent.room other old
    · exact room
  taken := consistent.taken
  cut := consistent.cut
  whole := by
    intro i other isEntry visible
    change (s.map.valArr.set newoff entry)[i]? = some other at isEntry
    by_cases here : newoff = i
    · subst here
      have inside := (List.getElem?_eq_some_iff.mp isEntry).1
      rw [List.length_set] at inside
      rw [List.getElem?_set_self inside] at isEntry
      cases isEntry
      exact ⟨caller, mem, isTaker, whole visible⟩
    · rw [List.getElem?_set_ne here] at isEntry
      exact consistent.whole i other isEntry visible
  once := by
    intro i j owner constant earlier first second other isEntry
    have differ : newoff ≠ i := by
      rintro rfl
      cases isTaker.symm.trans first
      exact absurd (latest j mem second) (Nat.not_le.mpr earlier)
    change (s.map.valArr.set newoff entry)[i]? = some other at isEntry
    rw [List.getElem?_set_ne differ] at isEntry
    exact consistent.once i j owner constant earlier first second other isEntry
  phases := by
    refine phases_update (s := s) consistent.phases (fun other differ => ?_) own
    refine ⟨fun _ _ => Iff.rfl, Nat.le_refl _, id, fun k constant isOther => ?_⟩
    refine List.getElem?_set_ne ?_
    rintro rfl
    cases isTaker.symm.trans isOther
    exact differ rfl

theorem getElem?_concat_eq_some_iff {Item : Type} {items : List Item} {last item : Item} {k : Nat} :
    (items ++ [last])[k]? = some item ↔ items[k]? = some item ∨ k = items.length ∧ last = item := by
  rcases Nat.lt_trichotomy k items.length with inside | rfl | outside
  · simp [List.getElem?_append_left inside, Nat.ne_of_lt inside]
  · simp
  · rw [List.getElem?_eq_none (by simp; omega), List.getElem?_eq_none (by omega)]
    simp
    omega

theorem Consistent.reserve (consistent : s.Consistent compared) {mem : Bytes} {curroff : Nat}
    (here : PhaseOk compared s caller (.scanning mem curroff i)) (scanned : ¬ i < curroff)
    (free : s.map.cnt < cmpArraySize) :
    Consistent compared
      { (s.setCnt (s.map.cnt + 1)).setPhase caller (.copying mem s.map.cnt 0) with
        takers := s.takers ++ [(caller, mem)] } := by
  obtain ⟨cut, within, below, own⟩ := here
  have count : s.takers.length = s.map.cnt := by
    rw [consistent.taken, Nat.min_eq_left (Nat.le_of_lt free)]
  refine ⟨consistent.size, consistent.room, ?_, ?_, ?_, ?_, ?_⟩
  · change (s.takers ++ [(caller, mem)]).length = min (s.map.cnt + 1) cmpArraySize
    rw [List.length_append, List.length_singleton, count, Nat.min_eq_left free]
  · intro taker member
    rcases List.mem_append.mp member with old | isNew
    · exact consistent.cut taker old
    · rw [List.mem_singleton] at isNew
      exact isNew ▸ cut
  · intro k entry isEntry visible
    obtain ⟨owner, constant, isTaker, complete⟩ := consistent.whole k entry isEntry visible
    exact ⟨owner, constant, getElem?_concat_eq_some_iff.mpr (.inl isTaker), complete⟩
  · intro k l owner constant earlier first second entry isEntry
    rcases getElem?_concat_eq_some_iff.mp second with old | ⟨rfl, isNew⟩
    · have inside := (List.getElem?_eq_some_iff.mp old).1
      rcases getElem?_concat_eq_some_iff.mp first with first | ⟨rfl, -⟩
      · exact consistent.once k l owner constant earlier first old entry isEntry
      · omega
    · cases isNew
      rcases getElem?_concat_eq_some_iff.mp first with first | ⟨rfl, -⟩
      · obtain ⟨before, hidden⟩ := own k mem first
        exact hidden (by omega) rfl entry isEntry
      · omega
  · have inside : s.map.cnt < s.map.valArr.length := by rwa [consistent.size]
    refine phases_update (s := s) consistent.phases (fun other differ => ⟨?_, ?_, ?_, ?_⟩)
      ⟨?_, Nat.zero_le _, ⟨_, List.getElem?_eq_getElem inside, ?_, rfl⟩, ?_⟩
    · intro k constant
      rw [getElem?_concat_eq_some_iff]
      exact ⟨fun isTaker => isTaker.resolve_right fun isNew => differ (by cases isNew.2; rfl), .inl⟩
    · simp
    · exact fun full => Nat.le_succ_of_le full
    · exact fun _ _ _ => rfl
    · exact getElem?_concat_eq_some_iff.mpr (.inr ⟨count.symm, rfl⟩)
    · by_contra visible
      obtain ⟨_, _, isTaker, _⟩ :=
        consistent.whole s.map.cnt _ (List.getElem?_eq_getElem inside) visible
      have := (List.getElem?_eq_some_iff.mp isTaker).1
      omega
    · intro k other isTaker
      have := (List.getElem?_eq_some_iff.mp isTaker).1
      rw [List.length_append, List.length_singleton] at this
      omega

theorem Consistent.enter (consistent : s.Consistent compared) {mem : Bytes} (cut : Cut compared mem)
    (free : ¬ cmpArraySize ≤ s.map.cnt) :
    (s.setPhase caller (.scanning mem s.map.cnt 0)).Consistent compared := by
  have count : s.takers.length = s.map.cnt := by
    rw [consistent.taken, Nat.min_eq_left (by omega)]
  refine consistent.setPhase ⟨cut, Nat.zero_le _, count.ge, fun k other isTaker => ⟨?_, ?_⟩⟩
  · rw [← count]
    exact (List.getElem?_eq_some_iff.mp isTaker).1
  · intro passed
    cases passed

theorem Consistent.miss (consistent : s.Consistent compared) {mem : Bytes} {curroff : Nat}
    (here : PhaseOk compared s caller (.scanning mem curroff i)) (inside : i < curroff)
    (isEntry : s.map.valArr[i]? = some entry)
    (other : ¬ (mem.length = entry.len ∧ entry.val.take mem.length = mem)) :
    (s.setPhase caller (.scanning mem curroff (i + 1))).Consistent compared := by
  obtain ⟨cut, within, below, own⟩ := here
  refine consistent.setPhase ⟨cut, inside, below, fun k constant isTaker => ?_⟩
  obtain ⟨earlier, hidden⟩ := own k constant isTaker
  refine ⟨earlier, fun passed same element isElement => ?_⟩
  rcases Nat.lt_or_eq_of_le (Nat.le_of_lt_succ passed) with before | rfl
  · exact hidden before same element isElement
  · cases isElement.symm.trans isEntry
    by_contra visible
    obtain ⟨_, _, isOwner, full, complete⟩ := consistent.whole k entry isEntry visible
    cases isTaker.symm.trans isOwner
    exact other ⟨same ▸ full.symm, same ▸ complete⟩

theorem Consistent.copyByte (consistent : s.Consistent compared) {mem : Bytes} {newoff copied : Nat}
    {byte : UInt8} (here : PhaseOk compared s caller (.copying mem newoff copied))
    (isEntry : s.map.valArr[newoff]? = some entry) (isByte : mem[copied]? = some byte) :
    ((s.setEntry newoff { entry with val := entry.val.set copied byte }).setPhase caller
      (.copying mem newoff (copied + 1))).Consistent compared := by
  obtain ⟨isTaker, within, ⟨element, isElement, hidden, same⟩, latest⟩ := here
  cases isElement.symm.trans isEntry
  have room := consistent.room entry (List.mem_of_getElem? isEntry)
  have inside := (List.getElem?_eq_some_iff.mp isEntry).1
  have left := (List.getElem?_eq_some_iff.mp isByte).1
  have cut := consistent.cut _ (List.mem_of_getElem? isTaker)
  have fits : copied < entry.val.length := by
    rw [room]
    exact Nat.lt_of_lt_of_le left cut.length_le
  refine consistent.setEntry isTaker latest (List.length_set.trans room)
    (fun visible => absurd hidden visible)
    ⟨isTaker, left, ⟨_, List.getElem?_set_self inside, hidden, ?_⟩, latest⟩
  rw [List.take_add_one, List.take_set_of_le (Nat.le_refl _), same, List.getElem?_set_self fits,
    List.take_add_one, isByte]

theorem Consistent.publish (consistent : s.Consistent compared) {mem : Bytes} {newoff copied : Nat}
    (here : PhaseOk compared s caller (.copying mem newoff copied))
    (isEntry : s.map.valArr[newoff]? = some entry) (atEnd : mem[copied]? = none) :
    ((s.setEntry newoff { entry with len := mem.length }).setPhase caller .idle).Consistent
      compared := by
  obtain ⟨isTaker, within, ⟨element, isElement, hidden, same⟩, latest⟩ := here
  cases isElement.symm.trans isEntry
  have room := consistent.room entry (List.mem_of_getElem? isEntry)
  have all : copied = mem.length := Nat.le_antisymm within (List.getElem?_eq_none_iff.mp atEnd)
  refine consistent.setEntry isTaker latest room (fun _ => ⟨rfl, ?_⟩) trivial
  rw [← all, same, all, List.take_length]

theorem Consistent.advance (consistent : s.Consistent compared) (moves : s.advance caller = some next) :
    next.Consistent compared := by
  have ok := consistent.phases caller
  unfold CmpTargets.advance at moves
  cases here : s.phases caller with
  | idle =>
    rw [here] at moves
    cases moves
  | entered mem =>
    rw [here] at ok moves
    simp only at moves
    split at moves
    · cases moves
      exact consistent.setPhase trivial
    · next free =>
      cases moves
      exact consistent.enter ok free
  | scanning mem curroff i =>
    rw [here] at ok moves
    simp only at moves
    split at moves
    · next inside =>
      obtain ⟨entry, isEntry, moves⟩ := Option.bind_eq_some_iff.mp moves
      split at moves
      · cases moves
        exact consistent.setPhase trivial
      · next other =>
        cases moves
        exact consistent.miss ok inside isEntry other
    · next scanned =>
      split at moves
      · next full =>
        cases moves
        exact consistent.setCnt full (Nat.le_succ_of_le full) (Nat.le_succ_of_le full)
      · next free =>
        cases moves
        exact consistent.reserve ok scanned (Nat.not_le.mp free)
  | full =>
    rw [here] at ok moves
    cases moves
    exact consistent.setCnt ok (Nat.le_refl _) trivial
  | copying mem newoff copied =>
    rw [here] at ok moves
    obtain ⟨entry, isEntry, moves⟩ := Option.bind_eq_some_iff.mp moves
    split at moves
    · next byte isByte =>
      cases moves
      exact consistent.copyByte ok isEntry isByte
    · next atEnd =>
      cases moves
      exact consistent.publish ok isEntry atEnd

theorem Consistent.step {action : CmpAction Caller} (consistent : s.Consistent compared)
    (allowed : ∀ caller mem, action = .call caller mem → compared mem)
    (moves : s.step action = some next) : next.Consistent compared := by
  cases action with
  | call caller mem =>
    simp only [CmpTargets.step] at moves
    split at moves
    · split at moves
      · cases moves
        exact consistent
      · next long =>
        cases moves
        exact consistent.setPhase ⟨mem, allowed caller mem rfl, Nat.not_le.mp long, rfl⟩
    · cases moves
  | advance caller => exact consistent.advance moves
  | die caller =>
    cases moves
    exact consistent.setPhase trivial

theorem Consistent.run {actions : List (CmpAction Caller)} (consistent : s.Consistent compared)
    (allowed : ∀ caller mem, .call caller mem ∈ actions → compared mem)
    (reached : runFrom CmpTargets.step s actions = some final) : final.Consistent compared := by
  induction actions generalizing s with
  | nil =>
    cases reached
    exact consistent
  | cons action rest inductionHypothesis =>
    obtain ⟨middle, taken, remaining⟩ := runFrom_cons_eq_some.mp reached
    have kept := consistent.step
      (fun caller mem same => allowed caller mem (same ▸ List.mem_cons_self)) taken
    exact inductionHypothesis kept
      (fun caller mem member => allowed caller mem (List.mem_cons_of_mem action member)) remaining

theorem Consistent.keeps {action : CmpAction Caller} (consistent : s.Consistent compared)
    (moves : s.step action = some next) (isEntry : s.map.valArr[i]? = some entry)
    (visible : entry.len ≠ 0) : next.map.valArr[i]? = some entry := by
  cases action with
  | call caller mem =>
    simp only [CmpTargets.step] at moves
    split at moves
    · split at moves <;> cases moves <;> exact isEntry
    · cases moves
  | die caller =>
    cases moves
    exact isEntry
  | advance caller =>
    have ok := consistent.phases caller
    simp only [CmpTargets.step, CmpTargets.advance] at moves
    cases here : s.phases caller with
    | idle =>
      rw [here] at moves
      cases moves
    | entered mem =>
      rw [here] at moves
      simp only at moves
      split at moves <;> cases moves <;> exact isEntry
    | scanning mem curroff k =>
      rw [here] at moves
      simp only at moves
      split at moves
      · obtain ⟨element, -, moves⟩ := Option.bind_eq_some_iff.mp moves
        split at moves <;> cases moves <;> exact isEntry
      · split at moves <;> cases moves <;> exact isEntry
    | full =>
      rw [here] at moves
      cases moves
      exact isEntry
    | copying mem newoff copied =>
      rw [here] at ok moves
      simp only at moves
      obtain ⟨-, -, ⟨element, isElement, hidden, -⟩, -⟩ := ok
      have differ : newoff ≠ i := by
        rintro rfl
        cases isElement.symm.trans isEntry
        exact visible hidden
      rw [isElement, Option.bind_some] at moves
      split at moves <;> cases moves <;> exact (List.getElem?_set_ne differ).trans isEntry

theorem Consistent.keeps_run {actions : List (CmpAction Caller)} (consistent : s.Consistent fun _ => True)
    (reached : runFrom CmpTargets.step s actions = some final)
    (isEntry : s.map.valArr[i]? = some entry) (visible : entry.len ≠ 0) :
    final.map.valArr[i]? = some entry := by
  induction actions generalizing s with
  | nil =>
    cases reached
    exact isEntry
  | cons action rest inductionHypothesis =>
    obtain ⟨middle, taken, remaining⟩ := runFrom_cons_eq_some.mp reached
    exact inductionHypothesis (consistent.step (fun _ _ _ => trivial) taken) remaining
      (consistent.keeps taken isEntry visible)

theorem published_eq_some_iff {map : CmpFeedbackMap} {constant : Bytes} :
    published map i = some constant ↔
      ∃ entry, map.valArr[i]? = some entry ∧ entry.len ≠ 0 ∧ entry.val.take entry.len = constant := by
  unfold published
  rw [Option.bind_eq_some_iff]
  simp only [Option.ite_none_left_eq_some, Option.some.injEq, ne_eq]

omit [DecidableEq Caller] in
theorem Consistent.taker_of_published (consistent : s.Consistent compared) {constant : Bytes}
    (visible : published s.map i = some constant) :
    ∃ caller, s.takers[i]? = some (caller, constant) := by
  obtain ⟨entry, isEntry, nonzero, rfl⟩ := published_eq_some_iff.mp visible
  obtain ⟨caller, mem, isTaker, full, complete⟩ := consistent.whole i entry isEntry nonzero
  rw [full, complete]
  exact ⟨caller, isTaker⟩

def Compared (actions : List (CmpAction Caller)) (mem : Bytes) : Prop :=
  ∃ caller, .call caller mem ∈ actions

theorem consistent_of_run {actions : List (CmpAction Caller)}
    (reached : runFrom step start actions = some s) : s.Consistent (Compared actions) :=
  consistent_start.run (fun caller _ member => ⟨caller, member⟩) reached

/-- A constant that can be handed out is one that a target has compared with,
cut to the size of an element, and it is never torn or replaced. -/
theorem cmpFeedback_whole {actions : List (CmpAction Caller)} {constant : Bytes}
    (reached : runFrom step start actions = some s) (visible : published s.map i = some constant) :
    (∃ mem, Compared actions mem ∧ 1 < mem.length ∧ constant = mem.take cmpValSize) ∧
      ∀ later final, runFrom step s later = some final →
        published final.map i = some constant := by
  have consistent := consistent_of_run reached
  constructor
  · obtain ⟨caller, isTaker⟩ := consistent.taker_of_published visible
    exact consistent.cut _ (List.mem_of_getElem? isTaker)
  · intro later final goesOn
    obtain ⟨entry, isEntry, nonzero, same⟩ := published_eq_some_iff.mp visible
    have trusting : s.Consistent fun _ => True := consistent_start.run (fun _ _ _ => trivial) reached
    exact published_eq_some_iff.mpr
      ⟨entry, trusting.keeps_run goesOn isEntry nonzero, nonzero, same⟩

def adding : List (CmpAction Unit) :=
  [.call () [0x47, 0x45], .advance (), .advance (), .advance (), .advance (), .advance ()]

theorem cmpFeedback_whole_pair :
    ∃ s, runFrom step start adding = some s ∧
      (∃ mem, Compared adding mem ∧ 1 < mem.length ∧ [0x47, 0x45] = mem.take cmpValSize) ∧
      ∀ later final, runFrom step s later = some final →
        published final.map 0 = some [0x47, 0x45] :=
  ⟨_, rfl, cmpFeedback_whole rfl rfl⟩

/-- The constant of a call that has not ended. -/
def constantOf : AddPhase → Option Bytes
  | .idle | .full => none
  | .entered mem | .scanning mem _ _ | .copying mem _ _ => some mem

theorem constantOf_update {mem : Bytes} (phases : next.phases = Function.update s.phases caller phase)
    (runs : constantOf phase = some mem) : constantOf (next.phases caller) = some mem := by
  rwa [phases, Function.update_self]

theorem Consistent.advance_constant (consistent : s.Consistent compared) {mem : Bytes}
    (runs : constantOf (s.phases caller) = some mem) (moves : s.advance caller = some next) :
    constantOf (next.phases caller) = some mem ∨ cmpArraySize ≤ next.map.cnt ∨
      ∃ i, published next.map i = some mem := by
  have ok := consistent.phases caller
  unfold CmpTargets.advance at moves
  cases here : s.phases caller with
  | idle =>
    rw [here] at runs
    cases runs
  | full =>
    rw [here] at runs
    cases runs
  | entered constant =>
    rw [here] at moves runs
    cases runs
    simp only at moves
    split at moves
    · next full =>
      cases moves
      exact .inr (.inl full)
    · cases moves
      exact .inl (constantOf_update rfl rfl)
  | scanning constant curroff i =>
    rw [here] at ok moves runs
    cases runs
    simp only at moves
    split at moves
    · obtain ⟨entry, isEntry, moves⟩ := Option.bind_eq_some_iff.mp moves
      split at moves
      · next found =>
        cases moves
        refine .inr (.inr ⟨i, published_eq_some_iff.mpr ⟨entry, isEntry, ?_, ?_⟩⟩)
        · rw [← found.1]
          exact Nat.ne_of_gt ok.1.length_pos
        · rw [← found.1, found.2]
      · cases moves
        exact .inl (constantOf_update rfl rfl)
    · split at moves
      · next full =>
        cases moves
        exact .inr (.inl (Nat.le_succ_of_le full))
      · cases moves
        exact .inl (constantOf_update rfl rfl)
  | copying constant newoff copied =>
    rw [here] at ok moves runs
    cases runs
    obtain ⟨entry, isEntry, moves⟩ := Option.bind_eq_some_iff.mp moves
    split at moves
    · cases moves
      exact .inl (constantOf_update rfl rfl)
    · next atEnd =>
      have kept := consistent.publish ok isEntry atEnd
      cases moves
      have inside := (List.getElem?_eq_some_iff.mp isEntry).1
      have cut := consistent.cut _ (List.mem_of_getElem? ok.1)
      obtain ⟨_, _, isTaker, _, complete⟩ := kept.whole newoff _ (List.getElem?_set_self inside)
        (Nat.ne_of_gt cut.length_pos)
      cases isTaker.symm.trans ok.1
      exact .inr (.inr ⟨newoff, published_eq_some_iff.mpr
        ⟨_, List.getElem?_set_self inside, Nat.ne_of_gt cut.length_pos, complete⟩⟩)

theorem step_full {action : CmpAction Caller} (moves : s.step action = some next) (full : cmpArraySize ≤ s.map.cnt) :
    cmpArraySize ≤ next.map.cnt := by
  cases action with
  | call caller mem =>
    simp only [CmpTargets.step] at moves
    split at moves
    · split at moves <;> cases moves <;> exact full
    · cases moves
  | die caller =>
    cases moves
    exact full
  | advance caller =>
    simp only [CmpTargets.step, CmpTargets.advance] at moves
    cases here : s.phases caller with
    | idle =>
      rw [here] at moves
      cases moves
    | entered mem =>
      rw [here] at moves
      simp only at moves
      split at moves <;> cases moves <;> exact full
    | scanning mem curroff k =>
      rw [here] at moves
      simp only at moves
      split at moves
      · obtain ⟨element, -, moves⟩ := Option.bind_eq_some_iff.mp moves
        split at moves <;> cases moves <;> exact full
      · cases moves
        exact Nat.le_succ_of_le full
    | full =>
      rw [here] at moves
      cases moves
      exact Nat.le_refl _
    | copying mem newoff copied =>
      rw [here] at moves
      simp only at moves
      obtain ⟨element, -, moves⟩ := Option.bind_eq_some_iff.mp moves
      split at moves <;> cases moves <;> exact full

theorem advance_phases (moves : s.advance caller = some next) :
    ∃ phase, next.phases = Function.update s.phases caller phase := by
  unfold CmpTargets.advance at moves
  cases here : s.phases caller with
  | idle =>
    rw [here] at moves
    cases moves
  | entered mem =>
    rw [here] at moves
    simp only at moves
    split at moves <;> cases moves <;> exact ⟨_, rfl⟩
  | scanning mem curroff k =>
    rw [here] at moves
    simp only at moves
    split at moves
    · obtain ⟨element, -, moves⟩ := Option.bind_eq_some_iff.mp moves
      split at moves <;> cases moves <;> exact ⟨_, rfl⟩
    · split at moves <;> cases moves <;> exact ⟨_, rfl⟩
  | full =>
    rw [here] at moves
    cases moves
    exact ⟨_, rfl⟩
  | copying mem newoff copied =>
    rw [here] at moves
    simp only at moves
    obtain ⟨element, -, moves⟩ := Option.bind_eq_some_iff.mp moves
    split at moves <;> cases moves <;> exact ⟨_, rfl⟩

theorem step_phases {action : CmpAction Caller} (moves : s.step action = some next)
    (other : ∀ mem, action ≠ .call caller mem) (notAdvance : action ≠ .advance caller)
    (alive : action ≠ .die caller) : next.phases caller = s.phases caller := by
  have differ {owner : Caller} (phase : AddPhase) (ne : owner ≠ caller) :
      Function.update s.phases owner phase caller = s.phases caller :=
    Function.update_of_ne (Ne.symm ne) _ _
  cases action with
  | call owner mem =>
    have ne : owner ≠ caller := fun same => other mem (same ▸ rfl)
    simp only [CmpTargets.step] at moves
    split at moves
    · split at moves <;> cases moves
      · rfl
      · exact differ _ ne
    · cases moves
  | die owner =>
    have ne : owner ≠ caller := fun same => alive (same ▸ rfl)
    cases moves
    exact differ _ ne
  | advance owner =>
    have ne : owner ≠ caller := fun same => notAdvance (same ▸ rfl)
    obtain ⟨phase, phases⟩ := advance_phases moves
    rw [phases]
    exact differ _ ne

/-- A call with the constant runs, or the constant can be handed out, or the
array is full. -/
def Adds (caller : Caller) (mem : Bytes) (s : CmpTargets Caller) : Prop :=
  constantOf (s.phases caller) = some mem ∨ cmpArraySize ≤ s.map.cnt ∨
    ∃ i, published s.map i = some mem

theorem Adds.step {action : CmpAction Caller} {mem : Bytes} (adds : Adds caller mem s)
    (consistent : s.Consistent compared) (moves : s.step action = some next)
    (alive : action ≠ .die caller) (same : ∀ other, action ≠ .call caller other) :
    Adds caller mem next := by
  rcases adds with runs | full | ⟨i, visible⟩
  · by_cases own : action = .advance caller
    · subst own
      exact consistent.advance_constant runs moves
    · exact .inl ((congrArg constantOf (step_phases moves same own alive)).trans runs)
  · exact .inr (.inl (step_full moves full))
  · obtain ⟨entry, isEntry, nonzero, constant⟩ := published_eq_some_iff.mp visible
    exact .inr (.inr ⟨i, published_eq_some_iff.mpr
      ⟨entry, consistent.keeps moves isEntry nonzero, nonzero, constant⟩⟩)

theorem adds_run {actions : List (CmpAction Caller)} {mem : Bytes}
    (consistent : s.Consistent fun _ => True)
    (reached : runFrom CmpTargets.step s actions = some final) (alive : .die caller ∉ actions)
    (same : ∀ other, .call caller other ∉ actions) (adds : Adds caller mem s) :
    Adds caller mem final := by
  induction actions generalizing s with
  | nil =>
    cases reached
    exact adds
  | cons action rest inductionHypothesis =>
    obtain ⟨middle, taken, remaining⟩ := runFrom_cons_eq_some.mp reached
    have first := adds.step consistent taken (fun isDie => alive (isDie ▸ List.mem_cons_self))
      fun other isCall => same other (isCall ▸ List.mem_cons_self)
    exact inductionHypothesis (consistent.step (fun _ _ _ => trivial) taken) remaining
      (fun member => alive (List.mem_cons_of_mem action member))
      (fun other member => same other (List.mem_cons_of_mem action member)) first

/-- A call of `instrumentAddConstMemInternal` that has ended by itself has made
its constant visible, cut to the size of an element, unless the array is full. -/
theorem cmpFeedback_added {earlier later : List (CmpAction Caller)} {mem : Bytes}
    (reached : runFrom step start (earlier ++ .call caller mem :: later) = some s)
    (long : 1 < mem.length) (alive : .die caller ∉ later)
    (same : ∀ other, .call caller other ∉ later) (ended : s.phases caller = .idle) :
    cmpArraySize ≤ s.map.cnt ∨ ∃ i, published s.map i = some (mem.take cmpValSize) := by
  rw [runFrom_append] at reached
  obtain ⟨before, ran, after⟩ := Option.bind_eq_some_iff.mp reached
  obtain ⟨called, taken, remaining⟩ := runFrom_cons_eq_some.mp after
  have trusting : before.Consistent fun _ => True := consistent_start.run (fun _ _ _ => trivial) ran
  have opened : constantOf (called.phases caller) = some (mem.take cmpValSize) := by
    simp only [step] at taken
    split at taken
    · rw [if_neg (Nat.not_le.mpr long)] at taken
      cases taken
      simp [setPhase, constantOf]
    · cases taken
  have kept := adds_run (trusting.step (fun _ _ _ => trivial) taken) remaining alive same (.inl opened)
  rw [Adds, ended] at kept
  exact kept.resolve_left (by simp [constantOf])

/-- The state behind the last access of `adding`. -/
def added : CmpTargets Unit := (runFrom step start adding).getD start

theorem cmpFeedback_added_pair :
    cmpArraySize ≤ added.map.cnt ∨
      ∃ i, published added.map i = some (([0x47, 0x45] : Bytes).take cmpValSize) :=
  cmpFeedback_added (rfl : runFrom step start ([] ++ adding) = some added) (by decide)
    (by simp) (by simp) (by decide)

section Ending

/-- A bound for the accesses that a call has in front of it. -/
def left : AddPhase → Nat
  | .idle => 0
  | .entered _ => cmpArraySize + cmpValSize + 3
  | .scanning mem curroff i => (curroff - i) + mem.length + 3
  | .full => 1
  | .copying mem _ copied => (mem.length - copied) + 1

def advances (caller : Caller) : CmpAction Caller → Bool
  | .advance other => other = caller
  | _ => false

omit [DecidableEq Caller] in
theorem left_le (consistent : s.Consistent compared) (caller : Caller) :
    left (s.phases caller) ≤ cmpArraySize + cmpValSize + 3 := by
  have ok := consistent.phases caller
  have taken := consistent.taken
  cases here : s.phases caller with
  | idle => exact Nat.zero_le _
  | entered mem => exact Nat.le_refl _
  | full => exact Nat.le_add_left 1 (cmpArraySize + cmpValSize + 2)
  | scanning mem curroff i =>
    rw [here] at ok
    have short := ok.1.length_le
    have below := ok.2.2.1
    simp only [left]
    omega
  | copying mem newoff copied =>
    rw [here] at ok
    have short := (consistent.cut _ (List.mem_of_getElem? ok.1)).length_le
    simp only at short
    simp only [left]
    omega

theorem left_update (phases : next.phases = Function.update s.phases caller phase)
    (less : left phase < left (s.phases caller)) :
    left (next.phases caller) < left (s.phases caller) ∧
      ∀ other, other ≠ caller → next.phases other = s.phases other := by
  rw [phases]
  refine ⟨?_, fun other differ => Function.update_of_ne differ _ _⟩
  rwa [Function.update_self]

theorem left_advance (consistent : s.Consistent compared) (moves : s.advance caller = some next) :
    left (next.phases caller) < left (s.phases caller) ∧
      ∀ other, other ≠ caller → next.phases other = s.phases other := by
  have ok := consistent.phases caller
  unfold CmpTargets.advance at moves
  cases here : s.phases caller with
  | idle =>
    rw [here] at moves
    cases moves
  | entered mem =>
    rw [here] at ok moves
    have short := ok.length_le
    simp only at moves
    rw [← here]
    split at moves <;> cases moves
    · exact left_update rfl (by simp only [here, left]; omega)
    · exact left_update rfl (by simp only [here, left]; omega)
  | scanning mem curroff i =>
    rw [here] at moves
    simp only at moves
    rw [← here]
    split at moves
    · obtain ⟨entry, -, moves⟩ := Option.bind_eq_some_iff.mp moves
      split at moves <;> cases moves
      · exact left_update rfl (by simp only [here, left]; omega)
      · exact left_update rfl (by simp only [here, left]; omega)
    · split at moves <;> cases moves
      · exact left_update rfl (by simp only [here, left]; omega)
      · exact left_update rfl (by simp only [here, left]; omega)
  | full =>
    rw [here] at moves
    cases moves
    rw [← here]
    exact left_update rfl (by simp [here, left])
  | copying mem newoff copied =>
    rw [here] at moves
    obtain ⟨entry, -, moves⟩ := Option.bind_eq_some_iff.mp moves
    rw [← here]
    split at moves
    · next byte isByte =>
      have inside := (List.getElem?_eq_some_iff.mp isByte).1
      cases moves
      exact left_update rfl (by simp only [here, left]; omega)
    · cases moves
      exact left_update rfl (by simp only [here, left]; omega)

theorem left_step {action : CmpAction Caller} (consistent : s.Consistent compared)
    (moves : s.step action = some next) (same : ∀ mem, action ≠ .call caller mem) :
    left (next.phases caller) + (if advances caller action then 1 else 0) ≤
      left (s.phases caller) := by
  cases action with
  | call other mem =>
    have differ : caller ≠ other := by
      rintro rfl
      exact same mem rfl
    simp only [CmpTargets.step] at moves
    split at moves
    · split at moves <;> cases moves <;> simp [advances, setPhase, differ]
    · cases moves
  | die other =>
    cases moves
    by_cases here : caller = other
    · subst here
      simp [advances, setPhase, left]
    · simp [advances, setPhase, here]
  | advance other =>
    obtain ⟨less, frame⟩ := left_advance consistent moves
    by_cases here : other = caller
    · subst here
      simpa [advances] using less
    · rw [frame caller (Ne.symm here)]
      simp [advances, here]

theorem left_run {actions : List (CmpAction Caller)} (consistent : s.Consistent fun _ => True)
    (reached : runFrom CmpTargets.step s actions = some final)
    (same : ∀ mem, .call caller mem ∉ actions) :
    left (final.phases caller) + actions.countP (advances caller) ≤ left (s.phases caller) := by
  induction actions generalizing s with
  | nil =>
    cases reached
    exact Nat.le_refl _
  | cons action rest inductionHypothesis =>
    obtain ⟨middle, taken, remaining⟩ := runFrom_cons_eq_some.mp reached
    have first : left (middle.phases caller) + (if advances caller action then 1 else 0) ≤
        left (s.phases caller) :=
      left_step consistent taken fun mem isCall => same mem (isCall ▸ List.mem_cons_self)
    have later := inductionHypothesis (consistent.step (fun _ _ _ => trivial) taken) remaining
      fun mem member => same mem (List.mem_cons_of_mem action member)
    rw [List.countP_cons]
    omega

theorem Consistent.exists_advance (consistent : s.Consistent compared)
    (runs : s.phases caller ≠ .idle) : ∃ next, s.step (.advance caller) = some next := by
  have ok := consistent.phases caller
  have taken := consistent.taken
  refine Option.isSome_iff_exists.mp ?_
  simp only [CmpTargets.step, CmpTargets.advance]
  cases here : s.phases caller with
  | idle => exact absurd here runs
  | entered mem =>
    simp only
    split <;> rfl
  | full => rfl
  | scanning mem curroff i =>
    rw [here] at ok
    have below := ok.2.2.1
    simp only
    split
    · have inside : i < s.map.valArr.length := by
        rw [consistent.size]
        omega
      rw [List.getElem?_eq_getElem inside, Option.bind_some]
      split <;> rfl
    · split <;> rfl
  | copying mem newoff copied =>
    rw [here] at ok
    obtain ⟨-, -, ⟨entry, isEntry, -, -⟩, -⟩ := ok
    simp only
    rw [isEntry, Option.bind_some]
    split <;> rfl

/-- Whatever the others do, a call can go on until it ends, and it ends after a
bounded number of accesses. -/
theorem cmpFeedback_waitFree {actions later : List (CmpAction Caller)}
    (reached : runFrom step start actions = some s) (goesOn : runFrom step s later = some final)
    (same : ∀ mem, .call caller mem ∉ later) :
    later.countP (advances caller) ≤ cmpArraySize + cmpValSize + 3 ∧
      (final.phases caller ≠ .idle → ∃ next, final.step (.advance caller) = some next) := by
  have consistent : s.Consistent fun _ => True := consistent_start.run (fun _ _ _ => trivial) reached
  have bounded := left_run consistent goesOn same
  have most := left_le consistent caller
  have still := consistent.run (fun _ _ _ => trivial) goesOn
  exact ⟨by omega, still.exists_advance⟩

theorem cmpFeedback_waitFree_pair :
    ∃ s, runFrom step start [.call () [0x47, 0x45]] = some s ∧
      adding.tail.countP (advances ()) ≤ cmpArraySize + cmpValSize + 3 ∧
      (added.phases () ≠ .idle → ∃ next, added.step (.advance ()) = some next) :=
  ⟨_, rfl, cmpFeedback_waitFree (rfl : runFrom step start [.call () [0x47, 0x45]] = some _)
    (rfl : _ = some added) (by simp [adding])⟩

end Ending

section Counts

variable [Fintype Caller]

/-- A call that is going to increment the counter. -/
def pending : AddPhase → Nat
  | .scanning .. => 1
  | _ => 0

/-- How far the counter can still go beyond the array. -/
def Counted (s : CmpTargets Caller) : Prop :=
  s.map.cnt - cmpArraySize + ∑ caller, pending (s.phases caller) ≤ Fintype.card Caller

omit [DecidableEq Caller] in
theorem sum_pending_le (phases : Caller → AddPhase) :
    ∑ caller, pending (phases caller) ≤ Fintype.card Caller := by
  refine (Finset.sum_le_card_nsmul Finset.univ _ 1 fun caller _ => ?_).trans (by simp)
  cases phases caller <;> simp [pending]

theorem Counted.update (counted : s.Counted) (phases : next.phases = Function.update s.phases caller phase)
    (less : next.map.cnt - cmpArraySize + pending phase ≤
      s.map.cnt - cmpArraySize + pending (s.phases caller)) : next.Counted := by
  have moved := sum_update_add pending s.phases caller phase
  unfold Counted at counted ⊢
  rw [phases]
  omega

theorem Counted.advance (counted : s.Counted) (moves : s.advance caller = some next) :
    next.Counted := by
  unfold CmpTargets.advance at moves
  cases here : s.phases caller with
  | idle =>
    rw [here] at moves
    cases moves
  | entered mem =>
    rw [here] at moves
    simp only at moves
    split at moves
    · cases moves
      exact counted.update rfl (by simp [here, pending, setPhase])
    · next free =>
      cases moves
      have below : s.map.cnt - cmpArraySize = 0 := by omega
      change s.map.cnt - cmpArraySize + _ ≤ _
      rw [below, Nat.zero_add]
      exact sum_pending_le _
  | scanning mem curroff k =>
    rw [here] at moves
    simp only at moves
    split at moves
    · obtain ⟨element, -, moves⟩ := Option.bind_eq_some_iff.mp moves
      split at moves <;> cases moves
      · exact counted.update rfl (by simp [here, pending, setPhase])
      · exact counted.update rfl (by simp [here, pending, setPhase])
    · split at moves <;> cases moves
      · exact counted.update rfl (by simp only [here, pending, setPhase, setCnt]; omega)
      · exact counted.update rfl (by simp only [here, pending, setPhase, setCnt]; omega)
  | full =>
    rw [here] at moves
    cases moves
    exact counted.update rfl (by simp [pending, setPhase, setCnt])
  | copying mem newoff copied =>
    rw [here] at moves
    simp only at moves
    obtain ⟨element, -, moves⟩ := Option.bind_eq_some_iff.mp moves
    split at moves <;> cases moves
    · exact counted.update rfl (by simp [here, pending, setPhase, setEntry])
    · exact counted.update rfl (by simp [here, pending, setPhase, setEntry])

theorem Counted.step (action : CmpAction Caller) (counted : s.Counted)
    (moves : s.step action = some next) : next.Counted := by
  cases action with
  | call caller mem =>
    simp only [CmpTargets.step] at moves
    split at moves
    · split at moves
      · cases moves
        exact counted
      · cases moves
        exact counted.update rfl (by simp [pending, setPhase])
    · cases moves
  | advance caller => exact counted.advance moves
  | die caller =>
    cases moves
    exact counted.update rfl (by simp [pending, setPhase])

omit [DecidableEq Caller] [Fintype Caller] in
theorem Consistent.takers_inj (consistent : s.Consistent compared) {constant : Bytes} {j : Nat}
    (isFirst : s.takers[i]? = some (caller, constant))
    (isSecond : s.takers[j]? = some (caller, constant))
    (first : published s.map i = some constant) (second : published s.map j = some constant) :
    i = j := by
  obtain ⟨entry, isEntry, nonzero, -⟩ := published_eq_some_iff.mp first
  obtain ⟨other, isOther, visible, -⟩ := published_eq_some_iff.mp second
  rcases Nat.lt_trichotomy i j with before | same | behind
  · exact absurd (consistent.once i j caller constant before isFirst isSecond entry isEntry) nonzero
  · exact same
  · exact absurd (consistent.once j i caller constant behind isSecond isFirst other isOther) visible

/-- However the calls run against each other, each caller makes a constant
visible at most once, so that a constant is in at most as many elements as there
are callers, and the counter is beyond the array by at most one for each. -/
theorem cmpFeedback_repeats {actions : List (CmpAction Caller)}
    (reached : runFrom step start actions = some s) (constant : Bytes) :
    (∀ (caller : Caller) (i j : Nat), s.takers[i]? = some (caller, constant) →
        s.takers[j]? = some (caller, constant) → published s.map i = some constant →
        published s.map j = some constant → i = j) ∧
      ((Finset.range cmpArraySize).filter fun i => published s.map i = some constant).card ≤
        Fintype.card Caller ∧
      s.map.cnt ≤ cmpArraySize + Fintype.card Caller := by
  have consistent := consistent_of_run reached
  refine ⟨fun _ _ _ isFirst isSecond => consistent.takers_inj isFirst isSecond, ?_, ?_⟩
  · refine Finset.card_le_card_of_forall_subsingleton
      (fun i caller => s.takers[i]? = some (caller, constant)) ?_ ?_
    · intro i member
      obtain ⟨caller, isTaker⟩ := consistent.taker_of_published (Finset.mem_filter.mp member).2
      exact ⟨caller, Finset.mem_univ caller, isTaker⟩
    · rintro caller - i ⟨first, isFirst⟩ j ⟨second, isSecond⟩
      exact consistent.takers_inj isFirst isSecond (Finset.mem_filter.mp first).2
        (Finset.mem_filter.mp second).2
  · have fresh : (start : CmpTargets Caller).Counted := by
      simp [Counted, start, pending]
    have counted : s.Counted :=
      runFrom_invariant (fun _ action _ counted moves => counted.step action moves) fresh reached
    unfold Counted at counted
    omega

/-- Two calls with one constant, both of which have reserved an element. -/
def racing : List (CmpAction Bool) :=
  [.call true [0x47, 0x45], .call false [0x47, 0x45], .advance true, .advance false,
    .advance true, .advance false]

theorem cmpFeedback_repeats_pair :
    ∃ s, runFrom step start racing = some s ∧
      (∀ (caller : Bool) (i j : Nat), s.takers[i]? = some (caller, [0x47, 0x45]) →
        s.takers[j]? = some (caller, [0x47, 0x45]) → published s.map i = some [0x47, 0x45] →
        published s.map j = some [0x47, 0x45] → i = j) ∧
      ((Finset.range cmpArraySize).filter fun i => published s.map i = some [0x47, 0x45]).card ≤
        Fintype.card Bool ∧
      s.map.cnt ≤ cmpArraySize + Fintype.card Bool :=
  ⟨_, rfl, cmpFeedback_repeats (rfl : runFrom step start racing = some _) _⟩

end Counts

section Mutating

variable {global : MangleGlobal} {m : MangleState} {actions : List (CmpAction Caller)}

/-- Every look at the shared array is a look at a state of one run. -/
def Looks (actions : List (CmpAction Caller)) (global : MangleGlobal) : Prop :=
  ∀ look, ∃ earlier later s, actions = earlier ++ later ∧ runFrom step start earlier = some s ∧
    global.cmpFeedbackMap look = s.map

theorem Looks.valArr (looks : Looks actions global) (look : Nat) :
    (global.cmpFeedbackMap look).valArr.length = 1024 * 16 := by
  obtain ⟨earlier, later, s, -, reached, same⟩ := looks look
  rw [same]
  exact (consistent_of_run reached).size

theorem Looks.wellFormed (looks : Looks actions global)
    (wellFormed : MangleGlobal.WellFormed
      { global with cmpFeedbackMap := fun _ => (start : CmpTargets Caller).map }) :
    global.WellFormed :=
  { wellFormed with
    valArr := looks.valArr
    values := by
      intro look entry member
      obtain ⟨earlier, later, s, -, reached, same⟩ := looks look
      rw [same] at member
      have consistent := consistent_of_run reached
      rw [consistent.room entry member]
      by_cases hidden : entry.len = 0
      · rw [hidden]
        exact Nat.zero_le _
      · obtain ⟨i, isEntry⟩ := List.mem_iff_getElem?.mp member
        obtain ⟨_, _, isTaker, full, _⟩ := consistent.whole i entry isEntry hidden
        rw [full]
        exact (consistent.cut _ (List.mem_of_getElem? isTaker)).length_le }

/-- While targets add constants, `mangle_FeedbackDict` ends and hands out nothing
or a constant that one of them has compared with. -/
theorem mangleFeedbackDict_compared (looks : Looks actions global) :
    ∃ found later, mangleFeedbackDict global m = (.returned found, later) ∧ later.data = m.data ∧
      ∀ entry ∈ found, ∃ mem, Compared actions mem ∧ 1 < mem.length ∧
        entry.val.take entry.len = mem.take cmpValSize := by
  refine Attempt.returns_iff.mp
    (returns_feedbackDict looks.valArr fun found later same handed => ?_)
  refine ⟨same, fun entry member => ?_⟩
  obtain ⟨look, i, isEntry, visible⟩ := handed entry member
  obtain ⟨earlier, rest, s, rfl, reached, isMap⟩ := looks look
  rw [isMap] at isEntry
  obtain ⟨caller, isTaker⟩ := (consistent_of_run reached).taker_of_published
    (published_eq_some_iff.mpr ⟨entry, isEntry, visible, rfl⟩)
  obtain ⟨mem, ⟨other, called⟩, long, cut⟩ :=
    (consistent_of_run reached).cut _ (List.mem_of_getElem? isTaker)
  exact ⟨mem, ⟨other, List.mem_append_left _ called⟩, long, cut⟩

/-- Mutating stays inside of the file while targets add constants. -/
theorem mangleContent_targets {mutationsPerRun : Nat} (looks : Looks actions global)
    (wellFormed : MangleGlobal.WellFormed
      { global with cmpFeedbackMap := fun _ => (start : CmpTargets Caller).map })
    (source : mutationsPerRun = 0 ∨ mutationsPerRun = global.mutationsPerRun)
    (fits : m.data.length ≤ global.maxInputSz) : StaysInside global mutationsPerRun m := by
  by_cases replay : mutationsPerRun = 0
  · exact replay ▸ staysInside_zero fits
  · obtain rfl := source.resolve_left replay
    exact staysInside_of_active (looks.wellFormed wellFormed) replay fits

/-- The mutators of `smallGlobal` behind the call of `adding`. -/
def addedGlobal : MangleGlobal :=
  { smallGlobal with cmpFeedbackMap := fun _ => added.map }

theorem looks_added : Looks adding addedGlobal :=
  fun _ => ⟨adding, [], added, (List.append_nil adding).symm, rfl, rfl⟩

theorem added_wellFormed : MangleGlobal.WellFormed
    { addedGlobal with cmpFeedbackMap := fun _ => (start : CmpTargets Unit).map } :=
  { smallGlobal_wellFormed with
    valArr := fun _ => List.length_replicate
    values := by
      intro look entry member
      rw [List.eq_of_mem_replicate member]
      exact Nat.zero_le _ }

theorem mangleFeedbackDict_compared_pair :
    ∃ found later, mangleFeedbackDict addedGlobal smallState = (.returned found, later) ∧
      later.data = smallState.data ∧
      ∀ entry ∈ found, ∃ mem, Compared adding mem ∧ 1 < mem.length ∧
        entry.val.take entry.len = mem.take cmpValSize :=
  mangleFeedbackDict_compared looks_added

theorem mangleContent_targets_pair : StaysInside addedGlobal 5 smallState :=
  mangleContent_targets looks_added added_wellFormed (.inr rfl) (by decide)

end Mutating

end Array

end CmpTargets

end GraphDissect.Fuzzing
