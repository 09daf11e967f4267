import Mathlib

/-!
# Doubly linked lists

Elements on a heap that carry a pointer to the next and one to the previous
element, and a pointer to the head.  `Links.Holds` says which list of addresses
the pointers spell.  Insertion at the head, removal and the move of an element
to the head are followed pointer write by pointer write.
-/

namespace Library

variable {Addr : Type*}

/-- The pointer fields of all elements, and the head. -/
structure Links (Addr : Type*) where
  next : Addr → Option Addr
  pre : Addr → Option Addr
  head : Option Addr

namespace Links

/-- The pointers of a segment between what comes before and what comes after it. -/
def Segment (next pre : Addr → Option Addr) : Option Addr → List Addr → Option Addr → Prop
  | _, [], _ => True
  | before, elem :: rest, after =>
      pre elem = before ∧ next elem = rest.head?.or after ∧ Segment next pre (some elem) rest after

/-- The pointers spell this list, from the head to null. -/
structure Holds (links : Links Addr) (elems : List Addr) : Prop where
  head : links.head = elems.head?
  segment : Segment links.next links.pre none elems none
  nodup : elems.Nodup

/-- The element that so many steps lead to from the head. -/
def follow (links : Links Addr) : Nat → Option Addr
  | 0 => links.head
  | steps + 1 => (links.follow steps).bind links.next

section Segments

variable {next pre : Addr → Option Addr} {before after : Option Addr}

theorem segment_append {first second : List Addr} :
    Segment next pre before (first ++ second) after ↔
      Segment next pre before first (second.head?.or after) ∧
        Segment next pre (first.getLast?.or before) second after := by
  induction first generalizing before with
  | nil => simp [Segment]
  | cons elem rest inductionHypothesis =>
      have last : (elem :: rest).getLast?.or before = rest.getLast?.or (some elem) := by
        cases rest <;> simp [List.getLast?_cons]
      simp only [List.cons_append, Segment, inductionHypothesis, last, List.head?_append,
        Option.or_assoc, and_assoc]

theorem Segment.around {first second : List Addr} {elem : Addr}
    (segment : Segment next pre before (first ++ elem :: second) after) :
    pre elem = first.getLast?.or before ∧ next elem = second.head?.or after := by
  have here := (segment_append.mp segment).2
  exact ⟨here.1, here.2.1⟩

theorem Segment.pre_head {elems : List Addr} {elem : Addr}
    (segment : Segment next pre before elems after) (first : elems.head? = some elem) :
    pre elem = before := by
  rcases List.head?_eq_some_iff.mp first with ⟨rest, rfl⟩
  exact segment.1

theorem Segment.next_getLast {elems : List Addr} {elem : Addr}
    (segment : Segment next pre before elems after) (last : elems.getLast? = some elem) :
    next elem = after := by
  rcases List.getLast?_eq_some_iff.mp last with ⟨rest, rfl⟩
  exact segment.around.2

/-- A segment reads the pointers of its own elements only. -/
theorem Segment.congr {elems : List Addr} {next' pre' : Addr → Option Addr}
    (segment : Segment next pre before elems after)
    (nexts : ∀ elem ∈ elems, next' elem = next elem)
    (pres : ∀ elem ∈ elems, pre' elem = pre elem) : Segment next' pre' before elems after := by
  induction elems generalizing before with
  | nil => trivial
  | cons elem rest inductionHypothesis =>
      rcases segment with ⟨preceding, following, later⟩
      refine ⟨(pres elem List.mem_cons_self).trans preceding,
        (nexts elem List.mem_cons_self).trans following, ?_⟩
      apply inductionHypothesis later
      · exact fun other member => nexts other (List.mem_cons_of_mem elem member)
      · exact fun other member => pres other (List.mem_cons_of_mem elem member)

theorem Segment.relink {elems : List Addr} {next' pre' : Addr → Option Addr}
    {before' after' : Option Addr} (segment : Segment next pre before elems after)
    (nodup : elems.Nodup)
    (nexts : ∀ elem ∈ elems, elems.getLast? ≠ some elem → next' elem = next elem)
    (last : ∀ elem, elems.getLast? = some elem → next' elem = after')
    (pres : ∀ elem ∈ elems, elems.head? ≠ some elem → pre' elem = pre elem)
    (first : ∀ elem, elems.head? = some elem → pre' elem = before') :
    Segment next' pre' before' elems after' := by
  induction elems generalizing before before' with
  | nil => trivial
  | cons elem rest inductionHypothesis =>
      rcases segment with ⟨-, following, later⟩
      rw [List.nodup_cons] at nodup
      refine ⟨first elem rfl, ?_, ?_⟩
      · cases rest with
        | nil => exact last elem rfl
        | cons other tail =>
            have inner : (elem :: other :: tail).getLast? ≠ some elem := by
              intro isLast
              rw [List.getLast?_cons_cons] at isLast
              exact nodup.1 (List.mem_of_getLast? isLast)
            exact (nexts elem List.mem_cons_self inner).trans following
      · have lasts : ∀ other ∈ rest, (elem :: rest).getLast? = rest.getLast? := by
          intro other member
          rw [List.getLast?_cons, List.getLast?_eq_getLast_of_ne_nil (List.ne_nil_of_mem member)]
          rfl
        have keptPre : ∀ other ∈ rest, pre' other = pre other := by
          intro other member
          apply pres other (List.mem_cons_of_mem elem member)
          rintro ⟨⟩
          exact nodup.1 member
        apply inductionHypothesis later nodup.2
        · intro other member inner
          exact nexts other (List.mem_cons_of_mem elem member) (lasts other member ▸ inner)
        · intro other isLast
          exact last other (lasts other (List.mem_of_getLast? isLast) ▸ isLast)
        · intro other member _
          exact keptPre other member
        · intro other isFirst
          rw [keptPre other (List.mem_of_head? isFirst)]
          exact later.pre_head isFirst

end Segments

section Reading

variable {links : Links Addr} {elems : List Addr}

/-- The steps from the head lead through the list and then to null, so the list
from the head is finite. -/
theorem Holds.follow_eq (holds : links.Holds elems) (steps : Nat) :
    links.follow steps = elems[steps]? := by
  induction steps with
  | zero => rw [follow, holds.head, List.head?_eq_getElem?]
  | succ steps inductionHypothesis =>
      rw [follow, inductionHypothesis]
      rcases Nat.lt_or_ge steps elems.length with inside | outside
      · have split := List.take_append_drop steps elems
        rw [List.drop_eq_getElem_cons inside] at split
        have around := (split ▸ holds.segment).around.2
        rw [List.getElem?_eq_getElem inside, Option.bind_some, around, Option.or_none,
          List.head?_drop]
      · rw [List.getElem?_eq_none outside, List.getElem?_eq_none (by omega)]
        rfl

theorem Holds.unique {others : List Addr} (holds : links.Holds elems)
    (other : links.Holds others) : elems = others := by
  apply List.ext_getElem?
  intro steps
  rw [← holds.follow_eq, other.follow_eq]

theorem Holds.congr {links' : Links Addr} (holds : links.Holds elems)
    (head : links'.head = links.head) (nexts : ∀ elem ∈ elems, links'.next elem = links.next elem)
    (pres : ∀ elem ∈ elems, links'.pre elem = links.pre elem) : links'.Holds elems :=
  ⟨head.trans holds.head, holds.segment.congr nexts pres, holds.nodup⟩

/-- The first element from a pointer on that a test accepts; the outer `none`
says that the elements of the walk did not suffice to reach the end. -/
def search (next : Addr → Option Addr) (accepts : Addr → Bool) :
    Nat → Option Addr → Option (Option Addr)
  | _, none => some none
  | 0, some _ => none
  | walk + 1, some elem =>
      if accepts elem then some (some elem) else search next accepts walk (next elem)

theorem Segment.search {next pre : Addr → Option Addr} {before : Option Addr} {walk : Nat}
    (accepts : Addr → Bool) (segment : Segment next pre before elems none)
    (enough : elems.length ≤ walk) :
    Links.search next accepts walk elems.head? = some (elems.find? accepts) := by
  induction elems generalizing before walk with
  | nil => cases walk <;> rfl
  | cons elem rest inductionHypothesis =>
      rcases segment with ⟨-, following, later⟩
      obtain ⟨walk, rfl⟩ := Nat.exists_eq_add_one_of_ne_zero (Nat.ne_zero_of_lt enough)
      rw [List.head?_cons, Links.search, List.find?_cons, following, Option.or_none]
      cases accepts elem with
      | true => rfl
      | false => exact inductionHypothesis later (Nat.le_of_succ_le_succ enough)

theorem Holds.search (holds : links.Holds elems) {walk : Nat} (accepts : Addr → Bool)
    (enough : elems.length ≤ walk) :
    Links.search links.next accepts walk links.head = some (elems.find? accepts) := by
  rw [holds.head]
  exact holds.segment.search accepts enough

theorem Holds.pre_head_eq (holds : links.Holds elems) {elem : Addr}
    (first : links.head = some elem) : links.pre elem = none :=
  holds.segment.pre_head (holds.head ▸ first)

theorem Holds.adjacent {before after : List Addr} {elem other : Addr}
    (holds : links.Holds (before ++ elem :: other :: after)) :
    links.next elem = some other ∧ links.pre other = some elem := by
  have shifted : Segment links.next links.pre none ((before ++ [elem]) ++ other :: after) none := by
    simpa using holds.segment
  refine ⟨holds.segment.around.2, ?_⟩
  rw [shifted.around.1, List.getLast?_concat]
  rfl

theorem Holds.pre_of_next (holds : links.Holds elems) {elem other : Addr} (member : elem ∈ elems)
    (following : links.next elem = some other) :
    other ∈ elems ∧ links.pre other = some elem := by
  rcases List.mem_iff_append.mp member with ⟨before, after, rfl⟩
  have nextElem := holds.segment.around.2
  rw [Option.or_none, following] at nextElem
  rcases List.head?_eq_some_iff.mp nextElem.symm with ⟨rest, rfl⟩
  exact ⟨by simp, holds.adjacent.2⟩

theorem Holds.next_of_pre (holds : links.Holds elems) {elem other : Addr} (member : other ∈ elems)
    (preceding : links.pre other = some elem) :
    elem ∈ elems ∧ links.next elem = some other := by
  rcases List.mem_iff_append.mp member with ⟨before, after, rfl⟩
  have preOther := holds.segment.around.1
  rw [Option.or_none, preceding] at preOther
  rcases List.getLast?_eq_some_iff.mp preOther.symm with ⟨rest, rfl⟩
  rw [List.append_assoc] at holds
  exact ⟨by simp, holds.adjacent.1⟩

end Reading

section Writing

variable [DecidableEq Addr]

def pushFront (links : Links Addr) (elem : Addr) : Links Addr :=
  match links.head with
  | none =>
      { head := some elem
        next := Function.update links.next elem none
        pre := Function.update links.pre elem none }
  | some old =>
      { head := some elem
        next := Function.update links.next elem (some old)
        pre := Function.update (Function.update links.pre elem none) old (some elem) }

def unlink (links : Links Addr) (elem : Addr) : Links Addr :=
  if links.head = some elem then
    match links.next elem with
    | none => { links with head := none }
    | some first =>
        { links with head := some first, pre := Function.update links.pre first none }
  else
    let next :=
      match links.pre elem with
      | some previous => Function.update links.next previous (links.next elem)
      | none => links.next
    let pre :=
      match next elem with
      | some following => Function.update links.pre following (links.pre elem)
      | none => links.pre
    { links with next, pre }

/-- An element taken out of its place and put before the head.  The element is
not the head; `none` is the access through a null pointer. -/
def moveToFront (links : Links Addr) (elem : Addr) : Option (Links Addr) := do
  let previous ← links.pre elem
  let next := Function.update links.next previous (links.next elem)
  let pre :=
    match next elem with
    | some following => Function.update links.pre following (some previous)
    | none => links.pre
  let pre := Function.update pre elem none
  let next := Function.update next elem links.head
  let old ← links.head
  return { head := some elem, next, pre := Function.update pre old (some elem) }

variable {links : Links Addr} {elems : List Addr}

theorem Holds.pushFront (holds : links.Holds elems) {elem : Addr} (fresh : elem ∉ elems) :
    (links.pushFront elem).Holds (elem :: elems) := by
  have nodup : (elem :: elems).Nodup := List.nodup_cons.mpr ⟨fresh, holds.nodup⟩
  have different : ∀ other ∈ elems, other ≠ elem := by
    rintro other member rfl
    exact fresh member
  unfold Links.pushFront
  have isHead := holds.head
  split
  next empty =>
    rw [empty] at isHead
    rw [List.head?_eq_none_iff.mp isHead.symm]
    exact ⟨rfl, by simp [Segment], by simp⟩
  next old present =>
    rw [present] at isHead
    refine ⟨rfl, ⟨?_, ?_, ?_⟩, nodup⟩
    · have distinct := different old (List.mem_of_head? isHead.symm)
      simp only [Function.update_of_ne distinct.symm, Function.update_self]
    · simp only [Function.update_self, ← isHead, Option.some_or]
    · apply holds.segment.relink holds.nodup
      · intro other member _
        exact Function.update_of_ne (different other member) _ _
      · intro other isLast
        simp only [Function.update_of_ne (different other (List.mem_of_getLast? isLast))]
        exact holds.segment.next_getLast isLast
      · intro other member inner
        rw [← isHead] at inner
        have notOld : other ≠ old := fun same => inner (same ▸ rfl)
        simp only [Function.update_of_ne notOld, Function.update_of_ne (different other member)]
      · intro other isFirst
        cases isHead.trans isFirst
        exact Function.update_self _ _ _

theorem Segment.rejoin {next pre next' pre' : Addr → Option Addr} {before after : List Addr}
    {before' : Option Addr} {elem old previous : Addr} (nodup : (before ++ elem :: after).Nodup)
    (segment : Segment next pre none (before ++ elem :: after) none)
    (first : before.head? = some old) (last : before.getLast? = some previous)
    (nexts : ∀ other ≠ elem, next' other = if other = previous then after.head? else next other)
    (pres : ∀ other ≠ elem, other ≠ old →
      pre' other = if after.head? = some other then some previous else pre other)
    (preOld : pre' old = before') :
    Segment next' pre' before' (before ++ after) none := by
  rw [List.nodup_append, List.nodup_cons] at nodup
  rcases nodup with ⟨nodupBefore, ⟨notAfter, nodupAfter⟩, apart⟩
  have notBefore : ∀ other ∈ before, other ≠ elem :=
    fun other member => apart other member elem List.mem_cons_self
  have disjoint : ∀ left ∈ before, ∀ right ∈ after, left ≠ right :=
    fun left inBefore right inAfter => apart left inBefore right (List.mem_cons_of_mem elem inAfter)
  have behind : ∀ other ∈ after, other ≠ elem := by
    rintro other member rfl
    exact notAfter member
  have oldIn := List.mem_of_head? first
  have previousIn := List.mem_of_getLast? last
  rcases segment_append.mp segment with ⟨front, -, -, back⟩
  apply segment_append.mpr
  rw [last, Option.some_or, Option.or_none]
  constructor
  · apply front.relink nodupBefore
    · intro other member inner
      rw [nexts other (notBefore other member), if_neg]
      rintro rfl
      exact inner last
    · intro other isLast
      cases last.symm.trans isLast
      rw [nexts previous (notBefore previous previousIn), if_pos rfl]
    · intro other member inner
      have notOld : other ≠ old := by
        rintro rfl
        exact inner first
      rw [pres other (notBefore other member) notOld, if_neg]
      intro isHead
      exact disjoint other member other (List.mem_of_head? isHead) rfl
    · intro other isFirst
      cases first.symm.trans isFirst
      exact preOld
  · have keptNext : ∀ other ∈ after, next' other = next other := by
      intro other member
      rw [nexts other (behind other member), if_neg]
      exact (disjoint previous previousIn other member).symm
    have preAfter : ∀ other ∈ after,
        pre' other = if after.head? = some other then some previous else pre other :=
      fun other member =>
        pres other (behind other member) (disjoint old oldIn other member).symm
    apply back.relink nodupAfter
    · exact fun other member _ => keptNext other member
    · intro other isLast
      rw [keptNext other (List.mem_of_getLast? isLast)]
      exact back.next_getLast isLast
    · intro other member inner
      rw [preAfter other member, if_neg inner]
    · intro other isFirst
      rw [preAfter other (List.mem_of_head? isFirst), if_pos isFirst]

theorem Holds.pushFront_frame (holds : links.Holds elems) {elem other : Addr}
    (outside : other ∉ elem :: elems) :
    (links.pushFront elem).next other = links.next other ∧
      (links.pushFront elem).pre other = links.pre other := by
  rw [List.mem_cons, not_or] at outside
  unfold Links.pushFront
  split
  next empty =>
    exact ⟨Function.update_of_ne outside.1 _ _, Function.update_of_ne outside.1 _ _⟩
  next old present =>
    have notOld : other ≠ old := by
      rintro rfl
      exact outside.2 (List.mem_of_head? (holds.head ▸ present))
    exact ⟨Function.update_of_ne outside.1 _ _,
      (Function.update_of_ne notOld _ _).trans (Function.update_of_ne outside.1 _ _)⟩

theorem Holds.unlink_frame (holds : links.Holds elems) {elem other : Addr}
    (member : elem ∈ elems) (outside : other ∉ elems) :
    (links.unlink elem).next other = links.next other ∧
      (links.unlink elem).pre other = links.pre other := by
  have notNext : ∀ following, links.next elem = some following → other ≠ following := by
    rintro following next rfl
    exact outside (holds.pre_of_next member next).1
  have notPre : ∀ previous, links.pre elem = some previous → other ≠ previous := by
    rintro previous pre rfl
    exact outside (holds.next_of_pre member pre).1
  have notSelf : ∀ previous, links.pre elem = some previous → elem ≠ previous := by
    rintro previous pre rfl
    have next := (holds.next_of_pre member pre).2
    rcases List.mem_iff_append.mp member with ⟨first, second, rfl⟩
    have around := holds.segment.around.2
    rw [next, Option.or_none] at around
    have nodup := (List.nodup_append.mp holds.nodup).2.1
    exact (List.nodup_cons.mp nodup).1 (List.mem_of_head? around.symm)
  unfold Links.unlink
  split
  next isHead =>
    split
    next none => exact ⟨rfl, rfl⟩
    next first next => exact ⟨rfl, Function.update_of_ne (notNext first next) _ _⟩
  next notHead =>
    cases pre : links.pre elem with
    | none =>
        cases next : links.next elem with
        | none => simp only [next, and_self]
        | some following =>
            simp only [next, true_and]
            exact Function.update_of_ne (notNext following next) _ _
    | some previous =>
        simp only [Function.update_of_ne (notSelf previous pre)]
        refine ⟨Function.update_of_ne (notPre previous pre) _ _, ?_⟩
        cases next : links.next elem with
        | none => rfl
        | some following => exact Function.update_of_ne (notNext following next) _ _

/-- Removal takes exactly its element out of the list. -/
theorem Holds.unlink {before after : List Addr} {elem : Addr}
    (holds : links.Holds (before ++ elem :: after)) :
    (links.unlink elem).Holds (before ++ after) := by
  have nodup := holds.nodup
  have around := holds.segment.around
  have kept : (before ++ after).Nodup := (List.nodup_cons.mp (List.perm_middle.nodup_iff.mp nodup)).2
  rw [Option.or_none, Option.or_none] at around
  cases before with
  | nil =>
      have isHead : links.head = some elem := holds.head
      rw [Links.unlink, if_pos isHead, around.2]
      cases after with
      | nil => exact ⟨rfl, trivial, List.nodup_nil⟩
      | cons first rest =>
          refine ⟨rfl, ?_, kept⟩
          apply holds.segment.2.2.relink kept
          · exact fun _ _ _ => rfl
          · exact fun other isLast => holds.segment.2.2.next_getLast isLast
          · intro other _ inner
            apply Function.update_of_ne
            rintro rfl
            exact inner rfl
          · rintro other ⟨⟩
            exact Function.update_self _ _ _
  | cons old rest =>
      have notBefore : ∀ other ∈ old :: rest, other ≠ elem :=
        fun other member => (List.nodup_append.mp nodup).2.2 other member elem List.mem_cons_self
      have notAfter : ∀ other ∈ after, other ≠ old := by
        intro other member
        exact ((List.nodup_append.mp nodup).2.2 old List.mem_cons_self other
          (List.mem_cons_of_mem elem member)).symm
      obtain ⟨previous, last⟩ : ∃ previous, (old :: rest).getLast? = some previous :=
        ⟨_, List.getLast?_eq_some_getLast (List.cons_ne_nil old rest)⟩
      have previousNe := notBefore previous (List.mem_of_getLast? last)
      have isHead : links.head = some old := holds.head
      have notHead : links.head ≠ some elem := by
        rw [isHead]
        exact fun same => notBefore old List.mem_cons_self (Option.some.inj same)
      rw [last] at around
      rw [Links.unlink, if_neg notHead]
      simp only [around.1, around.2, Function.update_of_ne previousNe.symm]
      refine ⟨holds.head, ?_, kept⟩
      apply Segment.rejoin nodup holds.segment rfl last
      · intro other different
        exact Function.update_apply _ _ _ _
      · intro other different notOld
        cases after.head? with
        | none => rw [if_neg (by rintro ⟨⟩)]
        | some following =>
            dsimp only
            rw [Function.update_apply]
            simp only [Option.some.injEq, eq_comm]
      · cases first : after.head? with
        | none => exact holds.segment.pre_head rfl
        | some following =>
            dsimp only
            rw [Function.update_of_ne (notAfter following (List.mem_of_head? first)).symm]
            exact holds.segment.pre_head rfl

theorem Holds.moveToFront {before after : List Addr} {elem : Addr}
    (holds : links.Holds (before ++ elem :: after)) (behind : before ≠ []) :
    ∃ moved, links.moveToFront elem = some moved ∧ moved.Holds (elem :: (before ++ after)) := by
  obtain ⟨old, first⟩ : ∃ old, before.head? = some old :=
    Option.isSome_iff_exists.mp (List.isSome_head?.mpr behind)
  obtain ⟨previous, last⟩ : ∃ previous, before.getLast? = some previous :=
    ⟨_, List.getLast?_eq_some_getLast behind⟩
  have nodup := holds.nodup
  have notBefore : ∀ other ∈ before, other ≠ elem :=
    fun other member => (List.nodup_append.mp nodup).2.2 other member elem List.mem_cons_self
  have previousNe := notBefore previous (List.mem_of_getLast? last)
  have oldNe := notBefore old (List.mem_of_head? first)
  have around := holds.segment.around
  rw [last, Option.some_or, Option.or_none] at around
  have isHead : links.head = some old := by
    rw [holds.head, List.head?_append, first, Option.some_or]
  simp only [Links.moveToFront, around.1, around.2, isHead, Option.bind_eq_bind, Option.bind_some,
    Function.update_of_ne previousNe.symm]
  refine ⟨_, rfl, rfl, ⟨?_, ?_, ?_⟩, ?_⟩
  · dsimp only
    rw [Function.update_of_ne oldNe.symm, Function.update_self]
  · dsimp only
    rw [Function.update_self, List.head?_append, first, Option.some_or, Option.some_or]
  · apply Segment.rejoin nodup holds.segment first last
    · intro other different
      dsimp only
      rw [Function.update_of_ne different, Function.update_apply]
    · intro other different notOld
      dsimp only
      rw [Function.update_of_ne notOld, Function.update_of_ne different]
      cases after.head? with
      | none => rw [if_neg (by rintro ⟨⟩)]
      | some following =>
          dsimp only
          rw [Function.update_apply]
          simp only [Option.some.injEq, eq_comm]
    · exact Function.update_self _ _ _
  · exact (List.perm_middle.nodup_iff).mp nodup

end Writing

end Links

end Library
