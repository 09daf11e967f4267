import Mathlib

/-!
# Concurrent open addressing with bounded probing

A table of counters keyed by an arbitrary type.  A record of a key walks the
probe sequence from the key's home position, claims the first empty slot with
a compare-and-swap, and then adds one to the slot's count.  Nothing is ever
deleted.  `advance` is one atomic step of a record; `record` is the same loop
run without interruption, and `lookup` is the reader.

The probe-chain invariant `Chained` says that every stored key is reached
from its home through slots that hold other keys.  It is kept by every atomic
step of every recorder, whatever the others are doing.
-/

namespace Library

universe u v

/-- One slot: the stored key, or the layout's empty key, and its count. -/
structure ProbeSlot (Key : Type u) where
  key : Key
  count : UInt32
  deriving DecidableEq

/-- The slots by position, and the number of counted records. -/
structure ProbeTable (Key : Type u) where
  slot : Nat → ProbeSlot Key
  total : UInt32

/-- The parameters of a table: which key marks an empty slot, where a key's
probe sequence starts, how many slots there are and how many are probed. -/
structure ProbeLayout (Key : Type u) where
  empty : Key
  home : Key → Nat
  size : Nat
  limit : Nat
  limit_pos : 0 < limit

namespace ProbeTable

variable {Key : Type u}

/-- Write a key into a slot, leaving its count. -/
def claimSlot (table : ProbeTable Key) (position : Nat) (key : Key) : ProbeTable Key :=
  { table with
    slot := Function.update table.slot position { table.slot position with key := key } }

/-- Add one to the count of a slot, modulo `2 ^ 32`. -/
def addCount (table : ProbeTable Key) (position : Nat) : ProbeTable Key :=
  { table with
    slot := Function.update table.slot position
      { table.slot position with count := (table.slot position).count + 1 } }

/-- Add one to the number of counted records, modulo `2 ^ 32`. -/
def addTotal (table : ProbeTable Key) : ProbeTable Key :=
  { table with total := table.total + 1 }

@[simp]
theorem addTotal_slot (table : ProbeTable Key) : table.addTotal.slot = table.slot := rfl

@[simp]
theorem addCount_key (table : ProbeTable Key) (position other : Nat) :
    ((table.addCount position).slot other).key = (table.slot other).key := by
  by_cases same : other = position <;> simp [addCount, same]

theorem addCount_count (table : ProbeTable Key) (position other : Nat) :
    ((table.addCount position).slot other).count =
      if other = position then (table.slot other).count + 1 else (table.slot other).count := by
  by_cases same : other = position <;> simp [addCount, same]

theorem claimSlot_key (table : ProbeTable Key) (position other : Nat) (key : Key) :
    ((table.claimSlot position key).slot other).key =
      if other = position then key else (table.slot other).key := by
  by_cases same : other = position <;> simp [claimSlot, same]

@[simp]
theorem claimSlot_count (table : ProbeTable Key) (position other : Nat) (key : Key) :
    ((table.claimSlot position key).slot other).count = (table.slot other).count := by
  by_cases same : other = position <;> simp [claimSlot, same]

end ProbeTable

/-- Where one record stands: about to load the key of a probed slot, about to
claim the empty slot it saw, about to count, or about to add to the total. -/
inductive ProbePc (Key : Type u) where
  | load (key : Key) (index : Nat)
  | claim (key : Key) (index : Nat)
  | count (key : Key) (index : Nat)
  | total (key : Key)
  deriving DecidableEq

/-- What an atomic step of a record leads to. -/
inductive ProbeResult (Key : Type u) where
  | running (pc : ProbePc Key)
  | returned
  | dropped
  deriving DecidableEq

namespace ProbeLayout

variable {Key : Type u} [DecidableEq Key] (layout : ProbeLayout Key)

/-- The position probed at an index of a key's probe sequence. -/
def position (key : Key) (index : Nat) : Nat := (layout.home key + index) % layout.size

/-- After comparing a non-empty slot's key: count there, go on, or give up. -/
def compare (key : Key) (index : Nat) (current : Key) : ProbeResult Key :=
  if current = key then .running (.count key index)
  else if index + 1 < layout.limit then .running (.load key (index + 1))
  else .dropped

def advance (table : ProbeTable Key) : ProbePc Key → ProbeTable Key × ProbeResult Key
  | .load key index =>
      let current := (table.slot (layout.position key index)).key
      if current = layout.empty then (table, .running (.claim key index))
      else (table, layout.compare key index current)
  | .claim key index =>
      let current := (table.slot (layout.position key index)).key
      if current = layout.empty then
        (table.claimSlot (layout.position key index) key, .running (.count key index))
      else (table, layout.compare key index current)
  | .count key index =>
      (table.addCount (layout.position key index), .running (.total key))
  | .total _ => (table.addTotal, .returned)

/-- The uninterrupted probe loop; `none` when every probed slot holds another
key. -/
def recordFrom (table : ProbeTable Key) (key : Key) : Nat → Nat → Option (ProbeTable Key)
  | 0, _ => none
  | remaining + 1, index =>
      let current := (table.slot (layout.position key index)).key
      if current = layout.empty then
        some ((table.claimSlot (layout.position key index) key).addCount
          (layout.position key index)).addTotal
      else if current = key then
        some (table.addCount (layout.position key index)).addTotal
      else recordFrom table key remaining (index + 1)

def record (table : ProbeTable Key) (key : Key) : Option (ProbeTable Key) :=
  layout.recordFrom table key layout.limit 0

/-- The reader's probe loop: stop at the first empty slot. -/
def lookupFrom (table : ProbeTable Key) (key : Key) : Nat → Nat → UInt32
  | 0, _ => 0
  | remaining + 1, index =>
      let slot := table.slot (layout.position key index)
      if slot.key = layout.empty then 0
      else if slot.key = key then slot.count
      else lookupFrom table key remaining (index + 1)

def lookup (table : ProbeTable Key) (key : Key) : UInt32 :=
  if key = layout.empty then 0 else layout.lookupFrom table key layout.limit 0

/-- The table before anything was recorded. -/
def zeroed : ProbeTable Key := ⟨fun _ => ⟨layout.empty, 0⟩, 0⟩

/-- The slot at an index of a key's probe sequence holds some other key. -/
def Occupied (table : ProbeTable Key) (key : Key) (index : Nat) : Prop :=
  (table.slot (layout.position key index)).key ≠ layout.empty ∧
    (table.slot (layout.position key index)).key ≠ key

/-- Every stored key is reached from its home through occupied slots. -/
def Chained (table : ProbeTable Key) : Prop :=
  ∀ position, (table.slot position).key ≠ layout.empty →
    ∃ index, index < layout.limit ∧
      position = layout.position (table.slot position).key index ∧
      ∀ earlier, earlier < index → layout.Occupied table (table.slot position).key earlier

/-- Keys are only ever written into empty slots. -/
def Extends (before after : ProbeTable Key) : Prop :=
  ∀ position, (before.slot position).key ≠ layout.empty →
    (after.slot position).key = (before.slot position).key

/-- What a record in progress knows about the slots it has passed. -/
def PcOk (table : ProbeTable Key) : ProbePc Key → Prop
  | .load key index | .claim key index =>
      key ≠ layout.empty ∧ index < layout.limit ∧
        ∀ earlier, earlier < index → layout.Occupied table key earlier
  | .count key index =>
      key ≠ layout.empty ∧ index < layout.limit ∧
        (table.slot (layout.position key index)).key = key
  | .total _ => True

section Chains

variable {layout}

omit [DecidableEq Key] in
theorem Extends.refl (table : ProbeTable Key) : layout.Extends table table :=
  fun _ _ => rfl

omit [DecidableEq Key] in
theorem Extends.trans {first second third : ProbeTable Key}
    (left : layout.Extends first second) (right : layout.Extends second third) :
    layout.Extends first third := by
  intro position stored
  have kept := left position stored
  rw [right position (by rw [kept]; exact stored), kept]

omit [DecidableEq Key] in
theorem Occupied.extend {before after : ProbeTable Key} {key : Key} {index : Nat}
    (occupied : layout.Occupied before key index) (grown : layout.Extends before after) :
    layout.Occupied after key index := by
  unfold Occupied
  rw [grown _ occupied.1]
  exact occupied

omit [DecidableEq Key] in
theorem PcOk.extend {before after : ProbeTable Key} {pc : ProbePc Key}
    (ok : layout.PcOk before pc) (grown : layout.Extends before after) :
    layout.PcOk after pc := by
  cases pc with
  | load key index =>
      exact ⟨ok.1, ok.2.1, fun earlier before => (ok.2.2 earlier before).extend grown⟩
  | claim key index =>
      exact ⟨ok.1, ok.2.1, fun earlier before => (ok.2.2 earlier before).extend grown⟩
  | count key index =>
      refine ⟨ok.1, ok.2.1, ?_⟩
      have stored : (before.slot (layout.position key index)).key ≠ layout.empty := by
        rw [ok.2.2]
        exact ok.1
      rw [grown _ stored, ok.2.2]
  | total key => trivial

omit [DecidableEq Key] in
theorem extends_claimSlot {table : ProbeTable Key} {position : Nat} (key : Key)
    (free : (table.slot position).key = layout.empty) :
    layout.Extends table (table.claimSlot position key) := by
  intro other stored
  rw [ProbeTable.claimSlot_key, if_neg]
  rintro rfl
  exact stored free

omit [DecidableEq Key] in
theorem extends_addCount (table : ProbeTable Key) (position : Nat) :
    layout.Extends table (table.addCount position) :=
  fun other _ => ProbeTable.addCount_key table position other

omit [DecidableEq Key] in
theorem Chained.claimSlot {table : ProbeTable Key} {key : Key} {index : Nat}
    (chained : layout.Chained table) (ok : layout.PcOk table (.claim key index))
    (free : (table.slot (layout.position key index)).key = layout.empty) :
    layout.Chained (table.claimSlot (layout.position key index) key) := by
  have grown : layout.Extends table _ := extends_claimSlot key free
  intro position stored
  by_cases claimed : position = layout.position key index
  · have written : ((table.claimSlot (layout.position key index) key).slot position).key = key := by
      rw [ProbeTable.claimSlot_key, if_pos claimed]
    rw [written]
    exact ⟨index, ok.2.1, claimed, fun earlier before => (ok.2.2 earlier before).extend grown⟩
  · have untouched : ((table.claimSlot (layout.position key index) key).slot position).key =
        (table.slot position).key := by
      rw [ProbeTable.claimSlot_key, if_neg claimed]
    rw [untouched] at stored ⊢
    rcases chained position stored with ⟨found, bounded, reached, before⟩
    exact ⟨found, bounded, reached, fun earlier less => (before earlier less).extend grown⟩

omit [DecidableEq Key] in
theorem Chained.of_keys_eq {before after : ProbeTable Key} (chained : layout.Chained before)
    (same : ∀ position, (after.slot position).key = (before.slot position).key) :
    layout.Chained after := by
  intro position stored
  rw [same] at stored ⊢
  rcases chained position stored with ⟨index, bounded, reached, earlier⟩
  refine ⟨index, bounded, reached, fun other less => ?_⟩
  unfold Occupied
  rw [same]
  exact earlier other less

omit [DecidableEq Key] in
theorem Chained.unique {table : ProbeTable Key} (chained : layout.Chained table)
    {first second : Nat} (stored : (table.slot first).key ≠ layout.empty)
    (same : (table.slot first).key = (table.slot second).key) : first = second := by
  rcases chained first stored with ⟨i, _, firstAt, firstBefore⟩
  rcases chained second (same ▸ stored) with ⟨j, _, secondAt, secondBefore⟩
  rw [← same] at secondAt secondBefore
  rcases Nat.lt_trichotomy i j with less | equal | greater
  · exact absurd (by rw [← firstAt]) (secondBefore i less).2
  · rw [firstAt, secondAt, equal]
  · exact absurd (by rw [← secondAt, same]) (firstBefore j greater).2

omit [DecidableEq Key] in
/-- A record that has passed every probed slot was never stored. -/
theorem Chained.absent {table : ProbeTable Key} {key : Key} (chained : layout.Chained table)
    (nonempty : key ≠ layout.empty)
    (full : ∀ index, index < layout.limit → layout.Occupied table key index) (position : Nat) :
    (table.slot position).key ≠ key := by
  rintro rfl
  rcases chained position nonempty with ⟨index, bounded, reached, _⟩
  exact (full index bounded).2 (by rw [← reached])

omit [DecidableEq Key] in
theorem Chained.absent_of_free {table : ProbeTable Key} {key : Key} {index : Nat}
    (chained : layout.Chained table) (ok : layout.PcOk table (.claim key index))
    (free : (table.slot (layout.position key index)).key = layout.empty) (position : Nat) :
    (table.slot position).key ≠ key := by
  intro here
  rcases chained position (by rw [here]; exact ok.1) with ⟨found, _, reached, passed⟩
  rw [here] at reached passed
  rcases Nat.lt_trichotomy found index with less | equal | greater
  · exact (ok.2.2 found less).2 (by rw [← reached, here])
  · subst equal
    exact ok.1 (by rw [← here, reached, free])
  · exact (passed index greater).1 free

end Chains

section Reader

variable {layout}

theorem lookupFrom_eq_count {table : ProbeTable Key} {key : Key} {found : Nat}
    (nonempty : key ≠ layout.empty)
    (stored : (table.slot (layout.position key found)).key = key)
    (remaining index : Nat) (low : index ≤ found) (high : found < index + remaining)
    (passed : ∀ earlier, index ≤ earlier → earlier < found →
      layout.Occupied table key earlier) :
    layout.lookupFrom table key remaining index =
      (table.slot (layout.position key found)).count := by
  induction remaining generalizing index with
  | zero => omega
  | succ remaining inductionHypothesis =>
      simp only [lookupFrom]
      by_cases here : index = found
      · subst here
        rw [if_neg (by rw [stored]; exact nonempty), if_pos stored]
      · have occupied := passed index (le_refl index) (by omega)
        rw [if_neg occupied.1, if_neg occupied.2]
        exact inductionHypothesis (index + 1) (by omega) (by omega)
          fun earlier above below => passed earlier (by omega) below

theorem Chained.lookup_eq_count {table : ProbeTable Key} (chained : layout.Chained table)
    (position : Nat) (stored : (table.slot position).key ≠ layout.empty) :
    layout.lookup table (table.slot position).key = (table.slot position).count := by
  rcases chained position stored with ⟨index, bounded, reached, before⟩
  unfold lookup
  rw [if_neg stored, lookupFrom_eq_count stored (by rw [← reached]) layout.limit 0
    (Nat.zero_le index) (by omega) (fun earlier _ less => before earlier less), ← reached]

theorem lookupFrom_eq_zero {table : ProbeTable Key} {key : Key}
    (absent : ∀ position, (table.slot position).key ≠ key) (remaining index : Nat) :
    layout.lookupFrom table key remaining index = 0 := by
  induction remaining generalizing index with
  | zero => rfl
  | succ remaining inductionHypothesis =>
      simp only [lookupFrom]
      split
      · rfl
      · rw [if_neg (absent _)]
        exact inductionHypothesis (index + 1)

theorem lookup_eq_zero {table : ProbeTable Key} {key : Key}
    (absent : ∀ position, (table.slot position).key ≠ key) :
    layout.lookup table key = 0 := by
  unfold lookup
  split
  · rfl
  · exact lookupFrom_eq_zero absent layout.limit 0

@[simp]
theorem lookup_empty (table : ProbeTable Key) : layout.lookup table layout.empty = 0 :=
  if_pos rfl

/-- Two chained tables that store a key in the same places with the same
counts are read alike. -/
theorem lookup_congr {before after : ProbeTable Key} {key : Key}
    (chainedBefore : layout.Chained before) (chainedAfter : layout.Chained after)
    (keys : ∀ position, (after.slot position).key = key ↔ (before.slot position).key = key)
    (counts : ∀ position, (before.slot position).key = key →
      (after.slot position).count = (before.slot position).count) :
    layout.lookup after key = layout.lookup before key := by
  by_cases isEmpty : key = layout.empty
  · subst isEmpty
    simp
  by_cases stored : ∃ position, (before.slot position).key = key
  · rcases stored with ⟨position, here⟩
    have there := (keys position).mpr here
    have readBefore := chainedBefore.lookup_eq_count position (by rwa [here])
    have readAfter := chainedAfter.lookup_eq_count position (by rwa [there])
    rw [here] at readBefore
    rw [there] at readAfter
    rw [readBefore, readAfter, counts position here]
  · have absent : ∀ position, (before.slot position).key ≠ key :=
      fun position here => stored ⟨position, here⟩
    rw [lookup_eq_zero absent,
      lookup_eq_zero fun position here => absent position ((keys position).mp here)]

end Reader

section Record

variable {layout}

/-- A chained table whose empty slots have never been counted in. -/
structure Consistent (layout : ProbeLayout Key) (table : ProbeTable Key) : Prop where
  chained : layout.Chained table
  unused : ∀ position, (table.slot position).key = layout.empty →
    (table.slot position).count = 0

omit [DecidableEq Key] in
theorem consistent_zeroed : layout.Consistent layout.zeroed where
  chained := fun _ stored => absurd rfl stored
  unused := fun _ _ => rfl

theorem recordFrom_eq_some {table result : ProbeTable Key} {key : Key}
    {remaining start : Nat}
    (recorded : layout.recordFrom table key remaining start = some result) :
    ∃ index, start ≤ index ∧ index < start + remaining ∧
      (∀ earlier, start ≤ earlier → earlier < index → layout.Occupied table key earlier) ∧
      (((table.slot (layout.position key index)).key = layout.empty ∧
          result = ((table.claimSlot (layout.position key index) key).addCount
            (layout.position key index)).addTotal) ∨
        ((table.slot (layout.position key index)).key = key ∧
          result = (table.addCount (layout.position key index)).addTotal)) := by
  induction remaining generalizing start with
  | zero => cases recorded
  | succ remaining inductionHypothesis =>
      simp only [recordFrom] at recorded
      split at recorded
      next free =>
        exact ⟨start, le_refl start, by omega, fun earlier _ _ => by omega,
          .inl ⟨free, (Option.some.inj recorded).symm⟩⟩
      next taken =>
        split at recorded
        next same =>
          exact ⟨start, le_refl start, by omega, fun earlier _ _ => by omega,
            .inr ⟨same, (Option.some.inj recorded).symm⟩⟩
        next other =>
          rcases inductionHypothesis recorded with ⟨index, low, high, passed, written⟩
          refine ⟨index, by omega, by omega, ?_, written⟩
          intro earlier above below
          by_cases first : earlier = start
          · subst first
            exact ⟨taken, other⟩
          · exact passed earlier (by omega) below

/-- Counting in the slot that stores a key adds one to what is read for that
key and to nothing else. -/
theorem lookup_addCount {table : ProbeTable Key} {position : Nat}
    (chained : layout.Chained table)
    (stored : (table.slot position).key ≠ layout.empty) (other : Key) :
    layout.lookup (table.addCount position).addTotal other =
      layout.lookup table other + if other = (table.slot position).key then 1 else 0 := by
  have chainedAfter : layout.Chained (table.addCount position).addTotal :=
    chained.of_keys_eq fun _ => by simp
  by_cases same : other = (table.slot position).key
  · subst same
    have after := chainedAfter.lookup_eq_count position (by simpa using stored)
    simp only [ProbeTable.addTotal_slot, ProbeTable.addCount_key,
      ProbeTable.addCount_count, if_true] at after
    rw [after, chained.lookup_eq_count position stored, if_pos rfl]
  · rw [if_neg same, UInt32.add_zero]
    apply lookup_congr chained chainedAfter
    · intro place
      simp
    · intro place here
      rw [ProbeTable.addTotal_slot, ProbeTable.addCount_count, if_neg]
      rintro rfl
      exact same here.symm

/-- Claiming an empty slot changes nothing a reader sees. -/
theorem lookup_claimSlot {table : ProbeTable Key} {key : Key} {index : Nat}
    (consistent : layout.Consistent table) (ok : layout.PcOk table (.claim key index))
    (free : (table.slot (layout.position key index)).key = layout.empty)
    (absent : ∀ position, (table.slot position).key ≠ key) (other : Key) :
    layout.lookup (table.claimSlot (layout.position key index) key) other =
      layout.lookup table other := by
  have chainedAfter := consistent.chained.claimSlot ok free
  by_cases same : other = key
  · subst same
    have written : ((table.claimSlot (layout.position other index) other).slot
        (layout.position other index)).key = other := by
      rw [ProbeTable.claimSlot_key, if_pos rfl]
    have after := chainedAfter.lookup_eq_count
      (layout.position other index) (by rw [written]; exact ok.1)
    rw [written, ProbeTable.claimSlot_count, consistent.unused _ free] at after
    rw [after, lookup_eq_zero absent]
  · by_cases isEmpty : other = layout.empty
    · subst isEmpty
      simp
    apply lookup_congr consistent.chained chainedAfter
    · intro place
      rw [ProbeTable.claimSlot_key]
      split
      next here =>
        subst here
        exact ⟨fun equal => absurd equal.symm same,
          fun equal => absurd (equal.symm.trans free) isEmpty⟩
      next => exact Iff.rfl
    · intro place _
      exact ProbeTable.claimSlot_count _ _ _ _

/-- An uninterrupted record that is not dropped adds one to the count of its
key, keeps every other count and keeps the table consistent. -/
theorem Consistent.record {table result : ProbeTable Key} {key : Key}
    (consistent : layout.Consistent table) (nonempty : key ≠ layout.empty)
    (recorded : layout.record table key = some result) :
    layout.Consistent result ∧
      ∀ other, layout.lookup result other =
        layout.lookup table other + if other = key then 1 else 0 := by
  rcases recordFrom_eq_some recorded with ⟨index, _, bounded, passed, written⟩
  have before : ∀ earlier, earlier < index → layout.Occupied table key earlier :=
    fun earlier less => passed earlier (Nat.zero_le earlier) less
  have ok : layout.PcOk table (.claim key index) := ⟨nonempty, by omega, before⟩
  rcases written with ⟨free, rfl⟩ | ⟨stored, rfl⟩
  · have absent := consistent.chained.absent_of_free ok free
    have chainedClaim := consistent.chained.claimSlot ok free
    have written : ((table.claimSlot (layout.position key index) key).slot
        (layout.position key index)).key = key := by
      rw [ProbeTable.claimSlot_key, if_pos rfl]
    refine ⟨⟨chainedClaim.of_keys_eq fun _ => by simp, ?_⟩, ?_⟩
    · intro position isEmpty
      simp only [ProbeTable.addTotal_slot, ProbeTable.addCount_key] at isEmpty
      have elsewhere : position ≠ layout.position key index := by
        rintro rfl
        exact nonempty (written.symm.trans isEmpty)
      rw [ProbeTable.claimSlot_key, if_neg elsewhere] at isEmpty
      rw [ProbeTable.addTotal_slot, ProbeTable.addCount_count, if_neg elsewhere,
        ProbeTable.claimSlot_count]
      exact consistent.unused position isEmpty
    · intro other
      rw [lookup_addCount chainedClaim (by rw [written]; exact nonempty) other, written,
        lookup_claimSlot consistent ok free absent other]
  · refine ⟨⟨consistent.chained.of_keys_eq fun _ => by simp, ?_⟩, ?_⟩
    · intro position isEmpty
      simp only [ProbeTable.addTotal_slot, ProbeTable.addCount_key] at isEmpty
      have elsewhere : position ≠ layout.position key index := by
        rintro rfl
        exact nonempty (stored.symm.trans isEmpty)
      rw [ProbeTable.addTotal_slot, ProbeTable.addCount_count, if_neg elsewhere]
      exact consistent.unused position isEmpty
    · intro other
      rw [lookup_addCount consistent.chained (by rw [stored]; exact nonempty) other, stored]

end Record

end ProbeLayout

end Library
