import GraphDissect.Library.ProbeTable

/-!
# Recorders sharing one probe table

A `ProbeRun` is a table together with the local state of every recorder that
is working on it and three history counters per key: records begun, records
counted and records dropped.  `Sound` is the invariant of the whole; it is
kept when a recorder begins a record and when it takes any atomic step.
-/

namespace Library

universe u v

/-- A table in use.  A recorder without a `pc` is not inside a record. -/
structure ProbeRun (Tid : Type v) (Key : Type u) where
  table : ProbeTable Key
  pc : Tid → Option (ProbePc Key)
  started : Key → Nat
  counted : Key → Nat
  dropped : Key → Nat

def bump {Key : Type u} [DecidableEq Key] (history : Key → Nat) (key : Key) : Key → Nat :=
  Function.update history key (history key + 1)

theorem bump_apply {Key : Type u} [DecidableEq Key] (history : Key → Nat) (key other : Key) :
    bump history key other = history other + if other = key then 1 else 0 := by
  by_cases same : other = key
  · subst same
    simp [bump]
  · simp [bump, same]

def ProbePc.key {Key : Type u} : ProbePc Key → Key
  | .load key _ | .claim key _ | .count key _ | .total key => key

/-- A record that has not been counted yet. -/
def ProbePc.uncounted {Key : Type u} : ProbePc Key → Bool
  | .load _ _ | .claim _ _ | .count _ _ => true
  | .total _ => false

/-- One for a recorder that holds an uncounted record of the key. -/
def pending {Key : Type u} [DecidableEq Key] (key : Key) : Option (ProbePc Key) → Nat
  | none => 0
  | some pc => if pc.uncounted = true ∧ key = pc.key then 1 else 0

@[simp]
theorem pending_none {Key : Type u} [DecidableEq Key] (key : Key) : pending key none = 0 := rfl

theorem pending_uncounted {Key : Type u} [DecidableEq Key] {pc : ProbePc Key}
    (key own : Key) (uncounted : pc.uncounted = true) (owned : pc.key = own) :
    pending key (some pc) = if key = own then 1 else 0 := by
  subst owned
  simp [pending, uncounted]

theorem pending_total {Key : Type u} [DecidableEq Key] (key other : Key) :
    pending key (some (.total other)) = 0 := by
  simp [pending, ProbePc.uncounted]

theorem sum_update_add {Tid : Type v} {Pc : Type u} [DecidableEq Tid] [Fintype Tid]
    (share : Pc → Nat) (pc : Tid → Pc) (tid : Tid) (next : Pc) :
    ∑ other, share (Function.update pc tid next other) + share (pc tid) =
      ∑ other, share (pc other) + share next := by
  have rest : ∑ other ∈ {tid}ᶜ, share (Function.update pc tid next other) =
      ∑ other ∈ {tid}ᶜ, share (pc other) := by
    apply Finset.sum_congr rfl
    intro other away
    rw [Function.update_of_ne (by simpa using away)]
  rw [Fintype.sum_eq_add_sum_compl tid,
    Fintype.sum_eq_add_sum_compl tid (fun other => share (pc other)), rest,
    Function.update_self]
  omega

theorem sum_update_balance {Tid : Type v} {Pc : Type u} [DecidableEq Tid] [Fintype Tid]
    (share : Pc → Nat) {pc : Tid → Pc} {tid : Tid} {next : Pc} {before after : Nat}
    (balance : after + share next = before + share (pc tid)) :
    after + ∑ other, share (Function.update pc tid next other) =
      before + ∑ other, share (pc other) := by
  have moved := sum_update_add share pc tid next
  omega

namespace ProbeRun

variable {Tid : Type v} {Key : Type u} [DecidableEq Tid] [DecidableEq Key]
variable (layout : ProbeLayout Key)

/-- A fresh table with no recorder at work. -/
def zeroed : ProbeRun Tid Key :=
  ⟨layout.zeroed, fun _ => none, fun _ => 0, fun _ => 0, fun _ => 0⟩

def begin (run : ProbeRun Tid Key) (tid : Tid) (key : Key) : ProbeRun Tid Key :=
  { run with
    pc := Function.update run.pc tid (some (.load key 0))
    started := bump run.started key }

/-- Move a recorder to where its last step led it. -/
def settle (run : ProbeRun Tid Key) (tid : Tid) (key : Key) : ProbeResult Key → ProbeRun Tid Key
  | .running next => { run with pc := Function.update run.pc tid (some next) }
  | .returned => { run with pc := Function.update run.pc tid none }
  | .dropped =>
      { run with
        pc := Function.update run.pc tid none
        dropped := bump run.dropped key }

/-- A recorder takes one atomic step of its record. -/
def advance (run : ProbeRun Tid Key) (tid : Tid) (pc : ProbePc Key) : ProbeRun Tid Key :=
  let counted := match pc with
    | .count key _ => bump run.counted key
    | _ => run.counted
  let result := layout.advance run.table pc
  { run with table := result.1, counted }.settle tid pc.key result.2

/-- The invariant of a table in use. -/
structure Sound [Fintype Tid] (run : ProbeRun Tid Key) : Prop where
  chained : layout.Chained run.table
  pcs : ∀ tid pc, run.pc tid = some pc → layout.PcOk run.table pc
  counts : ∀ position, (run.table.slot position).count =
    if (run.table.slot position).key = layout.empty then 0
    else UInt32.ofNat (run.counted (run.table.slot position).key)
  uncounted : ∀ key, key ≠ layout.empty →
    (∀ position, (run.table.slot position).key ≠ key) → run.counted key = 0
  full : ∀ key, run.dropped key ≠ 0 → key ≠ layout.empty ∧
    ∀ index, index < layout.limit → layout.Occupied run.table key index
  balanced : ∀ key, run.started key =
    run.counted key + run.dropped key + ∑ tid, pending key (run.pc tid)

variable {layout}

@[simp]
theorem settle_table (run : ProbeRun Tid Key) (tid : Tid) (key : Key)
    (result : ProbeResult Key) : (run.settle tid key result).table = run.table := by
  cases result <;> rfl

@[simp]
theorem settle_started (run : ProbeRun Tid Key) (tid : Tid) (key : Key)
    (result : ProbeResult Key) : (run.settle tid key result).started = run.started := by
  cases result <;> rfl

@[simp]
theorem begin_started (run : ProbeRun Tid Key) (tid : Tid) (key : Key) :
    (run.begin tid key).started = bump run.started key := rfl

@[simp]
theorem advance_started (run : ProbeRun Tid Key) (tid : Tid) (pc : ProbePc Key) :
    (run.advance layout tid pc).started = run.started := by
  unfold advance
  exact settle_started _ _ _ _

theorem begin_pc_of_ne {run : ProbeRun Tid Key} {tid other : Tid} (key : Key)
    (away : other ≠ tid) : (run.begin tid key).pc other = run.pc other :=
  Function.update_of_ne away _ _

@[simp]
theorem begin_pc_self (run : ProbeRun Tid Key) (tid : Tid) (key : Key) :
    (run.begin tid key).pc tid = some (.load key 0) :=
  Function.update_self _ _ _

theorem settle_pc_of_ne {run : ProbeRun Tid Key} {tid other : Tid} (key : Key)
    (result : ProbeResult Key) (away : other ≠ tid) :
    (run.settle tid key result).pc other = run.pc other := by
  cases result <;> exact Function.update_of_ne away _ _

theorem advance_pc_of_ne {run : ProbeRun Tid Key} {tid other : Tid} (pc : ProbePc Key)
    (away : other ≠ tid) : (run.advance layout tid pc).pc other = run.pc other := by
  unfold advance
  exact settle_pc_of_ne _ _ away

section Soundness

variable [Fintype Tid]

omit [DecidableEq Tid] in
theorem sound_zeroed : (zeroed layout : ProbeRun Tid Key).Sound layout where
  chained := ProbeLayout.consistent_zeroed.chained
  pcs := by
    intro tid pc held
    cases held
  counts := by
    intro position
    simp [zeroed, ProbeLayout.zeroed]
  uncounted := fun _ _ _ => rfl
  full := fun _ lost => absurd rfl lost
  balanced := by
    intro key
    simp [zeroed]

omit [DecidableEq Tid] in
theorem Sound.consistent {run : ProbeRun Tid Key} (sound : run.Sound layout) :
    layout.Consistent run.table where
  chained := sound.chained
  unused := by
    intro position isEmpty
    rw [sound.counts, if_pos isEmpty]

theorem Sound.pcs_update {run : ProbeRun Tid Key} (sound : run.Sound layout)
    {table : ProbeTable Key} (grown : layout.Extends run.table table) (tid : Tid)
    {next : Option (ProbePc Key)}
    (known : ∀ pc, next = some pc → layout.PcOk table pc) :
    ∀ other pc, Function.update run.pc tid next other = some pc → layout.PcOk table pc := by
  intro other pc held
  by_cases same : other = tid
  · subst same
    exact known pc (by simpa using held)
  · rw [Function.update_of_ne same] at held
    exact (sound.pcs other pc held).extend grown

theorem Sound.begin {run : ProbeRun Tid Key} (sound : run.Sound layout) {tid : Tid} {key : Key}
    (idle : run.pc tid = none) (nonempty : key ≠ layout.empty) :
    (run.begin tid key).Sound layout where
  chained := sound.chained
  pcs := by
    apply sound.pcs_update (ProbeLayout.Extends.refl run.table)
    intro pc entered
    cases entered
    exact ⟨nonempty, layout.limit_pos, fun earlier less => absurd less (Nat.not_lt_zero earlier)⟩
  counts := sound.counts
  uncounted := sound.uncounted
  full := sound.full
  balanced := by
    intro other
    have moved := sum_update_add (pending other) run.pc tid (some (.load key 0))
    have before := sound.balanced other
    rw [idle, pending_none, pending_uncounted other key rfl rfl] at moved
    simp only [ProbeRun.begin, bump_apply]
    omega

theorem Sound.move {run : ProbeRun Tid Key} (sound : run.Sound layout) {tid : Tid}
    {pc next : ProbePc Key} (held : run.pc tid = some pc)
    (same : ∀ key, pending key (some next) = pending key (some pc))
    (ok : layout.PcOk run.table next) :
    (run.settle tid pc.key (.running next)).Sound layout where
  chained := sound.chained
  pcs := by
    apply sound.pcs_update (ProbeLayout.Extends.refl run.table)
    intro moved entered
    cases entered
    exact ok
  counts := sound.counts
  uncounted := sound.uncounted
  full := sound.full
  balanced := by
    intro other
    have moved := sum_update_add (pending other) run.pc tid (some next)
    have before := sound.balanced other
    rw [held, same] at moved
    simp only [settle]
    omega

theorem Sound.drop {run : ProbeRun Tid Key} (sound : run.Sound layout) {tid : Tid}
    {pc : ProbePc Key} (held : run.pc tid = some pc) (uncounted : pc.uncounted = true)
    (nonempty : pc.key ≠ layout.empty)
    (full : ∀ index, index < layout.limit → layout.Occupied run.table pc.key index) :
    (run.settle tid pc.key .dropped).Sound layout where
  chained := sound.chained
  pcs := by
    apply sound.pcs_update (ProbeLayout.Extends.refl run.table)
    intro moved entered
    cases entered
  counts := sound.counts
  uncounted := sound.uncounted
  full := by
    intro other lost
    by_cases same : other = pc.key
    · subst same
      exact ⟨nonempty, full⟩
    · apply sound.full other
      simpa [settle, bump_apply, same] using lost
  balanced := by
    intro other
    have moved := sum_update_add (pending other) run.pc tid none
    have before := sound.balanced other
    rw [held, pending_none, pending_uncounted other _ uncounted rfl] at moved
    simp only [settle, bump_apply]
    omega

theorem Sound.settle_compare {run : ProbeRun Tid Key} (sound : run.Sound layout) {tid : Tid}
    {pc : ProbePc Key} {index : Nat} (held : run.pc tid = some pc)
    (uncounted : pc.uncounted = true) (ok : layout.PcOk run.table (.claim pc.key index))
    (taken : (run.table.slot (layout.position pc.key index)).key ≠ layout.empty) :
    (run.settle tid pc.key (layout.compare pc.key index
      (run.table.slot (layout.position pc.key index)).key)).Sound layout := by
  unfold ProbeLayout.compare
  split
  next found =>
    exact sound.move held
      (fun key => by rw [pending_uncounted key _ rfl rfl, pending_uncounted key _ uncounted rfl]; rfl)
      ⟨ok.1, ok.2.1, found⟩
  next foreign =>
    have passed : ∀ earlier, earlier < index + 1 →
        layout.Occupied run.table pc.key earlier := by
      intro earlier less
      by_cases last : earlier = index
      · subst last
        exact ⟨taken, foreign⟩
      · exact ok.2.2 earlier (by omega)
    split
    next more =>
      exact sound.move held
        (fun key => by rw [pending_uncounted key _ rfl rfl, pending_uncounted key _ uncounted rfl]; rfl)
        ⟨ok.1, more, passed⟩
    next exhausted =>
      exact sound.drop held uncounted ok.1
        fun earlier less => passed earlier (by have := ok.2.1; omega)

/-- Claiming an empty slot is sound: its count is still that of a key never
counted. -/
theorem Sound.claim {run : ProbeRun Tid Key} (sound : run.Sound layout) {tid : Tid}
    {key : Key} {index : Nat} (held : run.pc tid = some (.claim key index))
    (free : (run.table.slot (layout.position key index)).key = layout.empty) :
    ({ run with
        table := run.table.claimSlot (layout.position key index) key }.settle tid key
      (.running (.count key index))).Sound layout := by
  have ok := sound.pcs tid _ held
  have grown : layout.Extends run.table _ := ProbeLayout.extends_claimSlot key free
  have absent := sound.chained.absent_of_free ok free
  refine ⟨sound.chained.claimSlot ok free, ?_, ?_, ?_, ?_, ?_⟩
  · apply sound.pcs_update grown
    intro pc entered
    cases entered
    exact ⟨ok.1, ok.2.1, by rw [ProbeTable.claimSlot_key, if_pos rfl]⟩
  · intro position
    have before := sound.counts position
    simp only [settle, ProbeTable.claimSlot_count, ProbeTable.claimSlot_key]
    split
    next here =>
      subst here
      rw [before, if_pos free, if_neg ok.1, sound.uncounted key ok.1 absent]
      rfl
    next => exact before
  · intro other nonempty nowhere
    apply sound.uncounted other nonempty
    intro position here
    exact nowhere position ((grown position (by rw [here]; exact nonempty)).trans here)
  · intro other lost
    rcases sound.full other lost with ⟨nonempty, occupied⟩
    exact ⟨nonempty, fun earlier less => (occupied earlier less).extend grown⟩
  · intro other
    have moved := sum_update_add (pending other) run.pc tid (some (.count key index))
    have before := sound.balanced other
    rw [held, pending_uncounted other key rfl rfl,
      pending_uncounted other key rfl rfl] at moved
    simp only [settle]
    omega

theorem Sound.count {run : ProbeRun Tid Key} (sound : run.Sound layout) {tid : Tid}
    {key : Key} {index : Nat} (held : run.pc tid = some (.count key index)) :
    ({ run with
        table := run.table.addCount (layout.position key index)
        counted := bump run.counted key }.settle tid key
      (.running (.total key))).Sound layout := by
  have ok := sound.pcs tid _ held
  have grown : layout.Extends run.table _ :=
    ProbeLayout.extends_addCount run.table (layout.position key index)
  refine ⟨sound.chained.of_keys_eq fun _ => ProbeTable.addCount_key _ _ _, ?_, ?_, ?_, ?_, ?_⟩
  · apply sound.pcs_update grown
    intro pc entered
    cases entered
    trivial
  · intro position
    have before := sound.counts position
    simp only [settle, ProbeTable.addCount_count, ProbeTable.addCount_key]
    by_cases here : position = layout.position key index
    · subst here
      rw [ok.2.2, if_neg ok.1] at before
      rw [if_pos rfl, before, ok.2.2, if_neg ok.1, bump_apply, if_pos rfl, UInt32.ofNat_add]
      rfl
    · rw [if_neg here, before]
      split
      · rfl
      next stored =>
        rw [bump_apply, if_neg, Nat.add_zero]
        intro same
        exact here (sound.chained.unique stored (same.trans ok.2.2.symm))
  · intro other nonempty nowhere
    have elsewhere : other ≠ key := by
      rintro rfl
      exact nowhere (layout.position other index)
        ((ProbeTable.addCount_key _ _ _).trans ok.2.2)
    simp only [settle, bump_apply, if_neg elsewhere, Nat.add_zero]
    apply sound.uncounted other nonempty
    intro position here
    exact nowhere position ((ProbeTable.addCount_key _ _ _).trans here)
  · intro other lost
    rcases sound.full other lost with ⟨nonempty, occupied⟩
    exact ⟨nonempty, fun earlier less => (occupied earlier less).extend grown⟩
  · intro other
    have moved := sum_update_add (pending other) run.pc tid (some (.total key))
    have before := sound.balanced other
    rw [held, pending_total, pending_uncounted other key rfl rfl] at moved
    simp only [settle, bump_apply]
    omega

theorem Sound.total {run : ProbeRun Tid Key} (sound : run.Sound layout) {tid : Tid}
    {key : Key} (held : run.pc tid = some (.total key)) :
    ({ run with table := run.table.addTotal }.settle tid key .returned).Sound layout where
  chained := sound.chained
  pcs := by
    apply sound.pcs_update (ProbeLayout.Extends.refl run.table)
    intro pc entered
    cases entered
  counts := sound.counts
  uncounted := sound.uncounted
  full := sound.full
  balanced := by
    intro other
    have moved := sum_update_add (pending other) run.pc tid none
    have before := sound.balanced other
    rw [held, pending_total] at moved
    simp only [settle]
    simp only [pending_none] at moved
    omega

theorem Sound.advance {run : ProbeRun Tid Key} (sound : run.Sound layout) {tid : Tid}
    {pc : ProbePc Key} (held : run.pc tid = some pc) :
    (run.advance layout tid pc).Sound layout := by
  have ok := sound.pcs tid pc held
  cases pc with
  | load key index =>
      simp only [ProbeRun.advance, ProbeLayout.advance]
      split
      next =>
        exact sound.move held
          (fun other => by
            rw [pending_uncounted other key rfl rfl,
              pending_uncounted other key rfl rfl]) ok
      next taken => exact sound.settle_compare held rfl ok taken
  | claim key index =>
      simp only [ProbeRun.advance, ProbeLayout.advance]
      split
      next free => exact sound.claim held free
      next taken => exact sound.settle_compare held rfl ok taken
  | count key index => exact sound.count held
  | total key => exact sound.total held

omit [Fintype Tid] in
theorem extends_advance (run : ProbeRun Tid Key) (tid : Tid) (pc : ProbePc Key) :
    layout.Extends run.table (run.advance layout tid pc).table := by
  simp only [ProbeRun.advance, settle_table]
  cases pc with
  | load key index =>
      simp only [ProbeLayout.advance]
      split <;> exact ProbeLayout.Extends.refl run.table
  | claim key index =>
      simp only [ProbeLayout.advance]
      split
      next free => exact ProbeLayout.extends_claimSlot key free
      next => exact ProbeLayout.Extends.refl run.table
  | count key index => exact ProbeLayout.extends_addCount run.table _
  | total key => exact ProbeLayout.Extends.refl run.table

omit [Fintype Tid] in
/-- A step writes no key but that of its own record. -/
theorem advance_slot_key (run : ProbeRun Tid Key) (tid : Tid) (pc : ProbePc Key)
    (position : Nat) :
    ((run.advance layout tid pc).table.slot position).key = (run.table.slot position).key ∨
      ((run.advance layout tid pc).table.slot position).key = pc.key := by
  simp only [ProbeRun.advance, settle_table]
  cases pc with
  | load key index =>
      simp only [ProbeLayout.advance]
      split <;> exact .inl rfl
  | claim key index =>
      simp only [ProbeLayout.advance]
      split
      next =>
        simp only [ProbeTable.claimSlot_key]
        split
        · exact .inr rfl
        · exact .inl rfl
      next => exact .inl rfl
  | count key index => exact .inl (ProbeTable.addCount_key _ _ _)
  | total key => exact .inl rfl

omit [Fintype Tid] in
theorem advance_pc_key {run : ProbeRun Tid Key} {tid : Tid} {pc next : ProbePc Key}
    (running : (run.advance layout tid pc).pc tid = some next) : next.key = pc.key := by
  have compared : ∀ {key index current next},
      layout.compare key index current = .running next → next.key = key := by
    intro key index current next outcome
    unfold ProbeLayout.compare at outcome
    split at outcome
    · cases outcome
      rfl
    · split at outcome
      · cases outcome
        rfl
      · cases outcome
  have moved : (layout.advance run.table pc).2 = .running next := by
    unfold ProbeRun.advance at running
    cases outcome : (layout.advance run.table pc).2 <;>
      simp [outcome, settle] at running
    rw [running]
  cases pc with
  | load key index =>
      simp only [ProbeLayout.advance] at moved
      split at moved
      · cases moved
        rfl
      · exact compared moved
  | claim key index =>
      simp only [ProbeLayout.advance] at moved
      split at moved
      · cases moved
        rfl
      · exact compared moved
  | count key index =>
      cases moved
      rfl
  | total key => cases moved

omit [DecidableEq Tid] in
theorem Sound.stored_or_dropped {run : ProbeRun Tid Key} (sound : run.Sound layout)
    (quiet : ∀ tid, run.pc tid = none) {key : Key} (nonempty : key ≠ layout.empty)
    (begun : run.started key ≠ 0) :
    (∃ position, (run.table.slot position).key = key) ∨ run.dropped key ≠ 0 := by
  by_cases stored : ∃ position, (run.table.slot position).key = key
  · exact .inl stored
  · right
    have balance := sound.balanced key
    have nowhere := sound.uncounted key nonempty fun position here => stored ⟨position, here⟩
    simp only [quiet, pending_none, Finset.sum_const_zero, nowhere] at balance
    omega

omit [DecidableEq Tid] in
/-- With no record in progress a reader sees exactly the records that were
begun and not dropped. -/
theorem Sound.lookup_eq {run : ProbeRun Tid Key} (sound : run.Sound layout)
    (quiet : ∀ tid, run.pc tid = none) {key : Key} (nonempty : key ≠ layout.empty) :
    layout.lookup run.table key = UInt32.ofNat (run.started key - run.dropped key) := by
  have balance := sound.balanced key
  simp only [quiet, pending_none, Finset.sum_const_zero, Nat.add_zero] at balance
  rw [balance, Nat.add_sub_cancel]
  by_cases stored : ∃ position, (run.table.slot position).key = key
  · rcases stored with ⟨position, rfl⟩
    rw [sound.chained.lookup_eq_count position nonempty, sound.counts, if_neg nonempty]
  · have absent : ∀ position, (run.table.slot position).key ≠ key :=
      fun position here => stored ⟨position, here⟩
    rw [ProbeLayout.lookup_eq_zero absent, sound.uncounted key nonempty absent]
    rfl

omit [DecidableEq Tid] in
theorem Sound.counted_eq_zero {run : ProbeRun Tid Key} (sound : run.Sound layout) {key : Key}
    (lost : run.dropped key ≠ 0) : run.counted key = 0 := by
  rcases sound.full key lost with ⟨nonempty, occupied⟩
  exact sound.uncounted key nonempty (sound.chained.absent nonempty occupied)

end Soundness

end ProbeRun

end Library
