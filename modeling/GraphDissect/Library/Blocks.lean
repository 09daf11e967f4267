import Mathlib

/-!
# Blocks of a list

A block of a list is overwritten in place, inserted or removed; what stands
outside of it keeps its order.
-/

namespace Library

variable {α : Type*}

def overwriteAt (items : List α) (offset : Nat) (block : List α) : List α :=
  items.take offset ++ block ++ items.drop (offset + block.length)

def insertAt (items : List α) (offset : Nat) (block : List α) : List α :=
  items.take offset ++ block ++ items.drop offset

def removeAt (items : List α) (offset count : Nat) : List α :=
  items.take offset ++ items.drop (offset + count)

section Rules

@[simp]
theorem insertAt_nil (items : List α) (offset : Nat) : insertAt items offset [] = items := by
  rw [insertAt, List.append_nil, List.take_append_drop]

@[simp]
theorem overwriteAt_nil (items : List α) (offset : Nat) : overwriteAt items offset [] = items := by
  rw [overwriteAt, List.append_nil, List.length_nil, Nat.add_zero, List.take_append_drop]

@[simp]
theorem length_overwriteAt {items block : List α} {offset : Nat}
    (inside : offset + block.length ≤ items.length) :
    (overwriteAt items offset block).length = items.length := by
  simp only [overwriteAt, List.length_append, List.length_take, List.length_drop]
  omega

@[simp]
theorem length_insertAt (items block : List α) (offset : Nat) :
    (insertAt items offset block).length = items.length + block.length := by
  simp only [insertAt, List.length_append, List.length_take, List.length_drop]
  omega

@[simp]
theorem length_removeAt {items : List α} {offset count : Nat}
    (inside : offset + count ≤ items.length) :
    (removeAt items offset count).length = items.length - count := by
  simp only [removeAt, List.length_append, List.length_take, List.length_drop]
  omega

theorem overwriteAt_insertAt {items gap block : List α} {offset : Nat}
    (inside : offset ≤ items.length) (sameLength : block.length = gap.length) :
    overwriteAt (insertAt items offset gap) offset block = insertAt items offset block := by
  have front : (items.take offset).length = offset := List.length_take_of_le inside
  have taken : (items.take offset ++ gap).length = offset + gap.length := by
    rw [List.length_append, front]
  have dropped : (insertAt items offset gap).drop (offset + gap.length) = items.drop offset := by
    rw [insertAt, List.drop_left' taken]
  have kept : (insertAt items offset gap).take offset = items.take offset := by
    rw [insertAt, List.append_assoc, List.take_left' front]
  rw [overwriteAt, sameLength, dropped, kept, insertAt]

theorem overwriteAt_singleton {items : List α} {offset : Nat} (inside : offset < items.length)
    (item : α) : overwriteAt items offset [item] = items.set offset item := by
  rw [List.set_eq_take_append_cons_drop, if_pos inside, overwriteAt, List.append_assoc]
  rfl

theorem take_drop_overwriteAt {items block : List α} {offset : Nat}
    (inside : offset ≤ items.length) :
    ((overwriteAt items offset block).drop offset).take block.length = block := by
  have front : (items.take offset).length = offset := List.length_take_of_le inside
  rw [overwriteAt, List.append_assoc, List.drop_left' front, List.take_left]

theorem overwriteAt_overwriteAt {items old new : List α} {offset : Nat}
    (inside : offset ≤ items.length) (sameLength : new.length = old.length) :
    overwriteAt (overwriteAt items offset old) offset new = overwriteAt items offset new := by
  have front : (items.take offset).length = offset := List.length_take_of_le inside
  have taken : (items.take offset ++ old).length = offset + old.length := by
    rw [List.length_append, front]
  have dropped : (overwriteAt items offset old).drop (offset + old.length) =
      items.drop (offset + old.length) := by
    rw [overwriteAt, List.drop_left' taken]
  have kept : (overwriteAt items offset old).take offset = items.take offset := by
    rw [overwriteAt, List.append_assoc, List.take_left' front]
  rw [overwriteAt, sameLength, dropped, kept, overwriteAt, sameLength]

theorem forall_mem_overwriteAt {holds : α → Prop} {items block : List α} {offset : Nat}
    (old : ∀ item ∈ items, holds item) (new : ∀ item ∈ block, holds item) :
    ∀ item ∈ overwriteAt items offset block, holds item := by
  rw [overwriteAt, List.forall_mem_append, List.forall_mem_append]
  exact ⟨⟨fun item member => old item (List.mem_of_mem_take member), new⟩,
    fun item member => old item (List.mem_of_mem_drop member)⟩

theorem forall_mem_insertAt {holds : α → Prop} {items block : List α} {offset : Nat}
    (old : ∀ item ∈ items, holds item) (new : ∀ item ∈ block, holds item) :
    ∀ item ∈ insertAt items offset block, holds item := by
  rw [insertAt, List.forall_mem_append, List.forall_mem_append]
  exact ⟨⟨fun item member => old item (List.mem_of_mem_take member), new⟩,
    fun item member => old item (List.mem_of_mem_drop member)⟩

theorem forall_mem_removeAt {holds : α → Prop} {items : List α} {offset count : Nat}
    (old : ∀ item ∈ items, holds item) : ∀ item ∈ removeAt items offset count, holds item := by
  rw [removeAt, List.forall_mem_append]
  exact ⟨fun item member => old item (List.mem_of_mem_take member),
    fun item member => old item (List.mem_of_mem_drop member)⟩

end Rules

end Library
