import GraphDissect.Library.CString

/-!
# The tail of a log

`capture_tail` of `run_campaigns.py` drains the pipe of a child and keeps the
last bytes of its output.  The chunks are the results of successive reads; an
empty one is the end of the output.
-/

namespace GraphDissect.Experiments

open Library

/-- The deque `chunks` and the number of bytes in it. -/
structure TailBuffer where
  chunks : List Bytes
  size : Nat
  sized : size = chunks.flatten.length

namespace TailBuffer

def empty : TailBuffer where
  chunks := []
  size := 0
  sized := rfl

/-- The chunk goes to the end of the deque. -/
def append (buffer : TailBuffer) (chunk : Bytes) : TailBuffer where
  chunks := buffer.chunks ++ [chunk]
  size := buffer.size + chunk.length
  sized := by simp [buffer.sized]

/-- The body of the trimming loop; `none` when the loop ends. -/
def trimOnce (limit : Nat) (buffer : TailBuffer) : Option TailBuffer :=
  match shape : buffer.chunks with
  | [] => none
  | first :: rest =>
      if limit < buffer.size then
        let excess := buffer.size - limit
        if whole : first.length ≤ excess then
          some {
            chunks := rest
            size := buffer.size - first.length
            sized := by simp [buffer.sized, shape] }
        else
          some {
            chunks := first.drop excess :: rest
            size := buffer.size - excess
            sized := by
              have sized := buffer.sized
              simp only [shape, List.flatten_cons, List.length_append, List.length_drop] at sized ⊢
              omega }
      else none

/-- The trimming loop; `none` when the fuel runs out. -/
def trim (limit : Nat) : Nat → TailBuffer → Option TailBuffer
  | 0, buffer => if (buffer.trimOnce limit).isNone then some buffer else none
  | fuel + 1, buffer =>
      match buffer.trimOnce limit with
      | none => some buffer
      | some next => trim limit fuel next

/-- The body of the reading loop; every round of the trimming loop but the last
takes a chunk from the deque. -/
def processChunk (limit : Nat) (buffer : TailBuffer) (chunk : Bytes) : Option TailBuffer :=
  (buffer.append chunk).trim limit (buffer.append chunk).chunks.length

def readPipe (limit : Nat) : List Bytes → TailBuffer → Option TailBuffer
  | [], buffer => some buffer
  | chunk :: reads, buffer =>
      if chunk = [] then some buffer
      else (buffer.processChunk limit chunk).bind (readPipe limit reads)

end TailBuffer

def tailHeader : Bytes := utf8 "--- retaining final output tail for this segment ---\n".toList

/-- The file that `capture_tail` writes. -/
def captureTail (limit : Nat) (reads : List Bytes) : Option Bytes :=
  (TailBuffer.empty.readPipe limit reads).map fun buffer => tailHeader ++ buffer.chunks.flatten

def childOutput (reads : List Bytes) : Bytes := (reads.takeWhile (· ≠ [])).flatten

/-- The bytes are the last ones of the output, as many as the limit admits. -/
structure IsTail (limit : Nat) (output bytes : Bytes) : Prop where
  suffix : bytes <:+ output
  length : bytes.length = min limit output.length

section Trimming

variable {limit : Nat} {buffer : TailBuffer}

namespace TailBuffer

def bytes (buffer : TailBuffer) : Bytes := buffer.chunks.flatten

theorem length_bytes (buffer : TailBuffer) : buffer.bytes.length = buffer.size := buffer.sized.symm

theorem bytes_append (buffer : TailBuffer) (chunk : Bytes) :
    (buffer.append chunk).bytes = buffer.bytes ++ chunk := by
  simp [bytes, append]

theorem trimOnce_eq_none_iff : buffer.trimOnce limit = none ↔ buffer.size ≤ limit := by
  unfold trimOnce
  split
  · next shape => simp [buffer.sized, shape]
  · split
    · next exceeds =>
      dsimp only
      split <;> simp [exceeds]
    · next keeps => simp [Nat.le_of_not_lt keeps]

/-- A round drops bytes from the front: a whole chunk, or as many as have to go. -/
theorem trimOnce_eq_some {next : TailBuffer} (trimmed : buffer.trimOnce limit = some next) :
    next.bytes <:+ buffer.bytes ∧ limit ≤ next.size ∧
      (next.size = limit ∨ next.chunks.length < buffer.chunks.length) := by
  unfold trimOnce at trimmed
  split at trimmed
  · cases trimmed
  · next first rest shape =>
    have split : buffer.bytes = first ++ rest.flatten := by simp [bytes, shape]
    split at trimmed
    · next exceeds =>
      dsimp only at trimmed
      split at trimmed
      · next whole =>
        cases trimmed
        refine ⟨⟨first, split.symm⟩, by dsimp only; omega, .inr (by simp [shape])⟩
      · cases trimmed
        have dropped : first.drop (buffer.size - limit) ++ rest.flatten <:+ buffer.bytes := by
          refine ⟨first.take (buffer.size - limit), ?_⟩
          rw [split, ← List.append_assoc, List.take_append_drop]
        exact ⟨dropped, by dsimp only; omega, .inl (by dsimp only; omega)⟩
    · cases trimmed

theorem isTail_self (keeps : buffer.size ≤ limit) : IsTail limit buffer.bytes buffer.bytes := by
  refine ⟨List.suffix_refl _, ?_⟩
  rw [length_bytes]
  omega

theorem trim_spec {fuel : Nat} (enough : buffer.chunks.length ≤ fuel ∨ buffer.size ≤ limit) :
    ∃ trimmed, buffer.trim limit fuel = some trimmed ∧ IsTail limit buffer.bytes trimmed.bytes := by
  induction fuel generalizing buffer with
  | zero =>
      have keeps : buffer.size ≤ limit := by
        rcases enough with none | keeps
        · simp [buffer.sized, List.eq_nil_of_length_eq_zero (Nat.le_zero.mp none)]
        · exact keeps
      exact ⟨buffer, by simp [trim, trimOnce_eq_none_iff.mpr keeps], isTail_self keeps⟩
  | succ fuel inductionHypothesis =>
      rw [trim]
      cases round : buffer.trimOnce limit with
      | none => exact ⟨buffer, rfl, isTail_self (trimOnce_eq_none_iff.mp round)⟩
      | some next =>
          rcases trimOnce_eq_some round with ⟨dropped, atLeast, progress⟩
          have exceeds : ¬ buffer.size ≤ limit := by simp [← trimOnce_eq_none_iff, round]
          have enoughLeft : next.chunks.length ≤ fuel ∨ next.size ≤ limit := by
            rcases progress with cut | fewer
            · exact .inr cut.le
            · exact .inl (by rcases enough with enough | keeps <;> omega)
          rcases inductionHypothesis enoughLeft with ⟨trimmed, returned, tail⟩
          refine ⟨trimmed, returned, tail.suffix.trans dropped, ?_⟩
          rw [tail.length, length_bytes, length_bytes]
          omega

theorem exists_trim (limit : Nat) (buffer : TailBuffer) :
    ∃ fuel trimmed, buffer.trim limit fuel = some trimmed := by
  rcases @trim_spec limit buffer _ (.inl le_rfl) with ⟨trimmed, returned, -⟩
  exact ⟨_, trimmed, returned⟩

theorem processChunk_spec {output : Bytes} (tail : IsTail limit output buffer.bytes) (chunk : Bytes) :
    ∃ next, buffer.processChunk limit chunk = some next ∧
      IsTail limit (output ++ chunk) next.bytes := by
  rcases @trim_spec limit (buffer.append chunk) _ (.inl le_rfl) with ⟨next, returned, inner⟩
  refine ⟨next, returned, ?_, ?_⟩
  · refine inner.suffix.trans ?_
    rw [bytes_append]
    rcases tail.suffix with ⟨dropped, rfl⟩
    exact ⟨dropped, by rw [List.append_assoc]⟩
  · have outer := tail.length
    rw [inner.length, bytes_append, List.length_append, List.length_append]
    omega

theorem readPipe_spec {output : Bytes} (tail : IsTail limit output buffer.bytes) (reads : List Bytes) :
    ∃ final, buffer.readPipe limit reads = some final ∧
      IsTail limit (output ++ childOutput reads) final.bytes := by
  induction reads generalizing buffer output with
  | nil => exact ⟨buffer, rfl, by simpa [childOutput] using tail⟩
  | cons chunk reads inductionHypothesis =>
      rw [readPipe]
      split
      · next ended => exact ⟨buffer, rfl, by simpa [childOutput, ended] using tail⟩
      · next written =>
        rcases processChunk_spec tail chunk with ⟨next, returned, nextTail⟩
        rcases inductionHypothesis nextTail with ⟨final, drained, finalTail⟩
        refine ⟨final, by rw [returned, Option.bind_some, drained], ?_⟩
        simpa [childOutput, written] using finalTail

end TailBuffer

end Trimming

/-- However the output is cut into chunks, the trimming loop ends, the deque
never holds more than the limit after a chunk, and the file has the tail. -/
theorem captureTail_isTail (limit : Nat) (reads : List Bytes) :
    (∀ buffer : TailBuffer, ∃ fuel trimmed, buffer.trim limit fuel = some trimmed) ∧
      (∀ processed, processed <+: reads → ∃ buffer,
        TailBuffer.empty.readPipe limit processed = some buffer ∧ buffer.size ≤ limit) ∧
      ∃ tail, captureTail limit reads = some (tailHeader ++ tail) ∧
        IsTail limit (childOutput reads) tail := by
  have drained (reads : List Bytes) : ∃ buffer, TailBuffer.empty.readPipe limit reads = some buffer ∧
      IsTail limit (childOutput reads) buffer.bytes :=
    TailBuffer.readPipe_spec ⟨List.suffix_refl _, by simp [TailBuffer.bytes, TailBuffer.empty]⟩ reads
  refine ⟨TailBuffer.exists_trim limit, fun processed _ => ?_, ?_⟩
  · rcases drained processed with ⟨buffer, returned, tail⟩
    refine ⟨buffer, returned, ?_⟩
    rw [← buffer.length_bytes, tail.length]
    exact Nat.min_le_left _ _
  · rcases drained reads with ⟨buffer, returned, tail⟩
    exact ⟨buffer.bytes, by rw [captureTail, returned]; rfl, tail⟩

end GraphDissect.Experiments
